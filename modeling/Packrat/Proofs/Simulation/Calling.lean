import Packrat.Proofs.Evaluation.Steps
import Packrat.Proofs.Simulation.Performing

/-
**Calls, and functions of their own.**

A call of a function without arguments is answered from the memo table, or puts a frame on top of
the one that calls; behind its last instruction the verdict is in the registers of the caller.

Main definitions:

* `Packrat.Setting.ComesBack` — frames that come back with a verdict.

Main results:

* `Packrat.Setting.follow_remembered` — a call, answered from the memo table or by a frame;
* `Packrat.Setting.follow_callee` — **a call of a function whose code performs a reading**.
-/

set_option autoImplicit false

namespace Packrat

/-! ### Returns -/

namespace Site

variable {site : Site} {pc : Nat} {σ : Moment}

/-- The memo table behind the return from a function. -/
def memoBehind (site : Site) (σ : Moment) : Std.HashMap MemoKey Outcome :=
  match site.key? with
  | some key => σ.memo.insert key σ.outcome
  | none => σ.memo

theorem step_ret (hi : site.function.code[pc]? = some .ret) {caller : Frame} {rest : List Frame}
    (hr : site.rest = caller :: rest) :
    Machine.step site.setting site.memoize (site.machine pc σ) =
      .ok (.running ⟨caller.resume σ.outcome :: rest, site.memoBehind σ, σ.identity⟩) := by
  refine (ok_bind (fetch_frame hi) _).trans ?_
  change Except.ok (Machine.returnFrom (site.frame (pc + 1) σ) site.rest σ.memo σ.identity) = _
  rw [hr]
  rfl

/-- The last frame leaves its outcome. -/
theorem step_done (hi : site.function.code[pc]? = some .ret) (hr : site.rest = []) :
    Machine.step site.setting site.memoize (site.machine pc σ) =
      .ok (.done σ.outcome σ.identity) := by
  refine (ok_bind (fetch_frame hi) _).trans ?_
  change Except.ok (Machine.returnFrom (site.frame (pc + 1) σ) site.rest σ.memo σ.identity) = _
  rw [hr]
  rfl

end Site

/-! ### Entering a function -/

/-- The names of parameters are in their slots. -/
theorem Draft.knows_begin {name : String} {params : List String} {budget : Nat} {env : Env}
    {args slots : List Value} (ha : params.mapM (fun n => env.lookup n) = some args) :
    (Draft.begin name params budget).Knows env (args ++ slots).toArray := by
  have values : ∀ (params : List String) (args : List Value),
      params.mapM (fun n => env.lookup n) = some args → ∀ (k : Nat) (n : String) (v : Nat),
        (n, v) ∈ params.zipIdx k → k ≤ v ∧ v < k + params.length ∧
          ∃ x, env.lookup n = some x ∧ args[v - k]? = some x := by
    intro params
    induction params with
    | nil => simp
    | cons n params ih =>
        intro args ha k name v hv
        obtain ⟨x, hx, xs, hxs, rfl⟩ := mapM_cons_eq_some.1 ha
        rw [List.zipIdx_cons, List.mem_cons] at hv
        rcases hv with h | h
        · obtain ⟨rfl, rfl⟩ := Prod.mk.inj h
          exact ⟨Nat.le_refl _, by simp, x, hx, by simp⟩
        · obtain ⟨low, high, y, hy, hs⟩ := ih xs hxs (k + 1) name v h
          refine ⟨by omega, by simp; omega, y, hy, ?_⟩
          rw [show v - k = (v - (k + 1)) + 1 by omega]
          simpa using hs
  intro n v hv
  have mem : (n, v) ∈ params.zipIdx := by
    obtain ⟨before, behind, hs, -⟩ := List.lookup_eq_some_iff.1 hv
    rw [← List.mem_reverse]
    change (n, v) ∈ (Draft.begin name params budget).scope
    rw [hs]
    simp
  obtain ⟨-, high, x, hx, hs⟩ := values params args ha 0 n v mem
  refine ⟨by simpa [Draft.begin] using high, x, hx, ?_⟩
  obtain ⟨hlt, -⟩ := List.getElem?_eq_some_iff.1 hs
  simp only [List.getElem?_toArray]
  rw [List.getElem?_append_left (by simpa using hlt)]
  simpa using hs

/-- The same where names are bound to arguments one after the other. -/
theorem Draft.knows_begin_bindAll {name : String} {params : List String} {budget : Nat}
    {args slots : List Value} (ha : args.length = params.length) :
    (Draft.begin name params budget).Knows (Host.bindAll params args []) (args ++ slots).toArray := by
  have bound : ∀ (params : List String) (args : List Value) (k : Nat)
      (before : List (String × Nat)) (env : Env) (slots : List Value),
      args.length = params.length →
      (∀ n v, before.lookup n = some v → v < k ∧ ∃ x, env.lookup n = some x ∧ slots[v]? = some x) →
      (∀ i, args[i]? = slots[k + i]? ∨ args.length ≤ i) →
      ∀ n v, ((params.zipIdx k).reverse ++ before).lookup n = some v →
        v < k + params.length ∧
          ∃ x, (Host.bindAll params args env).lookup n = some x ∧ slots[v]? = some x := by
    intro params
    induction params with
    | nil =>
        intro args k before env slots ha known _ n v hv
        obtain rfl : args = [] := by simpa using ha
        simpa [Host.bindAll] using known n v (by simpa using hv)
    | cons p params ih =>
        intro args k before env slots ha known here n v hv
        cases args with
        | nil => simp at ha
        | cons x xs =>
            have hx : slots[k]? = some x := by
              rcases here 0 with h | h
              · simpa using h.symm
              · simp at h
            have step := ih xs (k + 1) ((p, k) :: before) ((p, x) :: env) slots (by simpa using ha)
              ?_ ?_ n v (by simpa using hv)
            · simp only [Host.bindAll]
              exact ⟨by simp; omega, step.2⟩
            · intro n v hv
              simp only [List.lookup_cons] at hv ⊢
              split at hv
              · obtain rfl : k = v := by simpa using hv
                exact ⟨Nat.lt_succ_self k, x, rfl, hx⟩
              · obtain ⟨low, y, hy, hs⟩ := known n v hv
                exact ⟨Nat.lt_succ_of_lt low, y, hy, hs⟩
            · intro i
              rcases here (i + 1) with h | h
              · left
                rw [show k + 1 + i = k + (i + 1) by omega]
                simpa using h
              · right
                simpa using h
  intro n v hv
  have := bound params args 0 [] [] (args ++ slots) ha (by simp) (fun i => ?_) n v
    (by simpa [Draft.begin] using hv)
  · simpa [Draft.begin] using this
  · rcases Nat.lt_or_ge i args.length with h | h
    · left
      simp [List.getElem?_append_left h]
    · right
      exact h

/-! ### Calls of functions -/

/-- The parts of a call that the callee sees. -/
theorem Machine.enter_ok {setting : Setting} {number pos : Nat} {f : Function} {args : List Value}
    {key? : Option MemoKey} (hf : setting.program.functions[number]? = some f)
    (ha : args.length = f.params.length) :
    Machine.enter setting number args pos key? = .ok (Frame.begin number f args pos key?) := by
  refine (ok_bind (poolEntry_ok hf) _).trans ?_
  simp [ha, pure, Except.pure]

theorem Machine.enter_arity {setting : Setting} {number pos : Nat} {f : Function}
    {args : List Value} {key? : Option MemoKey}
    (hf : setting.program.functions[number]? = some f) (ha : args.length ≠ f.params.length) :
    Machine.enter setting number args pos key? =
      .error (.host (.arity f.name f.params.length args.length)) := by
  refine (ok_bind (poolEntry_ok hf) _).trans ?_
  simp only [beq_iff_eq, if_neg ha]
  rfl

/-- A frame that comes back to the one that called it with a verdict: the next step returns, and
keeps the outcome if it is to be kept. -/
def Setting.ComesBack (setting : Setting) (memoize : Bool) (frame : Frame) (rest : List Frame)
    (key? : Option MemoKey) (v : Verdict Value) (s : Store) (m : Machine) : Prop :=
  ∃ o memo, setting.Leaves o v ∧ setting.Recalls memo s.memo ∧
    Machine.step setting memoize m = .ok (.running ⟨frame.resume o :: rest,
      (match key? with | some key => memo.insert key o | none => memo), s.identity⟩)

/-- A call is answered from the memo table, or by what its frame does; it makes no difference to the
frame whether its outcome is kept. -/
theorem Setting.follow_remembered {setting : Setting} {memoize : Bool} {n number : Nat}
    {r : Reading (Verdict Value)} {args : List Value} {frame : Frame} {rest : List Frame}
    {memo : Std.HashMap MemoKey Outcome} {s : Store} {m : Machine}
    (seeded : setting.program.failures[leftRecursion]? = some ⟨"", "", .leftRecursion⟩)
    (inside : frame.pos ≤ setting.bytes.size) (recalls : setting.Recalls memo s.memo)
    (body : ∀ key? memo s m, setting.Recalls memo s.memo →
      Machine.step setting memoize m =
        (Machine.enter setting number args frame.pos key?).map
          (fun callee => .running ⟨callee :: frame :: rest, memo, s.identity⟩) →
      Machine.Follows setting memoize n m (r s) (setting.ComesBack memoize frame rest key?))
    (call : Machine.step setting memoize m =
      (Machine.callFrom setting memoize frame rest memo s.identity number args).map .running) :
    Machine.Follows setting memoize n m
      (Reading.remembered (args.isEmpty && memoize) number frame.pos r s)
      (setting.Returns frame rest) := by
  have entering (x : Except Failure Frame) (f : Frame → Machine) :
      (x >>= fun callee => pure (f callee)).map Progress.running =
        x.map fun callee => .running (f callee) := by
    cases x <;> rfl
  rw [Machine.callFrom] at call
  cases remember : args.isEmpty && memoize with
  | false =>
      rw [remember, if_neg (by simp), entering] at call
      refine (body none memo s m recalls call).onward ?_
      rintro v s' m' ⟨o, memo', leaves, recalls', hs⟩
      exact ⟨1, _, .step hs (.refl _), o, memo', rfl, leaves, recalls'⟩
  | true =>
      have known := recalls (number, frame.pos)
      rw [Reading.remembered_true]
      cases hk : s.memo (number, frame.pos) with
      | some v =>
          rw [hk] at known
          obtain ⟨o, ho, leaves⟩ := known
          rw [remember, if_pos rfl] at call
          simp only [ho] at call
          exact ⟨1, _, .step call (.refl _), o, memo, rfl, leaves, recalls⟩
      | none =>
          rw [hk] at known
          rw [remember, if_pos rfl] at call
          simp only [known, entering] at call
          have seeds : setting.Leaves ⟨false, .failure leftRecursion, frame.pos⟩
              (Reading.selfReference frame.pos) := ⟨leftRecursion, rfl, seeded, inside⟩
          refine .bind ((body (some (number, frame.pos)) _
            (s.remember (number, frame.pos) (Reading.selfReference frame.pos)) m
            (recalls.insert _ seeds) call).mono ?_)
          rintro v s' m' ⟨o, memo', leaves, recalls', hs⟩
          exact ⟨1, _, .step hs (.refl _), o, _, rfl, leaves, recalls'.insert _ leaves⟩

/-- A function whose code performs a reading follows it wherever it is called; the call takes a step
of its own. -/
theorem Setting.follow_callee {setting : Setting} {memoize : Bool} {n number : Nat} {f : Function}
    {name : String} {params : List String} {budget : Nat} {draft : Draft} {env : Env}
    {r : Nat → Reading (Verdict Value)} {args : List Value} {frame : Frame} {rest : List Frame}
    {memo : Std.HashMap MemoKey Outcome} {s : Store} {m : Machine}
    (hf : setting.program.functions[number]? = some f) (done : draft.function = .ok f)
    (grown : (Draft.begin name params budget).Grows draft)
    (performs : ∀ site : Site, site.setting = setting → site.memoize = memoize →
      site.function = f → site.Performs n (Draft.begin name params budget) draft env r)
    (ha : args.length = params.length)
    (knows : ∀ slots, (Draft.begin name params budget).Knows env (args ++ slots).toArray)
    (seeded : setting.program.failures[leftRecursion]? = some ⟨"", "", .leftRecursion⟩)
    (inside : frame.pos ≤ setting.bytes.size) (recalls : setting.Recalls memo s.memo)
    (call : Machine.step setting memoize m =
      (Machine.callFrom setting memoize frame rest memo s.identity number args).map .running) :
    Machine.Follows setting memoize (n + 1) m
      (Reading.remembered (args.isEmpty && memoize) number frame.pos (r frame.pos) s)
      (setting.Returns frame rest) := by
  obtain ⟨-, -, hparams, hslots, hret⟩ := Draft.function_eq_ok done
  have arity : args.length = f.params.length := by rw [hparams, grown.params, ha]; rfl
  have room : args.length ≤ f.slots := by
    rw [hslots, ha]
    exact grown.slots
  refine follow_remembered seeded inside recalls (fun key? memo s m recalls enters => ?_) call
  rw [Machine.enter_ok hf arity] at enters
  let site : Site := ⟨setting, memoize, number, f, hf, key?, frame :: rest⟩
  let slots := (args ++ List.replicate (f.slots - args.length) Value.none).toArray
  let σ : Moment := ⟨false, .none, frame.pos, slots, memo, s.identity⟩
  have ready : site.Ready (Draft.begin name params budget) env σ s :=
    ⟨by simp [σ, slots, site]; omega, inside, knows _, rfl, recalls⟩
  refine .step' enters ((performs site rfl rfl rfl σ s ready).mono ?_)
  rintro v s' _ ⟨σ', rfl, leaves, behind⟩
  refine ⟨σ'.outcome, σ'.memo, leaves, behind.agrees.memo, ?_⟩
  rw [← behind.agrees.identity]
  exact site.step_ret hret rfl

/-! ### Calls from a function -/

namespace Site

variable {site : Site} {n f v : Nat} {vs : List Nat} {xs : List Value} {d : Draft} {σ : Moment}
variable {s : Store} {i : Instr}

/-- The step that makes a call. -/
theorem step_call (h : site.function.Hosts (d.add i))
    (work : i.execute site.setting (site.frame (d.code.size + 1) σ) σ.identity =
      .ok (.call (site.frame (d.code.size + 1) σ) f xs, σ.identity)) :
    Machine.step site.setting site.memoize (site.machine d.code.size σ) =
      (Machine.callFrom site.setting site.memoize (site.frame (d.code.size + 1) σ) site.rest σ.memo
        σ.identity f xs).map .running := by
  refine (ok_bind (fetch_frame h.instr) _).trans ((ok_bind work _).trans ?_)
  simp only
  cases Machine.callFrom site.setting site.memoize (site.frame (d.code.size + 1) σ) site.rest
    σ.memo σ.identity f xs <;> rfl

theorem execute_call {pc : Nat} (hs : List.Forall₂ (fun v x => σ.slots[v]? = some x) vs xs) :
    (Instr.call (.function f) vs).execute site.setting (site.frame pc σ) σ.identity =
      .ok (.call (site.frame pc σ) f xs, σ.identity) :=
  Exec.lift_bind (frame_slotList hs) _ _

/-- The frame that called has come behind the call. -/
theorem done_of_returns {v : Verdict Value} {s' : Store} {m : Machine} {bound : Nat}
    (returns : site.setting.Returns (site.frame (d.code.size + 1) σ) site.rest v s' m) :
    site.Done bound (d.add i).code.size σ.slots v s' m := by
  obtain ⟨o, memo, rfl, leaves, recalls⟩ := returns
  rw [size_add]
  refine ⟨⟨o.status, o.result, o.pos, σ.slots, memo, s'.identity⟩, rfl, leaves, ?_, .refl _ _, rfl,
    recalls⟩
  cases v with
  | success x pos =>
      obtain ⟨rfl, inside⟩ := leaves
      exact inside
  | failure entry pos =>
      obtain ⟨mark, rfl, -, inside⟩ := leaves
      exact inside

/-- A call of a function by its number. -/
theorem follow_call [Regex.Engine] {scene : Scene} {rules : List (String × Nat)} {rule : String}
    {env : Env} (bound : Nat) (h : site.function.Hosts (d.add (.call (.function f) vs)))
    (fits : scene.Fits site.setting site.memoize rules rule) (ready : site.Ready d env σ s)
    (hs : List.Forall₂ (fun v x => σ.slots[v]? = some x) vs xs) :
    site.Follows scene.rounds d.code.size σ (scene.call f xs σ.pos s)
      (site.Done bound (d.add (.call (.function f) vs)).code.size σ.slots) := by
  refine (fits.calls f xs (site.frame (d.code.size + 1) σ) site.rest σ.memo s _ ready.inside
    ready.agrees.memo ?_).mono fun v s' m => done_of_returns
  rw [← ready.agrees.identity]
  exact step_call h (execute_call hs)

end Site

end Packrat
