import Mathlib.Data.Finset.Card
import Mathlib.Data.Finset.Prod
import Packrat.Proofs.Conduct.Parses

/-
**Parses terminate.**

Where no rule takes parameters there are no parsers to be called, and a call without arguments is
answered from the memo table unless the function has not been called at that place before.  So a parse
fills the table, which has finitely many places, and between two of these a frame comes to its end by
itself.  The functions that are called with arguments are the ones that were written on the side; they
come to their ends along with the frames that call them.

The proof is by induction on the number of places that the memo table still has, and within that on
the way of the frame on top.  What is below this frame has been shown to halt before, whatever it is
given.

Main definitions:

* `Packrat.Machine.unfilled` — the places that a memo table still has;
* `Packrat.Machine.Halts` — machines that come to an end.

Main results:

* `Packrat.Machine.halts` — **a frame that behaves comes to an end, if those below it do**;
* `Packrat.Parser.parse_terminates` — **without parameters every parse terminates**.
-/

set_option autoImplicit false

namespace Packrat

variable {setting : Setting} {start n n' : Nat} {frame caller callee : Frame} {rest : List Frame}
variable {memo : Std.HashMap MemoKey Outcome} {key : MemoKey} {o : Outcome}

namespace Machine

/-! ### The places of a memo table -/

/-- The functions and the places where they have not been called without arguments. -/
def unfilled (setting : Setting) (memo : Std.HashMap MemoKey Outcome) : Finset MemoKey :=
  (Finset.range setting.program.functions.size ×ˢ Finset.range (setting.bytes.size + 1)).filter
    (· ∉ memo)

theorem unfilled_insert_subset (setting : Setting) (memo : Std.HashMap MemoKey Outcome)
    (key : MemoKey) (o : Outcome) :
    unfilled setting (memo.insert key o) ⊆ unfilled setting memo := by
  intro k mem
  simp only [unfilled, Finset.mem_filter, Std.HashMap.mem_insert, not_or] at mem ⊢
  exact ⟨mem.1, mem.2.2⟩

theorem card_unfilled_insert_lt (known : key.1 < setting.program.functions.size)
    (inside : key.2 ≤ setting.bytes.size) (fresh : memo[key]? = none) :
    (unfilled setting (memo.insert key o)).card < (unfilled setting memo).card := by
  refine Finset.card_lt_card ⟨unfilled_insert_subset setting memo key o, fun same => ?_⟩
  have here : key ∈ unfilled setting memo := by
    simp only [unfilled, Finset.mem_filter, Finset.mem_product, Finset.mem_range]
    exact ⟨⟨known, Nat.lt_succ_of_le inside⟩, by simpa using fresh⟩
  simpa [unfilled] using same here

theorem card_unfilled_remember_le (setting : Setting) (frame : Frame)
    (memo : Std.HashMap MemoKey Outcome) :
    (unfilled setting (remember frame memo)).card ≤ (unfilled setting memo).card := by
  rw [remember]
  split
  · exact Finset.card_le_card (unfilled_insert_subset setting memo _ _)
  · exact Nat.le_refl _

/-! ### Machines that come to an end -/

/-- Machines that come to an end: the last frame returns, or host code stops them. -/
inductive Halts (setting : Setting) : Machine → Prop
  | stops {m : Machine} {e : Host.Error} (stops : step setting true m = .error (.host e)) :
      Halts setting m
  | done {m : Machine} {o : Outcome} {n : Nat} (done : step setting true m = .ok (.done o n)) :
      Halts setting m
  | step {m m' : Machine} (moves : step setting true m = .ok (.running m'))
      (next : Halts setting m') : Halts setting m

/-- A machine that comes to an end does so however many more steps it is given. -/
theorem Halts.run {m : Machine} (h : Halts setting m) :
    ∃ fuel out, (∀ extra, Machine.run setting true (fuel + extra) m = out) ∧
      ∀ e, out = .error e → ∃ error, e = .host error := by
  induction h with
  | @stops m e stops =>
      refine ⟨1, .error (.host e), fun extra => ?_, fun _ same => ⟨e, (Except.error.inj same).symm⟩⟩
      rw [Nat.add_comm, Machine.run, stops]
  | @done m o n done =>
      refine ⟨1, .ok (o, n), fun extra => ?_, fun _ same => by cases same⟩
      rw [Nat.add_comm, Machine.run, done]
  | step moves _ ih =>
      obtain ⟨fuel, out, ends, hosts⟩ := ih
      refine ⟨fuel + 1, out, fun extra => ?_, hosts⟩
      rw [Nat.add_right_comm, Machine.run, moves]
      exact ends extra

/-- Frames below one that was called at a place: they come to an end whatever they are given that is
owed, as long as the memo table has no more than so many places left. -/
def Resumes (setting : Setting) (left start : Nat) : List Frame → Prop
  | [] => True
  | caller :: rest => ∀ o memo n, setting.Contract .noParsers start o → Owes setting .closed memo →
      (unfilled setting memo).card ≤ left → Halts setting ⟨caller.resume o :: rest, memo, n⟩

theorem Resumes.anti {left left' : Nat} (h : Resumes setting left start rest) (le : left' ≤ left) :
    Resumes setting left' start rest := by
  cases rest with
  | nil => trivial
  | cons => exact fun o memo n contract owes room => h o memo n contract owes (Nat.le_trans room le)

/-! ### Calls and returns -/

section

variable {i : Instr} {f : Nat} {args : List Value} {left : Nat}

/-- A return leads to an end. -/
theorem halts_ret (fetched : fetch setting frame = .ok .ret)
    (contract : setting.Contract .noParsers start frame.outcome)
    (keyed : ∀ key, frame.memoKey? = some key → key.2 = start) (owes : Owes setting .closed memo)
    (room : (unfilled setting memo).card ≤ left) (below : Resumes setting left start rest) :
    Halts setting ⟨frame :: rest, memo, n⟩ := by
  have returns : Machine.step setting true ⟨frame :: rest, memo, n⟩ =
      .ok (returnFrom frame.next rest memo n) := step_work fetched rfl
  cases rest with
  | nil => exact .done returns
  | cons caller rest =>
      refine .step returns (below _ _ _ contract ?_
        (Nat.le_trans (card_unfilled_remember_le setting frame memo) room))
      change Owes setting .closed (remember frame memo)
      rw [remember]
      split
      · next key kept =>
          refine owes.insert ?_
          rw [keyed key kept]
          exact contract
      · exact owes

/-- A call that is refused is an end. -/
theorem halts_refused {e : Failure} (fetched : fetch setting frame = .ok i)
    (work : i.execute setting frame.next n = .ok (.call frame.next f args, n'))
    (known : f < setting.program.functions.size)
    (refused : callFrom setting true frame.next rest memo n' f args = .error e) :
    Halts setting ⟨frame :: rest, memo, n⟩ := by
  obtain ⟨error, rfl⟩ := callFrom_stops known refused
  refine .stops (e := error) ?_
  rw [step_work fetched work]
  simp only [refused]
  rfl

/-- A call that leads to an end. -/
theorem halts_call {m : Machine} (fetched : fetch setting frame = .ok i)
    (work : i.execute setting frame.next n = .ok (.call frame.next f args, n'))
    (called : callFrom setting true frame.next rest memo n' f args = .ok m)
    (next : Halts setting m) : Halts setting ⟨frame :: rest, memo, n⟩ := by
  refine .step ?_ next
  rw [step_work fetched work]
  simp only [called]
  rfl

end

/-- What a call leads to: it is answered, or a frame is put on top of the one that has called. -/
theorem callFrom_eq_ok {f : Nat} {args : List Value} {m : Machine}
    (h : callFrom setting true frame rest memo n f args = .ok m) :
    (args = [] ∧ ∃ o, memo[(f, frame.pos)]? = some o ∧ m = ⟨frame.resume o :: rest, memo, n⟩) ∨
      (args = [] ∧ memo[(f, frame.pos)]? = none ∧ ∃ callee,
        enter setting f [] frame.pos (some (f, frame.pos)) = .ok callee ∧
        m = ⟨callee :: frame :: rest, memo.insert (f, frame.pos) (seed (f, frame.pos)), n⟩) ∨
      (args ≠ [] ∧ ∃ callee, enter setting f args frame.pos none = .ok callee ∧
        m = ⟨callee :: frame :: rest, memo, n⟩) := by
  rw [callFrom] at h
  split at h
  · next remembers =>
      obtain rfl : args = [] := by simpa using remembers
      dsimp only at h
      split at h
      · next o found => exact .inl ⟨rfl, o, found, (Except.ok.inj h).symm⟩
      · next fresh =>
          obtain ⟨callee, entered, h⟩ := Except.bind_eq_ok.1 h
          exact .inr (.inl ⟨rfl, fresh, callee, entered, (Except.pure_eq_ok.1 h).symm⟩)
  · next off =>
      obtain ⟨callee, entered, h⟩ := Except.bind_eq_ok.1 h
      exact .inr (.inr ⟨by simpa using off, callee, entered, (Except.pure_eq_ok.1 h).symm⟩)

/-- A frame that behaves comes to an end, if those below it do. The functions that may be called
without arguments serve; their calls take places of the memo table. -/
theorem halts (serves : ∀ k < setting.program.functions.size, setting.Serves .closed k)
    (listed : leftRecursion < setting.program.failures.size) (left : Nat) :
    ∀ start frame, setting.Behaves .closed start frame →
      (∀ key, frame.memoKey? = some key → key.2 = start) →
      ∀ rest memo n, Owes setting .closed memo → (unfilled setting memo).card ≤ left →
        Resumes setting left start rest → Halts setting ⟨frame :: rest, memo, n⟩ := by
  induction left using Nat.strongRecOn with
  | ind left fewer =>
    intro start frame h
    induction h with
    | @intro start frame i fetched forward inside stops goes known enters resumes leaves
        goesIH entersIH resumesIH =>
      intro keyed rest memo n owes room below
      cases work : i.execute setting frame.next n with
      | error e =>
          obtain ⟨error, rfl⟩ := stops n e work
          exact .stops (step_failed fetched work)
      | ok p =>
          obtain ⟨action, n'⟩ := p
          cases Instr.execute_cases work with
          | next moved =>
              refine .step (step_work fetched work) (goesIH n _ n' work ?_ rest memo n' owes room below)
              rw [moved.memoKey?]
              exact keyed
          | ret last =>
              subst last
              exact halts_ret fetched (leaves rfl) keyed owes room below
          | call f args =>
              -- Whatever the call comes back with, the frame that has called is further on its way.
              have back : Resumes setting left frame.pos (frame.next :: rest) :=
                fun o memo n₁ contract owes room =>
                  resumesIH n f args n' o work contract keyed rest memo n₁ owes room below
              cases called : callFrom setting true frame.next rest memo n' f args with
              | error e => exact halts_refused fetched work (known n f args n' work) called
              | ok m =>
                  refine halts_call fetched work called ?_
                  rcases callFrom_eq_ok called with
                    ⟨rfl, o, found, rfl⟩ | ⟨rfl, fresh, callee, entered, rfl⟩ |
                    ⟨some_, callee, entered, rfl⟩
                  · exact resumesIH n f [] n' o work (owes _ o found) keyed rest memo n' owes room below
                  · -- The call takes a place of the memo table.
                    have inside' : frame.next.pos ≤ setting.bytes.size := inside
                    have less := card_unfilled_insert_lt (o := seed (f, frame.next.pos))
                      (known n f [] n' work) inside' fresh
                    refine fewer _ (Nat.lt_of_lt_of_le less room) _ callee
                      (serves f (known n f [] n' work) [] .nil _ inside' _ callee entered) ?_ _ _ n'
                      (owes.insert (contract_seed listed inside')) (Nat.le_refl _)
                      (back.anti (Nat.le_trans (Nat.le_of_lt less) room))
                    obtain ⟨_, -, -, rfl⟩ := enters_of_enter entered
                    rintro _ ⟨⟩
                    rfl
                  · refine entersIH n f args n' none callee work some_ entered ?_ _ memo n' owes room back
                    obtain ⟨_, -, -, rfl⟩ := enters_of_enter entered
                    exact fun _ free => nomatch free

end Machine

/-! ### Parses -/

namespace Parser

variable {options : Options} {natives : Host.Natives} {description : String} {p : Parser}
variable {input : Input} {r : RuleEntry} {pos : Nat}

/-- **Without parameters every parse terminates.** If no rule takes parameters, and functions from
outside make no parsers out of what is none, a parse with any rule at any place of the input comes to
an outcome, or it is stopped by host code, after finitely many steps. Rules that begin with themselves
are no exception. -/
theorem parse_terminates [Regex.Engine] (built : build options natives description n = .ok (p, n'))
    (proper : natives.Proper .noParsers) (bare : ∀ r ∈ p.program.rules, r.params.getD [] = [])
    (mem : r ∈ p.program.rules) (small : input.size < 2 ^ 63) (inside : pos ≤ input.size)
    (identity : Nat) :
    ∃ out, (p.setting input).Ends true r.function [] pos identity out ∧
      ∀ e, out = .error e → ∃ error, e = .host error := by
  have sound := build_wellFormed built
  have serves := serves_closed built proper bare small
  obtain ⟨g, known, arity⟩ := sound.rules r mem
  rw [bare r mem] at arity
  have starts : Machine.enter (p.setting input) r.function [] pos none =
      .ok (Frame.begin r.function g [] pos none) := Machine.enter_ok known arity.symm
  have behaves := serves r.function (Array.getElem?_eq_some_iff.1 known).1 [] .nil pos inside none _ starts
  have halts := Machine.halts serves sound.leftRecursion _ pos _ behaves (fun _ free => nomatch free)
    [] ∅ identity (fun _ _ found => by simp at found) (Nat.le_refl _) trivial
  obtain ⟨fuel, out, ends, hosts⟩ := halts.run
  refine ⟨out, ⟨fuel, fun extra => ?_⟩, hosts⟩
  rw [Setting.runFor_begin known arity.symm]
  exact ends extra

theorem chain_builds : (match build {} [] "start = [start, \"b\"] | \"a\"" 0 with
    | .ok (p, _) => match p.program.rules with
      | [rule] => rule.params.isNone
      | _ => false
    | .error _ => false) = true := by decide +kernel

/-- A rule that begins with itself. -/
theorem parse_terminates_chain : ∃ p n rule,
    build {} [] "start = [start, \"b\"] | \"a\"" 0 = .ok (p, n) ∧ p.program.rules = [rule] ∧
      ∃ out, (p.setting (.text "ab")).Ends true rule.function [] 0 0 out ∧
        ∀ e, out = .error e → ∃ error, e = .host error := by
  have builds := chain_builds
  split at builds
  · next p n built =>
      split at builds
      · next rule rules =>
          have bare : ∀ r ∈ p.program.rules, r.params.getD [] = [] := by
            simp [rules, Option.isNone_iff_eq_none.1 builds]
          exact ⟨p, n, rule, built, rules, parse_terminates built (fun _ _ found => nomatch found) bare
            (by simp [rules]) (by decide) (Nat.zero_le _) 0⟩
      · cases builds
  · cases builds

end Parser

end Packrat
