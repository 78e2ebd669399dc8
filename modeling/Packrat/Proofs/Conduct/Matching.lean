import Packrat.Proofs.Conduct.Parts
import Packrat.Proofs.Simulation.Arguments

/-
**Matches, host code and calls behave.**

The parts that contain no others: literals and patterns with the ignored content behind them, host
code, references, and the arguments of calls.

Main results:

* `Packrat.Site.behaves_matching` — a match behaves, with what is ignored behind it;
* `Packrat.Site.behaves_snippet` — host code behaves;
* `Packrat.Emit.Safe.calling` — **calls of rules and of parsers behave**.
-/

set_option autoImplicit false

namespace Packrat

variable [Regex.Engine]

omit [Regex.Engine] in
theorem Input.excise_proper {may : Permit} (isBinary : Bool) (bytes : ByteArray)
    (start stop : Nat) : (excise isBinary bytes start stop).Proper may := by
  rw [excise]
  split
  · exact .bytes _
  · exact .str _

namespace Site

variable {site : Site} {R : Regime} {signatures : Signatures} {d d' : Draft} {p p' : Pools}
variable {start place v : Nat} {σ : Moment} {i : Instr}

/-! ### Ignored content -/

/-- Behind a match, what is ignored is passed over. -/
theorem behaves_skipIgnored (w : Emit.skipIgnored.Writes d p () d' p')
    (known : signatures.lookup ignoredRule = some []) (code : site.function.Hosts d')
    (fits : R.Fits site.setting signatures p.ruleFunctions) (steady : site.Steady R d start σ)
    (contract : site.setting.Contract R.may place σ.outcome)
    (next : ∀ σ', Keeps d.slots σ.slots σ'.slots →
      site.setting.Contract R.may place σ'.outcome → site.Behaves R start d'.code.size σ') :
    site.Behaves R start d.code.size σ := by
  obtain ⟨f, d₁, p₁, w₁, w₂⟩ := Emit.writes_bind.1 w
  obtain ⟨w₃, rfl⟩ := Emit.writes_lift.1 w₁
  obtain ⟨rfl, found⟩ := Build.adds_ruleFunction w₃
  obtain ⟨d₂, w₄, size, hosts⟩ := Emit.hosts_ifThen
    (Emit.Tame.storeResult.bind fun _ => (Emit.Tame.emit _).bind fun _ => .succeedWith _) w₂
  obtain ⟨kept, d₃, p₃, w₅, w₆⟩ := Emit.writes_bind.1 w₄
  obtain ⟨rfl, rfl, rfl⟩ := Emit.writes_storeResult.1 w₅
  rw [Emit.writes_emit_bind, Emit.writes_succeedWith] at w₆
  obtain ⟨rfl, rfl⟩ := w₆
  obtain ⟨body, branch, skipped⟩ := hosts _ code
  obtain ⟨reserved, calls⟩ := fits.rules _ _ _ known found
  rw [size] at next
  refine behaves_notStatus (d := d₁.addLabel) branch steady.toWithin skipped (fun hs => ?_)
    fun _ => next σ (.refl _ _) contract
  have proper := contract.success hs
  have steady₁ : site.Steady R (Emit.entered (d₁.addLabel.add (.branch .notStatus
      d₁.labels.size))) start σ := steady.recast rfl (Nat.le_refl _)
  obtain ⟨steady₂, saved⟩ := steady₁.store body.add.add.add σ.result
  refine behaves_store (d := Draft.addSlot (Emit.entered _)) body.add.add.add steady.toWithin rfl ?_
  refine safe_call body.add.add reserved (fun σ' _ => ⟨[], .nil, .nil, .inl (calls [] .nil rfl)⟩)
    steady₂ fun σ' same there => ?_
  have here : site.Within start σ' := steady.toWithin.next there
  refine behaves_succeedWith body here (frame_slot (by rw [same]; exact saved)) (next _ ?_ ?_)
  · rw [Moment.yield, same]
    exact .set _ (Nat.le_refl _) _
  · exact .of_success (Nat.le_trans contract.forward there.forward) there.inside proper

/-- A match, with what is ignored behind it. -/
theorem behaves_matching {skip : Bool} (mark : Nat) (stop? : Nat → Option Nat)
    (w : (if skip then Emit.skipIgnored else pure () : Emit Unit).Writes (d.add i) p () d' p')
    (known : skip = true → signatures.lookup ignoredRule = some [])
    (code : site.function.Hosts d')
    (fits : R.Fits site.setting signatures p.ruleFunctions) (steady : site.Steady R d start σ)
    (work : ∀ n, i.execute site.setting (site.frame (d.code.size + 1) σ) n =
      .ok (.next ((site.frame (d.code.size + 1) σ).matched site.setting mark (stop? σ.pos)), n))
    (bounds : ∀ stop, stop? σ.pos = some stop → σ.pos ≤ stop ∧ stop ≤ site.setting.bytes.size)
    (listed : mark < site.setting.program.failures.size)
    (next : ∀ σ', Keeps d.slots σ.slots σ'.slots →
      site.setting.Contract R.may σ.pos σ'.outcome → site.Behaves R start d'.code.size σ') :
    site.Behaves R start d.code.size σ := by
  have behind (σ' : Moment) (same : σ'.slots = σ.slots)
      (contract : site.setting.Contract R.may σ.pos σ'.outcome) :
      site.Behaves R start (d.add i).code.size σ' := by
    have steady' : site.Steady R (d.add i) start σ' :=
      steady.next (same ▸ .refl _ _) (steady.toWithin.next contract) rfl (Nat.le_refl _)
    cases skip with
    | false =>
        obtain ⟨-, rfl, rfl⟩ := Emit.writes_pure.1 w
        exact next σ' (same ▸ .refl _ _) contract
    | true =>
        refine behaves_skipIgnored w (known rfl) code fits steady' contract fun τ keeps => ?_
        exact next τ (same ▸ keeps)
  have hosts : site.function.Hosts (d.add i) := code.back ((Emit.Tame.skipping skip).draft w)
  cases found : stop? σ.pos with
  | some stop =>
      rw [found] at work
      obtain ⟨forward, inside⟩ := bounds stop found
      refine behaves_next hosts steady.toWithin ?_
        (behind ⟨true, Input.excise site.setting.isBinary site.setting.bytes σ.pos stop, stop,
          σ.slots, σ.memo, σ.identity⟩ rfl
          (.of_success forward inside (Input.excise_proper ..)))
      exact fun n => ⟨n, work n⟩
  | none =>
      rw [found] at work
      refine behaves_next hosts steady.toWithin ?_
        (behind (σ.fail mark) rfl (.of_failure (Nat.le_refl _) steady.inside listed))
      exact fun n => ⟨n, work n⟩

/-! ### Host code -/

/-- Host code leaves a proper value in the result. -/
theorem behaves_snippet {sn : Snippet} (w : (Emit.snippet sn).Writes d p () d' p')
    (code : site.function.Hosts d') (pools : site.setting.program.Hosts p')
    (fits : R.Fits site.setting signatures p.ruleFunctions) (steady : site.Steady R d start σ)
    (next : ∀ x, x.Proper R.may → site.Behaves R start d'.code.size (σ.yield x)) :
    site.Behaves R start d.code.size σ := by
  obtain ⟨vs, d₁, p₁, w₁, w₂⟩ := Emit.writes_bind.1 w
  obtain ⟨hv, rfl, rfl⟩ := Emit.writes_lookupAll.1 w₁
  obtain ⟨host, d₂, p₂, w₃, w₄⟩ := Emit.writes_bind.1 w₂
  obtain ⟨w₅, rfl⟩ := Emit.writes_lift.1 w₃
  obtain ⟨grown, listed⟩ := Build.adds_host w₅
  obtain ⟨rfl, rfl⟩ := Emit.writes_emit.1 w₄
  obtain ⟨xs, slots, proper, -⟩ := steady.values hv
  refine behaves_host (sn.term.evalIn site.setting.library (site.setting.scope sn.locals xs))
    σ.yield code steady.toWithin (fun n => ?_) (fun n x n' hx => ?_) next
  · exact (Exec.lift_bind (poolEntry_ok (pools.hosts _ _ listed)) _ _).trans
      (Exec.lift_bind (frame_slotList slots) _ _)
  · exact Host.Library.proper_evalIn fits.natives (fits.globals.bindAll sn.locals proper) sn.term hx

/-! ### Arguments -/

omit [Regex.Engine] in
/-- A parser is made, and kept in a new slot. -/
theorem behaves_madeParser {k : Nat} {vs : List Nat} {xs : List Value}
    (w : (Emit.parser k vs).Writes d p v d' p') (code : site.function.Hosts d')
    (known : k < site.setting.program.functions.size) (ok : R.may.parsers k)
    (slots : List.Forall₂ (fun v x => σ.slots[v]? = some x) vs xs)
    (proper : Value.AllProper R.may xs) (steady : site.Steady R d start σ)
    (next : ∀ σ' x, Keeps d.slots σ.slots σ'.slots → σ'.pos = σ.pos → v < d'.slots →
      σ'.slots[v]? = some x → x.Proper R.may → site.Behaves R start d'.code.size σ') :
    site.Behaves R start d.code.size σ := by
  rw [Emit.parser, Emit.writes_emit_bind] at w
  obtain ⟨rfl, rfl, rfl⟩ := Emit.writes_storeResult.1 w
  obtain ⟨f, hf⟩ : ∃ f, site.setting.program.functions[k]? = some f :=
    ⟨_, Array.getElem?_eq_getElem known⟩
  refine behaves_makeParser code.add.addSlot steady.toWithin hf slots fun id => ?_
  refine behaves_store (d := Draft.addSlot _) code ⟨steady.forward, steady.inside⟩ rfl ?_
  have room : d.slots < σ.slots.size := by
    rw [steady.size]
    exact code.add.slots
  exact next _ _ (.set _ (Nat.le_refl _) _) rfl (Nat.lt_succ_self _) (getElem?_set_self room _)
    (.parser id _ ok proper)

/-- The value of an argument is proper, and found in a slot. -/
theorem behaves_argument {e : Expr} {inner : Emit Unit} (h : inner.Conducts signatures)
    (settled : e.Settled signatures)
    (made : ∀ k < site.setting.program.functions.size, R.may.parsers k)
    (w : (Emit.argument e inner).Writes d p v d' p') (code : site.function.Hosts d')
    (pools : site.setting.program.Hosts p')
    (fits : R.Fits site.setting signatures p.ruleFunctions) (steady : site.Steady R d start σ)
    (next : ∀ σ' x, Keeps d.slots σ.slots σ'.slots → σ'.pos = σ.pos → v < d'.slots →
      σ'.slots[v]? = some x → x.Proper R.may → site.Behaves R start d'.code.size σ') :
    site.Behaves R start d.code.size σ := by
  cases direct : e.direct with
  | false =>
      rw [Emit.argument_own direct] at w
      obtain ⟨vs, d₁, p₁, w₁, wa⟩ := Emit.writes_bind.1 w
      obtain ⟨hv, rfl, rfl⟩ := Emit.writes_lookupAll.1 w₁
      obtain ⟨k, d₂, p₂, w₂, wb⟩ := Emit.writes_bind.1 wa
      obtain ⟨w₃, rfl⟩ := Emit.writes_lift.1 w₂
      obtain ⟨rfl, draft, p₃, f, w₄, done, size, hosts⟩ := Emit.hosts_defineNew h.tame w₃
      obtain ⟨xs, slots, proper, -⟩ := steady.values hv
      have pools₁ := pools.back ((Emit.Tame.parser _ _).pools wb)
      have room := (Array.getElem?_eq_some_iff.1 (hosts _ pools₁).2).1
      exact behaves_madeParser wb code room (made _ room) slots proper steady next
  | true =>
      match e, direct with
      | .ref tag name .local, _ =>
          obtain ⟨hv, rfl, rfl⟩ := Emit.writes_lookup.1 w
          obtain ⟨lt, x, held, proper⟩ := steady.knows name v hv
          exact next σ x (.refl _ _) rfl lt held proper
      | .ref _ _ (.rule function), _ =>
          change (do
            let f ← Build.ruleFunction function
            Emit.parser f [] : Emit Nat).Writes d p v d' p' at w
          obtain ⟨k, d₁, p₁, w₁, wa⟩ := Emit.writes_bind.1 w
          obtain ⟨w₂, rfl⟩ := Emit.writes_lift.1 w₁
          obtain ⟨rfl, known⟩ := Build.adds_ruleFunction w₂
          obtain ⟨⟨⟩⟩ | ⟨⟨rfl⟩, signature⟩ := settled
          have room := (fits.rules _ _ _ signature known).1
          exact behaves_madeParser wa code room (made _ room) .nil .nil steady next
      | .host _ sn, _ =>
          change (do
            Emit.snippet sn
            Emit.storeResult : Emit Nat).Writes d p v d' p' at w
          obtain ⟨_, d₁, p₁, w₁, wa⟩ := Emit.writes_bind.1 w
          obtain ⟨rfl, rfl, rfl⟩ := Emit.writes_storeResult.1 wa
          have grown := (Emit.Tame.snippet sn).draft w₁
          refine behaves_snippet w₁ code.add.addSlot pools fits steady fun x proper => ?_
          refine behaves_store (d := Draft.addSlot _) code ⟨steady.forward, steady.inside⟩ rfl ?_
          have room : d₁.slots < σ.slots.size := by
            rw [steady.size]
            exact code.add.slots
          exact next _ x (.set _ grown.slots _) rfl (Nat.lt_succ_self _) (getElem?_set_self room _)
            proper

end Site

open Packrat.Expr in
/-- Arguments one after the other. -/
theorem Site.behaves_args {site : Site} {R : Regime} {signatures : Signatures} {d d' : Draft}
    {p p' : Pools} {start : Nat} {args : List (Option String × Expr)} {vs : List Nat} {σ : Moment}
    (all : ∀ arg ∈ args, arg.2.Settled signatures ∧ arg.2.emit.Conducts signatures)
    (made : args ≠ [] → ∀ k < site.setting.program.functions.size, R.may.parsers k)
    (w : (emitArgs args).Writes d p vs d' p') (code : site.function.Hosts d')
    (pools : site.setting.program.Hosts p')
    (fits : R.Fits site.setting signatures p.ruleFunctions) (steady : site.Steady R d start σ)
    (next : ∀ σ' xs, Keeps d.slots σ.slots σ'.slots → σ'.pos = σ.pos →
      List.Forall₂ (fun v x => σ'.slots[v]? = some x) vs xs → Value.AllProper R.may xs →
      xs.length = args.length → site.Behaves R start d'.code.size σ') :
    site.Behaves R start d.code.size σ := by
  induction args generalizing d p vs σ with
  | nil =>
      obtain ⟨rfl, rfl, rfl⟩ := Emit.writes_pure.1 w
      exact next σ [] (.refl _ _) rfl .nil .nil rfl
  | cons arg args ih =>
      obtain ⟨keyword, e⟩ := arg
      rw [emitArgs] at w
      obtain ⟨v, d₁, p₁, w₁, wa⟩ := Emit.writes_bind.1 w
      obtain ⟨vs, d₂, p₂, w₂, w₃⟩ := Emit.writes_bind.1 wa
      obtain ⟨rfl, rfl, rfl⟩ := Emit.writes_pure.1 w₃
      obtain ⟨settled, conducts⟩ := all _ (List.mem_cons_self ..)
      have made' := made (List.cons_ne_nil _ _)
      have tame := Emit.Tame.argument e.emit_tame e
      have grown := tame.draft w₁
      have rest := emitArgs_tame args
      refine behaves_argument conducts settled made' w₁ (code.back (rest.draft w₂))
        (pools.back (rest.pools w₂)) fits steady fun σ₁ x keeps pos lt held proper => ?_
      have here : site.Within start σ₁ := ⟨by rw [pos]; exact steady.forward, by
        rw [pos]; exact steady.inside⟩
      refine ih (fun arg mem => all arg (List.mem_cons_of_mem _ mem)) (fun _ => made') w₂
        (fits.grow (tame.pools w₁)) (steady.next keeps here grown.scope grown.slots)
        fun σ₂ xs keeps' pos' helds propers len => ?_
      exact next σ₂ (x :: xs) (keeps.trans (keeps'.mono grown.slots)) (pos'.trans pos)
        (.cons (keeps'.kept lt held) helds) (.cons proper propers) (by simp [len])

/-! ### Expressions without parts -/

namespace Expr

variable {signatures : Signatures}

theorem safe_regex {tag : Tag} {pattern : String} {flags : MatchFlags}
    (settled : (Expr.regex tag pattern flags).Settled signatures) :
    (Expr.regex tag pattern flags).emit.Safe signatures := by
  intro d p d' p' w site R code pools fits start σ steady next
  rw [Expr.emit] at w
  obtain ⟨regex, d₁, p₁, w₁, w₂⟩ := Emit.writes_bind.1 w
  obtain ⟨wr, rfl⟩ := Emit.writes_lift.1 w₁
  obtain ⟨grownr, e, listed, -⟩ := Build.adds_regex wr
  obtain ⟨mark, d₂, p₂, w₃, w₄⟩ := Emit.writes_bind.1 w₂
  obtain ⟨wf, rfl⟩ := Emit.writes_lift.1 w₃
  obtain ⟨grownf, noted⟩ := Build.adds_failure wf
  rw [Emit.writes_emit_bind] at w₄
  have pools₂ := pools.back ((Emit.Tame.skipping flags.skip).pools w₄)
  have listed' := pools₂.regexes _ _ (grownf.regexes _ _ listed)
  exact Site.behaves_matching mark
    (fun pos => e.regex.matchEnd? site.setting.bytes pos) w₄ settled code
    (fits.grow (grownr.trans grownf)) steady
    (fun n => Exec.lift_bind (poolEntry_ok listed') _ _)
    (fun stop hs => Regex.matchEnd?_bounds hs steady.inside)
    (pools₂.failures.lt_of_getElem? noted) next

theorem safe_str {tag : Tag} {value : List UInt8} {flags : MatchFlags}
    (settled : (Expr.str tag value flags).Settled signatures) :
    (Expr.str tag value flags).emit.Safe signatures := by
  intro d p d' p' w site R code pools fits start σ steady next
  rw [Expr.emit] at w
  obtain ⟨mark, d₁, p₁, w₁, w₂⟩ := Emit.writes_bind.1 w
  obtain ⟨wf, rfl⟩ := Emit.writes_lift.1 w₁
  obtain ⟨grownf, noted⟩ := Build.adds_failure wf
  have tame := Emit.Tame.skipping flags.skip
  dsimp only at w₂
  split at w₂
  · obtain ⟨regex, d₂, p₂, w₃, w₄⟩ := Emit.writes_bind.1 w₂
    obtain ⟨wr, rfl⟩ := Emit.writes_lift.1 w₃
    obtain ⟨grownr, e, listed, -⟩ := Build.adds_regex wr
    rw [Emit.writes_emit_bind] at w₄
    have pools₂ := pools.back (tame.pools w₄)
    have listed' := pools₂.regexes _ _ listed
    exact Site.behaves_matching mark
      (fun pos => e.regex.matchEnd? site.setting.bytes pos) w₄ settled code
      (fits.grow (grownf.trans grownr)) steady
      (fun n => Exec.lift_bind (poolEntry_ok listed') _ _)
      (fun stop hs => Regex.matchEnd?_bounds hs steady.inside)
      (pools₂.failures.lt_of_getElem? (grownr.failures _ _ noted)) next
  · obtain ⟨literal, d₂, p₂, w₃, w₄⟩ := Emit.writes_bind.1 w₂
    obtain ⟨wl, rfl⟩ := Emit.writes_lift.1 w₃
    obtain ⟨grownl, listed⟩ := Build.adds_literal wl
    rw [Emit.writes_emit_bind] at w₄
    have pools₂ := pools.back (tame.pools w₄)
    refine Site.behaves_matching mark
      (fun pos => if bytesAt site.setting.bytes pos value then some (pos + value.length)
        else none) w₄ settled code (fits.grow (grownf.trans grownl)) steady
      (fun n => Exec.lift_bind (poolEntry_ok (pools₂.literals _ _ listed)) _ _)
      (fun stop hs => ?_) (pools₂.failures.lt_of_getElem? (grownl.failures _ _ noted)) next
    split at hs
    · next found =>
        obtain rfl := Option.some.inj hs
        exact ⟨Nat.le_add_right _ _, matched_inside found steady.inside⟩
    · simp at hs

theorem safe_fail (tag : Tag) (message? : Option String) :
    (Expr.fail tag message?).emit.Safe signatures := by
  intro d p d' p' w site R code pools fits start σ steady next
  obtain ⟨mark, d₁, p₁, w₁, w₂⟩ := Emit.writes_bind.1 w
  obtain ⟨wf, rfl⟩ := Emit.writes_lift.1 w₁
  obtain ⟨-, noted⟩ := Build.adds_failure wf
  obtain ⟨rfl, rfl⟩ := Emit.writes_emit.1 w₂
  exact Site.behaves_fail code steady.toWithin (next _ (.refl _ _)
    (.of_failure (Nat.le_refl _) steady.inside (pools.failures.lt_of_getElem? noted)))

theorem safe_host (tag : Tag) (s : Snippet) : (Expr.host tag s).emit.Safe signatures := by
  intro d p d' p' w site R code pools fits start σ steady next
  exact Site.behaves_snippet w code pools fits steady fun x proper => next _ (.refl _ _)
    (.of_success (Nat.le_refl _) steady.inside proper)

theorem safe_ref {tag : Tag} {name : String} {binding : Binding}
    (settled : (Expr.ref tag name binding).Settled signatures) :
    (Expr.ref tag name binding).emit.Safe signatures := by
  intro d p d' p' w site R code pools fits start σ steady next
  obtain ⟨callee, d₁, p₁, w₁, w₂⟩ := Emit.writes_bind.1 w
  obtain ⟨rfl, rfl⟩ := Emit.writes_emit.1 w₂
  rcases settled with rfl | ⟨rfl, signature⟩
  · obtain ⟨v, d₂, p₂, w₃, w₄⟩ := Emit.writes_bind.1 w₁
    obtain ⟨known, rfl, rfl⟩ := Emit.writes_lookup.1 w₃
    obtain ⟨rfl, rfl, rfl⟩ := Emit.writes_pure.1 w₄
    obtain ⟨-, x, held, proper⟩ := steady.knows name v known
    have read (n : Nat) : (Instr.call (.slot v) []).execute site.setting
        (site.frame (d₁.code.size + 1) σ) n =
          .ok ((site.frame (d₁.code.size + 1) σ).callSlot x [], n) :=
      (Exec.lift_bind (Site.frame_slotList .nil) _ _).trans
        (Exec.lift_bind (Site.frame_slot held) _ _)
    by_cases called : ∃ id f captures text, x = .parser id f captures text
    · obtain ⟨id, f, captures, text, rfl⟩ := called
      cases proper with
      | parser _ _ ok hc =>
          obtain ⟨room, calls⟩ := fits.parsers f ok
          refine Site.behaves_calls code.instr steady.toWithin (fun n => ?_) room
            (.inl (calls captures hc)) fun o contract => ?_
          · rw [read, Frame.callSlot, List.append_nil]
          · rw [← Site.size_add]
            exact next _ (.refl _ _) contract
    · refine Site.behaves_next code steady.toWithin (fun n => ⟨n, ?_⟩)
        (next (σ.yield x) (.refl _ _) (.of_success (Nat.le_refl _) steady.inside proper))
      rw [read]
      cases x with
      | parser id f captures text => exact absurd ⟨_, _, _, _, rfl⟩ called
      | _ => rfl
  · obtain ⟨f, d₂, p₂, w₃, w₄⟩ := Emit.writes_bind.1 w₁
    obtain ⟨wf, rfl⟩ := Emit.writes_lift.1 w₃
    obtain ⟨rfl, known⟩ := Build.adds_ruleFunction wf
    obtain ⟨rfl, rfl, rfl⟩ := Emit.writes_pure.1 w₄
    obtain ⟨room, calls⟩ := fits.rules _ _ _ signature known
    exact Site.safe_call code room (fun _ _ => ⟨[], .nil, .nil, .inl (calls [] .nil rfl)⟩) steady
      fun σ' same contract => next σ' (same ▸ .refl _ _) contract

theorem safe_call {tag : Tag} {name : String} {args : List (Option String × Expr)}
    {binding : Binding} (settled : (Expr.call tag name args binding).Settled signatures)
    (all : ∀ arg ∈ args, arg.2.Settled signatures ∧ arg.2.emit.Conducts signatures) :
    (Expr.call tag name args binding).emit.Safe signatures := by
  intro d p d' p' w site R code pools fits start σ steady next
  obtain ⟨rfl, params, signature, len⟩ := settled
  rw [Expr.emit] at w
  obtain ⟨k, d₁, p₁, w₁, wa⟩ := Emit.writes_bind.1 w
  obtain ⟨w₂, rfl⟩ := Emit.writes_lift.1 w₁
  obtain ⟨rfl, known⟩ := Build.adds_ruleFunction w₂
  obtain ⟨vs, d₂, p₂, w₃, w₄⟩ := Emit.writes_bind.1 wa
  obtain ⟨rfl, rfl⟩ := Emit.writes_emit.1 w₄
  obtain ⟨room, calls⟩ := fits.rules _ _ _ signature known
  have grown := (emitArgs_tame args).draft w₃
  refine Site.behaves_args all (fun some => fits.makes _ _ signature ?_) w₃ code.add pools
    fits steady fun σ₁ xs keeps pos held proper count => ?_
  · rintro rfl
    exact some (List.length_eq_zero_iff.1 len)
  have here : site.Within start σ₁ := ⟨by rw [pos]; exact steady.forward, by
    rw [pos]; exact steady.inside⟩
  refine Site.behaves_calls code.instr here (fun n => Exec.lift_bind (Site.frame_slotList held) _ _)
    room (.inl (calls xs proper (count.trans len))) fun o contract => ?_
  rw [← Site.size_add]
  rw [pos] at contract
  exact next _ keeps contract

end Expr

end Packrat
