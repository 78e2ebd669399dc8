import Packrat.Proofs.Evaluation.Steps
import Packrat.Proofs.Notation.Phrases
import Packrat.Proofs.Printing.Snippets

/-
**Expressions fresh from a description.**

What a grammar looks like before it has been analyzed: no name refers to anything yet, no match
skips ignored content, and every choice has something to choose from.

Main definitions:

* `Packrat.Expr.Every`, `Packrat.Expr.Somewhere` — all expressions within one have a property, or one
  of them has;
* `Packrat.Expr.Plain`, `Packrat.Expr.Raw` — the property that analysis starts from and keeps;
* `Packrat.Expr.Fresh`, `Packrat.Expr.Made` — what is known of expressions that phrases become.

Main results:

* `Packrat.Phrase.lower_made`, `Packrat.Phrase.lower_raw` — what a phrase becomes;
* `Packrat.Description.lower_raw` — **the definitions of a description have plain bodies**.
-/

set_option autoImplicit false

namespace Packrat

/-! ### Refusals -/

theorem not_refuse_eq_ok {α : Type} {error : GrammarError} {span : Span} {a : α} :
    ¬ refuse error span = .ok a := by simp [refuse]

/-! ### Properties of all parts -/

namespace Expr

/-- An expression and all those within it have a property. -/
inductive Every (P : Expr → Prop) : Expr → Prop
  | intro {e : Expr} (here : P e) (below : ∀ c ∈ e.children, Every P c) : Every P e

namespace Every

variable {P Q : Expr → Prop} {e : Expr}

theorem here (h : Every P e) : P e := by cases h; assumption

theorem parts (h : Every P e) : ∀ c ∈ e.children, Every P c := by cases h; assumption

theorem mono (h : Every P e) (imp : ∀ e, P e → Q e) : Every Q e := by
  induction h with
  | intro here _ ih => exact ⟨imp _ here, ih⟩

/-- What holds of an expression and all within it, for each of two properties. -/
theorem and (h : Every P e) (h' : Every Q e) : Every (fun e => P e ∧ Q e) e := by
  induction h with
  | intro here _ ih => exact ⟨⟨here, h'.here⟩, fun c mem => ih c mem (h'.parts c mem)⟩

end Every

/-- An expression or one within it has a property. -/
inductive Somewhere (P : Expr → Prop) : Expr → Prop
  | here {e : Expr} (h : P e) : Somewhere P e
  | inside {e c : Expr} (mem : c ∈ e.children) (h : Somewhere P c) : Somewhere P e

/-- What is said of all within an expression may use that they are there. -/
theorem Every.somewhere {P : Expr → Prop} {α : Type} {Q : α → Expr → Prop} {e : Expr}
    (h : e.Every P) : e.Every fun x => ∀ a, Q a x → e.Somewhere (Q a) := by
  induction h with
  | intro _ _ ih =>
      exact ⟨fun a => .here, fun c mem => (ih c mem).mono fun x found a holds =>
        .inside mem (found a holds)⟩

/-- What is asked of an expression whose names have not all found their rules: that matches skip
ignored content only if there is any, that names refer to what they may, and that choices are made
from something. -/
def Plain (skips : Prop) (may : Binding → Prop) : Expr → Prop
  | .str _ _ flags | .regex _ _ flags => flags.skip = true → skips
  | .ref _ _ binding => may binding
  | .choice _ alternatives => alternatives ≠ []
  | _ => True

/-- An expression as a description gives it. -/
abbrev Raw : Expr → Prop := Every (Plain False (· = .unresolved))

end Expr

/-- A bound that can be written. -/
def Bound.Shown : Bound → Prop
  | .const n => n < 0x10000000000000000
  | .host s => s.Shown

/-- Constant bounds are in order. -/
def BoundsInOrder (least most : Option Bound) : Prop :=
  ∀ m n, least = some (.const m) → most = some (.const n) → m ≤ n

namespace Expr

/-- What is known of an expression by the way in which it is made of phrases, and what is known of
it besides where the phrases are tidy. `rules` are the names that the grammar defines. -/
def Fresh (tidy : Prop) (rules : List String) : Expr → Prop
  | .str _ value flags => flags.skip = false ∧ Encodes value flags.binary
  | .regex _ pattern flags => flags.skip = false ∧ (tidy → IsPattern pattern)
  | .ref _ name binding => binding = .unresolved ∧ (tidy → IsName name)
  | .seq _ _ cls? => cls? = none
  | .choice _ alternatives => 2 ≤ alternatives.length
  | .list _ _ least most =>
    BoundsInOrder least most ∧ (tidy → (∀ b ∈ least, b.Shown) ∧ ∀ b ∈ most, b.Shown)
  | .bound _ name _ _ => tidy → IsName name
  | .skip _ items => items ≠ []
  | .call _ callee args binding => binding = .unresolved ∧ (callee ∈ formNames → callee ∈ rules) ∧
      (tidy → IsName callee ∧ ∀ arg ∈ args, ∀ name, arg.1 = some name → IsName name)
  | .host _ snippet => tidy → snippet.Shown
  | _ => True

/-- An expression made of phrases. -/
abbrev Made (tidy : Prop) (rules : List String) : Expr → Prop := Every (Fresh tidy rules)

theorem Made.raw {tidy : Prop} {rules : List String} {e : Expr} (h : e.Made tidy rules) : e.Raw :=
  h.mono fun e fresh => by
    cases e with
    | str | regex => simp [Plain, fresh.1]
    | ref => exact fresh.1
    | choice tag items =>
      rintro rfl
      exact absurd fresh (by simp [Fresh])
    | _ => trivial

end Expr

/-! ### Forms -/

section

variable {tidy : Prop} {rules : List String}

/-- An argument that is tidy if its phrase is, and whose meanings are made of phrases. -/
structure FormArg.Sound (tidy : Prop) (rules : List String) (arg : FormArg) : Prop where
  phrase : tidy → arg.phrase.bare.Tidy
  expr : ∀ e, arg.expr () = .ok e → e.Made tidy rules
  level : ∀ l, arg.level () = .ok l → l.2.Made tidy rules

variable {callee : String} {span : Span} {e : Expr} {args : List (Option String × FormArg)}

theorem mem_fillFrom {α : Type} {params : List String} {next : Nat}
    {slots filled : List (Option α)} {args : List (Option String × α)}
    (h : fillFrom params next slots args = .ok filled) {x : α} (mem : some x ∈ filled) :
    some x ∈ slots ∨ x ∈ args.map (·.2) := by
  induction args generalizing next slots with
  | nil =>
      obtain rfl : slots = filled := by simpa [fillFrom] using h
      exact .inl mem
  | cons arg rest ih =>
      obtain ⟨keyword, y⟩ := arg
      simp only [fillFrom] at h
      split at h
      · simp at h
      · split at h
        · simp at h
        · simp at h
        · rcases ih h with mem | mem
          · rcases List.mem_or_eq_of_mem_set mem with mem | same
            · exact .inl mem
            · exact .inr (by simp_all)
          · exact .inr (by simp_all)

/-- What fills a slot was given as an argument. -/
theorem mem_fillSlots {α : Type} {params : List String} {filled : List (Option α)}
    {args : List (Option String × α)} (h : fillSlots params args = .ok filled) {x : α}
    (mem : some x ∈ filled) : x ∈ args.map (·.2) := by
  rcases mem_fillFrom h mem with mem | mem
  · simp at mem
  · exact mem

theorem formSlots_sound {params : List String} {required : Nat} {slots : List (Option FormArg)}
    (sound : ∀ arg ∈ args.map (·.2), arg.Sound tidy rules)
    (h : formSlots callee params required span args = .ok slots) :
    ∀ arg, some arg ∈ slots → arg.Sound tidy rules := by
  simp only [formSlots] at h
  split at h
  · exact absurd h not_refuse_eq_ok
  · exact absurd h not_refuse_eq_ok
  · exact absurd h not_refuse_eq_ok
  · next found =>
      split at h
      · exact absurd h not_refuse_eq_ok
      · obtain rfl : _ = slots := by simpa using h
        exact fun arg mem => sound arg (mem_fillSlots found mem)

theorem mem_of_slot? {slots : List (Option FormArg)} {i : Nat} {arg : FormArg}
    (h : slot? slots i = some arg) : some arg ∈ slots := by
  rw [slot?] at h
  cases at_ : slots[i]? with
  | none => simp [at_] at h
  | some slot =>
      obtain rfl : slot = some arg := by simpa [at_] using h
      exact List.mem_of_getElem? at_

theorem slotExpr_made {slots : List (Option FormArg)} {i : Nat}
    (sound : ∀ arg, some arg ∈ slots → arg.Sound tidy rules)
    (h : slotExpr callee span slots i = .ok e) : e.Made tidy rules := by
  simp only [slotExpr] at h
  split at h
  · next arg found => exact (sound arg (mem_of_slot? found)).expr e h
  · exact absurd h not_refuse_eq_ok

theorem positionalOnly_sound {out : List FormArg}
    (sound : ∀ arg ∈ args.map (·.2), arg.Sound tidy rules)
    (h : positionalOnly callee span args = .ok out) : ∀ arg ∈ out, arg.Sound tidy rules := by
  induction args generalizing out with
  | nil =>
      obtain rfl : [] = out := by simpa [positionalOnly] using h
      simp
  | cons arg args ih =>
      obtain ⟨_ | keyword, arg⟩ := arg
      · obtain ⟨rest, found, h⟩ := Except.bind_eq_ok.1 h
        obtain rfl := Except.pure_eq_ok.1 h
        rintro x mem
        rcases List.mem_cons.1 mem with rfl | mem
        · exact sound _ (by simp)
        · exact ih (fun y hy => sound y (by simp at hy ⊢; exact .inr hy)) found x mem
      · exact absurd h not_refuse_eq_ok

theorem exprsOf_made {args : List FormArg} {out : List Expr}
    (sound : ∀ arg ∈ args, arg.Sound tidy rules) (h : exprsOf args = .ok out) :
    out.length = args.length ∧ ∀ e ∈ out, e.Made tidy rules := by
  induction args generalizing out with
  | nil =>
      obtain rfl : [] = out := by simpa [exprsOf] using h
      simp
  | cons arg args ih =>
      obtain ⟨x, first, h⟩ := Except.bind_eq_ok.1 h
      obtain ⟨rest, found, h⟩ := Except.bind_eq_ok.1 h
      obtain rfl := Except.pure_eq_ok.1 h
      obtain ⟨length, later⟩ := ih (fun y hy => sound y (by simp [hy])) found
      refine ⟨by simp [length], fun e mem => ?_⟩
      rcases List.mem_cons.1 mem with rfl | mem
      · exact (sound arg (by simp)).expr e first
      · exact later e mem

theorem levelsOf_made {args : List FormArg} {out : List (Fixity × Expr)}
    (sound : ∀ arg ∈ args, arg.Sound tidy rules) (h : levelsOf args = .ok out) :
    ∀ e ∈ out.map (·.2), e.Made tidy rules := by
  induction args generalizing out with
  | nil =>
      obtain rfl : [] = out := by simpa [levelsOf] using h
      simp
  | cons arg args ih =>
      obtain ⟨x, first, h⟩ := Except.bind_eq_ok.1 h
      obtain ⟨rest, found, h⟩ := Except.bind_eq_ok.1 h
      obtain rfl := Except.pure_eq_ok.1 h
      rintro e mem
      rcases List.mem_cons.1 mem with rfl | mem
      · exact (sound arg (by simp)).level _ first
      · exact ih (fun y hy => sound y (by simp [hy])) found e mem

theorem lowerRepetition_made {item : Expr} {least most : Option Bound} (made : item.Made tidy rules)
    (bounds : tidy → (∀ b ∈ least, b.Shown) ∧ ∀ b ∈ most, b.Shown)
    (h : lowerRepetition span item least most = .ok e) : e.Made tidy rules := by
  have list (order : BoundsInOrder least most) :
      (Expr.list ⟨0, span⟩ item least most).Made tidy rules :=
    ⟨⟨order, bounds⟩, by simpa [Expr.children] using made⟩
  simp only [lowerRepetition] at h
  split at h
  · split at h
    · exact absurd h not_refuse_eq_ok
    · next low high inOrder =>
      obtain rfl : _ = e := by simpa using h
      refine list fun m n hm hn => ?_
      simp only [Option.some.injEq, Bound.const.injEq] at hm hn
      omega
  · next other =>
    obtain rfl : _ = e := by simpa using h
    exact list fun m n hm hn => (other m n hm hn).elim

theorem lowerUnary_made (sound : ∀ arg ∈ args.map (·.2), arg.Sound tidy rules)
    (h : lowerUnary callee span args = .ok e) : e.Made tidy rules := by
  obtain ⟨slots, filled, h⟩ := Except.bind_eq_ok.1 h
  exact slotExpr_made (formSlots_sound sound filled) h

theorem lowerOperatorLevel_made {level : Fixity × Expr}
    (sound : ∀ arg ∈ args.map (·.2), arg.Sound tidy rules)
    (h : lowerOperatorLevel span callee args = .ok level) : level.2.Made tidy rules := by
  simp only [lowerOperatorLevel] at h
  split at h
  · exact absurd h not_refuse_eq_ok
  · obtain ⟨given, found, h⟩ := Except.bind_eq_ok.1 h
    obtain ⟨operators, lowered, h⟩ := Except.bind_eq_ok.1 h
    obtain ⟨-, made⟩ := exprsOf_made (positionalOnly_sound sound found) lowered
    split at h
    · exact absurd h not_refuse_eq_ok
    · obtain rfl := Except.pure_eq_ok.1 h
      exact made _ (by simp)
    · next none one =>
        obtain rfl := Except.pure_eq_ok.1 h
        refine ⟨?_, made⟩
        match operators, none, one with
        | [], none, _ => exact (none rfl).elim
        | [o], _, one => exact (one o rfl).elim
        | _ :: _ :: _, _, _ => simp [Expr.Fresh]

theorem Phrase.Tidy.host_plain {span : Span} {source : String} (h : (Phrase.host span source).Tidy) :
    backtick ∉ source.toList := by
  cases h
  assumption

theorem Phrase.Tidy.int_fits {span : Span} {n : Nat} (h : (Phrase.int span n).Tidy) :
    n < 0x8000000000000000 := by
  cases h
  assumption

/-- A bound given as an argument is one that can be written. -/
theorem lowerFormBound_shown {arg? : Option FormArg} {b? : Option Bound}
    (phrases : ∀ arg ∈ arg?, arg.phrase.bare.Tidy) (h : lowerFormBound arg? = .ok b?) :
    ∀ b ∈ b?, b.Shown := by
  cases arg? with
  | none =>
    obtain rfl : none = b? := by simpa [lowerFormBound] using h
    simp
  | some arg =>
    have tidy := phrases arg rfl
    simp only [lowerFormBound] at h
    generalize arg.phrase = phrase at tidy h
    split at h
    · next span n =>
      obtain rfl := Except.ok.inj h
      rintro b ⟨⟩
      have := tidy.int_fits
      simp only [Bound.Shown]
      omega
    · obtain rfl := Except.ok.inj h
      simp
    · next span source _ =>
      obtain ⟨snippet, lowered, h⟩ := Except.bind_eq_ok.1 h
      have shown := lowerSnippet_shown tidy.host_plain lowered
      split at h
      · obtain rfl := Except.pure_eq_ok.1 h
        simp
      · next n _ =>
        split at h
        · obtain rfl := Except.pure_eq_ok.1 h
          rintro b ⟨⟩
          have := n.toInt_lt
          simp only [Bound.Shown]
          omega
        · obtain rfl := Except.pure_eq_ok.1 h
          rintro b ⟨⟩
          exact shown
      · obtain rfl := Except.pure_eq_ok.1 h
        rintro b ⟨⟩
        exact shown
    · exact absurd h not_refuse_eq_ok

/-- A form builds an expression of those that it is given. -/
theorem lowerForm_made {form : Except Failure Expr}
    (sound : ∀ arg ∈ args.map (·.2), arg.Sound tidy rules)
    (h : lowerForm? span callee args = some form) (built : form = .ok e) : e.Made tidy rules := by
  have unary {f : Expr → Expr} (sub : ∀ x, x.Made tidy rules → (f x).Made tidy rules)
      (h : (lowerUnary callee span args).map f = .ok e) : e.Made tidy rules := by
    obtain ⟨x, lowered, rfl⟩ := Except.map_eq_ok.1 h
    exact sub x (lowerUnary_made sound lowered)
  have discard {b : Bool} (h : lowerDiscard callee span b args = .ok e) : e.Made tidy rules := by
    obtain ⟨slots, filled, h⟩ := Except.bind_eq_ok.1 h
    obtain ⟨left, first, h⟩ := Except.bind_eq_ok.1 h
    obtain ⟨right, second, h⟩ := Except.bind_eq_ok.1 h
    obtain rfl := Except.pure_eq_ok.1 h
    have filled := formSlots_sound sound filled
    exact ⟨trivial, by simpa [Expr.children] using
      ⟨slotExpr_made filled first, slotExpr_made filled second⟩⟩
  simp only [lowerForm?] at h
  split at h
  all_goals (first | simp only [Option.some.injEq, reduceCtorEq] at h)
  all_goals subst h
  · exact unary (f := .opt _) (fun x made => ⟨trivial, by simpa [Expr.children] using made⟩) built
  · refine unary (f := fun x => .list _ x _ _)
      (fun x made => ⟨⟨?_, fun _ => ⟨?_, by simp⟩⟩, by simpa [Expr.children] using made⟩) built
    · rintro m n - ⟨⟩
    · rintro b ⟨⟩
      simp [Bound.Shown]
  · exact unary (f := .expect _) (fun x made => ⟨trivial, by simpa [Expr.children] using made⟩) built
  · exact unary (f := .expectNot _)
      (fun x made => ⟨trivial, by simpa [Expr.children] using made⟩) built
  · obtain ⟨slots, filled, h⟩ := Except.bind_eq_ok.1 built
    obtain ⟨item, lowered, h⟩ := Except.bind_eq_ok.1 h
    obtain ⟨least, low, h⟩ := Except.bind_eq_ok.1 h
    obtain ⟨most, high, h⟩ := Except.bind_eq_ok.1 h
    have filled := formSlots_sound sound filled
    have phrases (given : tidy) (i : Nat) : ∀ arg ∈ slot? slots i, arg.phrase.bare.Tidy :=
      fun arg found => (filled arg (mem_of_slot? found)).phrase given
    exact lowerRepetition_made (slotExpr_made filled lowered)
      (fun given => ⟨lowerFormBound_shown (phrases given 1) low,
        lowerFormBound_shown (phrases given 2) high⟩) h
  · obtain ⟨slots, -, h⟩ := Except.bind_eq_ok.1 built
    have fails (message? : Option String) :
        (Expr.fail ⟨0, span⟩ message?).Made tidy rules := ⟨trivial, by simp [Expr.children]⟩
    split at h
    · obtain rfl := Except.pure_eq_ok.1 h
      exact fails _
    · split at h
      · obtain rfl := Except.pure_eq_ok.1 h
        exact fails _
      · exact absurd h not_refuse_eq_ok
  · exact discard built
  · exact discard built
  · obtain ⟨given, found, h⟩ := Except.bind_eq_ok.1 built
    split at h
    · exact absurd h not_refuse_eq_ok
    · next filled =>
      obtain ⟨items, lowered, h⟩ := Except.bind_eq_ok.1 h
      obtain rfl := Except.pure_eq_ok.1 h
      obtain ⟨length, made⟩ := exprsOf_made (positionalOnly_sound sound found) lowered
      refine ⟨fun empty => filled ?_, made⟩
      rw [empty] at length
      simpa using length.symm
  · obtain ⟨slots, filled, h⟩ := Except.bind_eq_ok.1 built
    obtain ⟨item, first, h⟩ := Except.bind_eq_ok.1 h
    obtain ⟨separator, second, h⟩ := Except.bind_eq_ok.1 h
    obtain ⟨_, -, h⟩ := Except.bind_eq_ok.1 h
    obtain ⟨_, -, h⟩ := Except.bind_eq_ok.1 h
    obtain ⟨_, -, h⟩ := Except.bind_eq_ok.1 h
    obtain rfl := Except.pure_eq_ok.1 h
    have filled := formSlots_sound sound filled
    exact ⟨trivial, by simpa [Expr.children] using
      ⟨slotExpr_made filled first, slotExpr_made filled second⟩⟩
  · obtain ⟨given, found, h⟩ := Except.bind_eq_ok.1 built
    have sound := positionalOnly_sound sound found
    split at h
    · exact absurd h not_refuse_eq_ok
    · obtain ⟨atom, first, h⟩ := Except.bind_eq_ok.1 h
      obtain ⟨levels, lowered, h⟩ := Except.bind_eq_ok.1 h
      obtain rfl := Except.pure_eq_ok.1 h
      have above := levelsOf_made (fun arg mem => sound arg (by simp [mem])) lowered
      refine ⟨trivial, fun c mem => ?_⟩
      rcases List.mem_cons.1 mem with rfl | mem
      · exact (sound _ (by simp)).expr _ first
      · exact above c mem

theorem lowerBound?_shown {b? : Option Phrase.Bound} {out : Option Bound}
    (bounds : ∀ b ∈ b?, b.Tidy) (h : lowerBound? span b? = .ok out) : ∀ b ∈ out, b.Shown := by
  cases b? with
  | none =>
    obtain rfl : none = out := by simpa [lowerBound?] using h
    simp
  | some b =>
    obtain ⟨c, lowered, rfl⟩ := Except.map_eq_ok.1 h
    rintro _ ⟨⟩
    have tidy := bounds b rfl
    cases b with
    | int n =>
      obtain rfl := Except.ok.inj lowered
      exact tidy
    | host source =>
      obtain ⟨snippet, trimmed, rfl⟩ := Except.map_eq_ok.1 lowered
      exact lowerSnippet_shown tidy trimmed

theorem lowerSuffix_made {suffix : Phrase.Suffix} {inner : Expr} (made : inner.Made tidy rules)
    (bounds : tidy → suffix.Tidy) (h : lowerSuffix span inner suffix = .ok e) :
    e.Made tidy rules := by
  cases suffix with
  | opt =>
      obtain rfl : _ = e := by simpa [lowerSuffix] using h
      exact ⟨trivial, by simpa [Expr.children] using made⟩
  | many =>
      obtain rfl : _ = e := by simpa [lowerSuffix] using h
      refine ⟨⟨?_, by simp⟩, by simpa [Expr.children] using made⟩
      rintro m n ⟨⟩
  | some =>
      obtain rfl : _ = e := by simpa [lowerSuffix] using h
      refine ⟨⟨?_, fun _ => ⟨?_, by simp⟩⟩, by simpa [Expr.children] using made⟩
      · rintro m n - ⟨⟩
      · rintro b ⟨⟩
        simp [Bound.Shown]
  | repeated least most =>
      obtain ⟨low, lower, h⟩ := Except.bind_eq_ok.1 h
      obtain ⟨high, upper, h⟩ := Except.bind_eq_ok.1 h
      exact lowerRepetition_made made (fun given =>
        ⟨lowerBound?_shown (bounds given).1 lower, lowerBound?_shown (bounds given).2 upper⟩) h

theorem alternatives_made (made : e.Made tidy rules) :
    0 < (alternatives e).length ∧ ∀ c ∈ alternatives e, c.Made tidy rules := by
  cases e with
  | choice tag items => exact ⟨Nat.lt_of_lt_of_le Nat.zero_lt_two made.here, made.parts⟩
  | _ => exact ⟨by simp [alternatives], by simpa [alternatives] using made⟩

theorem lowerOperator_made {left right : Expr} (l : left.Made tidy rules) (r : right.Made tidy rules)
    (op : Phrase.Operator) : (lowerOperator span op left right).Made tidy rules := by
  cases op with
  | choice =>
      obtain ⟨one, first⟩ := alternatives_made l
      obtain ⟨two, second⟩ := alternatives_made r
      refine ⟨?_, fun c mem => (List.mem_append.1 mem).elim (first c) (second c)⟩
      change 2 ≤ (alternatives left ++ alternatives right).length
      rw [List.length_append]
      omega
  | _ => exact ⟨trivial, by simpa [lowerOperator, Expr.children] using ⟨l, r⟩⟩

theorem lowerArgs_made {out : List (Option String × Expr)}
    (sound : ∀ arg ∈ args.map (·.2), arg.Sound tidy rules) (h : lowerArgs args = .ok out) :
    out.map (·.1) = args.map (·.1) ∧ ∀ e ∈ out.map (·.2), e.Made tidy rules := by
  induction args generalizing out with
  | nil =>
      obtain rfl : [] = out := by simpa [lowerArgs] using h
      simp
  | cons arg args ih =>
      obtain ⟨x, first, h⟩ := Except.bind_eq_ok.1 h
      obtain ⟨rest, found, h⟩ := Except.bind_eq_ok.1 h
      obtain rfl := Except.pure_eq_ok.1 h
      obtain ⟨labels, later⟩ := ih (fun y hy => sound y (by simp at hy ⊢; exact .inr hy)) found
      refine ⟨by simp [labels], fun e mem => ?_⟩
      rcases List.mem_cons.1 mem with rfl | mem
      · exact (sound arg.2 (by simp)).expr _ first
      · exact later e mem

theorem lowerCall_made (sound : ∀ arg ∈ args.map (·.2), arg.Sound tidy rules)
    (names : tidy → IsName callee ∧ ∀ label ∈ args.map (·.1), ∀ name, label = some name → IsName name)
    (h : lowerCall rules span callee args = .ok e) : e.Made tidy rules := by
  simp only [lowerCall] at h
  split at h
  · next form found =>
      split at found
      · simp at found
      · exact lowerForm_made sound found h
  · next noForm =>
    obtain ⟨given, lowered, h⟩ := Except.bind_eq_ok.1 h
    obtain rfl := Except.pure_eq_ok.1 h
    obtain ⟨labels, made⟩ := lowerArgs_made sound lowered
    refine ⟨⟨rfl, fun form => ?_, fun given' => ⟨(names given').1, fun arg mem name label => ?_⟩⟩, made⟩
    · by_contra other
      rw [if_neg (by simpa using other)] at noForm
      have known : (lowerForm? span callee args).isSome := lowerForm?_isSome_iff.2 form
      simp [noForm] at known
    · exact (names given').2 arg.1 (labels ▸ List.mem_map_of_mem mem) name label

end

/-! ### Phrases -/

theorem Phrase.Tidy.call_parts {span : Span} {callee : String} {args : List (Option String × Phrase)}
    (h : (Phrase.call span callee args).bare.Tidy) :
    IsName callee ∧ (∀ arg ∈ args, ∀ name, arg.1 = some name → IsName name) ∧
      ∀ arg ∈ args, arg.2.bare.Tidy := by
  rw [Phrase.bare, bareArgs_eq] at h
  cases h with
  | call _ isName labels parts =>
    have mapped : ∀ arg ∈ args, (arg.1, arg.2.bare) ∈ args.map fun arg => (arg.1, arg.2.bare) :=
      fun arg mem => List.mem_map.2 ⟨arg, mem, rfl⟩
    exact ⟨isName, fun arg mem name same => labels (arg.1, arg.2.bare) (mapped arg mem) name same,
      fun arg mem => parts (arg.1, arg.2.bare) (mapped arg mem)⟩

theorem labels_formArgs (rules : List String) (args : List (Option String × Phrase)) :
    (formArgs rules args).map (·.1) = args.map (·.1) := by
  induction args with
  | nil => rfl
  | cons arg args ih => simp [formArgs, ih]

section

variable {tidy : Prop}

mutual

/-- What is known of the expression of a phrase. -/
theorem Phrase.lower_made (rules : List String) :
    (p : Phrase) → (tidy → p.bare.Tidy) → ∀ e, p.lower rules = .ok e → e.Made tidy rules
  | .str span value _ binary, _, e, h => by
      obtain ⟨bytes, read, h⟩ := Except.bind_eq_ok.1 h
      obtain rfl := Except.pure_eq_ok.1 h
      refine ⟨⟨rfl, ?_⟩, by simp [Expr.children]⟩
      cases binary with
      | true => exact .inl rfl
      | false =>
        obtain rfl : _ = bytes := by simpa [literalBytes] using read
        exact .inr ⟨value, by simp⟩
  | .regex _ _ _ _, names, e, h => by
      obtain rfl : _ = e := by simpa [Phrase.lower] using h
      refine ⟨⟨rfl, fun given => ?_⟩, by simp [Expr.children]⟩
      cases names given
      assumption
  | .ref _ _, names, e, h => by
      obtain rfl : _ = e := by simpa [Phrase.lower] using h
      refine ⟨⟨rfl, fun given => ?_⟩, by simp [Expr.children]⟩
      cases names given
      assumption
  | .call span callee args, names, e, h => by
      refine lowerCall_made (formArgs_sound rules args fun given => (names given).call_parts.2.2)
        (fun given => ⟨(names given).call_parts.1, fun label mem name same => ?_⟩) h
      rw [labels_formArgs] at mem
      obtain ⟨arg, mem', rfl⟩ := List.mem_map.1 mem
      exact (names given).call_parts.2.1 arg mem' name same
  | .sequence span items, names, e, h => by
      obtain ⟨es, lowered, h⟩ := Except.bind_eq_ok.1 h
      obtain rfl := Except.pure_eq_ok.1 h
      refine ⟨rfl, lowerPhrases_made rules items (fun given => ?_) es lowered⟩
      cases names given with
      | sequence _ parts => simpa using parts
  | .suffixed span inner suffix, names, e, h => by
      obtain ⟨x, lowered, h⟩ := Except.bind_eq_ok.1 h
      refine lowerSuffix_made (inner.lower_made rules (fun given => ?_) x lowered)
        (fun given => ?_) h
      · cases names given
        assumption
      · cases names given
        assumption
  | .binary span op left right, names, e, h => by
      obtain ⟨l, first, h⟩ := Except.bind_eq_ok.1 h
      obtain ⟨r, second, h⟩ := Except.bind_eq_ok.1 h
      obtain rfl := Except.pure_eq_ok.1 h
      refine lowerOperator_made (left.lower_made rules (fun given => ?_) l first)
        (right.lower_made rules (fun given => ?_) r second) op
      · cases names given
        assumption
      · cases names given
        assumption
  | .bound span name value body, names, e, h => by
      obtain ⟨v, first, h⟩ := Except.bind_eq_ok.1 h
      obtain ⟨b, second, h⟩ := Except.bind_eq_ok.1 h
      obtain rfl := Except.pure_eq_ok.1 h
      have parts (given : tidy) : IsName name ∧ value.bare.Tidy ∧ body.bare.Tidy := by
        cases names given with
        | bound _ isName first second => exact ⟨isName, first, second⟩
      exact ⟨fun given => (parts given).1, by simpa [Expr.children] using
        ⟨value.lower_made rules (fun given => (parts given).2.1) v first,
          body.lower_made rules (fun given => (parts given).2.2) b second⟩⟩
  | .host _ _, names, e, h => by
      obtain ⟨s, lowered, h⟩ := Except.bind_eq_ok.1 h
      obtain rfl := Except.pure_eq_ok.1 h
      exact ⟨fun given => lowerSnippet_shown (names given).host_plain lowered,
        by simp [Expr.children]⟩
  | .int _ _, names, e, h => by
      obtain rfl : _ = e := by simpa [Phrase.lower] using h
      exact ⟨fun given => lowerInteger_shown (names given).int_fits, by simp [Expr.children]⟩

theorem lowerPhrases_made (rules : List String) :
    (ps : List Phrase) → (tidy → ∀ p ∈ ps, p.bare.Tidy) →
      ∀ es, lowerPhrases rules ps = .ok es → ∀ e ∈ es, e.Made tidy rules
  | [], _, es, h => by
      obtain rfl : [] = es := by simpa [lowerPhrases] using h
      simp
  | p :: ps, names, es, h => by
      obtain ⟨x, first, h⟩ := Except.bind_eq_ok.1 h
      obtain ⟨rest, found, h⟩ := Except.bind_eq_ok.1 h
      obtain rfl := Except.pure_eq_ok.1 h
      rintro e mem
      rcases List.mem_cons.1 mem with rfl | mem
      · exact p.lower_made rules (fun given => names given p (by simp)) _ first
      · exact lowerPhrases_made rules ps (fun given q hq => names given q (by simp [hq])) rest found
          e mem

theorem formArgs_sound (rules : List String) :
    (args : List (Option String × Phrase)) → (tidy → ∀ arg ∈ args, arg.2.bare.Tidy) →
      ∀ arg ∈ (formArgs rules args).map (·.2), arg.Sound tidy rules
  | [], _, arg, mem => by simp [formArgs] at mem
  | (keyword, p) :: rest, names, arg, mem => by
      simp only [formArgs, List.map_cons] at mem
      rcases List.mem_cons.1 mem with rfl | mem
      · have first (given : tidy) : p.bare.Tidy := names given (keyword, p) (by simp)
        exact ⟨first, fun e h => p.lower_made rules first e h,
          fun l h => p.lowerLevel_made rules first l h⟩
      · exact formArgs_sound rules rest (fun given a ha => names given a (by simp [ha])) arg mem

theorem Phrase.lowerLevel_made (rules : List String) :
    (p : Phrase) → (tidy → p.bare.Tidy) →
      ∀ l, p.lowerLevel rules = .ok l → l.2.Made tidy rules
  | .call _ _ args, names, _, h => by
      exact lowerOperatorLevel_made
        (formArgs_sound rules args fun given => (names given).call_parts.2.2) h
  | .str _ _ _ _, _, _, h | .regex _ _ _ _, _, _, h | .ref _ _, _, _, h | .sequence _ _, _, _, h
  | .suffixed _ _ _, _, _, h | .binary _ _ _ _, _, _, h | .bound _ _ _ _, _, _, h
  | .host _ _, _, _, h | .int _ _, _, _, h => absurd h not_refuse_eq_ok

end

end

/-- A phrase becomes a plain expression. -/
theorem Phrase.lower_raw (rules : List String) (p : Phrase) (e : Expr)
    (h : p.lower rules = .ok e) : e.Raw :=
  have made : e.Made False rules := p.lower_made rules False.elim e h
  made.raw

theorem lowerPhrases_raw (rules : List String) (ps : List Phrase) (es : List Expr)
    (h : lowerPhrases rules ps = .ok es) : ∀ e ∈ es, e.Raw :=
  fun e mem =>
  have made : e.Made False rules := lowerPhrases_made rules ps False.elim es h e mem
  made.raw

/-! ### Descriptions -/

/-- A definition fresh from a description: only the rule for ignored content is synthetic, and it
takes no arguments. -/
structure Definition.Raw (d : Definition) : Prop where
  body : d.body.Raw
  synthetic : d.synthetic = true → d.params = none

theorem lowerStatement_raw {rules : List String} {text : String} {g out : Grammar} {s : Statement}
    (raw : ∀ d ∈ g.definitions, d.Raw) (h : lowerStatement rules text g s = .ok out) :
    ∀ d ∈ out.definitions, d.Raw := by
  have added {d : Definition} (new : d.Raw) : ∀ x ∈ g.definitions ++ [d], x.Raw := by
    intro x mem
    rcases List.mem_append.1 mem with mem | mem
    · exact raw x mem
    · obtain rfl := List.mem_singleton.1 mem
      exact new
  cases s with
  | rule r =>
      obtain ⟨d, lowered, h⟩ := Except.bind_eq_ok.1 h
      obtain rfl := Except.pure_eq_ok.1 h
      obtain ⟨body, found, h⟩ := Except.bind_eq_ok.1 lowered
      obtain rfl := Except.pure_eq_ok.1 h
      exact added ⟨r.body.lower_raw rules body found, by simp⟩
  | cls c =>
      obtain ⟨d, lowered, h⟩ := Except.bind_eq_ok.1 h
      obtain rfl := Except.pure_eq_ok.1 h
      obtain ⟨items, found, h⟩ := Except.bind_eq_ok.1 lowered
      obtain rfl := Except.pure_eq_ok.1 h
      exact added ⟨⟨trivial, lowerPhrases_raw rules _ items found⟩, by simp⟩
  | hostSection source span =>
      obtain ⟨_, -, h⟩ := Except.bind_eq_ok.1 h
      obtain rfl := Except.pure_eq_ok.1 h
      exact raw

theorem addSkipRule_raw {g out : Grammar} (raw : ∀ d ∈ g.definitions, d.Raw)
    (h : addSkipRule g = .ok out) : ∀ d ∈ out.definitions, d.Raw := by
  simp only [addSkipRule] at h
  split at h
  · obtain rfl : g = out := by simpa using h
    exact raw
  · split at h
    · exact absurd h not_refuse_eq_ok
    · obtain rfl : _ = out := by simpa using h
      intro d mem
      rcases List.mem_append.1 mem with mem | mem
      · exact raw d mem
      · obtain rfl := List.mem_singleton.1 mem
        refine ⟨⟨trivial, fun c mem => ?_⟩, fun _ => rfl⟩
        obtain ⟨_, -, rfl⟩ := List.mem_map.1 mem
        exact ⟨rfl, by simp [Expr.children]⟩

/-- The definitions of a description have plain bodies. -/
theorem Description.lower_raw {description : Description} {text : String} {g : Grammar}
    (h : description.lower text = .ok g) : ∀ d ∈ g.definitions, d.Raw := by
  obtain ⟨before, folded, h⟩ := Except.bind_eq_ok.1 h
  have raw : ∀ d ∈ before.definitions, d.Raw :=
    Except.foldlM_keeps (P := fun g => ∀ d ∈ g.definitions, d.Raw)
      (fun _ _ _ _ raw => lowerStatement_raw raw) (by simp) folded
  exact addSkipRule_raw raw h

end Packrat
