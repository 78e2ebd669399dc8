import Packrat.Proofs.Evaluation.Parametricity

/-
**Comparisons by identity.**

Host code compares shared objects by their identities, and parsers by the numbers of their functions.
It does not tell apart what is alike if identities and numbers go together one to one.

Main definitions:

* `Packrat.Likeness.Faithful` — identities and functions that go together one to one.

Main results:

* `Packrat.Likeness.Faithful.compareOp_eq` — **comparisons do not tell apart what is alike**.
-/

set_option autoImplicit false

namespace Packrat.Likeness

open Host

/-- Identities go together one to one, and functions do. -/
structure Faithful (L : Likeness) : Prop where
  ids : ∀ {i j i' j'}, L.ids i j → L.ids i' j' → (i = i' ↔ j = j')
  functions : ∀ {k l k' l'}, L.functions k l → L.functions k' l' → (k = k' ↔ l = l')

namespace Faithful

variable {L : Likeness} {a b a' b' : Value} {xs ys xs' ys' : List Value}

theorem beq_ids (faithful : L.Faithful) {i j i' j' : Nat} (h : L.ids i j) (h' : L.ids i' j') :
    (i == i') = (j == j') := by
  rw [Bool.eq_iff_iff, beq_iff_eq, beq_iff_eq]
  exact faithful.ids h h'

theorem beq_functions (faithful : L.Faithful) {k l k' l' : Nat} (h : L.functions k l)
    (h' : L.functions k' l') : (k == k') = (l == l') := by
  rw [Bool.eq_iff_iff, beq_iff_eq, beq_iff_eq]
  exact faithful.functions h h'

mutual

theorem eq_eq (faithful : L.Faithful) {a b a' b' : Value} (ha : Alike L a a') (hb : Alike L b b') :
    a.eq b = a'.eq b' :=
  match a, a', ha with
  | _, _, .list ids xs => by
      cases hb with
      | list ids' ys => rw [Value.eq, Value.eq, faithful.eqAll_eq xs ys, faithful.beq_ids ids ids']
      | _ => simp only [Value.eq]
  | _, _, .node ids _ xs _ => by
      cases hb with
      | node ids' _ ys _ => rw [Value.eq, Value.eq, faithful.eqAll_eq xs ys, faithful.beq_ids ids ids']
      | _ => simp only [Value.eq]
  | _, _, .func ids _ => by
      cases hb with
      | func ids' _ => rw [Value.eq, Value.eq, faithful.beq_ids ids ids']
      | _ => simp only [Value.eq]
  | _, _, .parser ids functions xs _ => by
      cases hb with
      | parser ids' functions' ys _ =>
          rw [Value.eq, Value.eq, faithful.eqAll_eq xs ys, faithful.beq_ids ids ids',
            faithful.beq_functions functions functions']
      | _ => simp only [Value.eq]
  | _, _, .none | _, _, .bool _ | _, _, .int _ | _, _, .float _ | _, _, .str _ | _, _, .bytes _
  | _, _, .failure _ _ => by cases hb <;> simp only [Value.eq]

theorem eqAll_eq (faithful : L.Faithful) {xs ys xs' ys' : List Value} (hx : AlikeAll L xs xs')
    (hy : AlikeAll L ys ys') : Value.eqAll xs ys = Value.eqAll xs' ys' :=
  match xs, xs', hx with
  | _, _, .nil => by cases hy <;> simp only [Value.eqAll]
  | _, _, .cons x xs => by
      cases hy with
      | nil => simp only [Value.eqAll]
      | cons y ys =>
          rw [Value.eqAll, Value.eqAll, faithful.eq_eq x y, faithful.eqAll_eq xs ys]

end

variable (faithful : L.Faithful)

include faithful

theorem same_eq (ha : Alike L a a') (hb : Alike L b b') : a.same b = a'.same b' := by
  have eq := faithful.eq_eq ha hb
  cases ha with
  | list ids _ | node ids _ _ _ | func ids _ | parser ids _ _ _ =>
      cases hb with
      | list ids' _ | node ids' _ _ _ | func ids' _ | parser ids' _ _ _ =>
          first | exact faithful.beq_ids ids ids' | exact eq
      | _ => exact eq
  | _ => cases hb <;> exact eq

theorem any_eq (h : AlikeAll L xs xs') (hb : Alike L b b') :
    (xs.any fun v => v.eq b) = xs'.any fun v => v.eq b' := by
  induction xs generalizing xs' with
  | nil =>
      cases h
      rfl
  | cons x xs ih =>
      cases h with
      | cons head tail => rw [List.any_cons, List.any_cons, faithful.eq_eq head hb, ih tail]

theorem contains_eq (ha : Alike L a a') (hb : Alike L b b') :
    Host.contains a b = Host.contains a' b' := by
  cases ha with
  | list _ items | node _ _ items _ =>
      have any := faithful.any_eq items hb
      cases hb <;> exact congrArg Except.ok any
  | bytes bs =>
      have any := faithful.any_eq
        (.map_refl (fun b : UInt8 => .int (Int64.ofNat b.toNat)) (fun b => .int _) bs) hb
      cases hb with
      | bytes _ => rfl
      | _ => exact congrArg Except.ok any
  | _ => cases hb <;> rfl

theorem compareOp_eq (op : Comparison) (ha : Alike L a a') (hb : Alike L b b') :
    compareOp op a b = compareOp op a' b' := by
  simp only [compareOp, faithful.eq_eq ha hb, faithful.same_eq ha hb, ha.compareValues?_eq hb,
    faithful.contains_eq hb ha, ha.typeName_eq, hb.typeName_eq]

end Faithful

end Packrat.Likeness
