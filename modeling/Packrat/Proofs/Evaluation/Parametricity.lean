import Packrat.Proofs.Evaluation.Likeness
import Packrat.Proofs.Evaluation.Steps

/-
**Host code does not tell apart what is alike.**

Each operation of host code comes to the same on values that are alike, and so does the evaluation
of a term in environments that are alike, as long as comparisons and functions from outside do.
Where likeness is that of values with themselves, this says that host code makes no marks of
failures out of values without any, and no parsers.

Main definitions:

* `Packrat.Likeness.Respects` — a library that does not tell apart what is alike.

Main results:

* `Packrat.Likeness.Respects.evalWith` — terms, by induction on them;
* `Packrat.Likeness.Respects.apply` — calls, by induction on how deep they are nested;
* `Packrat.Likeness.Respects.evalIn`, `Packrat.Likeness.Respects.callIn` — **host code comes to the
  same on values that are alike**.
-/

set_option autoImplicit false

namespace Packrat

open Host

namespace Likeness

variable {L : Likeness} {a b a' b' : Value} {xs ys : List Value}

/-! ### Numbers and texts -/

/-- What comes to values that are like themselves. -/
theorem Agree.self {ε : Type} {x : Except ε Value} (h : ∀ v, x = .ok v → Alike L v v) :
    Agree (Alike L) x x := by
  cases x with
  | ok v => exact .ok (h v rfl)
  | error e => exact .error e

theorem Agree.self_eq {ε : Type} {x y : Except ε Value} (same : x = y)
    (h : ∀ v, x = .ok v → Alike L v v) : Agree (Alike L) x y := by
  subst same
  exact .self h

theorem alike_exactly {n : Int} {v : Value} (h : exactly n = .ok v) : Alike L v v := by
  rw [exactly] at h
  split at h
  · obtain rfl := Except.ok.inj h
    exact .int _
  · cases h

theorem alike_integerPow {n : Int} {e : Nat} {v : Value} (h : integerPow n e = .ok v) :
    Alike L v v := by
  simp only [integerPow] at h
  repeat' split at h
  all_goals first | exact alike_exactly h | cases h

theorem alike_floorRemainder {x y : Int64} {v : Value} (h : floorRemainder x y = .ok v) :
    Alike L v v := by
  obtain ⟨r, -, rfl⟩ := Except.map_eq_ok.1 h
  exact .int _

theorem alike_floorQuotient {x y : Int64} {v : Value} (h : floorQuotient x y = .ok v) :
    Alike L v v := by
  rw [floorQuotient] at h
  split at h
  · obtain ⟨r, -, rfl⟩ := Except.map_eq_ok.1 h
    exact .int _
  · cases h

theorem alike_integerOp {op : BinaryOp} {x y : Int64} {v : Value} (h : integerOp op x y = .ok v) :
    Alike L v v := by
  cases op <;> simp only [integerOp] at h
  case add | sub | mul => exact alike_exactly h
  all_goals
    repeat' split at h
    all_goals first
      | exact alike_exactly h
      | exact alike_integerPow h
      | exact alike_floorQuotient h
      | exact alike_floorRemainder h
      | (obtain rfl := Except.ok.inj h; exact .float _)
      | cases h

theorem alike_floatOp {op : BinaryOp} {x y : Float} {v : Value} (h : floatOp op x y = .ok v) :
    Alike L v v := by
  cases op <;> simp only [floatOp] at h
  all_goals
    repeat' split at h
    all_goals first
      | (obtain rfl := Except.ok.inj h; exact .float _)
      | cases h

theorem numberOp_alike (op : BinaryOp) (ha : Alike L a a') (hb : Alike L b b') :
    Agree (Alike L) (numberOp op a b) (numberOp op a' b') := by
  refine .self_eq ?_ fun v h => ?_
  · simp only [numberOp, ha.asInt?_eq, hb.asInt?_eq, ha.toFloat?_eq, hb.toFloat?_eq,
      ha.typeName_eq, hb.typeName_eq]
  · simp only [numberOp] at h
    repeat' split at h
    all_goals first | exact alike_integerOp h | exact alike_floatOp h | cases h

theorem unaryOp_alike (op : UnaryOp) (h : Alike L a a') :
    Agree (Alike L) (unaryOp op a) (unaryOp op a') := by
  refine .self_eq ?_ fun v hv => ?_
  · cases op with
    | not => simp only [unaryOp, h.truthy_eq]
    | neg | pos => cases h <;> rfl
  · cases op with
    | not =>
        obtain rfl := Except.ok.inj hv
        exact .bool _
    | neg => cases h with
      | int n => exact alike_exactly hv
      | float x =>
          obtain rfl := Except.ok.inj hv
          exact .float _
      | _ => cases hv
    | pos => cases h with
      | int n =>
          obtain rfl := Except.ok.inj hv
          exact .int _
      | float x =>
          obtain rfl := Except.ok.inj hv
          exact .float _
      | _ => cases hv

theorem repeatList_alike (h : AlikeAll L xs ys) (size : Nat) (times : Int64) :
    Agree (AlikeAll L) (repeatList size xs times) (repeatList size ys times) := by
  simp only [repeatList, h.isEmpty_eq]
  split
  · exact .ok .nil
  · split
    · exact .error _
    · exact .ok (h.flatten_replicate _)

theorem binaryOp_alike (op : BinaryOp) (ha : Alike L a a') (hb : Alike L b b') :
    AgreeOn L (Alike L) (binaryOp op a b) (binaryOp op a' b') := by
  have numbers : AgreeOn L (Alike L) (numberOp op a b) (numberOp op a' b') :=
    .lift (numberOp_alike op ha hb)
  have text (s : String) (n : Int64) : AgreeOn L (Alike L)
      (do let cs ← repeatList s.utf8ByteSize s.toList n; Pure.pure (.str (String.ofList cs)))
      (do let cs ← repeatList s.utf8ByteSize s.toList n; Pure.pure (.str (String.ofList cs))) :=
    .bind (.lift (.of_eq rfl)) fun _ _ same => same ▸ .pure (.str _)
  have items (n : Int64) {xs ys : List Value} (h : AlikeAll L xs ys) : AgreeOn L (Alike L)
      (do let items ← repeatList (valueSize * xs.length) xs n; Value.newList items)
      (do let items ← repeatList (valueSize * ys.length) ys n; Value.newList items) :=
    h.length_eq ▸ .bind (.lift (repeatList_alike h _ n)) fun _ _ both => .newList both
  cases op with
  | add =>
      cases ha with
      | str s => cases hb with
        | str t => exact .pure (.str _)
        | _ => exact numbers
      | bytes s => cases hb with
        | bytes t => exact .pure (.bytes _)
        | _ => exact numbers
      | list _ xs => cases hb with
        | list _ ys => exact .newList (xs.append ys)
        | _ => exact numbers
      | _ => exact numbers
  | mul =>
      cases ha with
      | str s => cases hb with
        | int n => exact text s n
        | _ => exact numbers
      | list _ xs => cases hb with
        | int n => exact items n xs
        | _ => exact numbers
      | int n => cases hb with
        | str s => exact text s n
        | list _ xs => exact items n xs
        | _ => exact numbers
      | _ => exact numbers
  | _ => exact numbers

/-! ### Sequences -/

theorem iterate_alike (callee : String) (h : Alike L a b) :
    Agree (AlikeAll L) (iterate callee a) (iterate callee b) := by
  cases h with
  | list _ items => exact .ok items
  | str s => exact .ok (.map_refl _ (fun c => .str _) _)
  | bytes bs => exact .ok (.map_refl _ (fun b => .int _) _)
  | node _ _ values _ => exact .ok values
  | _ => exact .error _

theorem resolveIndex_eq (h : Alike L a b) (length : Nat) :
    resolveIndex a length = resolveIndex b length := by
  simp only [resolveIndex, h.asInt?_eq, h.typeName_eq]

theorem boundOr_eq {lower lower' : Option Value} (h : AlikeOption L lower lower')
    (default length : Nat) : boundOr default lower length = boundOr default lower' length := by
  cases h with
  | none => rfl
  | some h => cases h <;> rfl

theorem slice_alike (h : AlikeAll L xs ys) (start stop : Nat) :
    Agree (AlikeAll L) (slice start stop xs) (slice start stop ys) := by
  simp only [slice, h.length_eq]
  split
  · exact .ok (.of_forall₂ (List.forall₂_drop _ (List.forall₂_take _ h.forall₂)))
  · exact .error _

theorem sliceList_alike {lower upper lower' upper' : Option Value} (hl : AlikeOption L lower lower')
    (hu : AlikeOption L upper upper') (h : AlikeAll L xs ys) :
    Agree (AlikeAll L) (sliceList lower upper xs) (sliceList lower' upper' ys) := by
  simp only [sliceList, h.length_eq, boundOr_eq hl, boundOr_eq hu]
  refine .bind (.of_eq rfl) fun start _ same => .bind (.of_eq rfl) fun stop _ same' => ?_
  subst same same'
  exact slice_alike h start (max stop start)

theorem sliceList_eq {α : Type} {lower upper lower' upper' : Option Value}
    (hl : AlikeOption L lower lower') (hu : AlikeOption L upper upper') (cs : List α) :
    sliceList lower upper cs = sliceList lower' upper' cs := by
  simp only [sliceList, boundOr_eq hl, boundOr_eq hu]

theorem sliceValue_alike {lower upper lower' upper' : Option Value} (h : Alike L a b)
    (hl : AlikeOption L lower lower') (hu : AlikeOption L upper upper') :
    AgreeOn L (Alike L) (sliceValue a lower upper) (sliceValue b lower' upper') := by
  cases h with
  | list _ items =>
      exact .bind (.lift (sliceList_alike hl hu items)) fun _ _ both => .newList both
  | str s =>
      exact .bind (.lift (.of_eq (sliceList_eq hl hu _))) fun _ _ same => same ▸ .pure (.str _)
  | bytes bs =>
      exact .bind (.lift (.of_eq (sliceList_eq hl hu _))) fun _ _ same => same ▸ .pure (.bytes _)
  | _ => exact .throw _

theorem itemAt_alike (h : AlikeAll L xs ys) (hi : Alike L a b) :
    Agree (Alike L) (itemAt xs a) (itemAt ys b) := by
  simp only [itemAt, h.length_eq, resolveIndex_eq hi]
  refine .bind (.of_eq rfl) fun i _ same => ?_
  subst same
  have item := h.getElem? i
  revert item
  cases xs[i]? <;> cases ys[i]? <;> intro item <;> cases item
  · exact .error _
  · rename_i item
    exact .ok item

theorem itemAt_eq {α : Type} (cs : List α) (h : Alike L a b) : itemAt cs a = itemAt cs b := by
  simp only [itemAt, resolveIndex_eq h]

theorem memberOf_alike (h : Alike L a b) (name : String) :
    AgreeOn L (Alike L) (memberOf a name) (memberOf b name) := by
  cases h with
  | str s =>
      simp only [memberOf]
      split
      · exact .newFunc (.method _ _)
      · exact .throw _
  | bytes bs =>
      simp only [memberOf]
      split
      · exact .newFunc (.decoder _)
      · exact .throw _
  | node _ cls values extent? =>
      have field := values.lookup_zip name cls.fields
      have place (p : Position) : AgreeOn L (Alike L) (positionNode p) (positionNode p) :=
        .newNode _ (.cons (.int _) (.cons (.int _) (.cons (.int _) .nil)))
      simp only [memberOf, Value.field?]
      split
      · exact .newList (.map_refl _ (fun n => .str n) _)
      split
      · cases extent? with
        | none => exact .pure .none
        | some extent =>
            exact .bind (place _) fun _ _ start => .bind (place _) fun _ _ stop =>
              .newNode _ (.cons start (.cons stop .nil))
      · revert field
        generalize List.lookup name _ = left
        generalize List.lookup name _ = right
        intro field
        cases field with
        | none => exact .throw _
        | some h => exact .pure h
  | _ => exact .throw _

theorem subscript_alike (h : Alike L a b) (hi : Alike L a' b') :
    AgreeOn L (Alike L) (subscript a a') (subscript b b') := by
  cases h with
  | list _ items => exact .lift (itemAt_alike items hi)
  | str s => exact .bind (.lift (.of_eq (itemAt_eq _ hi))) fun _ _ same => same ▸ .pure (.str _)
  | bytes bs => exact .bind (.lift (.of_eq (itemAt_eq _ hi))) fun _ _ same => same ▸ .pure (.int _)
  | node ids cls values extent? =>
      cases hi with
      | str field => exact memberOf_alike (.node ids cls values extent?) field
      | _ => exact .lift (itemAt_alike values (by constructor <;> assumption))
  | _ => exact .throw _

/-! ### Builtins -/

theorem checkArity_eq (h : AlikeAll L xs ys) (callee : String) (least most : Nat) :
    checkArity callee least most xs = checkArity callee least most ys := by
  simp only [checkArity, h.length_eq]

theorem checkArity_agree (h : AlikeAll L xs ys) (callee : String) (least most : Nat) :
    Agree (fun _ _ => True) (checkArity callee least most xs) (checkArity callee least most ys) := by
  rw [checkArity_eq h]
  cases checkArity callee least most ys with
  | ok u => exact .ok trivial
  | error e => exact .error e

theorem alike_readInt {text : String} {base : Nat} {v : Value} (h : readInt text base = .ok v) :
    Alike L v v := by
  rw [readInt] at h
  split at h
  · obtain rfl := Except.ok.inj h
    exact .int _
  · cases h

/-- The conversion to an integer, once the base is known. -/
theorem convert_alike (base : Nat) (a b : Value) : Alike L a b →
    Agree (Alike L)
      (match a with
        | .int n => Pure.pure (.int n)
        | .bool b => Pure.pure (.int (if b then 1 else 0))
        | .float x =>
          if x.isFinite then Pure.pure (.int (Decimal.floatToInt64 x))
          else throw (.wrongType "int" "a number or string" "float")
        | .str s => readInt (Text.trim s) base
        | .bytes bs => readInt (Text.trim (Text.Utf8.decodeText bs)) base
        | v => throw (.wrongType "int" "a number or string" v.typeName) : Except Error Value)
      (match b with
        | .int n => Pure.pure (.int n)
        | .bool b => Pure.pure (.int (if b then 1 else 0))
        | .float x =>
          if x.isFinite then Pure.pure (.int (Decimal.floatToInt64 x))
          else throw (.wrongType "int" "a number or string" "float")
        | .str s => readInt (Text.trim s) base
        | .bytes bs => readInt (Text.trim (Text.Utf8.decodeText bs)) base
        | v => throw (.wrongType "int" "a number or string" v.typeName)) := by
  intro h
  cases h with
  | int n => exact .ok (.int n)
  | bool b => exact .ok (.int _)
  | float x =>
      dsimp only
      split
      · exact .ok (.int _)
      · exact .error _
  | str s => exact .self fun v => alike_readInt
  | bytes bs => exact .self fun v => alike_readInt
  | _ => exact .error _

theorem toInteger_alike (h : AlikeAll L xs ys) :
    Agree (Alike L) (toInteger xs) (toInteger ys) := by
  refine (checkArity_agree h _ _ _).bind fun _ _ _ => ?_
  have base := h.getElem? 1
  revert base
  generalize xs[1]? = o
  generalize ys[1]? = o'
  intro base
  cases base with
  | none => exact convert_alike 10 _ _ h.headD
  | some v =>
      cases v with
      | int b =>
          dsimp only
          split
          · exact convert_alike _ _ _ h.headD
          · exact .error _
      | _ => exact .error _

theorem toFloat_alike (h : AlikeAll L xs ys) :
    Agree (Alike L) (toFloat xs) (toFloat ys) := by
  refine (checkArity_agree h _ _ _).bind fun _ _ _ => ?_
  have head := h.headD
  revert head
  generalize xs.headD .none = v
  generalize ys.headD .none = w
  intro head
  cases head with
  | str s =>
      dsimp only
      split
      · exact .ok (.float _)
      · exact .error _
  | bool b => exact .ok (.float _)
  | int n => exact .ok (.float _)
  | float x => exact .ok (.float _)
  | _ => exact .error _

theorem lengthOf_alike (h : AlikeAll L xs ys) :
    Agree (Alike L) (lengthOf xs) (lengthOf ys) := by
  refine (checkArity_agree h _ _ _).bind fun _ _ _ => ?_
  have head := h.headD
  revert head
  generalize xs.headD .none = v
  generalize ys.headD .none = w
  intro head
  cases head with
  | str s => exact .ok (.int _)
  | bytes bs => exact .ok (.int _)
  | list _ items =>
      dsimp only
      rw [items.length_eq]
      exact .ok (.int _)
  | node _ _ values _ =>
      dsimp only
      rw [values.length_eq]
      exact .ok (.int _)
  | _ => exact .error _

/-- Which numbers fit does not matter to a magnitude. -/
theorem magnitudeOf_alike (fits : Int → Option Int64) (a b : Value) : Alike L a b →
    Agree (Alike L)
      (match a with
        | .int n =>
          match fits n.toInt.natAbs with
          | some m => Pure.pure (.int m)
          | none => throw (.overflowIn "abs")
        | .float x => Pure.pure (.float x.abs)
        | .bool b => Pure.pure (.int (if b then 1 else 0))
        | v => throw (.wrongType "abs" "a number" v.typeName) : Except Error Value)
      (match b with
        | .int n =>
          match fits n.toInt.natAbs with
          | some m => Pure.pure (.int m)
          | none => throw (.overflowIn "abs")
        | .float x => Pure.pure (.float x.abs)
        | .bool b => Pure.pure (.int (if b then 1 else 0))
        | v => throw (.wrongType "abs" "a number" v.typeName)) := by
  intro h
  cases h with
  | int n =>
      dsimp only
      generalize fits _ = m
      cases m with
      | some m => exact .ok (.int m)
      | none => exact .error _
  | float x => exact .ok (.float _)
  | bool b => exact .ok (.int _)
  | _ => exact .error _

theorem magnitude_alike (h : AlikeAll L xs ys) :
    Agree (Alike L) (magnitude xs) (magnitude ys) := by
  rw [magnitude, magnitude]
  generalize fit? = fits
  exact (checkArity_agree h _ _ _).bind fun _ _ _ => magnitudeOf_alike fits _ _ h.headD

theorem extremumFrom_alike (callee : String) (wanted : Ordering) (ha : Alike L a b)
    (h : AlikeAll L xs ys) :
    Agree (Alike L) (extremumFrom callee wanted a xs) (extremumFrom callee wanted b ys) := by
  induction xs generalizing a b ys with
  | nil =>
      cases h
      exact .ok ha
  | cons x xs ih =>
      cases h with
      | cons head tail =>
          simp only [extremumFrom, head.compareValues?_eq ha, head.typeName_eq, ha.typeName_eq]
          split
          · refine ih ?_ tail
            split
            · exact head
            · exact ha
          · exact .error _

theorem extremum_alike (callee : String) (wanted : Ordering) (h : AlikeAll L xs ys) :
    Agree (Alike L) (extremum callee wanted xs) (extremum callee wanted ys) := by
  have items (vs ws : List Value) (h : AlikeAll L vs ws) :
      Agree (Alike L) (extremumOf callee wanted vs) (extremumOf callee wanted ws) := by
    cases h with
    | nil => exact .error _
    | cons head tail => exact extremumFrom_alike callee wanted head tail
  cases h with
  | nil => exact .error _
  | cons head tail =>
      cases tail with
      | nil => exact (iterate_alike callee head).bind items
      | cons second rest => exact items _ _ (.cons head (.cons second rest))

/-- A sum of floats, once the rest of it is known. -/
theorem sumFloats_alike {f g : Value → Except Error Value} (ha : Alike L a b) (hb : Alike L a' b')
    (next : ∀ x, Agree (Alike L) (f (.float x)) (g (.float x))) :
    Agree (Alike L)
      (match toFloat? a, toFloat? a' with
        | some x, some y => f (.float (x + y))
        | _, _ => .error (.wrongType "sum" "numbers" a'.typeName))
      (match toFloat? b, toFloat? b' with
        | some x, some y => g (.float (x + y))
        | _, _ => .error (.wrongType "sum" "numbers" b'.typeName)) := by
  rw [ha.toFloat?_eq, hb.toFloat?_eq, hb.typeName_eq]
  split
  · exact next _
  · exact .error _

theorem sumFrom_alike (ha : Alike L a b) (h : AlikeAll L xs ys) :
    Agree (Alike L) (sumFrom a xs) (sumFrom b ys) := by
  induction xs generalizing a b ys with
  | nil =>
      cases h
      exact .ok ha
  | cons x xs ih =>
      cases h with
      | cons head tail =>
          have floats := sumFloats_alike (f := (sumFrom · xs)) (g := (sumFrom · _)) ha head
            fun x => ih (.float x) tail
          cases ha with
          | int n => cases head with
            | int m =>
                simp only [sumFrom]
                split
                · exact ih (.int _) tail
                · exact .error _
            | _ => exact floats
          | _ => exact floats

theorem sum_alike (h : AlikeAll L xs ys) : Agree (Alike L) (sum xs) (sum ys) := by
  refine (checkArity_agree h _ _ _).bind fun _ _ _ =>
    (iterate_alike "sum" h.headD).bind fun _ _ items => sumFrom_alike ?_ items
  have second := h.getElem? 1
  revert second
  generalize xs[1]? = o
  generalize ys[1]? = o'
  intro second
  cases second with
  | none => exact .int 0
  | some h => exact h

theorem toList_alike (callee : String) (h : AlikeAll L xs ys) :
    AgreeOn L (Alike L) (toList callee xs) (toList callee ys) := by
  refine .bind (.lift (checkArity_agree h _ _ _)) fun _ _ _ => ?_
  cases h with
  | nil => exact .newList .nil
  | cons head _ =>
      exact .bind (.lift (iterate_alike callee head)) fun _ _ items => .newList items

theorem callBuiltin_alike (builtin : Builtin) (h : AlikeAll L xs ys) :
    AgreeOn L (Alike L) (callBuiltin builtin xs) (callBuiltin builtin ys) := by
  cases builtin with
  | int => exact .lift (toInteger_alike h)
  | float => exact .lift (toFloat_alike h)
  | str =>
      refine .bind (.lift (checkArity_agree h _ _ _)) fun _ _ _ => ?_
      cases h with
      | nil => exact .pure (.str _)
      | cons head _ =>
          simp only [List.head?_cons, Option.map_some, head.display_eq]
          exact .pure (.str _)
  | bool =>
      refine .bind (.lift (checkArity_agree h _ _ _)) fun _ _ _ => ?_
      cases h with
      | nil => exact .pure (.bool _)
      | cons head _ =>
          simp only [List.head?_cons, Option.map_some, head.truthy_eq]
          exact .pure (.bool _)
  | repr =>
      refine .bind (.lift (checkArity_agree h _ _ _)) fun _ _ _ => ?_
      rw [h.headD.repr_eq]
      exact .pure (.str _)
  | len => exact .lift (lengthOf_alike h)
  | list | tuple => exact toList_alike "list" h
  | abs => exact .lift (magnitude_alike h)
  | min => exact .lift (extremum_alike "min" .lt h)
  | max => exact .lift (extremum_alike "max" .gt h)
  | sum => exact .lift (sum_alike h)

/-! ### Methods of texts -/

theorem textArgument_eq (method : String) (h : Alike L a b) :
    textArgument method a = textArgument method b := by cases h <;> rfl

theorem mapM_textArgument_eq (method : String) (h : AlikeAll L xs ys) :
    (xs.mapM (textArgument method) : Except Error (List String)) = ys.mapM (textArgument method) := by
  induction xs generalizing ys with
  | nil =>
      cases h
      rfl
  | cons x xs ih =>
      cases h with
      | cons head tail => rw [List.mapM_cons, List.mapM_cons, textArgument_eq method head, ih tail]

theorem split_eq (receiver : String) (h : AlikeAll L xs ys) :
    split receiver xs = split receiver ys := by
  cases h with
  | nil => rfl
  | cons head _ => cases head <;> rfl

theorem strip_alike (receiver : String) (h : AlikeAll L xs ys) :
    Agree (Alike L) (strip receiver xs) (strip receiver ys) := by
  cases h with
  | nil => exact .ok (.str _)
  | cons head _ =>
      exact .bind (.of_eq (textArgument_eq "strip" head)) fun _ _ same => same ▸ .ok (.str _)

theorem callMethod_alike (m : TextMethod) (receiver : String) (h : AlikeAll L xs ys) :
    AgreeOn L (Alike L) (callMethod m receiver xs) (callMethod m receiver ys) := by
  have arity (least most : Nat) := AgreeOn.lift (L := L) (checkArity_agree h m.name least most)
  have second : Alike L (xs[1]?.getD .none) (ys[1]?.getD .none) := by
    have item := h.getElem? 1
    revert item
    generalize xs[1]? = o
    generalize ys[1]? = o'
    intro item
    cases item with
    | none => exact .none
    | some h => exact h
  cases m with
  | join =>
      exact .bind (arity 1 1) fun _ _ _ => .bind (.lift (iterate_alike _ h.headD)) fun _ _ items =>
        .bind (.lift (.of_eq (mapM_textArgument_eq _ items))) fun _ _ same => same ▸ .pure (.str _)
  | lower | upper => exact .bind (arity 0 0) fun _ _ _ => .pure (.str _)
  | strip => exact .bind (arity 0 1) fun _ _ _ => .lift (strip_alike receiver h)
  | split =>
      exact .bind (arity 0 1) fun _ _ _ => .bind (.lift (.of_eq (split_eq receiver h)))
        fun _ _ same => same ▸ .newList (.map_refl _ (fun s => .str s) _)
  | startsWith | endsWith =>
      exact .bind (arity 1 1) fun _ _ _ => .bind (.lift (.of_eq (textArgument_eq _ h.headD)))
        fun _ _ same => same ▸ .pure (.bool _)
  | replace =>
      exact .bind (arity 2 2) fun _ _ _ => .bind (.lift (.of_eq (textArgument_eq _ h.headD)))
        fun _ _ same => .bind (.lift (.of_eq (textArgument_eq _ second)))
          fun _ _ same' => same ▸ same' ▸ .pure (.str _)

/-! ### Terms and calls -/

/-- Calls that come to the same on values that are alike. -/
def Preserves (L : Likeness) (call : Call) : Prop :=
  ∀ f g xs ys, AlikeFunc L f g → AlikeAll L xs ys → AgreeOn L (Alike L) (call f xs) (call g ys)

/-- A library that does not tell apart what is alike. -/
structure Respects (L : Likeness) (lib : Library) : Prop where
  compare : ∀ op {a b a' b'}, Alike L a b → Alike L a' b' →
    lib.compare op a a' = lib.compare op b b'
  natives : ∀ name run, lib.natives.lookup name = some run → ∀ xs ys, AlikeAll L xs ys →
    AgreeOn L (Alike L) (run xs) (run ys)

theorem callWith_alike {call : Call} (calls : L.Preserves call) (h : Alike L a b)
    (args : AlikeAll L xs ys) :
    AgreeOn L (Alike L) (callWith call a xs) (callWith call b ys) := by
  cases h with
  | func _ f => exact calls _ _ _ _ f args
  | _ => exact .throw _

namespace Respects

variable {lib : Library} {call : Call} {env env' : Env}

mutual

theorem evalWith (respects : L.Respects lib) (calls : L.Preserves call) :
    (t : Term) → AlikeFor L (t.readNames []) env env' →
      AgreeOn L (Alike L) (t.evalWith lib.compare call env) (t.evalWith lib.compare call env')
  | .literal s, _ => by
      rw [Term.evalWith, Term.evalWith]
      cases s with
      | none => exact .pure .none
      | bool b => exact .pure (.bool b)
      | int n => exact .pure (.int n)
      | float x => exact .pure (.float x)
      | str s => exact .pure (.str s)
  | .name n, h => by
      rw [Term.readNames] at h
      have found : Likeness.AlikeOption L (env.lookup n) (env'.lookup n) := h.lookup (by simp)
      rw [Term.evalWith, Term.evalWith]
      revert found
      generalize env.lookup n = o
      generalize env'.lookup n = o'
      intro found
      cases found with
      | none => exact .throw _
      | some h => exact .pure h
  | .list items, h => by
      rw [Term.readNames] at h
      rw [Term.evalWith, Term.evalWith]
      exact .bind (respects.evalAll calls items h) fun _ _ values => .newList values
  | .call func args, h => by
      rw [Term.readNames] at h
      rw [Term.evalWith, Term.evalWith]
      exact .bind (respects.evalWith calls func h.left) fun _ _ f =>
        .bind (respects.evalAll calls args h.right) fun _ _ values => callWith_alike calls f values
  | .member object field, h => by
      rw [Term.readNames] at h
      rw [Term.evalWith, Term.evalWith]
      exact .bind (respects.evalWith calls object h) fun _ _ v => memberOf_alike v field
  | .index object index, h => by
      rw [Term.readNames] at h
      rw [Term.evalWith, Term.evalWith]
      exact .bind (respects.evalWith calls object h.left) fun _ _ v =>
        .bind (respects.evalWith calls index h.right) fun _ _ i => subscript_alike v i
  | .slice object lower upper, h => by
      rw [Term.readNames] at h
      rw [Term.evalWith, Term.evalWith]
      exact .bind (respects.evalWith calls object h.left.left) fun _ _ v =>
        .bind (respects.evalOption calls lower h.left.right) fun _ _ lo =>
          .bind (respects.evalOption calls upper h.right) fun _ _ hi => sliceValue_alike v lo hi
  | .unary op operand, h => by
      rw [Term.readNames] at h
      rw [Term.evalWith, Term.evalWith]
      exact .bind (respects.evalWith calls operand h) fun _ _ v => .lift (unaryOp_alike op v)
  | .binary op left right, h => by
      rw [Term.readNames] at h
      rw [Term.evalWith, Term.evalWith]
      exact .bind (respects.evalWith calls left h.left) fun _ _ a =>
        .bind (respects.evalWith calls right h.right) fun _ _ b => binaryOp_alike op a b
  | .compare first rest, h => by
      rw [Term.readNames] at h
      rw [Term.evalWith, Term.evalWith]
      exact .bind (respects.evalWith calls first h.left) fun _ _ v =>
        respects.evalComparisons calls v rest h.right
  | .and left right, h => by
      rw [Term.readNames] at h
      rw [Term.evalWith, Term.evalWith]
      refine .bind (respects.evalWith calls left h.left) fun v w both => ?_
      rw [both.truthy_eq]
      split
      · exact respects.evalWith calls right h.right
      · exact .pure both
  | .or left right, h => by
      rw [Term.readNames] at h
      rw [Term.evalWith, Term.evalWith]
      refine .bind (respects.evalWith calls left h.left) fun v w both => ?_
      rw [both.truthy_eq]
      split
      · exact .pure both
      · exact respects.evalWith calls right h.right
  | .conditional test consequent alternative, h => by
      rw [Term.readNames] at h
      rw [Term.evalWith, Term.evalWith]
      refine .bind (respects.evalWith calls test h.left.left) fun v w both => ?_
      rw [both.truthy_eq]
      split
      · exact respects.evalWith calls consequent h.left.right
      · exact respects.evalWith calls alternative h.right
  | .lambda params body, h => by
      rw [Term.readNames] at h
      rw [Term.evalWith, Term.evalWith]
      exact .newFunc (AlikeFor.func (by simpa using h))

theorem evalAll (respects : L.Respects lib) (calls : L.Preserves call) :
    (ts : List Term) → AlikeFor L (readNamesList [] ts) env env' →
      AgreeOn L (AlikeAll L) (evalAll lib.compare call env ts) (evalAll lib.compare call env' ts)
  | [], _ => by
      rw [Host.evalAll, Host.evalAll]
      exact .pure .nil
  | t :: ts, h => by
      rw [readNamesList] at h
      rw [Host.evalAll, Host.evalAll]
      exact .bind (respects.evalWith calls t h.left) fun _ _ v =>
        .bind (respects.evalAll calls ts h.right) fun _ _ vs => .pure (.cons v vs)

theorem evalOption (respects : L.Respects lib) (calls : L.Preserves call) :
    (t? : Option Term) → AlikeFor L (readNamesOption [] t?) env env' →
      AgreeOn L (AlikeOption L) (evalOption lib.compare call env t?)
        (evalOption lib.compare call env' t?)
  | none, _ => by
      rw [Host.evalOption, Host.evalOption]
      exact .pure .none
  | some t, h => by
      rw [readNamesOption] at h
      rw [Host.evalOption, Host.evalOption]
      exact .bind (respects.evalWith calls t h) fun _ _ v => .pure (.some v)

theorem evalComparisons (respects : L.Respects lib) (calls : L.Preserves call)
    {left left' : Value} (hl : Alike L left left') :
    (rest : List (Comparison × Term)) → AlikeFor L (readNamesRest [] rest) env env' →
      AgreeOn L (Alike L) (evalComparisons lib.compare call env left rest)
        (evalComparisons lib.compare call env' left' rest)
  | [], _ => by
      rw [Host.evalComparisons, Host.evalComparisons]
      exact .pure (.bool true)
  | (op, t) :: rest, h => by
      rw [readNamesRest] at h
      rw [Host.evalComparisons, Host.evalComparisons]
      refine .bind (respects.evalWith calls t h.left) fun v w both =>
        .bind (.lift (.of_eq (respects.compare op hl both))) fun holds _ same => ?_
      subst same
      split
      · exact respects.evalComparisons calls both rest h.right
      · exact .pure (.bool false)

end

/-- Calls, by induction on how deep they may be nested. -/
theorem apply (respects : L.Respects lib) (depth : Nat) : L.Preserves (Host.apply lib depth) := by
  induction depth with
  | zero => exact fun _ _ _ _ _ _ => .throw _
  | succ depth ih =>
      intro f g xs ys hf args
      have written {params : List String} {body : Term} {env env' : Env}
          (scope : AlikeFor L (body.readNames params) env env') :
          AgreeOn L (Alike L) (Host.apply lib (depth + 1) (.lambda params body env) xs)
            (Host.apply lib (depth + 1) (.lambda params body env') ys) := by
        simp only [Host.apply, args.length_eq, Callable.name]
        split
        · next length =>
            exact respects.evalWith ih body
              (scope.bindAll args (args.length_eq.trans (by simpa using length)))
        · exact .throw _
      cases hf with
      | lambda params body scope => exact written (.inl scope)
      | closure params body closures scope => exact written (.inr ⟨closures, scope⟩)
      | builtin b => exact callBuiltin_alike b args
      | constructor cls =>
          simp only [Host.apply, args.length_eq]
          split
          · exact .newNode cls args
          · exact .throw _
      | method receiver m => exact callMethod_alike m receiver args
      | decoder text => exact .pure (.str text)
      | native name =>
          simp only [Host.apply]
          split
          · exact respects.natives _ _ ‹_› _ _ args
          · exact .throw _

/-- A term comes to the same in environments that it does not tell apart. -/
theorem evalIn (respects : L.Respects lib) {t : Term} (h : AlikeFor L (t.readNames []) env env') :
    AgreeOn L (Alike L) (t.evalIn lib env) (t.evalIn lib env') :=
  respects.evalWith (respects.apply callDepth) t h

/-- A call comes to the same on values that are alike. -/
theorem callIn (respects : L.Respects lib) (h : Alike L a b) (args : AlikeAll L xs ys) :
    AgreeOn L (Alike L) (Host.callIn lib a xs) (Host.callIn lib b ys) :=
  callWith_alike (respects.apply callDepth) h args

end Respects

end Likeness

end Packrat
