import Packrat.Proofs.Evaluation.Likeness

/-
**Names that host code misses.**

Evaluation fails for want of a name only where a name is read that is not bound, and no operation on
values fails so.  Where all free names of a term are bound, so are those of all of its parts, and of
the bodies of the functions written in it whenever these are called.  Then a failure for want of a
name has been handed on by the call of a function that was written elsewhere: one whose body reads a
name that was not bound where the function was written, or one from outside.  This is said by letting
such functions fail in words of their own: then the whole evaluation fails in these.

Main definitions:

* `Packrat.Env.Binds` — an environment that binds names;
* `Packrat.Host.Term.Within` — the parts of a term, and the environments that they are evaluated in;
* `Packrat.Callable.closed` — functions whose bodies miss no name;
* `Packrat.Host.applyBlaming` — calls where functions that are not closed fail in other words;
* `Packrat.Host.Blames` — code that fails for want of a name only where other code fails in other
  words.

Main results:

* `Packrat.Host.Term.Within.binds` — names are bound wherever they are read;
* `Packrat.Host.resolved_compareOp`, `Packrat.Host.resolved_callBuiltin`, … — operations on values
  miss no names;
* `Packrat.Host.Rewords.evalWith`, `Packrat.Host.apply_blames` — **only functions that are not closed
  miss names**.
-/

set_option autoImplicit false

namespace Packrat

/-- An environment in which names stand for something. -/
def Env.Binds (env : Env) (names : List String) : Prop := ∀ x ∈ names, (env.lookup x).isSome

namespace Env.Binds

variable {env : Env} {names names' : List String}

theorem mono (h : env.Binds names) (sub : names' ⊆ names) : env.Binds names' :=
  fun x hx => h x (sub hx)

theorem left (h : env.Binds (names ++ names')) : env.Binds names :=
  h.mono (List.subset_append_left _ _)

theorem right (h : env.Binds (names ++ names')) : env.Binds names' :=
  h.mono (List.subset_append_right _ _)

/-- Parameters that have been bound, and the names that were bound before. -/
theorem bindAll {params : List String} {args : List Value} (length : args.length = params.length)
    (h : ∀ x ∈ names, x ∉ params → (env.lookup x).isSome) :
    Env.Binds (Host.bindAll params args env) names := by
  induction params generalizing args env with
  | nil =>
      cases args with
      | nil => exact fun x hx => h x hx List.not_mem_nil
      | cons _ _ => cases length
  | cons p params ih =>
      cases args with
      | nil => cases length
      | cons v args =>
          refine ih (Nat.succ.inj length) fun x hx other => ?_
          simp only [List.lookup_cons]
          split
          · rfl
          · next ne => exact h x hx (by simp_all)

end Env.Binds

/-- A function whose body finds a value for every name that it reads. Of functions from outside
nothing is known. -/
def Callable.closed : Callable Value → Bool
  | .lambda params body env => (body.readNames params).all fun x => (env.lookup x).isSome
  | .native _ => false
  | .builtin _ | .constructor _ | .method _ _ | .decoder _ => true

theorem Callable.closed_lambda {params : List String} {body : Host.Term} {env : Env} :
    Callable.closed (.lambda params body env) ↔ env.Binds (body.readNames params) := by
  simp [closed, Env.Binds]

namespace Host

/-! ### Parts of terms -/

/-- The terms that a term evaluates in its own environment. -/
def Term.parts : Term → List Term
  | .literal _ | .name _ | .lambda _ _ => []
  | .list items => items
  | .call func args => func :: args
  | .member object _ | .unary _ object => [object]
  | .index left right | .binary _ left right | .and left right | .or left right => [left, right]
  | .slice object lower upper => object :: (lower.toList ++ upper.toList)
  | .compare first rest => first :: rest.map (·.2)
  | .conditional test consequent alternative => [test, consequent, alternative]

/-- A part of a term, and an environment that it may be evaluated in while the term is, or behind it
when a function written in the term is called. -/
inductive Term.Within (t : Term) (env : Env) : Term → Env → Prop
  | here : Within t env t env
  | part {u c : Term} {scope : Env} (h : Within t env u scope) (mem : c ∈ u.parts) :
      Within t env c scope
  | body {params : List String} {body : Term} {scope : Env}
      (h : Within t env (.lambda params body) scope) (args : List Value)
      (length : args.length = params.length) : Within t env body (bindAll params args scope)

theorem readNamesList_subset {bound : List String} {ts : List Term} {t : Term} (mem : t ∈ ts) :
    t.readNames bound ⊆ readNamesList bound ts := by
  induction ts with
  | nil => exact absurd mem List.not_mem_nil
  | cons u ts ih =>
      rw [readNamesList]
      rcases List.mem_cons.1 mem with rfl | mem
      · exact List.subset_append_left _ _
      · exact List.Subset.trans (ih mem) (List.subset_append_right _ _)

theorem readNamesRest_subset {bound : List String} {rest : List (Comparison × Term)} {t : Term}
    (mem : t ∈ rest.map (·.2)) : t.readNames bound ⊆ readNamesRest bound rest := by
  induction rest with
  | nil => exact absurd mem List.not_mem_nil
  | cons u rest ih =>
      rw [readNamesRest]
      rcases List.mem_cons.1 mem with rfl | mem
      · exact List.subset_append_left _ _
      · exact List.Subset.trans (ih mem) (List.subset_append_right _ _)

/-- A term reads the names that its parts read. -/
theorem Term.readNames_subset {t c : Term} (mem : c ∈ t.parts) {bound : List String} :
    c.readNames bound ⊆ t.readNames bound := by
  cases t with
  | literal | name | lambda => exact absurd mem List.not_mem_nil
  | list items => exact readNamesList_subset mem
  | call func args =>
      rcases List.mem_cons.1 mem with rfl | mem
      · exact List.subset_append_left _ _
      · exact List.Subset.trans (readNamesList_subset mem) (List.subset_append_right _ _)
  | member object _ | unary _ object =>
      obtain rfl := List.mem_singleton.1 mem
      exact List.Subset.refl _
  | index left right | binary _ left right | and left right | or left right =>
      rcases List.mem_cons.1 mem with rfl | mem
      · exact List.subset_append_left _ _
      · obtain rfl := List.mem_singleton.1 mem
        exact List.subset_append_right _ _
  | slice object lower upper =>
      simp only [parts, List.mem_cons, List.mem_append, Option.mem_toList] at mem
      rw [readNames]
      rcases mem with rfl | rfl | rfl
      · exact List.Subset.trans (List.subset_append_left _ _) (List.subset_append_left _ _)
      · exact List.Subset.trans (List.subset_append_right _ _) (List.subset_append_left _ _)
      · exact List.subset_append_right _ _
  | compare first rest =>
      rcases List.mem_cons.1 mem with rfl | mem
      · exact List.subset_append_left _ _
      · exact List.Subset.trans (readNamesRest_subset mem) (List.subset_append_right _ _)
  | conditional test consequent alternative =>
      simp only [parts, List.mem_cons, List.not_mem_nil, or_false] at mem
      rw [readNames]
      rcases mem with rfl | rfl | rfl
      · exact List.Subset.trans (List.subset_append_left _ _) (List.subset_append_left _ _)
      · exact List.Subset.trans (List.subset_append_right _ _) (List.subset_append_left _ _)
      · exact List.subset_append_right _ _

/-- Wherever a part of a term is evaluated, the names that it reads are bound. -/
theorem Term.Within.binds {t u : Term} {env scope : Env} (h : t.Within env u scope)
    (binds : env.Binds (t.readNames [])) : scope.Binds (u.readNames []) := by
  induction h with
  | here => exact binds
  | part _ mem ih => exact ih.mono (Term.readNames_subset mem)
  | body _ args length ih =>
      refine .bindAll length fun x hx free => ih x ?_
      rw [Term.readNames, List.append_nil]
      exact Term.mem_readNames.2 ⟨hx, free⟩

/-! ### Operations on values -/

variable {α β : Type}

/-- A computation that does not fail for want of a name. -/
def Resolved (x : Except Error α) : Prop := ∀ name, x ≠ .error (.unbound name)

/-- Host code that does not fail for want of a name, whichever identities it draws. -/
def ResolvedOn (e : Eval α) : Prop := ∀ n, Resolved (e n)

namespace Resolved

theorem ok {a : α} : Resolved (.ok a) := fun _ same => by cases same

theorem error {e : Error} (h : ∀ name, e ≠ .unbound name) : Resolved (.error e : Except Error α) :=
  fun name same => h name (Except.error.inj same)

theorem bind {x : Except Error α} {f : α → Except Error β} (hx : Resolved x)
    (hf : ∀ a, Resolved (f a)) : Resolved (x >>= f) := by
  cases x with
  | ok a => exact hf a
  | error e => exact fun name same => hx name (congrArg Except.error (Except.error.inj same))

theorem map {x : Except Error α} (hx : Resolved x) (f : α → β) : Resolved (x.map f) := by
  cases x with
  | ok a => exact .ok
  | error e => exact fun name same => hx name (congrArg Except.error (Except.error.inj same))

end Resolved

namespace ResolvedOn

theorem pure {a : α} : ResolvedOn (Pure.pure a) := fun _ => .ok

theorem throw {e : Error} (h : ∀ name, e ≠ .unbound name) : ResolvedOn (throw e : Eval α) :=
  fun _ => .error h

theorem lift {x : Except Error α} (h : Resolved x) : ResolvedOn (liftM x : Eval α) := by
  intro n
  cases x with
  | ok a => exact .ok
  | error e => exact fun name same => h name (congrArg Except.error (Except.error.inj same))

theorem bind {e : Eval α} {f : α → Eval β} (he : ResolvedOn e) (hf : ∀ a, ResolvedOn (f a)) :
    ResolvedOn (e >>= f) := fun n => (he n).bind fun p => hf p.1 p.2

theorem fresh : ResolvedOn Packrat.fresh := fun _ => .ok

theorem newList (items : List Value) : ResolvedOn (Value.newList items) :=
  .bind fresh fun _ => pure

theorem newNode (cls : NodeClass) (values : List Value) : ResolvedOn (Value.newNode cls values) :=
  .bind fresh fun _ => pure

theorem newFunc (f : Callable Value) : ResolvedOn (Value.newFunc f) := .bind fresh fun _ => pure

end ResolvedOn

/-! ### Numbers and texts -/

theorem resolved_exactly (n : Int) : Resolved (exactly n) := by
  unfold exactly
  split
  · exact .ok
  · exact .error (by simp)

theorem resolved_integerPow (a : Int) (e : Nat) : Resolved (integerPow a e) := by
  unfold integerPow
  repeat' split
  all_goals first | exact resolved_exactly _ | exact .error (by simp)

theorem resolved_leftOver (a b : Int64) : Resolved (leftOver a b) := by
  unfold leftOver
  split
  · exact .error (by simp)
  · exact .ok

theorem resolved_floorRemainder (a b : Int64) : Resolved (floorRemainder a b) :=
  (resolved_leftOver a b).map _

theorem resolved_floorQuotient (a b : Int64) : Resolved (floorQuotient a b) := by
  unfold floorQuotient
  split
  · exact (resolved_leftOver a b).map _
  · exact .error (by simp)

theorem resolved_integerOp (op : BinaryOp) (a b : Int64) : Resolved (integerOp op a b) := by
  unfold integerOp
  dsimp only
  repeat' split
  all_goals first
    | exact .ok
    | exact resolved_exactly _
    | exact resolved_integerPow _ _
    | exact resolved_floorQuotient _ _
    | exact resolved_floorRemainder _ _
    | exact .error (by simp)

theorem resolved_floatOp (op : BinaryOp) (a b : Float) : Resolved (floatOp op a b) := by
  unfold floatOp
  repeat' split
  all_goals first | exact .ok | exact .error (by simp)

theorem resolved_numberOp (op : BinaryOp) (a b : Value) : Resolved (numberOp op a b) := by
  unfold numberOp
  repeat' split
  · exact resolved_integerOp _ _ _
  · exact resolved_floatOp _ _ _
  · exact .error (by simp)

theorem resolved_unaryOp (op : UnaryOp) (v : Value) : Resolved (unaryOp op v) := by
  unfold unaryOp
  split
  all_goals first | exact .ok | exact resolved_exactly _ | exact .error (by simp)

theorem resolved_repeatList (size : Nat) (items : List α) (times : Int64) :
    Resolved (repeatList size items times) := by
  unfold repeatList
  dsimp only
  repeat' split
  all_goals first | exact .ok | exact .error (by simp)

theorem resolved_binaryOp (op : BinaryOp) (a b : Value) : ResolvedOn (binaryOp op a b) := by
  unfold binaryOp
  split
  case h_1 | h_2 => exact .pure
  case h_3 => exact .newList _
  case h_4 | h_5 => exact .bind (.lift (resolved_repeatList _ _ _)) fun _ => .pure
  case h_6 | h_7 => exact .bind (.lift (resolved_repeatList _ _ _)) fun _ => .newList _
  case h_8 => exact .lift (resolved_numberOp _ _ _)

/-! ### Sequences -/

theorem resolved_iterate (callee : String) (v : Value) : Resolved (iterate callee v) := by
  unfold iterate
  split
  all_goals first | exact .ok | exact .error (by simp)

theorem resolved_fromStart (offset : Int64) (length : Nat) :
    Resolved (fromStart offset length) := by
  unfold fromStart
  repeat' split
  all_goals first | exact .ok | exact .error (by simp)

theorem resolved_resolveIndex (index : Value) (length : Nat) :
    Resolved (resolveIndex index length) := by
  unfold resolveIndex
  split
  · exact .error (by simp)
  · refine .bind (resolved_fromStart _ _) fun n => ?_
    split
    · exact .error (by simp)
    · exact .ok

theorem resolved_boundOr (default : Nat) (bound : Option Value) (length : Nat) :
    Resolved (boundOr default bound length) := by
  unfold boundOr
  repeat' split
  all_goals first
    | exact .ok
    | exact .error (by simp)
    | exact .bind (resolved_fromStart _ _) fun _ => .ok

theorem resolved_slice (start stop : Nat) (xs : List α) : Resolved (slice start stop xs) := by
  unfold slice
  split
  · exact .ok
  · exact .error (by simp)

theorem resolved_sliceList (lower upper : Option Value) (xs : List α) :
    Resolved (sliceList lower upper xs) :=
  .bind (resolved_boundOr _ _ _) fun _ => .bind (resolved_boundOr _ _ _) fun _ =>
    resolved_slice _ _ _

theorem resolved_sliceValue (v : Value) (lower upper : Option Value) :
    ResolvedOn (sliceValue v lower upper) := by
  unfold sliceValue
  split
  · exact .bind (.lift (resolved_sliceList _ _ _)) fun _ => .newList _
  · exact .bind (.lift (resolved_sliceList _ _ _)) fun _ => .pure
  · exact .bind (.lift (resolved_sliceList _ _ _)) fun _ => .pure
  · exact .throw (by simp)

theorem resolved_itemAt (xs : List α) (index : Value) : Resolved (itemAt xs index) := by
  refine .bind (resolved_resolveIndex _ _) fun i => ?_
  split
  · exact .ok
  · exact .error (by simp)

theorem resolved_contains (container item : Value) : Resolved (contains container item) := by
  unfold contains
  split
  all_goals first
    | exact .ok
    | exact .bind (resolved_iterate _ _) fun _ => .ok
    | exact .error (by simp)

theorem resolved_memberOf (v : Value) (name : String) : ResolvedOn (memberOf v name) := by
  have place (p : Position) : ResolvedOn (positionNode p) := .newNode _ _
  unfold memberOf
  repeat' split
  all_goals first
    | exact .pure
    | exact .newList _
    | exact .newFunc _
    | exact .throw (by simp)
    | exact .bind (place _) fun _ => .bind (place _) fun _ => .newNode _ _

theorem resolved_subscript (v index : Value) : ResolvedOn (subscript v index) := by
  unfold subscript
  repeat' split
  all_goals first
    | exact .lift (resolved_itemAt _ _)
    | exact .bind (.lift (resolved_itemAt _ _)) fun _ => .pure
    | exact resolved_memberOf _ _
    | exact .throw (by simp)

/-- Comparisons do not fail for want of a name. -/
theorem resolved_compareOp (op : Comparison) (a b : Value) : Resolved (compareOp op a b) := by
  unfold compareOp
  cases op with
  | eq | ne | same | notSame => exact .ok
  | lt | le | gt | ge =>
      dsimp only
      split
      · exact .ok
      · exact .error (by simp)
  | isIn => exact resolved_contains _ _
  | notIn => exact .bind (resolved_contains _ _) fun _ => .ok

/-! ### Builtins and methods -/

theorem resolved_checkArity (callee : String) (least most : Nat) (args : List Value) :
    Resolved (checkArity callee least most args) := by
  unfold checkArity
  dsimp only
  split
  · exact .error (by simp)
  · exact .ok

theorem resolved_readInt (text : String) (base : Nat) : Resolved (readInt text base) := by
  unfold readInt
  split
  · exact .ok
  · exact .error (by simp)

theorem resolved_toInteger (args : List Value) : Resolved (toInteger args) := by
  refine .bind (resolved_checkArity _ _ _ _) fun _ => ?_
  extract_lets convert
  have converts (base : Nat) : Resolved (convert base) := by
    dsimp only [convert]
    split
    · exact .ok
    · exact .ok
    · split
      · exact .ok
      · exact .error (by simp)
    · exact resolved_readInt _ _
    · exact resolved_readInt _ _
    · exact .error (by simp)
  repeat' split
  all_goals first | exact .bind .ok converts | exact .bind (.error (by simp)) converts

theorem resolved_toFloat (args : List Value) : Resolved (toFloat args) := by
  refine .bind (resolved_checkArity _ _ _ _) fun _ => ?_
  repeat' split
  all_goals first | exact .ok | exact .error (by simp)

theorem resolved_lengthOf (args : List Value) : Resolved (lengthOf args) := by
  refine .bind (resolved_checkArity _ _ _ _) fun _ => ?_
  split
  all_goals first | exact .ok | exact .error (by simp)

/-- Which numbers fit does not matter to a magnitude. -/
theorem resolved_magnitudeOf (fits : Int → Option Int64) (v : Value) : Resolved
    (match v with
      | .int n =>
        match fits n.toInt.natAbs with
        | some m => pure (.int m)
        | none => throw (.overflowIn "abs")
      | .float x => pure (.float x.abs)
      | .bool b => pure (.int (if b then 1 else 0))
      | v => throw (.wrongType "abs" "a number" v.typeName) : Except Error Value) := by
  repeat' split
  all_goals first | exact .ok | exact .error (by simp)

theorem resolved_magnitude (args : List Value) : Resolved (magnitude args) := by
  rw [magnitude]
  generalize fit? = fits
  exact .bind (resolved_checkArity _ _ _ _) fun _ => resolved_magnitudeOf fits _

theorem resolved_extremumFrom (callee : String) (wanted : Ordering) (best : Value)
    (vs : List Value) : Resolved (extremumFrom callee wanted best vs) := by
  induction vs generalizing best with
  | nil => exact .ok
  | cons v vs ih =>
      unfold extremumFrom
      split
      · exact ih _
      · exact .error (by simp)

theorem resolved_extremum (callee : String) (wanted : Ordering) (args : List Value) :
    Resolved (extremum callee wanted args) := by
  have items (vs : List Value) : Resolved (extremumOf callee wanted vs) := by
    cases vs with
    | nil => exact .error (by simp)
    | cons v vs => exact resolved_extremumFrom _ _ _ _
  rcases args with _ | ⟨v, _ | ⟨w, vs⟩⟩
  · exact .error (by simp)
  · exact .bind (resolved_iterate _ _) items
  · exact items (v :: w :: vs)

theorem resolved_sumFrom (total : Value) (vs : List Value) : Resolved (sumFrom total vs) := by
  induction vs generalizing total with
  | nil => exact .ok
  | cons v vs ih =>
      unfold sumFrom
      repeat' split
      all_goals first | exact ih _ | exact .error (by simp)

theorem resolved_sum (args : List Value) : Resolved (sum args) :=
  .bind (resolved_checkArity _ _ _ _) fun _ => .bind (resolved_iterate _ _) fun _ =>
    resolved_sumFrom _ _

theorem resolved_toList (callee : String) (args : List Value) :
    ResolvedOn (toList callee args) := by
  refine .bind (.lift (resolved_checkArity _ _ _ _)) fun _ => ?_
  split
  · exact .bind (.lift (resolved_iterate _ _)) fun _ => .newList _
  · exact .newList _

theorem resolved_callBuiltin (b : Builtin) (args : List Value) :
    ResolvedOn (callBuiltin b args) := by
  cases b with
  | int => exact .lift (resolved_toInteger _)
  | float => exact .lift (resolved_toFloat _)
  | str | bool | repr => exact .bind (.lift (resolved_checkArity _ _ _ _)) fun _ => .pure
  | len => exact .lift (resolved_lengthOf _)
  | list | tuple => exact resolved_toList _ _
  | abs => exact .lift (resolved_magnitude _)
  | min | max => exact .lift (resolved_extremum _ _ _)
  | sum => exact .lift (resolved_sum _)

theorem resolved_textArgument (method : String) (v : Value) : Resolved (textArgument method v) := by
  unfold textArgument
  split
  · exact .ok
  · exact .error (by simp)

theorem resolved_textArguments (method : String) (vs : List Value) :
    Resolved (vs.mapM (textArgument method) : Except Error (List String)) := by
  induction vs with
  | nil => exact .ok
  | cons v vs ih =>
      rw [List.mapM_cons]
      exact .bind (resolved_textArgument _ _) fun _ => .bind ih fun _ => .ok

theorem resolved_split (receiver : String) (args : List Value) : Resolved (split receiver args) := by
  unfold split
  split
  · exact .ok
  · exact .ok
  · refine .bind (resolved_textArgument _ _) fun separator => ?_
    split
    · exact .error (by simp)
    · exact .ok

theorem resolved_strip (receiver : String) (args : List Value) : Resolved (strip receiver args) := by
  unfold strip
  split
  · exact .ok
  · exact .bind (resolved_textArgument _ _) fun _ => .ok

theorem resolved_callMethod (m : TextMethod) (receiver : String) (args : List Value) :
    ResolvedOn (callMethod m receiver args) := by
  cases m <;> refine .bind (.lift (resolved_checkArity _ _ _ _)) fun _ => ?_
  case join =>
    exact .bind (.lift (resolved_iterate _ _)) fun _ =>
      .bind (.lift (resolved_textArguments _ _)) fun _ => .pure
  case lower | upper => exact .pure
  case strip => exact .lift (resolved_strip _ _)
  case split => exact .bind (.lift (resolved_split _ _)) fun _ => .newList _
  case startsWith | endsWith => exact .bind (.lift (resolved_textArgument _ _)) fun _ => .pure
  case replace =>
    exact .bind (.lift (resolved_textArgument _ _)) fun _ =>
      .bind (.lift (resolved_textArgument _ _)) fun _ => .pure

/-! ### Calls that blame others -/

/-- A call of a function where calls of functions do what is given. -/
def applyOnce (lib : Library) (call : Call) : Call := fun f args =>
  match f with
  | .lambda params body env =>
    if args.length == params.length then
      body.evalWith lib.compare call (bindAll params args env)
    else throw (.arity f.name params.length args.length)
  | f => apply lib 1 f args

theorem apply_succ (lib : Library) (depth : Nat) (f : Callable Value) (args : List Value) :
    apply lib (depth + 1) f args = applyOnce lib (apply lib depth) f args := by
  cases f <;> rfl

/-- What calls do where those of functions that are not closed fail in other words. -/
def applyBlaming (lib : Library) (reword : Error → Error) : Nat → Call
  | 0, f, args => apply lib 0 f args
  | depth + 1, f, args =>
    if f.closed then applyOnce lib (applyBlaming lib reword depth) f args
    else fun n => (apply lib (depth + 1) f args n).mapError reword

/-- Code that comes to the same as other code, which is no failure for want of a name, or fails where
the other code fails in other words. -/
def Blames (reword : Error → Error) (e e' : Eval α) : Prop :=
  ∀ n, (e' n = e n ∧ Resolved (e n)) ∨ ∃ error, e n = .error error ∧ e' n = .error (reword error)

namespace Blames

variable {reword : Error → Error}

theorem of_resolved {e : Eval α} (h : ResolvedOn e) : Blames reword e e := fun n => .inl ⟨rfl, h n⟩

theorem bind {e e' : Eval α} {f f' : α → Eval β} (he : Blames reword e e')
    (hf : ∀ a, Blames reword (f a) (f' a)) : Blames reword (e >>= f) (e' >>= f') := by
  intro n
  change ((e' n >>= fun p => f' p.1 p.2) = (e n >>= fun p => f p.1 p.2) ∧
    Resolved (e n >>= fun p => f p.1 p.2)) ∨ ∃ error, (e n >>= fun p => f p.1 p.2) = .error error ∧
      (e' n >>= fun p => f' p.1 p.2) = .error (reword error)
  rcases he n with ⟨same, resolved⟩ | ⟨error, failed, failed'⟩
  · rw [same]
    cases he' : e n with
    | ok p => exact hf p.1 p.2
    | error error =>
        rw [he'] at resolved
        exact .inl ⟨rfl, fun name same => resolved name
          (congrArg Except.error (Except.error.inj same))⟩
  · rw [failed, failed']
    exact .inr ⟨error, rfl, rfl⟩

/-- A failure for want of a name is one of the other code. -/
theorem reworded {e e' : Eval α} (h : Blames reword e e') {n : Nat} {name : String}
    (failed : e n = .error (.unbound name)) : e' n = .error (reword (.unbound name)) := by
  rcases h n with ⟨-, resolved⟩ | ⟨error, failed', reworded⟩
  · exact absurd failed (resolved name)
  · rw [failed] at failed'
    obtain rfl := Except.error.inj failed'
    exact reworded

end Blames

/-- Comparisons miss no names, and calls fail for want of a name only where other calls fail in other
words. -/
structure Rewords (reword : Error → Error) (compare : Compare) (call call' : Call) : Prop where
  comparisons : ∀ op a b, Resolved (compare op a b)
  calls : ∀ f args, Blames reword (call f args) (call' f args)

namespace Rewords

variable {compare : Compare} {call call' : Call} {reword : Error → Error} {env : Env}

theorem callWith (given : Rewords reword compare call call') (v : Value) (args : List Value) :
    Blames reword (Host.callWith call v args) (Host.callWith call' v args) := by
  cases v with
  | func _ f => exact given.calls f args
  | _ => exact .of_resolved (.throw (by simp))

mutual

/-- Where the names that it reads are bound, a term misses none but in what it calls. -/
theorem evalWith (given : Rewords reword compare call call') :
    (t : Term) → env.Binds (t.readNames []) →
      Blames reword (t.evalWith compare call env) (t.evalWith compare call' env)
  | .literal s, _ => by
      rw [Term.evalWith, Term.evalWith]
      exact .of_resolved .pure
  | .name n, h => by
      obtain ⟨v, found⟩ := Option.isSome_iff_exists.1 (h n (by simp [Term.readNames]))
      rw [Term.evalWith_name _ _ _ _ _ found, Term.evalWith_name _ _ _ _ _ found]
      exact .of_resolved .pure
  | .list items, h => by
      rw [Term.readNames] at h
      rw [Term.evalWith, Term.evalWith]
      exact .bind (given.evalAll items h) fun _ => .of_resolved (.newList _)
  | .call func args, h => by
      rw [Term.readNames] at h
      rw [Term.evalWith, Term.evalWith]
      exact .bind (given.evalWith func h.left) fun _ =>
        .bind (given.evalAll args h.right) fun _ => given.callWith _ _
  | .member object field, h => by
      rw [Term.readNames] at h
      rw [Term.evalWith, Term.evalWith]
      exact .bind (given.evalWith object h) fun _ => .of_resolved (resolved_memberOf _ _)
  | .index object index, h => by
      rw [Term.readNames] at h
      rw [Term.evalWith, Term.evalWith]
      exact .bind (given.evalWith object h.left) fun _ =>
        .bind (given.evalWith index h.right) fun _ => .of_resolved (resolved_subscript _ _)
  | .slice object lower upper, h => by
      rw [Term.readNames] at h
      rw [Term.evalWith, Term.evalWith]
      exact .bind (given.evalWith object h.left.left) fun _ =>
        .bind (given.evalOption lower h.left.right) fun _ =>
          .bind (given.evalOption upper h.right) fun _ => .of_resolved (resolved_sliceValue _ _ _)
  | .unary op operand, h => by
      rw [Term.readNames] at h
      rw [Term.evalWith, Term.evalWith]
      exact .bind (given.evalWith operand h) fun _ => .of_resolved (.lift (resolved_unaryOp _ _))
  | .binary op left right, h => by
      rw [Term.readNames] at h
      rw [Term.evalWith, Term.evalWith]
      exact .bind (given.evalWith left h.left) fun _ =>
        .bind (given.evalWith right h.right) fun _ => .of_resolved (resolved_binaryOp _ _ _)
  | .compare first rest, h => by
      rw [Term.readNames] at h
      rw [Term.evalWith, Term.evalWith]
      exact .bind (given.evalWith first h.left) fun _ => given.evalComparisons _ rest h.right
  | .and left right, h => by
      rw [Term.readNames] at h
      rw [Term.evalWith, Term.evalWith]
      refine .bind (given.evalWith left h.left) fun v => ?_
      split
      · exact given.evalWith right h.right
      · exact .of_resolved .pure
  | .or left right, h => by
      rw [Term.readNames] at h
      rw [Term.evalWith, Term.evalWith]
      refine .bind (given.evalWith left h.left) fun v => ?_
      split
      · exact .of_resolved .pure
      · exact given.evalWith right h.right
  | .conditional test consequent alternative, h => by
      rw [Term.readNames] at h
      rw [Term.evalWith, Term.evalWith]
      refine .bind (given.evalWith test h.left.left) fun v => ?_
      split
      · exact given.evalWith consequent h.left.right
      · exact given.evalWith alternative h.right
  | .lambda params body, _ => by
      rw [Term.evalWith, Term.evalWith]
      exact .of_resolved (.newFunc _)

theorem evalAll (given : Rewords reword compare call call') :
    (ts : List Term) → env.Binds (readNamesList [] ts) →
      Blames reword (Host.evalAll compare call env ts) (Host.evalAll compare call' env ts)
  | [], _ => by
      rw [Host.evalAll, Host.evalAll]
      exact .of_resolved .pure
  | t :: ts, h => by
      rw [readNamesList] at h
      rw [Host.evalAll, Host.evalAll]
      exact .bind (given.evalWith t h.left) fun _ =>
        .bind (given.evalAll ts h.right) fun _ => .of_resolved .pure

theorem evalOption (given : Rewords reword compare call call') :
    (t? : Option Term) → env.Binds (readNamesOption [] t?) →
      Blames reword (Host.evalOption compare call env t?) (Host.evalOption compare call' env t?)
  | none, _ => by
      rw [Host.evalOption, Host.evalOption]
      exact .of_resolved .pure
  | some t, h => by
      rw [readNamesOption] at h
      rw [Host.evalOption, Host.evalOption]
      exact .bind (given.evalWith t h) fun _ => .of_resolved .pure

theorem evalComparisons (given : Rewords reword compare call call') (left : Value) :
    (rest : List (Comparison × Term)) → env.Binds (readNamesRest [] rest) →
      Blames reword (Host.evalComparisons compare call env left rest)
        (Host.evalComparisons compare call' env left rest)
  | [], _ => by
      rw [Host.evalComparisons, Host.evalComparisons]
      exact .of_resolved .pure
  | (op, t) :: rest, h => by
      rw [readNamesRest] at h
      rw [Host.evalComparisons, Host.evalComparisons]
      refine .bind (given.evalWith t h.left) fun v =>
        .bind (.of_resolved (.lift (given.comparisons _ _ _))) fun holds => ?_
      split
      · exact given.evalComparisons v rest h.right
      · exact .of_resolved .pure

end

end Rewords

/-- Calls, by induction on how deep they are nested. -/
theorem apply_blames {lib : Library} (comparisons : ∀ op a b, Resolved (lib.compare op a b))
    (reword : Error → Error) (depth : Nat) (f : Callable Value) (args : List Value) :
    Blames reword (apply lib depth f args) (applyBlaming lib reword depth f args) := by
  induction depth generalizing f args with
  | zero => exact .of_resolved (.throw (by simp))
  | succ depth ih =>
      rw [applyBlaming]
      split
      · next closed =>
          rw [apply_succ]
          cases f with
          | lambda params body env =>
              simp only [applyOnce]
              split
              · next length =>
                  refine Rewords.evalWith ⟨comparisons, ih⟩ body (.bindAll (by simpa using length) ?_)
                  exact fun x hx free =>
                    Callable.closed_lambda.1 closed x (Term.mem_readNames.2 ⟨hx, free⟩)
              · exact .of_resolved (.throw (by simp))
          | builtin b => exact .of_resolved (resolved_callBuiltin _ _)
          | constructor cls =>
              simp only [applyOnce, apply]
              split
              · exact .of_resolved (.newNode _ _)
              · exact .of_resolved (.throw (by simp))
          | method receiver m => exact .of_resolved (resolved_callMethod _ _ _)
          | decoder text => exact .of_resolved .pure
          | native name => cases closed
      · intro n
        beta_reduce
        cases apply lib (depth + 1) f args n with
        | ok p => exact .inl ⟨rfl, .ok⟩
        | error error => exact .inr ⟨error, rfl, rfl⟩

end Host

end Packrat
