import Mathlib.Data.List.Forall2
import Packrat.Proofs.Trees.Visiting
import Packrat.Value.Export

/-
**Documents tell trees apart.**

A node is exported as an object that holds its class under `type` and its fields under their names.  So
a tree can be told from its document, whatever the order of the members: two trees with the same
document have the same classes and the same values under the same names.  There is one exception: a
field that is itself called `type` takes the place of the class, and then the class is lost.

Main definitions:

* `Packrat.Json.Same` — documents that are the same but for the order of members;
* `Packrat.Value.Tree` — trees of scalars, lists and nodes;
* `Packrat.Value.Matches` — trees of the same structure;
* `Packrat.Value.Untyped` — trees without a field called `type`.

Main results:

* `Packrat.Value.lookup_exportFields` — what a document of a node holds under a name;
* `Packrat.Value.lookup_type_of_field` — a field called `type` takes the place of the class;
* `Packrat.Value.same_exportFields` — the documents of two nodes;
* `Packrat.Value.Tree.same_iff` — the documents of two values are the same exactly if the values match;
* `Packrat.Value.export_faithful` — **documents tell trees apart, and name the class of every node**.
-/

set_option autoImplicit false

namespace Packrat

/-! ### Documents -/

/-- Documents that are the same but for the order of the members of objects. -/
inductive Json.Same : Json → Json → Prop
  | null : Same .null .null
  | bool (b : Bool) : Same (.bool b) (.bool b)
  | int (n : Int) : Same (.int n) (.int n)
  | float {x y : Float} (h : x == y) : Same (.float x) (.float y)
  | str (s : String) : Same (.str s) (.str s)
  | array {xs ys : List Json} (items : List.Forall₂ Same xs ys) : Same (.array xs) (.array ys)
  | object {ms ns : List (String × Json)}
      (members : ∀ name, Option.Rel Same (ms.lookup name) (ns.lookup name)) :
      Same (.object ms) (.object ns)

namespace Json

section

variable {xs ys : List Json} {ms ns : List (String × Json)}

theorem same_bool {b c : Bool} : Same (.bool b) (.bool c) ↔ b = c :=
  ⟨fun h => by cases h; rfl, fun h => h ▸ .bool b⟩

theorem same_int {m n : Int} : Same (.int m) (.int n) ↔ m = n :=
  ⟨fun h => by cases h; rfl, fun h => h ▸ .int m⟩

theorem same_str {s t : String} : Same (.str s) (.str t) ↔ s = t :=
  ⟨fun h => by cases h; rfl, fun h => h ▸ .str s⟩

theorem same_array : Same (.array xs) (.array ys) ↔ List.Forall₂ Same xs ys :=
  ⟨fun h => by cases h; assumption, .array⟩

theorem same_object : Same (.object ms) (.object ns) ↔
    ∀ name, Option.Rel Same (ms.lookup name) (ns.lookup name) :=
  ⟨fun h => by cases h; assumption, .object⟩

end

theorem lookup_setField (name key : String) (value : Json) (members : List (String × Json)) :
    (setField name value members).lookup key =
      if key = name then some value else members.lookup key := by
  by_cases same : key = name
  · rw [if_pos same, same, lookup_setField_self]
  · rw [if_neg same]
    have differs : (key == name) = false := beq_eq_false_iff_ne.2 same
    induction members with
    | nil => rw [setField, List.lookup_cons, differs]
    | cons m rest ih =>
        obtain ⟨n, v⟩ := m
        rw [setField]
        by_cases here : n = name
        · subst here
          rw [BEq.rfl, if_pos rfl, List.lookup_cons, List.lookup_cons, differs]
        · have other : (n == name) = false := beq_eq_false_iff_ne.2 here
          rw [other, if_neg Bool.false_ne_true, List.lookup_cons, List.lookup_cons, ih]

end Json

namespace Value

/-! ### Trees -/

/-- Trees of scalars, lists and nodes. A node has one value for each field, and no field twice. -/
inductive Tree : Value → Prop
  | none : Tree .none
  | bool (b : Bool) : Tree (.bool b)
  | int (n : Int64) : Tree (.int n)
  | str (s : String) : Tree (.str s)
  | list (id : Nat) {items : List Value} (all : ∀ v ∈ items, Tree v) : Tree (.list id items)
  | node (id : Nat) {cls : NodeClass} {values : List Value} (extent? : Option Extent)
      (distinct : cls.fields.Nodup) (full : cls.fields.length = values.length)
      (all : ∀ v ∈ values, Tree v) : Tree (.node id cls values extent?)

/-- Trees of the same structure: the same scalars, lists with items that match, and nodes whose classes
have the same name and the same fields, with values that match under each of them. -/
inductive Matches : Value → Value → Prop
  | none : Matches .none .none
  | bool (b : Bool) : Matches (.bool b) (.bool b)
  | int (n : Int64) : Matches (.int n) (.int n)
  | str (s : String) : Matches (.str s) (.str s)
  | list (i j : Nat) {xs ys : List Value} (items : List.Forall₂ Matches xs ys) :
      Matches (.list i xs) (.list j ys)
  | node (i j : Nat) {c d : NodeClass} {xs ys : List Value} (p q : Option Extent)
      (name : c.name = d.name) (fields : ∀ n, n ∈ c.fields ↔ n ∈ d.fields)
      (values : ∀ n, Option.Rel Matches (field? c xs n) (field? d ys n)) :
      Matches (.node i c xs p) (.node j d ys q)

/-- No node of a value has a field called `type`. -/
def Untyped (v : Value) : Prop := ∀ x ∈ nodes v, "type" ∉ x.cls.fields

/-! ### Documents of nodes -/

section

variable {cls : NodeClass} {fields : List String} {values : List Value} {name : String} {v : Value}

/-- The names that have a value are the fields. -/
theorem isSome_lookup_zip (full : fields.length = values.length) :
    ((fields.zip values).lookup name).isSome ↔ name ∈ fields := by
  have names : (fields.zip values).map Prod.fst = fields := List.map_fst_zip (Nat.le_of_eq full)
  rw [List.lookup_isSome_iff]
  constructor
  · rintro ⟨p, mem, same⟩
    rw [← names, eq_of_beq same]
    exact List.mem_map_of_mem mem
  · intro mem
    rw [← names] at mem
    obtain ⟨p, among, same⟩ := List.mem_map.1 mem
    exact ⟨p, among, beq_iff_eq.2 same.symm⟩

theorem field?_eq_none (full : cls.fields.length = values.length) (absent : name ∉ cls.fields) :
    field? cls values name = Option.none :=
  Option.not_isSome_iff_eq_none.1 (mt (isSome_lookup_zip full).1 absent)

/-- The fields of a node take their places one after the other, and none takes that of another. -/
theorem lookup_exportFields (distinct : fields.Nodup) (full : fields.length = values.length)
    (members : List (String × Json)) : (exportFields fields values members).lookup name =
      (((fields.zip values).lookup name).map toJson).or (members.lookup name) := by
  induction fields generalizing values members with
  | nil =>
      cases values with
      | nil => rfl
      | cons v values => cases full
  | cons n ns ih =>
      cases values with
      | nil => cases full
      | cons v values =>
          have rest : ns.length = values.length := Nat.succ.inj full
          obtain ⟨new, distinct⟩ := List.nodup_cons.1 distinct
          rw [exportFields, ih distinct rest, Json.lookup_setField, List.zip_cons_cons,
            List.lookup_cons]
          by_cases same : name = n
          · -- What has been written here stays, as the name does not come again.
            subst same
            have none : (ns.zip values).lookup name = Option.none :=
              Option.not_isSome_iff_eq_none.1 (mt (isSome_lookup_zip rest).1 new)
            rw [none, if_pos rfl, BEq.rfl]
            rfl
          · rw [if_neg same, beq_eq_false_iff_ne.2 same]

/-- Under `type` the document of a node holds its class, if no field is called so. -/
theorem lookup_class (distinct : cls.fields.Nodup) (full : cls.fields.length = values.length)
    (free : "type" ∉ cls.fields) :
    (exportFields cls.fields values [("type", .str cls.name)]).lookup "type" =
      some (.str cls.name) := by
  have none : (cls.fields.zip values).lookup "type" = Option.none := field?_eq_none full free
  rw [lookup_exportFields distinct full, none]
  rfl

/-- Under other names it holds the fields. -/
theorem lookup_field (distinct : cls.fields.Nodup) (full : cls.fields.length = values.length)
    (other : name ≠ "type") :
    (exportFields cls.fields values [("type", .str cls.name)]).lookup name =
      (field? cls values name).map toJson := by
  rw [lookup_exportFields distinct full, field?, List.lookup_cons, beq_eq_false_iff_ne.2 other]
  exact Option.or_none

/-- A field that is called `type` takes the place of the class. -/
theorem lookup_type_of_field (distinct : cls.fields.Nodup)
    (full : cls.fields.length = values.length) (known : field? cls values "type" = some v) :
    (exportFields cls.fields values [("type", .str cls.name)]).lookup "type" = some v.toJson := by
  rw [field?] at known
  rw [lookup_exportFields distinct full, known]
  rfl

-- The document of the first node does not tell of its class, and is that of the second one.
example : (Value.node 0 ⟨"A", ["type"]⟩ [.str "B"] Option.none).toJson =
    (Value.node 0 ⟨"B", []⟩ [] Option.none).toJson := rfl

theorem mem_values_of_field? (h : field? cls values name = some v) : v ∈ values := by
  obtain ⟨before, behind, same, -⟩ := List.lookup_eq_some_iff.1 h
  exact (List.of_mem_zip (same ▸ List.mem_append_right _ List.mem_cons_self)).2

end

/-! ### Trees without a field called `type` -/

section

variable {id : Nat} {cls : NodeClass} {items values : List Value} {extent? : Option Extent} {v : Value}

theorem Untyped.item (h : Untyped (.list id items)) (mem : v ∈ items) : v.Untyped :=
  fun x hx => h x (mem_nodes_of_mem_parts (v := .list id items) mem hx)

theorem Untyped.value (h : Untyped (.node id cls values extent?)) (mem : v ∈ values) : v.Untyped :=
  fun x hx => h x (mem_nodes_of_mem_parts (v := .node id cls values extent?) mem hx)

theorem Untyped.here (h : Untyped (.node id cls values extent?)) : "type" ∉ cls.fields :=
  h ⟨id, cls, values, extent?⟩ (mem_nodes_value _)

end

/-! ### Documents and structure -/

theorem toJsonAll_eq_map (vs : List Value) : toJsonAll vs = vs.map toJson := by
  induction vs with
  | nil => rfl
  | cons v vs ih => rw [toJsonAll, ih, List.map_cons]

section

variable {R S : Value → Value → Prop}

theorem forall₂_iff_of_mem {xs ys : List Value} (h : ∀ x ∈ xs, ∀ y ∈ ys, (R x y ↔ S x y)) :
    List.Forall₂ R xs ys ↔ List.Forall₂ S xs ys := by
  induction xs generalizing ys with
  | nil => rw [List.forall₂_nil_left_iff, List.forall₂_nil_left_iff]
  | cons x xs ih =>
      cases ys with
      | nil => rw [List.forall₂_nil_right_iff, List.forall₂_nil_right_iff]
      | cons y ys =>
          rw [List.forall₂_cons, List.forall₂_cons, h x List.mem_cons_self y List.mem_cons_self,
            ih fun x hx y hy => h x (List.mem_cons_of_mem _ hx) y (List.mem_cons_of_mem _ hy)]

theorem rel_iff_of_mem {a b : Option Value} (h : ∀ x ∈ a, ∀ y ∈ b, (R x y ↔ S x y)) :
    Option.Rel R a b ↔ Option.Rel S a b := by
  cases a with
  | none =>
      cases b with
      | none => exact ⟨fun _ => .none, fun _ => .none⟩
      | some y => exact iff_of_false (fun h => by cases h) fun h => by cases h
  | some x =>
      cases b with
      | none => exact iff_of_false (fun h => by cases h) fun h => by cases h
      | some y => rw [Option.rel_some_some, Option.rel_some_some, h x rfl y rfl]

theorem rel_map_iff {R : Json → Json → Prop} {f : Value → Json} {a b : Option Value} :
    Option.Rel R (a.map f) (b.map f) ↔ Option.Rel (fun x y => R (f x) (f y)) a b := by
  cases a with
  | none =>
      cases b with
      | none => exact ⟨fun _ => .none, fun _ => .none⟩
      | some y => exact iff_of_false (fun h => by cases h) fun h => by cases h
  | some x =>
      cases b with
      | none => exact iff_of_false (fun h => by cases h) fun h => by cases h
      | some y => rw [Option.map_some, Option.map_some, Option.rel_some_some, Option.rel_some_some]

theorem isSome_iff_of_rel {a b : Option Value} (h : Option.Rel R a b) : a.isSome ↔ b.isSome := by
  cases h <;> exact Iff.rfl

end

/-- The documents of two nodes are the same exactly if the classes have one name and there are the same
documents under each field. -/
theorem same_exportFields {c d : NodeClass} {xs ys : List Value} (distinct : c.fields.Nodup)
    (full : c.fields.length = xs.length) (free : "type" ∉ c.fields) (distinct' : d.fields.Nodup)
    (full' : d.fields.length = ys.length) (free' : "type" ∉ d.fields) :
    (Json.object (exportFields c.fields xs [("type", .str c.name)])).Same
        (.object (exportFields d.fields ys [("type", .str d.name)])) ↔
      c.name = d.name ∧ ∀ n, Option.Rel (fun x y => x.toJson.Same y.toJson) (field? c xs n)
        (field? d ys n) := by
  rw [Json.same_object]
  constructor
  · intro same
    refine ⟨?_, fun n => ?_⟩
    · have classes := same "type"
      rw [lookup_class distinct full free, lookup_class distinct' full' free',
        Option.rel_some_some, Json.same_str] at classes
      exact classes
    · -- The classes stand where neither node has a field.
      by_cases type : n = "type"
      · subst type
        rw [field?_eq_none full free, field?_eq_none full' free']
        exact .none
      · have members := same n
        rw [lookup_field distinct full type, lookup_field distinct' full' type, rel_map_iff] at members
        exact members
  · rintro ⟨name, members⟩ n
    by_cases type : n = "type"
    · subst type
      rw [lookup_class distinct full free, lookup_class distinct' full' free', name]
      exact .some (.str d.name)
    · rw [lookup_field distinct full type, lookup_field distinct' full' type, rel_map_iff]
      exact members n

/-- The documents of two trees are the same exactly if the trees match. -/
theorem Tree.same_iff {u : Value} (hu : u.Tree) : ∀ {v : Value}, v.Tree → u.Untyped → v.Untyped →
    (u.toJson.Same v.toJson ↔ u.Matches v) := by
  -- By induction on the one tree, for all others: documents of different kinds are never the same.
  induction hu with
  | none =>
      intro v hv _ _
      cases hv with
      | none => exact ⟨fun _ => .none, fun _ => .null⟩
      | _ =>
          rw [toJson, toJson]
          exact iff_of_false (fun h => by cases h) fun h => by cases h
  | bool b =>
      intro v hv _ _
      cases hv with
      | bool c =>
          rw [toJson, toJson, Json.same_bool]
          exact ⟨fun h => h ▸ .bool b, fun h => by cases h; rfl⟩
      | _ =>
          rw [toJson, toJson]
          exact iff_of_false (fun h => by cases h) fun h => by cases h
  | int m =>
      intro v hv _ _
      cases hv with
      | int n =>
          rw [toJson, toJson, Json.same_int, Int64.toInt_inj]
          exact ⟨fun h => h ▸ .int m, fun h => by cases h; rfl⟩
      | _ =>
          rw [toJson, toJson]
          exact iff_of_false (fun h => by cases h) fun h => by cases h
  | str s =>
      intro v hv _ _
      cases hv with
      | str t =>
          rw [toJson, toJson, Json.same_str]
          exact ⟨fun h => h ▸ .str s, fun h => by cases h; rfl⟩
      | _ =>
          rw [toJson, toJson]
          exact iff_of_false (fun h => by cases h) fun h => by cases h
  | @list i xs all ih =>
      intro v hv free free'
      cases hv with
      | @list j ys all' =>
          rw [toJson, toJson, toJsonAll_eq_map, toJsonAll_eq_map, Json.same_array,
            List.forall₂_map_left_iff, List.forall₂_map_right_iff,
            forall₂_iff_of_mem fun x hx y hy => ih x hx (all' y hy) (free.item hx) (free'.item hy)]
          exact ⟨.list i j, fun h => by cases h; assumption⟩
      | _ =>
          rw [toJson, toJson]
          exact iff_of_false (fun h => by cases h) fun h => by cases h
  | @node i c xs p distinct full all ih =>
      intro v hv free free'
      cases hv with
      | @node j d ys q distinct' full' all' =>
          have values (n : String) : Option.Rel (fun x y => x.toJson.Same y.toJson) (field? c xs n)
              (field? d ys n) ↔ Option.Rel Matches (field? c xs n) (field? d ys n) := by
            refine rel_iff_of_mem fun x hx y hy => ?_
            have mem := mem_values_of_field? hx
            have mem' := mem_values_of_field? hy
            exact ih x mem (all' y mem') (free.value mem) (free'.value mem')
          rw [toJson, toJson, same_exportFields distinct full free.here distinct' full' free'.here]
          simp only [values]
          constructor
          · rintro ⟨name, matching⟩
            refine .node i j p q name (fun n => ?_) matching
            rw [← isSome_lookup_zip full, ← isSome_lookup_zip full']
            exact isSome_iff_of_rel (matching n)
          · intro h
            cases h with
            | node _ _ _ _ name _ matching => exact ⟨name, matching⟩
      | _ =>
          rw [toJson, toJson]
          exact iff_of_false (fun h => by cases h) fun h => by cases h

/-- What can be reached from a tree is a tree. -/
theorem Tree.reached {u v : Value} (hu : u.Tree) (reaches : Reaches u v) : v.Tree := by
  induction reaches with
  | refl => exact hu
  | tail _ part ih =>
      cases ih with
      | list id all => exact all _ part
      | node id extent? distinct full all => exact all _ part
      | _ => exact absurd part List.not_mem_nil

/-- Every node of a tree is exported as an object that names its class. -/
theorem Tree.class_exported {v : Value} (hv : v.Tree) (free : v.Untyped) {x : Node}
    (hx : x ∈ nodes v) :
    ∃ members, x.value.toJson = .object members ∧
      members.lookup "type" = some (.str x.cls.name) := by
  have tree : x.value.Tree := hv.reached (mem_nodes_iff_reaches.1 hx)
  rw [Node.value] at tree ⊢
  cases tree with
  | node id extent? distinct full all =>
      exact ⟨_, by rw [toJson], lookup_class distinct full (free x hx)⟩

variable {u v : Value}

/-- Documents tell trees apart: if no field is called `type`, two trees have the same document exactly
if they have the same structure, and every node is exported under its class. -/
theorem export_faithful (hu : u.Tree) (hv : v.Tree) (free : u.Untyped) (free' : v.Untyped) :
    (u.toJson.Same v.toJson ↔ u.Matches v) ∧
      ∀ x ∈ nodes u, ∃ members, x.value.toJson = .object members ∧
        members.lookup "type" = some (.str x.cls.name) :=
  ⟨hu.same_iff hv free free', fun _ hx => hu.class_exported free hx⟩

/-- The fields of a node may stand in another order, and its list may be another one. -/
theorem export_faithful_permuted :
    (Value.node 0 ⟨"Pair", ["left", "right"]⟩ [.int 5, .list 1 [.none]] Option.none).toJson.Same
      (Value.node 2 ⟨"Pair", ["right", "left"]⟩ [.list 3 [.none], .int 5] Option.none).toJson := by
  have list (id : Nat) : Tree (.list id [.none]) :=
    .list id fun v hv => List.mem_singleton.1 hv ▸ .none
  have tree : Tree (.node 0 ⟨"Pair", ["left", "right"]⟩ [.int 5, .list 1 [.none]] Option.none) :=
    .node 0 Option.none (by decide) rfl fun v hv => by
      obtain rfl | rfl : v = .int 5 ∨ v = .list 1 [.none] := by simpa using hv
      · exact .int 5
      · exact list 1
  have tree' : Tree (.node 2 ⟨"Pair", ["right", "left"]⟩ [.list 3 [.none], .int 5] Option.none) :=
    .node 2 Option.none (by decide) rfl fun v hv => by
      obtain rfl | rfl : v = .list 3 [.none] ∨ v = .int 5 := by simpa using hv
      · exact list 3
      · exact .int 5
  refine (export_faithful tree tree' ?_ ?_).1.2 ?_
  · intro x hx
    obtain rfl := List.mem_singleton.1 hx
    decide
  · intro x hx
    obtain rfl := List.mem_singleton.1 hx
    decide
  · refine .node 0 2 Option.none Option.none rfl (fun n => ?_) (fun n => ?_)
    · simp [or_comm]
    · by_cases left : n = "left"
      · subst left
        exact .some (.int 5)
      · by_cases right : n = "right"
        · subst right
          exact .some (.list 1 3 (.cons .none .nil))
        · simp [field?, List.lookup_cons, beq_eq_false_iff_ne.2 left, beq_eq_false_iff_ne.2 right]

end Value

end Packrat
