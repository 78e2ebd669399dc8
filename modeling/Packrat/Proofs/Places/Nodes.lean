import Packrat.Proofs.Execution.Listed
import Packrat.Proofs.Meaning.Readiness
import Packrat.Proofs.Places.Lines
import Packrat.Proofs.Trees.Placing

/-
**Where the nodes of a parse are.**

The class of a node notes where its fields began and where they ended, and the lines and columns are
filled in when the parse has succeeded.  So the place of every node in a result is complete, lies in
the input, and is the stretch in which the fields of the node were read.  If nothing is looked ahead
for and no rule takes arguments, whatever a class reads lies in its own stretch, and so places nest.

Main definitions:

* `Packrat.Parser.ComesTo` — the value that a parse comes to;
* `Packrat.Naming.Calls` — parsers that may be handed to a parse;
* `Packrat.World.Located` — the place of a node that a class has made.

Main results:

* `Packrat.Parser.placed_of_comesTo` — what a parse comes to has been read and put in its place;
* `Packrat.Parser.nodes_located` — **every node with a place is where its fields were read**;
* `Packrat.Parser.spans_nest` — **nodes lie within those above them**.
-/

set_option autoImplicit false

namespace Packrat

/-- A parser that stands for what a naming knows. -/
def Naming.Calls (naming : Naming) : Value → Prop
  | .parser _ f _ _ => ∃ c, naming.closure? f = some c
  | _ => False

/-- The place of a node that a class has made: it lies in the input, its lines and columns are known,
and between its ends the fields were read that have become the values of the node. -/
structure World.Located [Regex.Engine] (w : World) (place : Nat → Position) (cls : NodeClass)
    (values : List Value) (extent : Extent) : Prop where
  ordered : extent.start.index ≤ extent.stop.index
  inside : extent.stop.index ≤ w.bytes.size
  start : extent.start = place extent.start.index
  stop : extent.stop = place extent.stop.index
  lines : 0 < extent.start.line ∧ 0 < extent.stop.line
  made : ∃ raw, Value.PlacedAll place raw values ∧
    w.Made cls raw extent.start.index extent.stop.index

theorem LineTable.position_index {table : LineTable} {input : Input} {index : Nat}
    (inside : index ≤ input.size) : (table.position input index).index = index :=
  Nat.min_eq_left inside

theorem LineTable.position_line (input : Input) (index : Nat) :
    0 < ((ofInput input).position input index).line := by
  change 0 < (ofInput input).lineOf _
  simp [LineTable.lineOf, LineTable.ofInput]

namespace Parser

/-- The value that a parse comes to: what it succeeds with, or, if input is left over, what was parsed
before that. -/
def ComesTo [Text.Display] (p : Parser) (rule : RuleEntry) (args : List Value) (input : Input)
    (pos : Nat) (full : Bool) (identity : Nat) (v : Value) : Prop :=
  (∃ n, p.parseBound rule args input pos full identity = .ok (v, n)) ∨
    ∃ report, p.parseBound rule args input pos full identity = .error (.incomplete report) ∧
      report.result = v

variable {options : Options} {natives : Host.Natives} {description : String} {p : Parser} {n n' : Nat}
variable {rule : RuleEntry} {args : List Value} {input : Input} {pos identity : Nat} {full : Bool}
variable {v : Value}

/-- A parse that comes to a value is one of as many arguments as there are parameters, at a place of
the input. -/
theorem ComesTo.begins [Text.Display] (comes : p.ComesTo rule args input pos full identity v) :
    pos ≤ input.size ∧ p.parseBound rule args input pos full identity =
      ((p.setting input).run true rule.function args pos identity >>= fun r =>
        p.conclude input full r.1 r.2) := by
  rw [ComesTo, parseBound] at comes
  rw [parseBound]
  split at comes
  · next arity =>
      rw [runFunction] at comes
      rw [if_pos arity, runFunction]
      split at comes
      · rcases comes with ⟨_, ended⟩ | ⟨_, ended, -⟩ <;> cases ended
      · next inside => exact ⟨Nat.not_lt.1 inside, if_neg inside ▸ rfl⟩
  · rcases comes with ⟨_, ended⟩ | ⟨_, ended, -⟩ <;> cases ended

/-- A parse that fails otherwise than with input left over comes to no value. -/
theorem ComesTo.not_error [Text.Display] (comes : p.ComesTo rule args input pos full identity v)
    {e : Failure} (ended : p.parseBound rule args input pos full identity = .error e)
    (other : ∀ report, e ≠ .incomplete report) : False := by
  rcases comes with ⟨n, done⟩ | ⟨report, left, -⟩
  · cases ended.symm.trans done
  · exact other report (Except.error.inj (ended.symm.trans left))

/-- A parse that comes to a value has put a result in its place. -/
theorem ComesTo.result [Text.Display] (comes : p.ComesTo rule args input pos full identity v)
    {result : Value} {stop n : Nat}
    (run : (p.setting input).run true rule.function args pos identity = .ok (⟨true, result, stop⟩, n)) :
    ((result.resolvePlaces (LineTable.ofInput input) input).run n).1 = v := by
  have begins := comes.begins.2.trans (ok_bind run _)
  rw [ComesTo, begins] at comes
  simp only [conclude, if_true] at comes
  split at comes
  · rcases comes with ⟨_, ended⟩ | ⟨report, ended, rfl⟩ <;> cases ended
    rfl
  · rcases comes with ⟨_, ended⟩ | ⟨report, ended, rfl⟩ <;> cases ended
    rfl

/-- A parse whose function succeeds comes to the result in its place. -/
theorem comesTo_of_run [Text.Display] (arity : args.length = (rule.params.getD []).length)
    (inside : pos ≤ input.size) {result : Value} {stop n : Nat}
    (run : (p.setting input).run true rule.function args pos identity = .ok (⟨true, result, stop⟩, n)) :
    p.ComesTo rule args input pos full identity
      ((result.resolvePlaces (LineTable.ofInput input) input).run n).1 := by
  have begins : p.parseBound rule args input pos full identity =
      p.conclude input full ⟨true, result, stop⟩ n := by
    rw [parseBound, if_pos (by simpa using arity), runFunction, if_neg (Nat.not_lt.2 inside)]
    exact ok_bind run _
  rw [ComesTo, begins]
  simp only [conclude, if_true]
  split
  · exact .inr ⟨_, rfl, rfl⟩
  · exact .inl ⟨_, rfl⟩

/-! ### Results -/

variable {g : Grammar} {ls : List Layout} {before h : Heap} {nested : Prop}

/-- What is asked of the values of a parse. -/
abbrev survey [Regex.Engine] (p : Parser) (naming : Naming) (input : Input) (before : Heap)
    (nested : Prop) : Survey :=
  (p.world naming input).survey before nested

/-- **What a parse comes to has been read and put in its place.** -/
theorem placed_of_comesTo [Regex.Engine] [Text.Display] (numbers : g.Numbers p.program ls)
    (fits : (p.world (g.naming p.program ls) input).Fits (p.setting input))
    (ready : (p.world (g.naming p.program ls) input).Ready g.signatures before nested)
    (mem : rule ∈ p.program.rules) (none : nested → args = []) (later : before.Grows h)
    (lie : (p.survey (g.naming p.program ls) input before nested).AllLie h pos pos args)
    (comes : p.ComesTo rule args input pos full h.next v) :
    ∃ h' raw stop,
      (p.setting input).run true rule.function args pos h.next = .ok (⟨true, raw, stop⟩, h'.next) ∧
      (p.survey (g.naming p.program ls) input before nested).Lies h' pos stop raw ∧
      Value.Placed ((LineTable.ofInput input).position input) raw v := by
  obtain ⟨inside, begins⟩ := comes.begins
  have callable : ∃ c, (g.naming p.program ls).closure? rule.function = some c := by
    have length : p.program.rules.length = g.definitions.length := by
      simpa using congrArg List.length numbers.rules
    rw [← List.map_snd_zip (Nat.le_of_eq length)] at mem
    obtain ⟨⟨d, r⟩, zipped, rfl⟩ := List.mem_map.1 mem
    exact (numbers.definition zipped).elim fun _ found => ⟨_, found⟩
  rcases ready.outcomes fits callable none later lie inside with
    ⟨o, h', w, run, grows, finds, leaves⟩ | ⟨e, run⟩ | run
  · cases w with
    | success raw stop =>
        obtain ⟨rfl, -⟩ := leaves
        obtain ⟨out, n, resolves, placed⟩ := Value.resolvePlaces_placed
          (LineTable.ofInput input) input finds.2.2 fun id cls values extent asked => by
            obtain ⟨start, stop, rfl, -⟩ := asked extent rfl
            rfl
        have same := comes.result run
        rw [resolves] at same
        obtain rfl : out = v := same
        exact ⟨h', raw, stop, run, finds.2.2, placed⟩
    | failure entry place =>
        obtain ⟨mark, rfl, known, -⟩ := leaves
        exact (comes.not_error ((begins.trans (ok_bind run _)).trans (conclude_failed known _))
          fun _ same => nomatch same).elim
  · exact (comes.not_error (begins.trans (congrArg (· >>= _) run)) fun _ same => nomatch same).elim
  · exact (comes.not_error (begins.trans (congrArg (· >>= _) run)) fun _ same => nomatch same).elim

/-- A node with a place in what a parse comes to has been made by a class. -/
theorem made_of_reaches {S : Survey} {h : Heap} {low high id : Nat} {raw v : Value} {cls : NodeClass}
    {values : List Value} {extent : Extent} {place : Nat → Position} (lies : S.Lies h low high raw)
    (placed : Value.Placed place raw v)
    (reaches : v.Reaches (.node id cls values (some extent))) :
    ∃ node fields start stop, raw.Reaches (.node node cls fields
        (some ⟨.unresolved start, .unresolved stop⟩)) ∧
      Value.PlacedAll place fields values ∧ extent = ⟨place start, place stop⟩ ∧
      start ≤ stop ∧ stop ≤ S.size ∧ S.made cls fields start stop ∧
      (S.nested → low ≤ start ∧ stop ≤ high ∧ Value.AllHold (Value.Between start stop) fields) := by
  obtain ⟨u, reaches', placed'⟩ := placed.reaches reaches
  obtain ⟨node, fields, extent', rfl, rfl, all⟩ := placed'.of_node
  have holds := lies.reaches reaches'
  cases holds with
  | node known =>
      obtain ⟨start, stop, rfl, le, inside, made, nests⟩ := known.2.2 (Option.some_ne_none _) _ rfl
      exact ⟨node, fields, start, stop, reaches', all, rfl, le, inside, made, nests⟩

/-- What lies between two places before it is put in its place does so afterwards. -/
theorem between_of_reaches {start stop node id : Nat} {fields values : List Value} {cls cls' : NodeClass}
    {v : Value} {extent : Extent} {place : Nat → Position}
    (placed : Value.Placed place
      (.node node cls fields (some ⟨.unresolved start, .unresolved stop⟩)) v)
    (between : Value.AllHold (Value.Between start stop) fields)
    (reaches : v.Reaches (.node id cls' values (some extent))) :
    ∃ before : Extent, extent = before.complete place ∧ start ≤ before.start.index ∧
      before.stop.index ≤ stop := by
  obtain ⟨u, below, placed'⟩ := placed.reaches reaches
  obtain ⟨_, _, before, rfl, rfl, -⟩ := placed'.of_node
  refine ⟨before, rfl, ?_⟩
  rcases Relation.ReflTransGen.cases_head below with same | ⟨field, mem, below⟩
  · obtain ⟨-, -, -, same⟩ := Value.node.inj same
    obtain rfl := Option.some.inj same
    exact ⟨Nat.le_refl _, Nat.le_refl _⟩
  · cases (between.of_mem mem).reaches below with
    | node known => exact known

/-- **Every node with a place is where its fields were read.** The parse is one with any rule of a
parser, at any place of any input; the values that it is given hold no nodes with places, and functions
from outside make none. Whatever it comes to, be it all that was read or a part, the place of each node
in that is complete and lies in the input, and between its ends the fields of its class were read and
came to the values of the node. -/
theorem nodes_located [Regex.Engine] [Text.Display]
    (built : build options natives description n = .ok (p, n')) (hands : natives.HandOn) :
    ∃ (g : Grammar) (ls : List Layout) (before : Heap), grammarOf natives description = .ok g ∧
      g.Numbers p.program ls ∧ before.next = n' ∧
      ∀ (h : Heap) (rule : RuleEntry) (args : List Value) (input : Input) (pos : Nat) (full : Bool)
        (v : Value), before.Grows h → rule ∈ p.program.rules →
        Value.AllHold (h.Knows (g.naming p.program ls).Calls) args → input.size < 2 ^ 63 →
        p.ComesTo rule args input pos full h.next v →
        ∀ id cls values extent, v.Reaches (.node id cls values (some extent)) →
          (p.world (g.naming p.program ls) input).Located ((LineTable.ofInput input).position input)
            cls values extent := by
  obtain ⟨g, ls, before, found, numbers, next, worlds⟩ := ready_of_build built hands
  refine ⟨g, ls, before, found, numbers, next, ?_⟩
  intro h rule args input pos full v later mem given small comes id cls values extent reaches
  obtain ⟨fits, ready⟩ := worlds input small
  -- Spans need not nest, so it does not matter between which places the arguments lie.
  have lie : (p.survey (g.naming p.program ls) input before False).AllLie h pos pos args :=
    given.mono fun v known => known.mono (.refl h) fun v calls => by
      cases v with
      | parser => exact ⟨calls, not_false⟩
      | _ => cases calls
  obtain ⟨h', raw, stop, -, lies, placed⟩ :=
    placed_of_comesTo numbers fits (ready False False.elim) mem False.elim later lie comes
  obtain ⟨_, fields, start, stop, -, all, rfl, le, inside, made, -⟩ :=
    made_of_reaches lies placed reaches
  have inside : stop ≤ input.size := inside
  have starts : ((LineTable.ofInput input).position input start).index = start :=
    LineTable.position_index (Nat.le_trans le inside)
  have stops : ((LineTable.ofInput input).position input stop).index = stop :=
    LineTable.position_index inside
  refine ⟨?_, ?_, ?_, ?_, ⟨LineTable.position_line _ _, LineTable.position_line _ _⟩, fields, all, ?_⟩
  · simp only [starts, stops, le]
  · rw [stops]
    exact inside
  · simp only [starts]
  · simp only [stops]
  · rw [starts, stops]
    exact made

/-- A class whose second field is a node of another. -/
def nesting : String := "class Inner \x7b b: \"b\" \x7d\nclass Outer \x7b a: \"a\" inner: Inner \x7d"

theorem nesting_evaluates : (match build {} [] nesting 0 with
    | .ok (p, n) => match p.program.rules with
      | [_, outer] => match Machine.enter (p.setting (.text "ab")) outer.function [] 0 none with
        | .ok frame => match Machine.Listed.run (p.setting (.text "ab")) 100 ⟨[frame], [], n⟩ with
          | .ok (⟨true, .node _ _ [.str _, .node _ _ _ (some _)] (some _), 2⟩, _) => outer.params.isNone
          | _ => false
        | .error _ => false
      | _ => false
    | .error _ => false) = true := by decide +kernel

/-- The parse comes to a node with another in its second field. -/
theorem nesting_comesTo : ∃ p n outer id cls x id' cls' values extent extent',
    build {} [] nesting 0 = .ok (p, n) ∧ outer ∈ p.program.rules ∧
      p.ComesTo outer [] (.text "ab") 0 true n
        (.node id cls [x, .node id' cls' values (some extent')] (some extent)) := by
  have evaluates := nesting_evaluates
  split at evaluates
  · next p n built =>
      split at evaluates
      · next inner outer rules =>
          split at evaluates
          · next frame enters =>
              split at evaluates
              · next i c a i' c' vs e' e m listed =>
                  have run := Machine.setting_run_of_listed enters listed (by decide)
                  have mem : outer ∈ p.program.rules := by simp [rules]
                  have comes : p.ComesTo outer [] (.text "ab") 0 true n _ := comesTo_of_run
                    (by rw [Option.isNone_iff_eq_none.1 evaluates]; rfl) (Nat.zero_le _) run
                  obtain ⟨g, ls, before, -, numbers, rfl, worlds⟩ :=
                    ready_of_build built fun _ _ found => nomatch found
                  obtain ⟨fits, ready⟩ := worlds (.text "ab") (by decide)
                  obtain ⟨h', raw, stop, same, -, placed⟩ := placed_of_comesTo numbers fits
                    (ready False False.elim) mem False.elim (.refl before) .nil comes
                  obtain rfl : raw = .node i c [.str a, .node i' c' vs (some e')] (some e) := by
                    have outcomes := same.symm.trans run
                    simp only [Except.ok.injEq, Prod.mk.injEq, Outcome.mk.injEq] at outcomes
                    exact outcomes.1.2.1
                  obtain ⟨id, images, whole, all⟩ := placed.node_becomes
                  rw [whole] at comes
                  obtain ⟨⟩ | ⟨-, ⟨⟩ | ⟨inside, ⟨⟩⟩⟩ := all
                  obtain ⟨id', images', rfl, -⟩ := inside.node_becomes
                  exact ⟨_, _, _, _, _, _, _, _, _, _, _, built, mem, comes⟩
              · cases evaluates
          · cases evaluates
      · cases evaluates
  · cases evaluates

/-- The node with another in it is where its fields were read. -/
theorem nodes_located_nesting : ∃ (p : Parser) (n : Nat) (outer : RuleEntry) (g : Grammar)
    (ls : List Layout) (v : Value) (id : Nat) (cls : NodeClass) (values : List Value) (extent : Extent),
    build {} [] nesting 0 = .ok (p, n) ∧ p.ComesTo outer [] (.text "ab") 0 true n v ∧
      v.Reaches (.node id cls values (some extent)) ∧
      (p.world (g.naming p.program ls) (.text "ab")).Located
        ((LineTable.ofInput (.text "ab")).position (.text "ab")) cls values extent := by
  obtain ⟨p, n, outer, id, cls, x, id', cls', values, extent, extent', built, mem, comes⟩ :=
    nesting_comesTo
  obtain ⟨g, ls, before, -, -, rfl, located⟩ := nodes_located built fun _ _ found => nomatch found
  exact ⟨p, _, outer, g, ls, _, id, cls, _, extent, built, comes, .refl _,
    located before outer [] (.text "ab") 0 true _ (.refl before) mem .nil (by decide) comes _ _ _ _
      (.refl _)⟩

/-- **Nodes lie within those above them**, in whatever a parse comes to, if nothing is looked ahead for
in the grammar and none of its rules and classes takes arguments. -/
theorem spans_nest [Regex.Engine] [Text.Display]
    (built : build options natives description n = .ok (p, n')) (hands : natives.HandOn)
    {g : Grammar} (found : grammarOf natives description = .ok g) (nests : g.Nests)
    (mem : rule ∈ p.program.rules) (small : input.size < 2 ^ 63) (later : n' ≤ identity)
    (comes : p.ComesTo rule [] input pos full identity v) {id id' : Nat} {cls cls' : NodeClass}
    {values values' : List Value} {extent extent' : Extent}
    (outer : v.Reaches (.node id cls values (some extent)))
    (inner : (Value.node id cls values (some extent)).Reaches (.node id' cls' values' (some extent'))) :
    extent.start.index ≤ extent'.start.index ∧ extent'.stop.index ≤ extent.stop.index := by
  obtain ⟨g', ls, before, found', numbers, rfl, worlds⟩ := ready_of_build built hands
  obtain rfl : g = g' := Except.ok.inj (found.symm.trans found')
  obtain ⟨fits, ready⟩ := worlds input small
  let h : Heap := ⟨before.node, identity⟩
  obtain ⟨h', raw, stop, -, lies, placed⟩ := placed_of_comesTo (h := h) numbers fits
    (ready True fun _ => nests) mem (fun _ => rfl) ⟨later, fun _ _ => rfl⟩ .nil comes
  obtain ⟨node, fields, start, stop, -, all, rfl, -, -, -, nested⟩ := made_of_reaches lies placed outer
  obtain ⟨-, -, between⟩ := nested trivial
  have outermost : Value.Placed ((LineTable.ofInput input).position input)
      (.node node cls fields (some ⟨.unresolved start, .unresolved stop⟩)) (.node id cls values _) :=
    .node node id cls _ all
  obtain ⟨before, rfl, first, last⟩ := between_of_reaches outermost between inner
  exact ⟨min_le_min_right _ first, min_le_min_right _ last⟩

/-- A grammar of the shape that the description has. -/
theorem nesting_shape : (match grammarOf [] nesting with
    | .ok ⟨[⟨_, none, .seq _ [.str _ _ _] _, _, _, _, _, _⟩,
        ⟨_, none, .seq _ [.str _ _ _, .ref _ _ _] _, _, _, _, _, _⟩], _⟩ => true
    | _ => false) = true := by
  decide +kernel

theorem nesting_nests : ∃ g, grammarOf [] nesting = .ok g ∧ g.Nests := by
  have shape := nesting_shape
  split at shape
  · next found =>
      refine ⟨_, found, ?_, ?_⟩
      · simp [Definition.paramList]
      · simp only [List.forall_mem_cons, List.not_mem_nil, false_imp_iff, implies_true, and_true]
        have leaf {e : Expr} (none : e.children = []) (ahead : e.looksAhead = false) :
            e.Every (·.looksAhead = false) := ⟨ahead, by simp [none]⟩
        exact ⟨⟨rfl, by simpa [Expr.children] using leaf rfl rfl⟩,
          ⟨rfl, by simpa [Expr.children] using ⟨leaf rfl rfl, leaf rfl rfl⟩⟩⟩
  · cases shape

/-- The inner node lies within the outer one. -/
theorem spans_nest_nesting : ∃ p n outer v id cls values extent id' cls' values' extent',
    build {} [] nesting 0 = .ok (p, n) ∧ p.ComesTo outer [] (.text "ab") 0 true n v ∧
      v.Reaches (.node id cls values (some extent)) ∧
      (Value.node id cls values (some extent)).Reaches (.node id' cls' values' (some extent')) ∧
      extent.start.index ≤ extent'.start.index ∧ extent'.stop.index ≤ extent.stop.index := by
  obtain ⟨p, n, outer, id, cls, x, id', cls', values, extent, extent', built, mem, comes⟩ :=
    nesting_comesTo
  obtain ⟨g, found, nests⟩ := nesting_nests
  have inner : (Value.node id cls [x, .node id' cls' values (some extent')] (some extent)).Reaches
      (.node id' cls' values (some extent')) := .part (by simp [Value.parts]) (.refl _)
  exact ⟨p, n, outer, _, id, cls, _, extent, id', cls', values, extent', built, comes, .refl _, inner,
    spans_nest built (fun _ _ found => by cases found) found nests mem (by decide) (Nat.le_refl n)
      comes (.refl _) inner⟩

end Parser

end Packrat
