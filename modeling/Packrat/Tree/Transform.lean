import Packrat.Value.Equality
import Std.Data.HashMap

/-
**Rebuilding trees.**

A tree is rebuilt from its leaves to its root: every node is handed to a function once the values
of its fields have been rebuilt, and the answer takes its place.  What has not changed is reused,
so a function that changes nothing gives back the same tree.  A shared node is handed over once,
and its answer shared.  The function may have effects of its own.

Trees may be deep, so the walk keeps its own two stacks: the jobs that are left, and the values
that have been rebuilt and wait for the list or the node they belong to.

Main definitions:

* `Packrat.Value.unchanged` — whether values are identical one by one;
* `Packrat.Value.Job` — what is left to do;
* `Packrat.Value.rebuild` — the walk over jobs;
* `Packrat.Value.transform` — the rebuilt value.

Main results:

* `Packrat.Value.workLeft_enterAll` — the jobs that a value and its items come to, on which the walk
  ends.
-/

set_option autoImplicit false

namespace Packrat.Value

/-- Whether values are identical one by one. -/
def unchanged : List Value → List Value → Bool
  | [], [] => true
  | x :: xs, y :: ys => x.same y && unchanged xs ys
  | _, _ => false

@[simp] theorem unchanged_nil : unchanged [] [] = true := rfl

/-- What rebuilds with the help of a function: the state holds its answers so far, by the identities
of the nodes they are for, and the next identity. -/
abbrev Rebuild (m : Type → Type) := StateT (Std.HashMap Nat Value) (StateT Nat m)

/-- What is built from items that have been rebuilt: what there was before if none has changed. -/
def rebuildFrom {m : Type → Type} [Monad m] (build : Nat → List Value → Value) (id : Nat)
    (items rebuilt : List Value) : Rebuild m Value :=
  if unchanged items rebuilt then pure (build id items) else do
    let id ← fresh (m := m)
    pure (build id rebuilt)

/-! ### Jobs -/

/-- What is left to do: a value is entered, or a list or a node is built from what has become of
its items. -/
inductive Job where
  | enter (v : Value)
  | buildList (id : Nat) (items : List Value)
  | buildNode (id : Nat) (cls : NodeClass) (values : List Value) (extent? : Option Extent)

mutual

/-- How many jobs a value takes. -/
def weight : Value → Nat
  | .list _ items => weightAll items + 2
  | .node _ _ values _ => weightAll values + 2
  | _ => 1

def weightAll : List Value → Nat
  | [] => 0
  | v :: vs => weight v + weightAll vs

end

theorem weight_pos (v : Value) : 0 < v.weight := by
  cases v <;> simp [weight]

/-- How many jobs a job comes to. -/
def Job.weight : Job → Nat
  | .enter v => v.weight
  | .buildList _ _ | .buildNode _ _ _ _ => 1

/-- Jobs that enter values, before other jobs. -/
def enterAll (values : List Value) (jobs : List Job) : List Job := values.map .enter ++ jobs

/-- How many jobs a stack of jobs comes to. -/
def workLeft : List Job → Nat
  | [] => 0
  | job :: jobs => job.weight + workLeft jobs

@[simp] theorem workLeft_cons (job : Job) (jobs : List Job) :
    workLeft (job :: jobs) = job.weight + workLeft jobs := rfl

theorem workLeft_enterAll (values : List Value) (jobs : List Job) :
    workLeft (enterAll values jobs) = weightAll values + workLeft jobs := by
  induction values with
  | nil => simp [enterAll, weightAll]
  | cons v vs ih =>
      have step : workLeft (enterAll (v :: vs) jobs) = v.weight + workLeft (enterAll vs jobs) := rfl
      rw [step, ih, weightAll]
      omega

/-- Takes the last values from a stack, before `taken`, in the order in which they were put there.
There may be too few of them. -/
def takeBack? : Nat → List Value → List Value → Option (List Value × List Value)
  | 0, taken, done => some (taken, done)
  | _ + 1, _, [] => .none
  | n + 1, taken, v :: done => takeBack? n (v :: taken) done

/-- Does the jobs on a stack, with the values that have been rebuilt on another. Answers what is on
top of them in the end, and nothing if values are missing. -/
def rebuild {m : Type → Type} [Monad m] (callback : Value → StateT Nat m Value) :
    List Job → List Value → Rebuild m (Option Value)
  | [], done => pure done.head?
  | .enter (.list id items) :: jobs, done =>
    rebuild callback (enterAll items (.buildList id items :: jobs)) done
  | .enter (.node id cls values extent?) :: jobs, done => do
    let answers ← get
    -- A shared node has been handed over already.
    match answers[id]? with
    | some answer => rebuild callback jobs (answer :: done)
    | .none =>
      rebuild callback (enterAll values (.buildNode id cls values extent? :: jobs)) done
  | .enter v :: jobs, done => rebuild callback jobs (v :: done)
  | .buildList id items :: jobs, done =>
    match takeBack? items.length [] done with
    | .none => pure .none
    | some (rebuilt, done) => do
      let list ← rebuildFrom .list id items rebuilt
      rebuild callback jobs (list :: done)
  | .buildNode id cls values extent? :: jobs, done =>
    match takeBack? values.length [] done with
    | .none => pure .none
    | some (rebuilt, done) => do
      -- A node keeps its class and its place.
      let node ← rebuildFrom (fun id values => .node id cls values extent?) id values rebuilt
      let answer ← callback node
      modify (·.insert id answer)
      rebuild callback jobs (answer :: done)
termination_by jobs _ => workLeft jobs
decreasing_by
  all_goals simp only [workLeft_cons, workLeft_enterAll, Job.weight, weight]
  all_goals first | omega | exact Nat.lt_add_of_pos_left (weight_pos _)

/-- A value rebuilt with the help of a function, if no values go missing on the way; the state is
the next identity. -/
def transform? {m : Type → Type} [Monad m] (callback : Value → StateT Nat m Value) (v : Value) :
    StateT Nat m (Option Value) := (rebuild callback [.enter v] []).run' ∅

/-- A value rebuilt with the help of a function; the state is the next identity. -/
def transform {m : Type → Type} [Monad m] (callback : Value → StateT Nat m Value) (v : Value) :
    StateT Nat m Value := do
  let rebuilt? ← transform? callback v
  pure (rebuilt?.getD .none)

end Packrat.Value
