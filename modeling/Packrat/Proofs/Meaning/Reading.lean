import Packrat.Host.Eval
import Packrat.Machine.Run

/-
**What reading an input comes to.**

The meaning of an expression is a reading of the input: it ends with a verdict, which is a value
with the place behind what was read, or what was expected with the place where it was not found.
Host code may stop a reading, and a reading may go on forever; the latter is approximated by
readings that give up after a number of rounds.

Main definitions:

* `Packrat.Verdict` — how a reading ends;
* `Packrat.Store`, `Packrat.Reading` — what readings work on, and readings;
* `Packrat.Reading.repeatFrom` — a part that is read again and again;
* `Packrat.Reading.remembered` — a reading whose verdict is remembered under a number and a place.

Main results:

* `Packrat.Reading.remembered_false` — where nothing is remembered, a reading is what it was;
* `Packrat.Reading.bind_apply` — one reading after another.
-/

set_option autoImplicit false

namespace Packrat

/-- How a reading ends: with a value and the place behind what was read, or with what was expected
and the place where it was not found. -/
inductive Verdict (α : Type) where
  | success (value : α) (pos : Nat)
  | failure (entry : FailureEntry) (pos : Nat)

/-- The place that a reading has come to. -/
def Verdict.pos {α : Type} : Verdict α → Nat
  | .success _ pos => pos
  | .failure _ pos => pos

/-- What stops a reading. -/
inductive Stop where
  | host (error : Host.Error)
  /-- A name stands for nothing, or an alternative is chosen from none. -/
  | stuck

/-- What readings work on: the next identity of a shared value, and the verdicts remembered. -/
structure Store where
  identity : Nat
  memo : MemoKey → Option (Verdict Value)

/-- The store with one more verdict. -/
def Store.remember (s : Store) (key : MemoKey) (v : Verdict Value) : Store :=
  { s with memo := fun k => if k = key then some v else s.memo k }

/-- A reading; none is one that has given up. -/
abbrev Reading := StateT Store (ExceptT Stop Option)

namespace Reading

variable {α β σ : Type}

/-- The reading that has given up. -/
def exhausted : Reading α := fun _ => none

/-- The reading that cannot go on. -/
def stuck : Reading α := fun _ => some (.error .stuck)

/-- Host code within a reading. -/
def host (e : Host.Eval α) : Reading α := fun s =>
  match e.run s.identity with
  | .ok (x, identity) => some (.ok (x, { s with identity }))
  | .error error => some (.error (.host error))

/-- What a name stands for, or nothing at all. -/
def found : Option α → Reading α
  | some x => pure x
  | none => stuck

/-- One reading after another. -/
theorem bind_apply (r : Reading α) (k : α → Reading β) (s : Store) :
    (r >>= k) s =
      match r s with
      | none => none
      | some (.error stop) => some (.error stop)
      | some (.ok (x, s')) => k x s' := by
  change (r s >>= fun p => k p.1 p.2 : ExceptT Stop Option _) = _
  simp only [bind, ExceptT.bind, ExceptT.mk, Option.bind]
  cases r s with
  | none => rfl
  | some out =>
      cases out with
      | error stop => rfl
      | ok p => rfl

@[simp] theorem pure_apply (x : α) (s : Store) :
    (pure x : Reading α) s = some (.ok (x, s)) := rfl

/-- Host code that has come to a value. -/
theorem host_bind {e : Host.Eval α} {x : α} {n : Nat} {s : Store}
    (h : e.run s.identity = .ok (x, n)) (k : α → Reading β) :
    (host e >>= k) s = k x { s with identity := n } := by
  rw [bind_apply, host, h]

/-- An identity is drawn. -/
theorem fresh_bind (k : Nat → Reading α) (s : Store) :
    (host fresh >>= k) s = k s.identity { s with identity := s.identity + 1 } := rfl

/-- Where the first part fails, its failure is that of both. -/
def andThen (r : Reading (Verdict α)) (k : α → Nat → Reading (Verdict β)) :
    Reading (Verdict β) := do
  match ← r with
  | .success x pos => k x pos
  | .failure entry pos => pure (.failure entry pos)

/-- A part that is read again and again, until it says what all of it comes to. -/
def repeatFrom (part : σ → Reading (σ ⊕ α)) : Nat → σ → Reading α
  | 0, _ => exhausted
  | rounds + 1, s => do
    match ← part s with
    | .inl s => repeatFrom part rounds s
    | .inr x => pure x

/-- The failure of a function that begins with itself. -/
def selfReference (pos : Nat) : Verdict Value := .failure ⟨"", "", .leftRecursion⟩ pos

/-- The reading of a function that is remembered under its number and its place. While it is under
way the function counts as one that begins with itself. -/
def remembered (memoize : Bool) (function pos : Nat) (r : Reading (Verdict Value)) :
    Reading (Verdict Value) :=
  if memoize then do
    let s ← get
    match s.memo (function, pos) with
    | some v => pure v
    | none => do
      set (s.remember (function, pos) (selfReference pos))
      let v ← r
      modify (·.remember (function, pos) v)
      pure v
  else r

@[simp] theorem remembered_false (function pos : Nat) (r : Reading (Verdict Value)) :
    remembered false function pos r = r := rfl

theorem remembered_true (function pos : Nat) (r : Reading (Verdict Value)) (s : Store) :
    remembered true function pos r s =
      match s.memo (function, pos) with
      | some v => some (.ok (v, s))
      | none =>
        (r >>= fun v s' => some (.ok (v, s'.remember (function, pos) v)) : Reading (Verdict Value))
          (s.remember (function, pos) (selfReference pos)) := by
  change (match s.memo (function, pos) with
    | some v => (pure v : Reading (Verdict Value))
    | none => (set (s.remember (function, pos) (selfReference pos)) >>= fun _ => r >>= fun v =>
        modify (fun s' : Store => s'.remember (function, pos) v) >>= fun _ => pure v)) s = _
  cases s.memo (function, pos) with
  | some v => rfl
  | none => rfl

end Reading

end Packrat
