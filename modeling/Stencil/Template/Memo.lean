import Stencil.Template.Error
import Stencil.Template.Node

/-!
# The memo

What the calls of a session have come to, and the keys of the calls that are under way. A key is in
flight from `begin?` to `finish`; beginning it again in between is a cycle. What a key has come to
is kept with the first error inside it, so that using it again reports the same failure.
-/

namespace Stencil.Template

/-- What tells one call from another: the name and the arguments. -/
structure CallKey where
  text : String
  deriving DecidableEq

/-- The key of a name and the arguments as one text. -/
def CallKey.of (name argument : String) : CallKey := ⟨name ++ ":" ++ argument⟩

/-- The key of a call. -/
def Call.key (c : Call) : CallKey := .of c.name c.argumentKey

/-- What a call has come to: its text and the first error inside it. -/
structure Outcome where
  value : String
  error : Option Error
  deriving DecidableEq

/-- The outcomes of the calls that are finished, newest first, and the keys of those under way. -/
structure Memo where
  outcomes : List (CallKey × Outcome)
  inFlight : List CallKey

namespace Memo

/-- The memo of a session that has called nothing. -/
def empty : Memo := ⟨[], []⟩

/-- The outcome of a key. -/
def lookup (memo : Memo) (key : CallKey) : Option Outcome :=
  (memo.outcomes.find? (·.1 == key)).map (·.2)

/-- Whether the call of a key is under way. -/
def isCyclic (memo : Memo) (key : CallKey) : Bool :=
  memo.inFlight.contains key

/-- Puts a key in flight, which it may not yet be. -/
def begin? (memo : Memo) (key : CallKey) : Except Error Memo :=
  if memo.isCyclic key then .error (.cyclic key.text)
  else .ok { memo with inFlight := key :: memo.inFlight }

/-- Ends the flight of a key with an outcome. -/
def finish (memo : Memo) (key : CallKey) (outcome : Outcome) : Memo :=
  ⟨(key, outcome) :: memo.outcomes, memo.inFlight.filter (· != key)⟩

/-- What a call has come to is remembered. -/
@[simp] theorem lookup_finish_self (memo : Memo) (key : CallKey) (outcome : Outcome) :
    (memo.finish key outcome).lookup key = some outcome := by
  simp [finish, lookup]

/-- What other calls have come to stays remembered. -/
theorem lookup_finish_of_ne (memo : Memo) {key other : CallKey} (h : other ≠ key)
    (outcome : Outcome) : (memo.finish key outcome).lookup other = memo.lookup other := by
  simp [finish, lookup, Ne.symm h]

/-- A call that has ended is not under way, and others are as before. -/
theorem isCyclic_finish (memo : Memo) (key other : CallKey) (outcome : Outcome) :
    (memo.finish key outcome).isCyclic other = (memo.isCyclic other && other != key) := by
  simp only [finish, isCyclic]
  rw [Bool.eq_iff_iff]
  simp

end Memo

end Stencil.Template
