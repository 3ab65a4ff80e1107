import Funnel.Query.Bound

/-!
# Sessions with the store

A session asks the store, may fail, and leaves a trace of what it asked. The trace is kept when a
step of the session fails, so it holds everything that was ever handed to the store.
-/

set_option autoImplicit false

namespace Funnel

/-- A store. What it answers to a call may depend on the calls before, the oldest first. -/
structure Store where
  answer : (earlier : List Call) → Call → Except Fault Value

/-- A store that answers by the text and the parameters of a call alone. -/
def Store.ofFunction (f : String → Fields → Except Fault Value) : Store :=
  ⟨fun _ c => f c.sql c.params⟩

/-- What a session has done so far. -/
structure Trace where
  /-- Calls of the store, the oldest first. -/
  calls : List Call
  /-- Failures that were answered with something empty. -/
  failures : Nat
  /-- Lists of people whose names were looked up. -/
  lookups : List (List String)

def Trace.start : Trace := ⟨[], 0, []⟩

/-- A computation that asks the store and may fail. -/
abbrev Session (α : Type) : Type := ExceptT Fault (StateM Trace) α

namespace Session

variable {α β : Type}

def ofExcept (x : Except Fault α) : Session α := ExceptT.mk (pure x)

def ask (store : Store) (c : Call) : Session Value := ExceptT.mk do
  let trace ← get
  set { trace with calls := trace.calls ++ [c] }
  pure (store.answer trace.calls c)

/-- Does everything, also what comes after a failure, and then fails with the first failure. -/
def gather (xs : List (Session α)) : Session (List α) := ExceptT.mk do
  let answers ← xs.mapM ExceptT.run
  pure (answers.mapM id)

/-- A session that counts its failure and goes on with something else in its place. -/
def orElse (x : Session α) (fallback : α) : Session α := ExceptT.mk do
  match ← x.run with
  | .ok a => pure (.ok a)
  | .error _ =>
    modify fun trace => { trace with failures := trace.failures + 1 }
    pure (.ok fallback)

def noteLookup (ids : List String) : Session Unit := do
  modify fun trace => { trace with lookups := trace.lookups ++ [ids] }

end Session

end Funnel
