import Funnel.Store.Session

/-!
# Bounded work

A fixed number of workers drains a queue. A worker takes the item at the head, waits for its call,
puts the result into the item's slot and comes back for the next. A call that fails ends its
worker and nothing else: the first failure is what the pool answers, while the other workers
go on.
-/

set_option autoImplicit false

namespace Funnel

/-- Items with their places in the input. -/
abbrev Placed (α : Type) := List (Nat × α)

structure Pool (α β : Type) where
  /-- Workers without an item. -/
  idle : Nat
  /-- Items that were not taken yet. -/
  waiting : Placed α
  /-- Items whose calls are pending, in the order taken. -/
  pending : Placed α
  slots : List (Option β)
  /-- The first failure. -/
  raised : Option Fault
  /-- The most calls that were pending at once. -/
  peak : Nat

namespace Pool

variable {α β : Type}

/-- The number of workers for some items: at least one, at most the limit and one for each item. -/
def workers (limit : Int) (items : Nat) : Nat := (max 1 (min limit items)).toNat

def init (limit : Int) (items : List α) : Pool α β where
  idle := workers limit items.length
  waiting := items.zipIdx.map fun (x, i) => (i, x)
  pending := []
  slots := items.map fun _ => none
  raised := none
  peak := 0

/-- An idle worker takes the item at the head of the queue. -/
def start? (p : Pool α β) : Option (Pool α β) :=
  match p.idle, p.waiting with
  | idle + 1, item :: rest =>
    some { p with
      idle
      waiting := rest
      pending := p.pending ++ [item]
      peak := max p.peak (p.pending.length + 1) }
  | _, _ => none

/-- The `k`-th pending call ends. Its result goes into its slot and its worker is idle again; with
a failure the worker is gone. -/
def settle (p : Pool α β) (k : Nat) (place : Nat) (answer : Except Fault β) : Pool α β :=
  match answer with
  | .ok y =>
    { p with
      idle := p.idle + 1
      pending := p.pending.eraseIdx k
      slots := p.slots.set place (some y) }
  | .error e => { p with pending := p.pending.eraseIdx k, raised := p.raised.or (some e) }

/-- What can happen next: a worker takes an item, or a pending call ends in any way. -/
inductive Step : Pool α β → Pool α β → Prop where
  | start {p q : Pool α β} (h : p.start? = some q) : Step p q
  | settle {p : Pool α β} (k place : Nat) (x : α) (answer : Except Fault β)
      (h : p.pending[k]? = some (place, x)) : Step p (p.settle k place answer)

/-- What can happen in any number of steps. -/
inductive Reaches : Pool α β → Pool α β → Prop where
  | refl (p : Pool α β) : Reaches p p
  | step {p q r : Pool α β} (h : Reaches p q) (s : Step q r) : Reaches p r

def fill (p : Pool α β) : (fuel : Nat) → Pool α β
  | 0 => p
  | fuel + 1 =>
    match p.start? with
    | some q => fill q fuel
    | none => p

def outcome (p : Pool α β) : Except Fault (List β) :=
  match p.raised with
  | some e => .error e
  | none => .ok (p.slots.filterMap id)

/-- Runs the calls to the end. The schedule says which pending call ends next. -/
def drain (work : α → Session β) (schedule : Nat → Nat) : (left : Nat) → Pool α β →
    StateM Trace (Pool α β)
  | 0, p => pure p
  | left + 1, p => do
    let p := p.fill p.idle
    let k := schedule left % p.pending.length
    match p.pending[k]? with
    | none => pure p
    | some (place, x) => do
      let answer ← (work x).run
      drain work schedule left (p.settle k place answer)

/-- The pool at the end of all work on some items. -/
def finish (limit : Int) (schedule : Nat → Nat) (items : List α) (work : α → Session β) :
    StateM Trace (Pool α β) :=
  drain work schedule items.length (init limit items)

/-- Does the work on every item, at most `limit` at a time, with results in the order of the
items. -/
def run (limit : Int) (schedule : Nat → Nat) (items : List α) (work : α → Session β) :
    Session (List β) := ExceptT.mk do
  let p ← finish limit schedule items work
  pure p.outcome

end Pool

end Funnel
