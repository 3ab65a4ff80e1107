import Funnel.Calendar.Moment

/-!
# Time zones

A zone gives the UTC offset in force at every instant. A wall time that a change skips or
repeats takes the offset in force before the change. Which zones are known is left open; names that
are not known mean UTC.
-/

set_option autoImplicit false

namespace Funnel.Calendar

/-- A change of offset: the instant it happens and the offset from then on, in microseconds. -/
structure Transition where
  instant : Int
  offset : Int

/-- A zone: its first offset and its changes in order of time. -/
structure Zone where
  initial : Int
  changes : List Transition

namespace Zone

def offsetAt (z : Zone) (instant : Int) : Int :=
  z.changes.foldl (fun o t => if t.instant ≤ instant then t.offset else o) z.initial

/-- The offset of a wall time among the changes, given the offset before them. -/
def wallOffsetFrom (before : Int) (wall : Int) : List Transition → Int
  | [] => before
  | t :: rest =>
    if wall < t.instant + max before t.offset then before
    else wallOffsetFrom t.offset wall rest

def offsetOfWall (z : Zone) (wall : Int) : Int := wallOffsetFrom z.initial wall z.changes

def utc : Zone := ⟨0, []⟩

def fixed (minutes : Int) : Zone := ⟨minutes * 60 * microsPerSecond, []⟩

theorem offsetAt_fixed (minutes instant : Int) :
    (fixed minutes).offsetAt instant = minutes * 60 * microsPerSecond := rfl

theorem offsetOfWall_fixed (minutes wall : Int) :
    (fixed minutes).offsetOfWall wall = minutes * 60 * microsPerSecond := rfl

/-- A change at a minute of a day in UTC, to an offset in minutes. -/
def changeAt (year month day minute : Nat) (offset : Int) : Transition :=
  ⟨Date.dayNumberOf year month day * microsPerDay + minute * (60 * microsPerSecond),
    offset * 60 * microsPerSecond⟩

/-- A zone from its first offset in minutes and its changes. -/
def ofChanges (initial : Int) (changes : List Transition) : Zone :=
  ⟨initial * 60 * microsPerSecond, changes⟩

end Zone

/-- The zones that are known, by name. -/
abbrev Zones : Type := String → Option Zone

/-- The zone of a name among the zones that are known; UTC for an unknown one. -/
def Zone.named (known : Zones) (name : String) : Zone := (known name).getD utc

/-- The moment in a zone at the same instant, if the calendar holds it there and in UTC. -/
def Moment.inZone? (m : Moment) (z : Zone) : Option Moment := do
  let utc ← m.toUtc?
  utc.atOffset? (z.offsetAt m.instant)

end Funnel.Calendar
