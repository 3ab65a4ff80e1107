import Funnel.Catalog.Terms
import Funnel.Hours.Window
import Funnel.Value.Coerce

/-!
# Reading wire data

Data from outside is read field by field, and every violation is reported with the way to it. A
field may be given under its wire name or under its name in lower case with underscores; the wire
name wins. Unknown fields are left out.
-/

set_option autoImplicit false

namespace Funnel.Wire

open Number

/-- A value that was read, or everything against it. -/
abbrev Checked (α : Type) := Except (List Violation) α

variable {α β : Type}

def violated (rule : Rule) (path : List Step) : Checked α := .error [⟨rule, path⟩]

/-- A function and its argument, with the violations of both. -/
def Checked.and (f : Checked (α → β)) (x : Checked α) : Checked β :=
  match f, x with
  | .ok f, .ok x => .ok (f x)
  | .ok _, .error w => .error w
  | .error v, .ok _ => .error v
  | .error v, .error w => .error (v ++ w)

/-- Reads a value that was found at the end of a path. -/
abbrev Reader (α : Type) := List Step → Value → Checked α

def every (f : Nat → Value → Checked α) : (place : Nat) → List Value → Checked (List α)
  | _, [] => .ok []
  | i, v :: rest => Checked.and ((f i v).map List.cons) (every f (i + 1) rest)

def everyField (f : String → Value → Checked α) : Fields → Checked (Named α)
  | [] => .ok []
  | (n, v) :: rest =>
    Checked.and ((f n v).map fun x more => (n, x) :: more) (everyField f rest)

def text : Reader String := fun path v =>
  match v with
  | .text s => .ok s
  | _ => violated .stringType path

def anyValue : Reader Value := fun _ v => .ok v

def nullable (read : Reader α) : Reader (Option α) := fun path v =>
  match v with
  | .null => .ok none
  | v => (read path v).map some

def listOf (read : Reader α) : Reader (List α) := fun path v =>
  match v with
  | .list items => every (fun i v => read (path ++ [.index i]) v) 0 items
  | _ => violated .listType path

def mapOf (read : Reader α) : Reader (Named α) := fun path v =>
  match v with
  | .object fields => everyField (fun n v => read (path ++ [.field n]) v) fields
  | _ => violated .dictType path

def member (members : List α) (text : α → String) : Reader α := fun path v =>
  match v with
  | .text s =>
    match members.find? fun m => text m == s with
    | some m => .ok m
    | none => violated .enumMember path
  | _ => violated .enumMember path

/-- The double that an ASCII text spells. -/
def doubleOfText? (s : String) : Option Float :=
  let s := Text.trim s
  if s.toList.all fun c => c.toNat < 128 then readDouble? s else none

def double : Reader Float := fun path v =>
  match v with
  | .bool b => .ok (if b then 1.0 else 0.0)
  | .double x => .ok x
  | .int n => let x := ofInt n; if isFinite x then .ok x else violated .floatType path
  | .decimal d =>
    match d.toDouble? with
    | some x => .ok x
    | none => violated .floatType path
  | .text s =>
    match doubleOfText? s with
    | some x => .ok x
    | none => violated .floatParsing path
  | _ => violated .floatType path

/-- A text without zeros after its point. -/
def dropZeroPlaces (cs : List Char) : List Char :=
  match cs.dropWhile (· != '.') with
  | '.' :: places => if places.all (· == '0') then cs.takeWhile (· != '.') else cs
  | _ => cs

/-- The whole number that an ASCII text spells. -/
def intOfText? (s : String) : Option Int :=
  let cs := dropZeroPlaces (Text.trimChars s.toList)
  if cs.all fun c => c.toNat < 128 then readInt? (String.ofList cs) else none

def signed (negative : Bool) (n : Nat) : Int := if negative then -n else n

def whole : Reader Int := fun path v =>
  match v with
  | .bool b => .ok (if b then 1 else 0)
  | .int n => .ok n
  | .double x =>
    match toInt? x with
    | some n => .ok n
    | none => violated (if isFinite x then .intFromFloat else .finiteNumber) path
  | .decimal d =>
    match d.fraction? with
    | some (negative, r) =>
      if r.num % r.den = 0 then .ok (signed negative (r.num / r.den))
      else violated .intFromFloat path
    | none => violated .finiteNumber path
  | .text s =>
    match intOfText? s with
    | some n => .ok n
    | none => violated .intParsing path
  | _ => violated .intType path

/-- The name of a field in lower case with underscores. -/
def plainName (wireName : String) : String :=
  String.ofList (wireName.toList.flatMap fun c =>
    if 'A' ≤ c ∧ c ≤ 'Z' then ['_', Text.lowerChar c] else [c])

/-- A field under one of its names, with the name it was found under. -/
def namedField (fields : Fields) (name : String) : Option (String × Value) :=
  let under (n : String) : Option (String × Value) := (fields.find? n).map fun v => (n, v)
  (under name).or (under (plainName name))

def fieldOf (fields : Fields) (name : String) : Option Value :=
  (namedField fields name).map Prod.snd

/-- An object with the way to it. -/
structure Record where
  path : List Step
  fields : Fields

namespace Record

def required (r : Record) (name : String) (read : Reader α) : Checked α :=
  match namedField r.fields name with
  | some (found, v) => read (r.path ++ [.field found]) v
  | none => violated .missing (r.path ++ [.field name])

/-- A field that has a value of its own where it is missing. -/
def optional (r : Record) (name : String) (missing : α) (read : Reader α) : Checked α :=
  match namedField r.fields name with
  | some (found, v) => read (r.path ++ [.field found]) v
  | none => .ok missing

end Record

/-- Reads an object. The rule that anything else breaks depends on where the data comes from. -/
def record (rule : Rule) (read : Record → Checked α) : Reader α := fun path v =>
  match v with
  | .object fields => read ⟨path, fields⟩
  | _ => violated rule path

/-- What was read, with its violations as a fault. -/
def Checked.toFault (x : Checked α) : Except Fault α := x.mapError Fault.invalidData

end Funnel.Wire
