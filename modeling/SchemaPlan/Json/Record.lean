import SchemaPlan.Json.Basic

/-!
# Records in JSON

Objects with fixed keys as JSON. A record may also be read from a list of its values in the order of
its keys, where a tail of optional ones may be missing. Unknown, repeated and missing keys are
faults, and so is `null` for a value that must be there.
-/
namespace SchemaPlan.Json

open Decimal

/-! ## Reading -/

/-- Reads a record with the given keys from its members. -/
def readRecord {α : Type} (keys : List String)
    (read : List (String × Json) → Except Fault α) : Json → Except Fault α
  | .object members =>
    let found := members.map Prod.fst
    if found.all keys.contains && found.eraseDups.length == found.length then read members
    else .error .mismatch
  | .list items =>
    (read (keys.zip items)).bind fun record =>
      if items.length ≤ keys.length then .ok record else .error .malformed
  | _ => .error .mismatch

/-- A member that has to be there. -/
def required {α : Type} (members : List (String × Json)) (key : String)
    (read : Json → Except Fault α) : Except Fault α :=
  match members.lookup key with
  | some value => read value
  | none => .error .mismatch

/-- A member that may be missing or `null`. -/
def optional {α : Type} (members : List (String × Json)) (key : String)
    (read : Json → Except Fault α) : Except Fault (Option α) :=
  match members.lookup key with
  | none => .ok none
  | some .null => .ok none
  | some value => (read value).map some

def readText : Json → Except Fault String
  | .text s => .ok s
  | _ => .error .mismatch

def readFlag : Json → Except Fault Bool
  | .bool b => .ok b
  | _ => .error .mismatch

/-- A member that may be missing, which means that the flag is not set. -/
def flag (members : List (String × Json)) (key : String) : Except Fault Bool :=
  match members.lookup key with
  | some value => readFlag value
  | none => .ok false

/-- A whole number of 64 bits, spelled without sign, fraction and exponent. -/
def readWord : Json → Except Fault UInt64
  | .number n =>
    match n.natural? with
    | some value =>
      if value < bound64 then .ok (UInt64.ofNat value) else .error .mismatch
    | none => .error .mismatch
  | _ => .error .mismatch

def readList {α : Type} (read : Json → Except Fault α) : Json → Except Fault (List α)
  | .list items => items.mapM read
  | _ => .error .mismatch

/-! ## Writing -/

def optionMember {α : Type} (key : String) (write : α → Json) : Option α → List (String × Json)
  | none => []
  | some value => [(key, write value)]

def word (n : UInt64) : Json :=
  natural n.toNat

end SchemaPlan.Json
