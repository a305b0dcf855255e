import SchemaPlan.Json.Number
import SchemaPlan.NameMap

/-!
# JSON values

JSON values as they stand in a text: the members of an object keep their order, and a key may occur
more than once.
-/
namespace SchemaPlan

/-- A JSON value. -/
inductive Json where
  | null
  | bool (value : Bool)
  | number (value : Json.Number)
  | text (value : String)
  | list (items : List Json)
  | object (members : List (String × Json))

namespace Json

instance : Inhabited Json := ⟨.null⟩

def natural (n : Nat) : Json :=
  .number (.ofNat n)

def text? : Option String → Json
  | none => .null
  | some s => .text s

def asText? : Json → Option String
  | .text s => some s
  | _ => none

def presentMembers (members : List (String × Json)) : List (String × Json) :=
  members.filter fun (_, value) =>
    match value with
    | .null => false
    | _ => true

end Json

end SchemaPlan
