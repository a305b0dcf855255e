import SchemaPlan.Error
import SchemaPlan.Text.Blank
import SchemaPlan.Text.Pieces

/-!
# Spanner column options

Column options such as `allow_commit_timestamp=true`: assignments separated by commas, with or
without `OPTIONS (…)` around them. Names are in lower case, and so are the values `true`, `false`
and `null`; the last of several assignments to a name counts. An option set to `null` is not set.
-/
namespace SchemaPlan.Spanner

open Text

abbrev Options := NameMap String

/-- The assignments of an option text, without the words around them. -/
def optionBody (extra : String) : Except OptionFault (List Char) :=
  let text := trim extra.toList
  if sameLetters (text.take 7) "OPTIONS".toList then
    let list := trim (text.drop 7)
    match (afterWord? ['('] list).bind (beforeWord? [')']) with
    | some body => .ok (trim body)
    | none => .error (.brackets extra)
  else .ok text

def normalizeValue (value : List Char) : List Char :=
  let lowered := lowerAscii value
  if lowered = "true".toList || lowered = "false".toList || lowered = "null".toList then lowered
  else value

def readAssignment (entry : List Char) : Except OptionFault (String × String) :=
  match (cutAt '=' entry).map fun (name, value) => (trim name, trim value) with
  | some (name, value) =>
    if name.isEmpty || value.isEmpty then .error (.notAssignment (String.ofList entry))
    else .ok (String.ofList (lowerAscii name), String.ofList (normalizeValue value))
  | none => .error (.notAssignment (String.ofList entry))

/-- The assignments between commas; blank ones do not count. -/
def optionEntries (body : List Char) : List (List Char) :=
  ((pieces (· == ',') body).map trim).filter fun entry => !entry.isEmpty

/-- Reads an option text. -/
def Options.read (extra : String) : Except OptionFault Options := do
  let body ← optionBody extra
  let assignments ← (optionEntries body).mapM readAssignment
  .ok (NameMap.ofList assignments)

/-- The options that a text sets: none if it cannot be read, and none that are `null`. -/
def Options.ofExtra (extra : Option String) : Options :=
  match extra.map Options.read with
  | some (.ok options) => options.filter fun _ value => value != "null"
  | _ => NameMap.empty

def Options.render (options : Options) : String :=
  ", ".intercalate (options.entries.map fun (name, value) => name ++ "=" ++ value)

/-- The normal form of an option text; without options there is none. -/
def normalizeExtra (extra : Option String) : Option String :=
  let options := Options.ofExtra extra
  if options.entries.isEmpty then none else some options.render

/-- The assignments that turn one set of options into another. -/
def Options.changes (before after : Options) : Options :=
  let set := after.filter fun name value => before.find? name != some value
  let cleared := before.filter fun name _ => !after.contains name
  NameMap.ofList (set.entries ++ cleared.names.map (·, "null"))

end SchemaPlan.Spanner
