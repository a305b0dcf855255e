import SchemaPlan.Ddl.TypeText

/-!
# Type registries

A registry pairs the source spellings of a type (`i64`, `Option<String>`, …) with the DDL type that
stores it. It is read in three ways: from a spelling to its DDL type (`resolve?`), as a test whether
a stored type may hold a spelling (`equivalent`), and from a stored type back to a spelling
(`canonicalSource?`). Optional types are written `Option<T>`, lists `Vec<T>`.
-/
namespace SchemaPlan

open Text Ddl

/-! ## Source spellings -/

/-- The argument `T` of a spelling `Name<T>`, with or without a path in front of the name. -/
def genericArgument? (name spelling : List Char) : Option (List Char) :=
  (cutAt '<' spelling).bind fun (head, rest) =>
    if head = name || (':' :: ':' :: name).isSuffixOf head then
      if rest.getLast? = some '>' then some rest.dropLast else none
    else none

/-- The type inside `Option<T>`, and whether there was one. -/
def stripOption (spelling : List Char) : List Char × Bool :=
  match genericArgument? "Option".toList spelling with
  | some inner => (inner, true)
  | none => (spelling, false)

def listElement? (spelling : List Char) : Option (List Char) :=
  genericArgument? "Vec".toList spelling

def lastSegment (path : List Char) : List Char :=
  let rec go : List Char → List Char
    | ':' :: ':' :: _ => []
    | c :: rest => c :: go rest
    | [] => []
  (go path.reverse).reverse

theorem genericArgument?_length {name spelling inner : List Char}
    (h : genericArgument? name spelling = some inner) : inner.length < spelling.length := by
  unfold genericArgument? at h
  obtain ⟨⟨head, rest⟩, hcut, h⟩ := Option.bind_eq_some_iff.1 h
  have hsum := congrArg List.length (eq_of_cutAt hcut)
  simp only [List.length_append, List.length_cons] at hsum
  dsimp only at h
  split at h
  · split at h
    · simp only [Option.some.injEq] at h
      simp only [← h, List.length_dropLast]
      omega
    · cases h
  · cases h

theorem stripOption_length (spelling : List Char) :
    (stripOption spelling).1.length ≤ spelling.length := by
  unfold stripOption
  split
  · next h => exact Nat.le_of_lt (genericArgument?_length h)
  · simp

/-! ## Entries -/

/-- One DDL type with the spellings that it stores. The first spelling of each list is the
canonical one. -/
structure TypeEntry where
  ddlType : String
  spellings : List String
  nullableSpellings : List String
  deriving DecidableEq

namespace TypeEntry

def compactSpelling (spelling : String) : String :=
  String.ofList (withoutBlanks spelling.toList)

/-- The entry of a DDL type whose nullable spellings are `Option<T>` of the others. -/
def ofSpellings (ddl : String) (spellings : List String) : TypeEntry :=
  let compact := spellings.map compactSpelling
  ⟨normalize ddl, compact, compact.map fun s => "Option<" ++ s ++ ">"⟩

def withNullable (entry : TypeEntry) (spellings : List String) : TypeEntry :=
  { entry with nullableSpellings := spellings.map compactSpelling }

def spellingsFor (entry : TypeEntry) (nullable : Bool) : List String :=
  if nullable then entry.nullableSpellings else entry.spellings

/-- Whether a spelling of either nullability is in the entry. -/
def accepts (entry : TypeEntry) (spelling : String) : Bool :=
  entry.spellings.contains spelling || entry.nullableSpellings.contains spelling

end TypeEntry

/-- How a dialect writes the type of a list. -/
structure ArrayForm where
  before : String
  after : String
  deriving DecidableEq

def ArrayForm.wrap (form : ArrayForm) (element : String) : String :=
  form.before ++ element ++ form.after

def ArrayForm.element? (form : ArrayForm) (ddl : List Char) : Option (List Char) :=
  (afterWord? form.before.toList ddl).bind fun rest => beforeWord? form.after.toList rest

theorem ArrayForm.eq_of_element? {form : ArrayForm} {ddl element : List Char}
    (h : form.element? ddl = some element) :
    ddl = form.before.toList ++ element ++ form.after.toList := by
  obtain ⟨rest, hrest, h⟩ := Option.bind_eq_some_iff.1 h
  rw [eq_of_afterWord? hrest, eq_of_beforeWord? h, List.append_assoc]

/-- What a spelling resolves to: the DDL type of an entry, or its own name in upper case. -/
inductive Resolution where
  | canonical (ddl : String)
  | named (ddl : String)
  deriving DecidableEq

def Resolution.ddl : Resolution → String
  | .canonical ddl => ddl
  | .named ddl => ddl

/-- The resolution with its DDL type changed. -/
def Resolution.map (f : String → String) : Resolution → Resolution
  | .canonical ddl => .canonical (f ddl)
  | .named ddl => .named (f ddl)

/-! ## Registries -/

/-- The types of a dialect: its own entries, then those its user added. -/
structure Registry where
  builtins : List TypeEntry
  registered : List TypeEntry
  arrays : Option ArrayForm

namespace Registry

def entries (registry : Registry) : List TypeEntry :=
  registry.builtins ++ registry.registered

def register (registry : Registry) (entries : List TypeEntry) : Registry :=
  { registry with registered := registry.registered ++ entries }

/-- The first entry with a spelling, preferring the spellings of the given nullability. -/
def lookup? (registry : Registry) (spelling : String) (nullable : Bool) : Option TypeEntry :=
  let has (nullable : Bool) (entry : TypeEntry) : Bool :=
    (entry.spellingsFor nullable).contains spelling
  (registry.entries.find? (has nullable)).or (registry.entries.find? (has !nullable))

def arrayElement? (registry : Registry) (ddl : List Char) : Option (List Char) :=
  registry.arrays.bind fun form => form.element? ddl

/-- Resolves a spelling without blanks. A list resolves through its element; a plain name that no
entry has stands for itself in upper case; any other spelling has no DDL type. -/
def resolveCompact? (registry : Registry) (spelling : List Char) (nullable : Bool) :
    Option Resolution :=
  match registry.lookup? (String.ofList spelling) nullable with
  | some entry => some (.canonical entry.ddlType)
  | none =>
    match _h : listElement? (stripOption spelling).1 with
    | some element =>
      registry.arrays.bind fun form =>
        (registry.resolveCompact? (stripOption element).1 (stripOption element).2).map
          (·.map form.wrap)
    | none =>
      let inner := (stripOption spelling).1
      if inner.isEmpty ||
          inner.any (fun c => c = '<' || c = '>' || c = '[' || c = '(' || c = '&') then
        none
      else some (.named (String.ofList (upperText (lastSegment inner))))
termination_by spelling.length
decreasing_by
  have h1 := genericArgument?_length _h
  have h2 := stripOption_length spelling
  have h3 := stripOption_length element
  omega

/-- The DDL type of a source spelling, if it has one. -/
def resolve? (registry : Registry) (spelling : String) (nullable : Bool) : Option Resolution :=
  registry.resolveCompact? (withoutBlanks spelling.toList) nullable

/-- Whether a stored type may hold a spelling without blanks. Lists are compared by their elements,
other types without their first argument list. -/
def equivalentCompact (registry : Registry) (spelling : List Char) (ddl : List Char) : Bool :=
  let ddl := normalizeChars ddl
  match registry.arrayElement? ddl with
  | some storedElement =>
    match _h : listElement? (stripOption spelling).1 with
    | some element => registry.equivalentCompact (stripOption element).1 storedElement
    | none => false
  | none =>
    let base := baseTypeChars ddl
    registry.entries.any fun entry =>
      (entry.ddlType.toList = ddl || baseTypeChars entry.ddlType.toList = base) &&
        entry.accepts (String.ofList spelling)
termination_by spelling.length
decreasing_by
  have h1 := genericArgument?_length _h
  have h2 := stripOption_length spelling
  have h3 := stripOption_length element
  omega

/-- Whether a stored type may hold a source spelling. Optional and other spellings of an entry count
alike. -/
def equivalent (registry : Registry) (spelling ddl : String) : Bool :=
  registry.equivalentCompact (withoutBlanks spelling.toList) ddl.toList

/-- The spelling of a type in normal form. Each list type has to be longer than its element, both
counted in upper case, since the normal form of an element may turn letters that were quoted in the
list into their upper case. -/
def canonicalFrom? (registry : Registry) (ddl : List Char) (nullable : Bool) : Option String :=
  match registry.arrayElement? ddl with
  | some element =>
    if _h : (upperText (normalizeChars element)).length < (upperText ddl).length then
      (registry.canonicalFrom? (normalizeChars element) false).map fun element =>
        let list := "Vec<" ++ element ++ ">"
        if nullable then "Option<" ++ list ++ ">" else list
    else none
  | none =>
    let base := baseTypeChars ddl
    let exact := registry.entries.find? fun entry => entry.ddlType.toList = ddl
    let similar := registry.entries.find? fun entry => baseTypeChars entry.ddlType.toList = base
    (exact.or similar).bind fun entry => (entry.spellingsFor nullable).head?
termination_by (upperText ddl).length

/-- The canonical source spelling of a stored type. -/
def canonicalSource? (registry : Registry) (ddl : String) (nullable : Bool) : Option String :=
  registry.canonicalFrom? (normalizeChars ddl.toList) nullable

end Registry

example : (Registry.mk [.ofSpellings "ßß" ["Sharp"]] [] (some ⟨"'", ""⟩)).canonicalSource?
    "'ßß" false = some "Vec<Sharp>" := by decide +kernel

end SchemaPlan
