import SchemaPlan.Text.CaseTable

/-!
# Upper and lower case

Full Unicode case mapping of characters and words. Upper-casing works character by character; some
letters become several characters. Lower-casing a word has one rule that looks around: a capital
sigma that ends a word becomes the final form of the small sigma.
-/
namespace SchemaPlan.Text

/-- The first image of `n` in a table of runs, `n` itself when no run has it. -/
def mapByRuns (runs : List CaseRun) (n : Nat) : Nat :=
  (runs.findSome? fun run => run.apply? n).getD n

def upper (c : Char) : List Char :=
  if c.toNat < 0x80 then [c.toUpper]
  else
    match upperExpansions.lookup c.toNat with
    | some image => image.map Char.ofNat
    | none => [Char.ofNat (mapByRuns upperRuns c.toNat)]

/-- The lower case of a character on its own; the capital I with a dot keeps its dot as a mark. -/
def lower (c : Char) : List Char :=
  if c.toNat < 0x80 then [c.toLower]
  else if c.toNat = 0x130 then ['i', Char.ofNat 0x307]
  else [Char.ofNat (mapByRuns lowerRuns c.toNat)]

/-- Whether a code lies in one of the ranges. -/
def inRanges (ranges : List (Nat × Nat)) (n : Nat) : Bool :=
  ranges.any fun (first, last) => first ≤ n && n ≤ last

/-- Letters that have a case. -/
def isCased (c : Char) : Bool :=
  inRanges casedRanges c.toNat

/-- Characters that do not separate a letter from its neighbours, such as an apostrophe. -/
def isCaseIgnorable (c : Char) : Bool :=
  inRanges caseIgnorableRanges c.toNat

/-- Whether the nearest character that counts is a letter with a case. -/
def touchesCased (cs : List Char) : Bool :=
  match cs.dropWhile isCaseIgnorable with
  | [] => false
  | c :: _ => isCased c

/-- Lower-cases a text whose characters before it are `before`, nearest first. -/
def lowerFrom (before : List Char) : List Char → List Char
  | [] => []
  | c :: rest =>
    let image :=
      if c = 'Σ' && touchesCased before && !touchesCased rest then ['ς'] else lower c
    image ++ lowerFrom (c :: before) rest

def lowerWord (cs : List Char) : List Char :=
  lowerFrom [] cs

def upperText (cs : List Char) : List Char :=
  cs.flatMap upper

def lowerAscii (cs : List Char) : List Char :=
  cs.map Char.toLower

def upperAscii (cs : List Char) : List Char :=
  cs.map Char.toUpper

/-- Whether two texts differ in the case of ASCII letters only. -/
def sameLetters (a b : List Char) : Bool :=
  lowerAscii a == lowerAscii b

example : upper 'ß' = ['S', 'S'] := by decide
example : lowerWord "ΟΔΟΣ".toList = "οδος".toList := by decide +kernel
example : lowerWord "ΣΑ".toList = "σα".toList := by decide +kernel

end SchemaPlan.Text
