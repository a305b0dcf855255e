import SchemaPlan.Text.ClusterTable
import SchemaPlan.Text.LetterCase

/-!
# Clusters

What a reader takes for one character may be several: a letter and the marks on it, a syllable, two
letters of a flag, pictographs that are joined. A text is cut into such clusters by the boundary
rules of Unicode. The rule for conjuncts of Indic consonants is left out, which only joins letters
that have no case.

* `clusters`: the clusters of a text.
* `flatten_clusters`: together they are the text.
-/
namespace SchemaPlan.Text

/-- What a character is to the rules for boundaries. -/
inductive Joining where
  | carriageReturn
  | lineFeed
  | control
  | extend
  /-- The joiner of pictographs. -/
  | joiner
  | spacing
  | prepend
  | flag
  /-- The parts of Korean syllables, and syllables without and with a last consonant. -/
  | leading
  | vowel
  | trailing
  | openSyllable
  | closedSyllable
  | pictograph
  | other
  deriving DecidableEq

def Joining.of (c : Char) : Joining :=
  let n := c.toNat
  if n < 0x80 then
    if n = 0x0D then .carriageReturn
    else if n = 0x0A then .lineFeed
    else if n < 0x20 || n = 0x7F then .control
    else .other
  else if inRanges extendRanges n then .extend
  else if n = 0x200D then .joiner
  else if inRanges spacingRanges n then .spacing
  else if inRanges prependRanges n then .prepend
  else if inRanges controlRanges n then .control
  else if inRanges pictographRanges n then .pictograph
  else if inRanges [(0x1F1E6, 0x1F1FF)] n then .flag
  else if inRanges [(0x1100, 0x115F), (0xA960, 0xA97C)] n then .leading
  else if inRanges [(0x1160, 0x11A7), (0xD7B0, 0xD7C6)] n then .vowel
  else if inRanges [(0x11A8, 0x11FF), (0xD7CB, 0xD7FB)] n then .trailing
  else if inRanges [(0xAC00, 0xD7A3)] n then
    if (n - 0xAC00) % 28 = 0 then .openSyllable else .closedSyllable
  else .other

/-- What stands in front of a character: the one before it, whether a pictograph and then only marks
do, and whether an odd number of letters of flags does. -/
structure Preceding where
  last : Joining
  pictograph : Bool
  oddFlags : Bool

/-- The start of a text, which no character belongs to. -/
def Preceding.start : Preceding :=
  ⟨.control, false, false⟩

def Preceding.next (before : Preceding) (kind : Joining) : Preceding where
  last := kind
  pictograph :=
    kind = .pictograph ||
      (before.pictograph && before.last != .joiner && (kind = .extend || kind = .joiner))
  oddFlags := kind = .flag && !before.oddFlags

/-- Whether a character belongs to the cluster in front of it. -/
def Preceding.joins (before : Preceding) (kind : Joining) : Bool :=
  match before.last, kind with
  | .carriageReturn, .lineFeed => true
  | .carriageReturn, _ | .lineFeed, _ | .control, _ => false
  | _, .carriageReturn | _, .lineFeed | _, .control => false
  | .leading, .leading | .leading, .vowel | .leading, .openSyllable
  | .leading, .closedSyllable => true
  | .openSyllable, .vowel | .vowel, .vowel | .openSyllable, .trailing | .vowel, .trailing => true
  | .closedSyllable, .trailing | .trailing, .trailing => true
  | _, .extend | _, .joiner | _, .spacing => true
  | .prepend, _ => true
  | .joiner, .pictograph => before.pictograph
  | .flag, .flag => before.oddFlags
  | _, _ => false

/-- What of a text belongs to the cluster in front of it, and the clusters behind that. -/
def clustersFrom (before : Preceding) : List Char → List Char × List (List Char)
  | [] => ([], [])
  | c :: rest =>
    let (own, others) := clustersFrom (before.next (Joining.of c)) rest
    if before.joins (Joining.of c) then (c :: own, others) else ([], (c :: own) :: others)

def clusters (cs : List Char) : List (List Char) :=
  (clustersFrom .start cs).2

theorem flatten_clustersFrom (before : Preceding) (cs : List Char) :
    (clustersFrom before cs).1 ++ (clustersFrom before cs).2.flatten = cs := by
  induction cs generalizing before with
  | nil => rfl
  | cons c rest ih =>
    have hrest := ih (before.next (Joining.of c))
    rw [clustersFrom]
    cases before.joins (Joining.of c) with
    | true => exact congrArg (c :: ·) hrest
    | false => exact congrArg (c :: ·) hrest

/-- The clusters of a text are the text: no character belongs to the start. -/
theorem flatten_clusters (cs : List Char) : (clusters cs).flatten = cs := by
  have hnone : (clustersFrom .start cs).1 = [] := by
    cases cs with
    | nil => rfl
    | cons c rest => rfl
  have hall := flatten_clustersFrom .start cs
  rwa [hnone, List.nil_append] at hall

example : clusters "e\u0301A".toList = ["e\u0301".toList, ['A']] := by decide +kernel

end SchemaPlan.Text
