import SchemaPlan.Text.Cluster

/-!
# Snake case

The column name of a field that does not choose one: the words of the field's name in lower case,
joined by underscores. Words end at `_`, `-` and spaces, where small letters meet capitals, where
letters meet digits, and before the last capital of a run of capitals that a small letter follows.
A letter has its marks with it.
-/
namespace SchemaPlan.Text

/-- What a cluster is to the word splitter. -/
inductive Shape where
  | capital
  | small
  | digit
  | separator
  | other
  deriving DecidableEq

/-- The shape of a cluster. Digits are the ASCII ones; a letter is a capital or a small one if its
two cases differ. -/
def Shape.of (cluster : List Char) : Shape :=
  let small := lowerWord cluster
  let capital := upperText cluster
  if cluster = ['_'] || cluster = ['-'] || cluster = [' '] then .separator
  else if cluster.all Char.isDigit then .digit
  else if capital = small then .other
  else if cluster = capital then .capital
  else if cluster = small then .small
  else .other

/-- Whether a word ends between two clusters, the second of which is followed by one of shape
`next`. -/
def endsWord (first second : Shape) (next : Option Shape) : Bool :=
  match first, second with
  | .small, .capital => true
  | .capital, .digit => true
  | .digit, .capital => true
  | .digit, .small => true
  | .small, .digit => true
  | .capital, .capital => next == some .small
  | _, _ => false

/-- The words that clusters make up, some of them possibly empty. -/
def rawWords : List (List Char) → List (List Char)
  | [] => [[]]
  | c :: rest =>
    let words := rawWords rest
    if Shape.of c = .separator then [] :: words
    else
      match rest with
      | [] => [c]
      | d :: more =>
        if endsWord (Shape.of c) (Shape.of d) (more.head?.map Shape.of) then c :: words
        else
          match words with
          | [] => [c]
          | word :: others => (c ++ word) :: others

def words (cs : List Char) : List (List Char) :=
  (rawWords (clusters cs)).filter fun word => !word.isEmpty

/-- A name in snake case. -/
def snakeCase (name : String) : String :=
  "_".intercalate ((words name.toList).map fun word => String.ofList (lowerWord word))

example : snakeCase "Cafe\u0301Id2" = "cafe\u0301_id_2" := by decide +kernel

end SchemaPlan.Text
