/-!
# Blank characters

The characters that count as white space in declarations and DDL texts, and the two ways a text is
freed from them: at its ends (`trim`) and everywhere (`withoutBlanks`).
-/
namespace SchemaPlan.Text

/-- The characters with the Unicode property `White_Space`. -/
def isBlank (c : Char) : Bool :=
  let n := c.toNat
  (9 ≤ n && n ≤ 13) || n == 0x20 || n == 0x85 || n == 0xA0 || n == 0x1680 ||
    (0x2000 ≤ n && n ≤ 0x200A) || n == 0x2028 || n == 0x2029 || n == 0x202F || n == 0x205F ||
    n == 0x3000

def trimLeft (cs : List Char) : List Char :=
  cs.dropWhile isBlank

def trimRight (cs : List Char) : List Char :=
  (cs.reverse.dropWhile isBlank).reverse

def trim (cs : List Char) : List Char :=
  trimRight (trimLeft cs)

def withoutBlanks (cs : List Char) : List Char :=
  cs.filter fun c => !isBlank c

def trimmed (s : String) : String :=
  String.ofList (trim s.toList)

example : trim " a b ".toList = "a b".toList := by decide
example : withoutBlanks " a b ".toList = "ab".toList := by decide

end SchemaPlan.Text
