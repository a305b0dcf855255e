import SchemaPlan.Json.Basic

/-!
# Reading JSON

The value of a JSON text, or what is wrong with the text. The reader walks through the characters
with a stack of the lists and objects that are still open; `Expect` says what may come next.

* `scanText_length`, `Number.scan_length`: what the reader takes from the text is never empty, so
  the walk ends.
-/
namespace SchemaPlan.Json

/-! ## Strings -/

def hexDigit? (c : Char) : Option Nat :=
  if c.isDigit then some (c.toNat - '0'.toNat)
  else if 'a' ≤ c ∧ c ≤ 'f' then some (c.toNat - 'a'.toNat + 10)
  else if 'A' ≤ c ∧ c ≤ 'F' then some (c.toNat - 'A'.toNat + 10)
  else none

/-- The code unit that four hexadecimal digits stand for. A text with less than four bytes left is
over too early. -/
def scanUnit : List Char → Except Fault (Nat × List Char)
  | a :: b :: c :: d :: rest =>
    match [a, b, c, d].mapM hexDigit? with
    | some values => .ok (values.foldl (fun n v => 16 * n + v) 0, rest)
    | none => .error .malformed
  | cs => .error (if (String.ofList cs).utf8ByteSize < 4 then .ended else .malformed)

/-- The second half of a character written as two code units. -/
def scanLowUnit : List Char → Except Fault (Nat × List Char)
  | '\\' :: 'u' :: rest => do
    let (unit, rest) ← scanUnit rest
    if 0xDC00 ≤ unit && unit ≤ 0xDFFF then .ok (unit, rest) else .error .malformed
  | [] => .error .ended
  | ['\\'] => .error .ended
  | _ => .error .malformed

/-- The character behind a backslash. -/
def scanEscape : List Char → Except Fault (Char × List Char)
  | [] => .error .ended
  | c :: rest =>
    if c = '"' || c = '\\' || c = '/' then .ok (c, rest)
    else if c = 'b' then .ok (Char.ofNat 8, rest)
    else if c = 'f' then .ok (Char.ofNat 12, rest)
    else if c = 'n' then .ok ('\n', rest)
    else if c = 'r' then .ok ('\r', rest)
    else if c = 't' then .ok ('\t', rest)
    else if c = 'u' then do
      let (unit, rest) ← scanUnit rest
      if 0xD800 ≤ unit && unit ≤ 0xDBFF then
        let (low, rest) ← scanLowUnit rest
        .ok (Char.ofNat (0x10000 + (unit - 0xD800) * 0x400 + (low - 0xDC00)), rest)
      else if 0xDC00 ≤ unit && unit ≤ 0xDFFF then .error .malformed
      else .ok (Char.ofNat unit, rest)
    else .error .malformed

theorem scanUnit_length {cs : List Char} {p : Nat × List Char} (h : scanUnit cs = .ok p) :
    p.2.length < cs.length := by
  unfold scanUnit at h
  split at h
  · split at h
    · simp only [Except.ok.injEq] at h
      simp only [← h, List.length_cons]
      omega
    · cases h
  · cases h

theorem scanLowUnit_length {cs : List Char} {p : Nat × List Char}
    (h : scanLowUnit cs = .ok p) : p.2.length < cs.length := by
  unfold scanLowUnit at h
  split at h
  · next tail =>
    cases hu : scanUnit tail with
    | error => simp [hu, bind, Except.bind] at h
    | ok u =>
      have := scanUnit_length hu
      simp only [hu, bind, Except.bind] at h
      split at h
      · simp only [Except.ok.injEq] at h
        simp only [← h, List.length_cons]
        omega
      · cases h
  all_goals cases h

theorem scanEscape_length {cs : List Char} {p : Char × List Char} (h : scanEscape cs = .ok p) :
    p.2.length < cs.length := by
  unfold scanEscape at h
  split at h
  · cases h
  · next head tail =>
    have single : ∀ {x : Char}, Except.ok (x, tail) = (Except.ok p : Except Fault _) →
        p.2.length < (head :: tail).length := by
      intro x hx
      simp only [Except.ok.injEq] at hx
      simp [← hx]
    split at h; · exact single h
    split at h; · exact single h
    split at h; · exact single h
    split at h; · exact single h
    split at h; · exact single h
    split at h; · exact single h
    split at h
    · cases hu : scanUnit tail with
      | error => simp [hu, bind, Except.bind] at h
      | ok u =>
        have h1 := scanUnit_length hu
        simp only [hu, bind, Except.bind] at h
        split at h
        · cases hl : scanLowUnit u.2 with
          | error => simp [hl] at h
          | ok l =>
            have h2 := scanLowUnit_length hl
            simp only [hl, Except.ok.injEq] at h
            simp only [← h, List.length_cons]
            omega
        · split at h
          · cases h
          · simp only [Except.ok.injEq] at h
            simp only [← h, List.length_cons]
            omega
    · cases h

/-- The characters of a string up to its closing quote, and what follows the quote. -/
def scanText (text : List Char) : Except Fault (List Char × List Char) :=
  match text with
  | [] => .error .ended
  | c :: rest =>
    if c = '"' then .ok ([], rest)
    else if c = '\\' then
      match _h : scanEscape rest with
      | .error fault => .error fault
      | .ok (x, after) => (scanText after).map fun (xs, last) => (x :: xs, last)
    else if c.toNat < 0x20 then .error .malformed
    else (scanText rest).map fun (xs, last) => (c :: xs, last)
termination_by text.length
decreasing_by
  · have : after.length < rest.length := scanEscape_length _h
    simp only [List.length_cons]
    omega
  · simp

theorem scanText_length {cs : List Char} {p : List Char × List Char} (h : scanText cs = .ok p) :
    p.2.length < cs.length := by
  fun_induction scanText cs generalizing p with
  | case1 => cases h
  | case2 tail =>
    simp only [Except.ok.injEq] at h
    simp [← h]
  | case3 => cases h
  | case4 tail x after he _ ih =>
    cases hs : scanText after with
    | error => simp [hs, Except.map] at h
    | ok s =>
      have h1 := ih hs
      have h2 : after.length < tail.length := scanEscape_length he
      simp only [hs, Except.map, Except.ok.injEq] at h
      simp only [← h, List.length_cons]
      omega
  | case5 => cases h
  | case6 c tail _ _ _ ih =>
    cases hs : scanText tail with
    | error => simp [hs, Except.map] at h
    | ok s =>
      have h1 := ih hs
      simp only [hs, Except.map, Except.ok.injEq] at h
      simp only [← h, List.length_cons]
      omega

/-! ## Values -/

def scanWord : List Char → List Char → Except Fault (List Char)
  | [], cs => .ok cs
  | _ :: _, [] => .error .ended
  | w :: word, c :: cs => if w = c then scanWord word cs else .error .malformed

theorem scanWord_length {word cs rest : List Char} (h : scanWord word cs = .ok rest) :
    rest.length ≤ cs.length := by
  fun_induction scanWord word cs with
  | case1 => simp only [Except.ok.injEq] at h; simp [h]
  | case2 => cases h
  | case3 w word cs ih =>
    have := ih h
    simp only [List.length_cons]
    omega
  | case4 => cases h

/-- Reads a value without inner values, which starts with `first`. -/
def scanScalar (first : Char) (rest : List Char) : Except Fault (Json × List Char) :=
  if first = '"' then (scanText rest).map fun (xs, after) => (.text (String.ofList xs), after)
  else if first = 't' then (scanWord "rue".toList rest).map (.bool true, ·)
  else if first = 'f' then (scanWord "alse".toList rest).map (.bool false, ·)
  else if first = 'n' then (scanWord "ull".toList rest).map (.null, ·)
  else if first = '-' || first.isDigit then
    (Number.scan (first :: rest)).map fun (n, after) => (.number n, after)
  else .error .malformed

theorem scanScalar_length {first : Char} {cs : List Char} {p : Json × List Char}
    (h : scanScalar first cs = .ok p) : p.2.length ≤ cs.length := by
  unfold scanScalar at h
  have word : ∀ {w : List Char} {v : Json},
      (scanWord w cs).map (v, ·) = .ok p → p.2.length ≤ cs.length := by
    intro w v hw
    cases hs : scanWord w cs with
    | error => simp [hs, Except.map] at hw
    | ok s =>
      simp only [hs, Except.map, Except.ok.injEq] at hw
      rw [← hw]
      exact scanWord_length hs
  split at h
  · cases hs : scanText cs with
    | error => simp [hs, Except.map] at h
    | ok s =>
      have := scanText_length hs
      simp only [hs, Except.map, Except.ok.injEq] at h
      simp only [← h]
      omega
  · split at h; · exact word h
    split at h; · exact word h
    split at h; · exact word h
    split at h
    · cases hs : Number.scan (first :: cs) with
      | error => simp [hs, Except.map] at h
      | ok s =>
        have := Number.scan_length hs
        simp only [hs, Except.map, Except.ok.injEq] at h
        simp only [List.length_cons] at this
        simp only [← h]
        omega
    · cases h

/-- A list or object whose end has not been read: what it holds so far, last first, and for an
object the key whose value is being read. -/
inductive OpenValue where
  | list (before : List Json)
  | object (before : List (String × Json)) (key : String)

/-- What the reader is waiting for. -/
inductive Expect where
  | value
  | firstItem
  | firstKey
  | key (before : List (String × Json))
  | colon (before : List (String × Json)) (key : String)
  | next (value : Json)

/-- The characters that may stand between the parts of a JSON text. -/
def isGap (c : Char) : Bool :=
  c = ' ' || c = '\n' || c = '\t' || c = '\r'

/-- What follows a complete value that stands in the innermost open list or object. -/
def afterValue (value : Json) (c : Char) : List OpenValue → Except Fault (Expect × List OpenValue)
  | [] => .error .malformed
  | .list before :: outer =>
    if c = ',' then .ok (.value, .list (value :: before) :: outer)
    else if c = ']' then .ok (.next (.list (value :: before).reverse), outer)
    else .error .malformed
  | .object before key :: outer =>
    if c = ',' then .ok (.key ((key, value) :: before), outer)
    else if c = '\x7d' then .ok (.next (.object ((key, value) :: before).reverse), outer)
    else .error .malformed

/-- Reads the value at a character that is no gap: a list or object opens, anything else is complete
at once. -/
def startValue (c : Char) (rest : List Char) (stack : List OpenValue) :
    Except Fault (Expect × List OpenValue × List Char) :=
  if c = '[' then .ok (.firstItem, stack, rest)
  else if c = '\x7b' then .ok (.firstKey, stack, rest)
  else (scanScalar c rest).map fun (value, after) => (.next value, stack, after)

def startKey (c : Char) (rest : List Char) (before : List (String × Json))
    (stack : List OpenValue) : Except Fault (Expect × List OpenValue × List Char) :=
  if c = '"' then
    (scanText rest).map fun (xs, after) => (.colon before (String.ofList xs), stack, after)
  else .error .malformed

/-- One step of the reader at a character that is no gap. -/
def advance (expect : Expect) (stack : List OpenValue) (c : Char) (rest : List Char) :
    Except Fault (Expect × List OpenValue × List Char) :=
  match expect with
  | .value => startValue c rest stack
  | .firstItem =>
    if c = ']' then .ok (.next (.list []), stack, rest)
    else startValue c rest (.list [] :: stack)
  | .firstKey =>
    if c = '\x7d' then .ok (.next (.object []), stack, rest) else startKey c rest [] stack
  | .key before => startKey c rest before stack
  | .colon before key =>
    if c = ':' then .ok (.value, .object before key :: stack, rest) else .error .malformed
  | .next value => (afterValue value c stack).map fun (expect, outer) => (expect, outer, rest)

theorem startValue_length {c : Char} {rest : List Char} {stack : List OpenValue}
    {p : Expect × List OpenValue × List Char} (h : startValue c rest stack = .ok p) :
    p.2.2.length ≤ rest.length := by
  unfold startValue at h
  split at h
  · simp only [Except.ok.injEq] at h
    simp [← h]
  · split at h
    · simp only [Except.ok.injEq] at h
      simp [← h]
    · cases hs : scanScalar c rest with
      | error => simp [hs, Except.map] at h
      | ok s =>
        have := scanScalar_length hs
        simp only [hs, Except.map, Except.ok.injEq] at h
        simp only [← h]
        omega

theorem startKey_length {c : Char} {rest : List Char} {before : List (String × Json)}
    {stack : List OpenValue} {p : Expect × List OpenValue × List Char}
    (h : startKey c rest before stack = .ok p) : p.2.2.length ≤ rest.length := by
  unfold startKey at h
  split at h
  · cases hs : scanText rest with
    | error => simp [hs, Except.map] at h
    | ok s =>
      have := scanText_length hs
      simp only [hs, Except.map, Except.ok.injEq] at h
      simp only [← h]
      omega
  · cases h

theorem advance_length {expect : Expect} {stack : List OpenValue} {c : Char} {rest : List Char}
    {p : Expect × List OpenValue × List Char} (h : advance expect stack c rest = .ok p) :
    p.2.2.length ≤ rest.length := by
  unfold advance at h
  have same : ∀ {e : Expect} {s : List OpenValue},
      Except.ok (e, s, rest) = (Except.ok p : Except Fault _) →
        p.2.2.length ≤ rest.length := by
    intro e s hs
    simp only [Except.ok.injEq] at hs
    simp [← hs]
  split at h
  · exact startValue_length h
  · split at h
    · exact same h
    · exact startValue_length h
  · split at h
    · exact same h
    · exact startKey_length h
  · exact startKey_length h
  · split at h
    · exact same h
    · cases h
  · next value =>
    cases ha : afterValue value c stack with
    | error => simp [ha, Except.map] at h
    | ok a =>
      simp only [ha, Except.map, Except.ok.injEq] at h
      simp [← h]

def readFrom (expect : Expect) (stack : List OpenValue) (text : List Char) : Except Fault Json :=
  match text with
  | [] =>
    match expect, stack with
    | .next value, [] => .ok value
    | _, _ => .error .ended
  | c :: rest =>
    if isGap c then readFrom expect stack rest
    else
      match _h : advance expect stack c rest with
      | .error fault => .error fault
      | .ok (next, outer, after) => readFrom next outer after
termination_by text.length
decreasing_by
  · simp
  · have : after.length ≤ rest.length := advance_length _h
    simp only [List.length_cons]
    omega

def read (text : String) : Except Fault Json :=
  readFrom .value [] text.toList

end SchemaPlan.Json
