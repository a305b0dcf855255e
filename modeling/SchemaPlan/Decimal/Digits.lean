/-!
# Decimal digits

Natural numbers read from and written as decimal digits. A number in a text may carry a plus sign
and must lie below a bound; nothing else around its digits is accepted.

* `readBelow?_decimal`: what `decimal` writes is read back, when it is below the bound.
-/
namespace SchemaPlan.Decimal

/-- The number that a list of digits stands for. -/
def digitsValue (cs : List Char) : Nat :=
  cs.foldl (fun n c => 10 * n + (c.toNat - '0'.toNat)) 0

/-- The digits of a number, without superfluous zeros. -/
def digits (n : Nat) : List Char :=
  Nat.toDigits 10 n

/-- A number as text. -/
def decimal (n : Nat) : String :=
  String.ofList (digits n)

def isNumeral (cs : List Char) : Bool :=
  !cs.isEmpty && cs.all Char.isDigit

/-- The number below `bound` that a text of digits, with or without a plus sign, stands for. -/
def readBelow? (bound : Nat) (cs : List Char) : Option Nat :=
  let numeral :=
    match cs with
    | '+' :: rest => rest
    | _ => cs
  if isNumeral numeral && digitsValue numeral < bound then some (digitsValue numeral) else none

def bound32 : Nat := UInt32.size

def bound64 : Nat := UInt64.size

theorem isDigit_of_mem_digits {n : Nat} {c : Char} (h : c ∈ digits n) : c.isDigit = true :=
  Nat.isDigit_of_mem_toDigits (by decide) (by decide) h

theorem digits_ne_nil (n : Nat) : digits n ≠ [] :=
  List.length_pos_iff.1 Nat.length_toDigits_pos

@[simp] theorem digitsValue_digits (n : Nat) : digitsValue (digits n) = n :=
  Nat.ofDigitChars_toDigits (by decide) (by decide)

theorem isNumeral_digits (n : Nat) : isNumeral (digits n) = true := by
  rw [isNumeral, Bool.and_eq_true, List.all_eq_true]
  exact ⟨by simp [digits_ne_nil], fun _ => isDigit_of_mem_digits⟩

/-- Only zero starts with a zero. -/
theorem head?_digits {n : Nat} (h : 0 < n) : (digits n).head? ≠ some '0' := by
  have hdigit : ∀ n < 10, 0 < n → n.digitChar ≠ '0' := by decide
  induction n using Nat.strongRecOn with
  | ind n ih =>
    unfold digits
    by_cases hlt : n < 10
    · rw [Nat.toDigits_of_lt_base hlt]
      simpa using hdigit n hlt h
    · have hfirst := ih (n / 10) (by omega) (by omega)
      obtain ⟨first, rest, hrest⟩ := List.exists_cons_of_ne_nil (digits_ne_nil (n / 10))
      rw [Nat.toDigits_of_base_le (by decide) (by omega), ← digits, hrest]
      rwa [hrest] at hfirst

theorem readBelow?_decimal {bound n : Nat} (h : n < bound) :
    readBelow? bound (decimal n).toList = some n := by
  have hplus : ∀ rest, digits n = '+' :: rest → False := by
    intro rest hrest
    have hdigit := isDigit_of_mem_digits (n := n) (c := '+') (by simp [hrest])
    cases hdigit
  have hread : readBelow? bound (digits n) =
      if isNumeral (digits n) && digitsValue (digits n) < bound then some (digitsValue (digits n))
      else none := by
    rw [readBelow?]
    exact hplus
  rw [decimal, String.toList_ofList, hread, isNumeral_digits, digitsValue_digits]
  simp [h]

example : readBelow? bound32 "+007".toList = some 7 := by decide
example : readBelow? bound32 "4294967296".toList = none := by decide
example : readBelow? bound32 "-1".toList = none := by decide

end SchemaPlan.Decimal
