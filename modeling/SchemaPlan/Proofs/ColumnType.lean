import SchemaPlan.MySql.Dialect
import SchemaPlan.Proofs.NormalForm

/-!
# Column types in normal form

Type texts with an argument list, and the types that MySQL gives to fields: all of them are normal
forms, so normalizing them again changes nothing.

* `normal_arguments`, `baseTypeChars_arguments`: a type name with an argument list, and its base.
* `normalize_normalizeColumnType`: the normal form of a column type is the one of a type text.
-/
namespace SchemaPlan.Ddl

open Text

/-! ## Type names and argument lists -/

instance (c : Char) : Decidable (Plain c) :=
  decidable_of_iff (upper c = [c] ∧ isBlank c = false ∧ c ≠ '\'')
    ⟨fun ⟨h₁, h₂, h₃⟩ => ⟨h₁, h₂, h₃⟩, fun ⟨h₁, h₂, h₃⟩ => ⟨h₁, h₂, h₃⟩⟩

/-- A character of a type name or of an argument: a plain one that does not end either. -/
structure Inner (c : Char) : Prop extends Plain c where
  not_bracket : c ∉ ['(', ')', '<']

instance (c : Char) : Decidable (Inner c) :=
  decidable_of_iff (Plain c ∧ c ∉ ['(', ')', '<'])
    ⟨fun ⟨h₁, h₂⟩ => ⟨h₁, h₂⟩, fun ⟨h₁, h₂⟩ => ⟨h₁, h₂⟩⟩

-- Words are checked character by character, and not by going through all characters.
instance decidableForallWord {p : Char → Prop} [DecidablePred p] (word : List Char) :
    Decidable (∀ c ∈ word, p c) :=
  List.decidableBAll p word

theorem inner_of_isDigit {c : Char} (h : c.isDigit = true) : Inner c := by
  have hall : ∀ n, n < 10 → Inner (Char.ofNat (0x30 + n)) := by decide
  have hlow : 0x30 ≤ c.toNat ∧ c.toNat ≤ 0x39 := by
    simpa [Char.isDigit, UInt32.le_iff_toNat_le] using h
  have := hall (c.toNat - 0x30) (by omega)
  rwa [show 0x30 + (c.toNat - 0x30) = c.toNat by omega, Char.ofNat_toNat] at this

theorem inner_decimal (n : Nat) : ∀ c ∈ (Decimal.decimal n).toList, Inner c := by
  intro c hc
  rw [Decimal.decimal, String.toList_ofList] at hc
  exact inner_of_isDigit (Nat.isDigit_of_mem_toDigits (by decide) (by decide) hc)

def withArguments (name arguments : List Char) : List Char :=
  name ++ '(' :: (arguments ++ [')'])

section
variable {name arguments : List Char} (hname : ∀ c ∈ name, Inner c)
  (harguments : ∀ c ∈ arguments, Inner c)
include hname harguments

theorem plain_arguments : ∀ c ∈ withArguments name arguments, Plain c := by
  intro c hc
  simp only [withArguments, List.mem_append, List.mem_cons, List.not_mem_nil, or_false] at hc
  rcases hc with hc | rfl | hc | rfl
  · exact (hname c hc).toPlain
  · decide
  · exact (harguments c hc).toPlain
  · decide

theorem argumentList?_arguments :
    argumentList? (withArguments name arguments) = some (name, arguments, []) := by
  have hclose : name.contains ')' = false := by
    simpa using fun hmem => (hname _ hmem).not_bracket (by decide)
  rw [argumentList?, withArguments,
    cutAt_append fun hmem => (hname _ hmem).not_bracket (by decide), Option.bind_some]
  dsimp only
  rw [hclose, if_neg Bool.false_ne_true,
    cutAt_append fun hmem => (harguments _ hmem).not_bracket (by decide)]
  rfl

theorem baseTypeChars_arguments : baseTypeChars (withArguments name arguments) = name := by
  have hangle : (withArguments name arguments).contains '<' = false := by
    have hnot : ∀ {word : List Char}, (∀ c ∈ word, Inner c) → '<' ∉ word :=
      fun hword hmem => (hword _ hmem).not_bracket (by decide)
    simp [withArguments, hnot hname, hnot harguments]
  have hnormal : Normal name := normal_of_plain fun c hc => (hname c hc).toPlain
  rw [baseTypeChars, normal_of_plain (plain_arguments hname harguments), hangle,
    argumentList?_arguments hname harguments]
  dsimp only
  rw [if_neg Bool.false_ne_true, normalizeChars, trim_append_blank hnormal.trimmed (by decide)]
  exact (normal_iff.1 hnormal).2

end

theorem normal_baseTypeChars (cs : List Char) : Normal (baseTypeChars cs) := by
  unfold baseTypeChars
  dsimp only
  split
  · exact normalizeChars_idem cs
  · split
    · exact normalizeChars_idem _
    · exact normalizeChars_idem cs

end SchemaPlan.Ddl

namespace SchemaPlan.MySql

open Text Ddl

/-! ## The normal form of MySQL -/

/-- A normal form in which an integer type goes by its short name is a normal form. -/
theorem normal_int {rest : List Char} (h : Normal ("INTEGER".toList ++ rest)) :
    Normal ("INT".toList ++ rest) := by
  obtain ⟨htrimmed, hwalk⟩ := normal_iff.1 h
  rw [normalizeFrom_plain (by decide)] at hwalk
  have hrest := List.append_cancel_left hwalk
  refine normal_iff.2 ⟨⟨fun c hc => ?_, fun c hc => ?_⟩, ?_⟩
  · obtain rfl : 'I' = c := Option.some.inj hc
    decide
  · rw [List.getLast?_append] at hc
    cases hlast : rest.getLast? with
    | none =>
      rw [hlast] at hc
      obtain rfl : 'T' = c := Option.some.inj hc
      decide
    | some d =>
      refine htrimmed.last c ?_
      rw [List.getLast?_append, hlast]
      rwa [hlast] at hc
  · have hwritten : keepsGap ("INT".toList.getLast?.or none) =
        keepsGap ("INTEGER".toList.getLast?.or none) := by
      funext next
      rfl
    rw [normalizeFrom_plain (by decide), normalizeFrom_congr hwritten, hrest]

theorem normal_shortName {base head : List Char} (hbase : Normal base) (hhead : head <+: base) :
    Normal ((if head = "INTEGER".toList then "INT".toList else head) ++ base.drop head.length) := by
  have hparts : head ++ base.drop head.length = base := List.prefix_iff_eq_append.1 hhead
  split
  · rename_i hinteger
    rw [hinteger] at hparts ⊢
    exact normal_int (hparts ▸ hbase)
  · rw [hparts]
    exact hbase

theorem normalize_normalizeColumnType (ddl : String) :
    normalize (normalizeColumnType ddl) = normalizeColumnType ddl := by
  unfold normalizeColumnType
  dsimp only
  split
  · decide +kernel
  · split
    · refine normalize_ofList (normal_shortName ?_ (List.takeWhile_prefix _))
      rw [baseType, String.toList_ofList]
      exact normal_baseTypeChars _
    · exact Ddl.normalize_idem ddl

end SchemaPlan.MySql
