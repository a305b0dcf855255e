import Mathlib.Data.Prod.Lex
import SchemaPlan.MySql.Version
import SchemaPlan.Proofs.TextPieces

/-!
# Reported server versions

A server reports three numbers and a suffix of its own, with or without the replication prefix in
front of them. The numbers are read back from every such text; the one exception is a version 5.5.5
whose own suffix goes on like the prefix, for which what stands behind is taken for the version.

* `Report`: what a server reports, and the texts that it does so in.
* `takeWhile_numbers`, `pieces_numbers`: the numbers are found in front of the suffix.
* `looksReplicated_of_prefix`: the only versions that start like the replication prefix.
* `read?_report`: the version that is read is the reported one.
-/
namespace SchemaPlan.MySql

open Text Decimal

/-- What replicating servers write in front of their version. -/
def replicationPrefix : List Char := "5.5.5-".toList

/-- The version that a server reports: three numbers and a suffix, with blanks around them. -/
structure Report where
  before : List Char
  major : Nat
  minor : Nat
  patch : Nat
  suffix : List Char
  after : List Char
  before_blank : ∀ c ∈ before, isBlank c = true
  after_blank : ∀ c ∈ after, isBlank c = true
  major_lt : major < bound32
  minor_lt : minor < bound32
  patch_lt : patch < bound32
  suffix_head : ∀ c, suffix.head? = some c → c.isDigit = false ∧ c ≠ '.'

/-- A text contains the name of the family, in capital or small letters. -/
def NamesMariaDb (text : String) : Prop :=
  ∃ name, name <:+: text.toList ∧ sameLetters name "mariadb".toList = true

theorem not_number_of_isBlank {c : Char} (h : isBlank c = true) : c.isDigit = false ∧ c ≠ '.' := by
  refine ⟨Bool.eq_false_iff.2 fun hdigit => ?_, fun hpoint => ?_⟩
  · simp only [Char.isDigit, Bool.and_eq_true, decide_eq_true_eq] at hdigit
    have hfirst : 48 ≤ c.toNat := UInt32.le_iff_toNat_le.1 hdigit.1
    have hlast : c.toNat ≤ 57 := UInt32.le_iff_toNat_le.1 hdigit.2
    simp only [isBlank] at h
    grind
  · rw [hpoint] at h
    cases h

theorem namesMariaDb_iff (text : String) :
    NamesMariaDb text ↔ occursIn "mariadb".toList (lowerAscii text.toList) = true := by
  have hname : ∀ name, sameLetters name "mariadb".toList = true ↔
      "mariadb".toList = lowerAscii name := fun name => by
    rw [sameLetters, beq_iff_eq, eq_comm]
    rfl
  rw [occursIn_iff, lowerAscii, List.infix_map_iff, NamesMariaDb]
  simp only [hname, lowerAscii]

namespace Report

variable (report : Report)

def numbers : List Char :=
  digits report.major ++ '.' :: (digits report.minor ++ '.' :: digits report.patch)

def text (front : List Char) : String :=
  String.ofList (report.before ++ (front ++ report.numbers ++ (report.suffix ++ report.after)))

/-- The version itself starts like the replication prefix. -/
def LooksReplicated : Prop :=
  (report.major, report.minor, report.patch) = (5, 5, 5) ∧ report.suffix.head? = some '-'

/-- A text is read as the version that is reported in it. -/
def Recognised (text : String) : Prop :=
  ∃ flavor, Version.read? text = some ⟨flavor, report.major, report.minor, report.patch⟩ ∧
    (flavor = .mariadb ↔ NamesMariaDb text)

/-! ## The numbers of a version -/

theorem numbers_all {c : Char} (h : c ∈ report.numbers) : (c.isDigit || c == '.') = true := by
  have hdigits : ∀ n, c ∈ digits n → c.isDigit = true := fun n => isDigit_of_mem_digits
  simp only [numbers, List.mem_append, List.mem_cons] at h
  grind

theorem numbers_ne_nil : report.numbers ≠ [] := by
  simp [numbers]

theorem takeWhile_numbers {tail : List Char}
    (htail : ∀ c, tail.head? = some c → c.isDigit = false ∧ c ≠ '.') :
    (report.numbers ++ tail).takeWhile (fun c => c.isDigit || c == '.') = report.numbers := by
  rw [List.takeWhile_append_of_pos fun c hc => report.numbers_all hc]
  cases tail with
  | nil => simp
  | cons c rest =>
    obtain ⟨hdigit, hpoint⟩ := htail c rfl
    simp [hdigit, hpoint]

theorem pieces_numbers : pieces (· == '.') report.numbers =
    [digits report.major, digits report.minor, digits report.patch] := by
  have hpoint : ∀ n, '.' ∉ digits n := fun n h => by
    have := isDigit_of_mem_digits h
    cases this
  rw [numbers, pieces_append (hpoint _), pieces_append (hpoint _), pieces_of_not_mem (hpoint _)]

/-! ## Behind the numbers -/

/-- What trimming leaves of the text behind the numbers. -/
def rest : List Char :=
  trimRight (report.suffix ++ report.after)

theorem trim_text {front : List Char} (hfront : ∀ c ∈ front, isBlank c = false) :
    trim (report.text front).toList = front ++ report.numbers ++ report.rest := by
  have hword : ∀ c ∈ front ++ report.numbers, isBlank c = false := fun c hc => by
    refine (List.mem_append.1 hc).elim (hfront c) fun hmem => Bool.eq_false_iff.2 fun hblank => ?_
    have hnumber := report.numbers_all hmem
    simp [not_number_of_isBlank hblank] at hnumber
  rw [text, String.toList_ofList, trim_append_left report.before_blank,
    trim_append_word (by simp [report.numbers_ne_nil]) hword, rest]

theorem rest_head {c : Char} (h : report.rest.head? = some c) :
    report.suffix.head? = some c ∨ isBlank c = true := by
  obtain ⟨blanks, -, htrim⟩ := exists_blanks_of_trimRight (report.suffix ++ report.after)
  have hhead : (report.suffix ++ report.after).head? = some c := by
    rw [htrim, ← rest, List.head?_append, h]
    rfl
  cases hsuffix : report.suffix with
  | nil =>
    rw [hsuffix, List.nil_append] at hhead
    exact .inr (report.after_blank c (List.mem_of_head? hhead))
  | cons first more =>
    rw [hsuffix] at hhead
    exact .inl hhead

theorem rest_not_number (c : Char) (h : report.rest.head? = some c) :
    c.isDigit = false ∧ c ≠ '.' :=
  (report.rest_head h).elim (report.suffix_head c) not_number_of_isBlank

/-- Only a version 5.5.5 starts like the replication prefix. -/
theorem looksReplicated_of_prefix (h : replicationPrefix <+: report.numbers ++ report.rest) :
    report.LooksReplicated := by
  obtain ⟨behind, h⟩ := h
  have hnumbers := report.takeWhile_numbers report.rest_not_number
  rw [← h] at hnumbers
  change "5.5.5".toList = report.numbers at hnumbers
  have hpieces := report.pieces_numbers
  rw [← hnumbers] at hpieces
  change ["5".toList, "5".toList, "5".toList] = _ at hpieces
  have hvalue : ∀ n, "5".toList = digits n → n = 5 := fun n hn => by
    rw [← digitsValue_digits n, ← hn]
    rfl
  obtain ⟨hmajor, hminor, hpatch⟩ : "5".toList = digits report.major ∧
      "5".toList = digits report.minor ∧ "5".toList = digits report.patch := by
    simpa using hpieces
  refine ⟨by rw [hvalue _ hmajor, hvalue _ hminor, hvalue _ hpatch], ?_⟩
  rw [← hnumbers] at h
  change "5.5.5".toList ++ '-' :: behind = _ at h
  have hrest : report.rest = '-' :: behind := (List.append_cancel_left h).symm
  exact (report.rest_head (by rw [hrest]; rfl)).resolve_right (by decide)

/-! ## Reading a report -/

/-- A text is recognised if its version starts with the numbers. -/
theorem recognised_of_version {text : String}
    (h : (afterWord? replicationPrefix (trim text.toList)).getD (trim text.toList) =
      report.numbers ++ report.rest) : report.Recognised text := by
  have hread : ∀ n, n < bound32 → readBelow? bound32 (digits n) = some n := fun n hn => by
    simpa [decimal] using readBelow?_decimal hn
  refine ⟨if occursIn "mariadb".toList (lowerAscii text.toList) then .mariadb else .mysql,
    ?_, ?_⟩
  · unfold replicationPrefix at h
    rw [Version.read?]
    dsimp only
    rw [h, report.takeWhile_numbers report.rest_not_number, report.pieces_numbers]
    simp only [List.getElem?_cons_zero, List.getElem?_cons_succ, Option.bind_some,
      hread _ report.major_lt, hread _ report.minor_lt, hread _ report.patch_lt, Option.map_some,
      Option.getD_some]
  · rw [namesMariaDb_iff]
    split
    case isTrue hname => exact iff_of_true rfl hname
    case isFalse hname => exact iff_of_false (by decide) hname

theorem recognised_replicated : report.Recognised (report.text replicationPrefix) := by
  have hfront : ∀ c ∈ replicationPrefix, isBlank c = false := by
    simp [replicationPrefix, isBlank]
  refine report.recognised_of_version ?_
  rw [report.trim_text hfront, List.append_assoc, afterWord?_append, Option.getD_some]

theorem recognised_of_not_looksReplicated (h : ¬ report.LooksReplicated) :
    report.Recognised (report.text []) := by
  refine report.recognised_of_version ?_
  rw [report.trim_text (by simp), List.nil_append]
  cases hafter : afterWord? replicationPrefix (report.numbers ++ report.rest) with
  | none => rfl
  | some behind =>
    exact absurd (report.looksReplicated_of_prefix ⟨behind, (eq_of_afterWord? hafter).symm⟩) h

end Report

/-! ## The reported versions -/

theorem Version.atLeast_iff (version : Version) (major minor patch : Nat) :
    version.atLeast major minor patch = true ↔
      toLex (major, toLex (minor, patch)) ≤
        toLex (version.major, toLex (version.minor, version.patch)) := by
  simp [atLeast, Prod.Lex.toLex_le_toLex]

/-- The version that a server reports is read back, with the family that its text names, behind the
replication prefix and without it. Without it, the version itself must not start like the prefix.
Literals are reported by the versions of MariaDB from 10.2.7 on. -/
theorem Version.read?_report :
    (∀ report : Report, ¬ report.LooksReplicated → report.Recognised (report.text [])) ∧
    (∀ report : Report, report.Recognised (report.text replicationPrefix)) ∧
    ∀ version : Version, version.reportsLiterals = true ↔
      version.flavor = .mariadb ∧
        toLex (10, toLex (2, 7)) ≤
          toLex (version.major, toLex (version.minor, version.patch)) := by
  refine ⟨fun report => report.recognised_of_not_looksReplicated,
    fun report => report.recognised_replicated, fun version => ?_⟩
  rw [reportsLiterals, Bool.and_eq_true, beq_iff_eq, version.atLeast_iff]

/-- A server that reports 10.6.12, between blanks. -/
def loggingReport : Report where
  before := [' ']
  major := 10
  minor := 6
  patch := 12
  suffix := "-MariaDB-log".toList
  after := ['\n']
  before_blank := List.forall_mem_singleton.2 rfl
  after_blank := List.forall_mem_singleton.2 rfl
  major_lt := by decide
  minor_lt := by decide
  patch_lt := by decide
  suffix_head := by simp

theorem Version.read?_report_logging :
    ¬ loggingReport.LooksReplicated ∧
      loggingReport.text [] = " 10.6.12-MariaDB-log\n" ∧
      loggingReport.Recognised " 10.6.12-MariaDB-log\n" := by
  have hversion : ¬ loggingReport.LooksReplicated := fun h => absurd h.1 (by decide)
  have htext : loggingReport.text [] = " 10.6.12-MariaDB-log\n" := by decide
  exact ⟨hversion, htext, htext ▸ Version.read?_report.1 loggingReport hversion⟩

/-- A server of version 5.5.5 with a suffix that makes the version look replicated. -/
def hidingReport : Report where
  before := []
  major := 5
  minor := 5
  patch := 5
  suffix := "-10.3.39-MariaDB".toList
  after := []
  before_blank := by simp
  after_blank := by simp
  major_lt := by decide
  minor_lt := by decide
  patch_lt := by decide
  suffix_head := by simp

/-- What stands behind 5.5.5 and a hyphen is taken for the version. -/
theorem Version.not_read?_report_hiding :
    ¬ ∀ report : Report, report.Recognised (report.text []) := by
  intro h
  obtain ⟨flavor, hread, -⟩ := h hidingReport
  have hbehind : Version.read? (hidingReport.text []) = some ⟨.mariadb, 10, 3, 39⟩ := by
    decide +kernel
  rw [hbehind] at hread
  simp [hidingReport] at hread

end SchemaPlan.MySql
