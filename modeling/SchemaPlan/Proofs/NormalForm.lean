import SchemaPlan.Ddl.TypeText
import SchemaPlan.Proofs.TextPieces
import SchemaPlan.Proofs.UpperCase

/-!
# The normal form of a type text

Normalizing walks through a text once. What it writes is read back as it stands, whatever state the
walk was in, so a second walk changes nothing.

* `normalizeChars_idem`: a normal form is its own normal form.
* `normalizeFrom_plain`: a walk copies plain words.
* `upper_of_mem_takeWhile`: outside of quotes a normal form is in upper case.
-/
namespace SchemaPlan.Ddl

open Text

/-! ## One step of the walk -/

theorem normalizeFrom_quoted (last : Option Char) (gap : Bool) (c : Char) (rest : List Char) :
    normalizeFrom last gap true (c :: rest) =
      c :: normalizeFrom (some c) false (c != '\'') rest := by
  rw [normalizeFrom, if_pos rfl]

theorem normalizeFrom_blank (last : Option Char) (gap : Bool) {c : Char} (hc : isBlank c = true)
    (rest : List Char) :
    normalizeFrom last gap false (c :: rest) = normalizeFrom last true false rest := by
  rw [normalizeFrom, if_neg Bool.false_ne_true, if_pos hc]

def spaceBefore (last : Option Char) (gap : Bool) (next : Char) : List Char :=
  if gap && keepsGap last next then [' '] else []

theorem normalizeFrom_word (last : Option Char) (gap : Bool) {c : Char} (hc : isBlank c = false)
    (rest : List Char) :
    normalizeFrom last gap false (c :: rest) =
      spaceBefore last gap c ++ upper c ++
        normalizeFrom ((upper c).getLast?.or last) false (c == '\'') rest := by
  rw [normalizeFrom, if_neg Bool.false_ne_true, if_neg (by simp [hc])]
  rfl

/-! ## Plain words -/

/-- A character that the walk copies. -/
structure Plain (c : Char) : Prop where
  upper_eq : upper c = [c]
  not_blank : isBlank c = false
  ne_quote : c ≠ '\''

theorem Plain.of_capitalized {c : Char} (h : Capitalized c) : Plain c := by
  refine ⟨h.upper_eq, h.not_blank, ?_⟩
  rintro rfl
  exact absurd h.letter (by decide)

theorem getLast?_or_cons (c : Char) (rest : List Char) (last : Option Char) :
    rest.getLast?.or ([c].getLast?.or last) = (c :: rest).getLast?.or last := by
  simp only [List.getLast?_cons]
  cases rest.getLast? <;> rfl

theorem normalizeFrom_plain {word : List Char} (hword : ∀ c ∈ word, Plain c) (last : Option Char)
    (tail : List Char) :
    normalizeFrom last false false (word ++ tail) =
      word ++ normalizeFrom (word.getLast?.or last) false false tail := by
  induction word generalizing last with
  | nil => rfl
  | cons c rest ih =>
    have hc := hword c List.mem_cons_self
    rw [List.cons_append, normalizeFrom_word _ _ hc.not_blank, hc.upper_eq,
      beq_false_of_ne hc.ne_quote, ih fun d hd => hword d (List.mem_cons_of_mem c hd),
      getLast?_or_cons]
    rfl

/-! ## A second walk -/

theorem eq_mark_iff {c d mark : Char} (hmark : upper mark = [mark]) (hlow : mark.toNat < 0x41)
    (h : d ∈ upper c) : d = mark ↔ c = mark := by
  constructor
  · rintro rfl
    exact eq_of_mem_upper (.inl hlow) h
  · rintro rfl
    rwa [hmark, List.mem_singleton] at h

theorem keepsGap_upper (last : Option Char) {c d : Char} (h : d ∈ upper c) :
    keepsGap last d = keepsGap last c := by
  have hmark := fun mark hmark hlow => @eq_mark_iff c d mark hmark hlow h
  unfold keepsGap
  simp only [hmark '(' (by decide) (by decide), hmark ')' (by decide) (by decide),
    hmark ',' (by decide) (by decide), hmark '<' (by decide) (by decide),
    hmark '>' (by decide) (by decide)]

theorem spaceBefore_upper (last : Option Char) (gap : Bool) {c d : Char} (h : d ∈ upper c) :
    spaceBefore last gap d = spaceBefore last gap c := by
  rw [spaceBefore, keepsGap_upper last h, spaceBefore]

theorem normalizeFrom_upper (last : Option Char) (gap : Bool) {c : Char} (hc : isBlank c = false)
    (tail : List Char) :
    normalizeFrom last gap false (upper c ++ tail) =
      spaceBefore last gap c ++ upper c ++
        normalizeFrom ((upper c).getLast?.or last) false (c == '\'') tail := by
  rcases upper_cases c with hsame | ⟨hne, hall⟩
  · rw [hsame]
    exact (normalizeFrom_word last gap hc tail).trans (by rw [hsame])
  · obtain ⟨d, word, hupper⟩ := List.exists_cons_of_ne_nil hne
    have hplain : ∀ e ∈ word, Plain e := fun e he =>
      .of_capitalized (hall e (hupper ▸ List.mem_cons_of_mem d he))
    have hd := Plain.of_capitalized (hall d (hupper ▸ List.mem_cons_self))
    have hquote : (c == '\'') = false := by
      refine beq_false_of_ne ?_
      rintro rfl
      have hmem : d ∈ upper '\'' := hupper ▸ List.mem_cons_self
      exact hd.ne_quote (List.mem_singleton.1 hmem)
    have hspace := spaceBefore_upper last gap (c := c) (hupper ▸ List.mem_cons_self)
    rw [hupper, List.cons_append, normalizeFrom_word last gap hd.not_blank, hd.upper_eq,
      beq_false_of_ne hd.ne_quote, normalizeFrom_plain hplain, getLast?_or_cons, hspace, hquote]
    simp only [List.append_assoc, List.cons_append, List.nil_append]

/-- The walk copies what it writes for a character, with the blank in front of it. -/
theorem normalizeFrom_written (last : Option Char) (gap : Bool) {c : Char} (hc : isBlank c = false)
    (tail : List Char) :
    normalizeFrom last false false (spaceBefore last gap c ++ (upper c ++ tail)) =
      spaceBefore last gap c ++ upper c ++
        normalizeFrom ((upper c).getLast?.or last) false (c == '\'') tail := by
  by_cases hspace : (gap && keepsGap last c) = true
  · have hgap : spaceBefore last true c = spaceBefore last gap c := by
      rw [Bool.and_eq_true] at hspace
      rw [hspace.1]
    rw [← normalizeFrom_upper last gap hc, spaceBefore, if_pos hspace, List.singleton_append,
      normalizeFrom_blank last false (by decide), normalizeFrom_upper last true hc,
      normalizeFrom_upper last gap hc, hgap]
  · rw [spaceBefore, if_neg hspace, List.nil_append, normalizeFrom_upper last false hc]
    rfl

/-- A second walk copies what the first one wrote. -/
theorem normalizeFrom_idem (last : Option Char) (gap quoted : Bool) (cs : List Char) :
    normalizeFrom last false quoted (normalizeFrom last gap quoted cs) =
      normalizeFrom last gap quoted cs := by
  induction cs generalizing last gap quoted with
  | nil => rfl
  | cons c rest ih =>
    cases quoted with
    | true => rw [normalizeFrom_quoted, normalizeFrom_quoted, ih]
    | false =>
      by_cases hc : isBlank c = true
      · rw [normalizeFrom_blank last gap hc, ih]
      · have hc : isBlank c = false := by simpa using hc
        rw [normalizeFrom_word last gap hc, List.append_assoc, normalizeFrom_written last gap hc,
          ih, List.append_assoc]

/-! ## The ends of a normal form -/

theorem upper_ne_nil (c : Char) : upper c ≠ [] := by
  rcases upper_cases c with hsame | ⟨hne, -⟩
  · simp [hsame]
  · exact hne

theorem head?_normalizeFrom {gap : Bool} {cs : List Char} {d : Char}
    (h : (normalizeFrom none gap false cs).head? = some d) : isBlank d = false := by
  induction cs generalizing gap with
  | nil => cases h
  | cons c rest ih =>
    by_cases hc : isBlank c = true
    · rw [normalizeFrom_blank _ _ hc] at h
      exact ih h
    · have hc : isBlank c = false := by simpa using hc
      obtain ⟨e, word, hupper⟩ := List.exists_cons_of_ne_nil (upper_ne_nil c)
      have hspace : spaceBefore none gap c = [] := by simp [spaceBefore, keepsGap]
      rw [normalizeFrom_word _ _ hc, hspace, hupper] at h
      obtain rfl := Option.some.inj h
      exact not_blank_of_mem_upper hc (hupper ▸ List.mem_cons_self)

theorem getLast?_normalizeFrom {last : Option Char} {gap quoted : Bool} {cs : List Char} {c : Char}
    (h : cs.getLast? = some c) (hc : isBlank c = false) :
    ∃ d, (normalizeFrom last gap quoted cs).getLast? = some d ∧ isBlank d = false := by
  induction cs generalizing last gap quoted with
  | nil => cases h
  | cons first rest ih =>
    cases rest with
    | nil =>
      obtain rfl : first = c := by simpa using h
      cases quoted with
      | true => exact ⟨first, by rw [normalizeFrom_quoted]; rfl, hc⟩
      | false =>
        have hd := List.getLast?_eq_some_getLast (upper_ne_nil first)
        refine ⟨_, ?_, not_blank_of_mem_upper hc (List.mem_of_getLast? hd)⟩
        rw [normalizeFrom_word _ _ hc, normalizeFrom, List.append_nil, List.getLast?_append, hd]
        rfl
    | cons next rest =>
      have hrest : (next :: rest).getLast? = some c := by rwa [List.getLast?_cons_cons] at h
      -- Whatever is written for the first character, the rest is behind it.
      have hbehind : ∀ (front : List Char) (last : Option Char) (gap quoted : Bool),
          ∃ d, (front ++ normalizeFrom last gap quoted (next :: rest)).getLast? = some d ∧
            isBlank d = false := by
        intro front last gap quoted
        obtain ⟨d, hd, hblank⟩ := @ih last gap quoted hrest
        exact ⟨d, by rw [List.getLast?_append, hd]; rfl, hblank⟩
      cases quoted with
      | true =>
        rw [normalizeFrom_quoted]
        exact hbehind [first] _ _ _
      | false =>
        by_cases hfirst : isBlank first = true
        · rw [normalizeFrom_blank _ _ hfirst]
          exact ih hrest
        · rw [normalizeFrom_word _ _ (by simpa using hfirst)]
          exact hbehind _ _ _ _

/-- A text that is its own normal form. -/
def Normal (cs : List Char) : Prop :=
  normalizeChars cs = cs

theorem trimmed_normalizeChars (cs : List Char) : Trimmed (normalizeChars cs) := by
  refine ⟨fun d hd => head?_normalizeFrom hd, fun d hd => ?_⟩
  rw [normalizeChars] at hd
  cases hlast : (trim cs).getLast? with
  | none =>
    rw [List.getLast?_eq_none_iff.1 hlast] at hd
    cases hd
  | some c =>
    obtain ⟨e, he, hblank⟩ := getLast?_normalizeFrom hlast ((trimmed_trim cs).last c hlast)
    rw [he] at hd
    exact Option.some.inj hd ▸ hblank

/-- A normal form is its own normal form. -/
theorem normalizeChars_idem (cs : List Char) : Normal (normalizeChars cs) := by
  rw [Normal, normalizeChars, trim_eq_self (trimmed_normalizeChars cs)]
  exact normalizeFrom_idem none false false (trim cs)

theorem normalize_ofList {cs : List Char} (h : Normal cs) :
    normalize (String.ofList cs) = String.ofList cs := by
  rw [normalize, String.toList_ofList, h]

theorem normalize_idem (ddl : String) : normalize (normalize ddl) = normalize ddl :=
  normalize_ofList (normalizeChars_idem ddl.toList)

theorem normal_toList {ddl : String} : Normal ddl.toList ↔ normalize ddl = ddl := by
  rw [Normal, normalize, ← String.toList_inj, String.toList_ofList]

/-! ## Texts in normal form -/

theorem Normal.trimmed {cs : List Char} (h : Normal cs) : Trimmed cs := by
  rw [← h]
  exact trimmed_normalizeChars cs

/-- A text is in normal form if it is trimmed and a walk copies it. -/
theorem normal_iff {cs : List Char} :
    Normal cs ↔ Trimmed cs ∧ normalizeFrom none false false cs = cs := by
  constructor
  · intro h
    have htrimmed := h.trimmed
    refine ⟨htrimmed, ?_⟩
    rwa [Normal, normalizeChars, trim_eq_self htrimmed] at h
  · rintro ⟨htrimmed, hwalk⟩
    rw [Normal, normalizeChars, trim_eq_self htrimmed, hwalk]

/-- Which character was written last matters only for blanks. -/
theorem normalizeFrom_congr {last other : Option Char} (h : keepsGap last = keepsGap other)
    (gap quoted : Bool) (cs : List Char) :
    normalizeFrom last gap quoted cs = normalizeFrom other gap quoted cs := by
  induction cs generalizing gap with
  | nil => rfl
  | cons c rest ih =>
    cases quoted with
    | true => rw [normalizeFrom_quoted, normalizeFrom_quoted]
    | false =>
      by_cases hc : isBlank c = true
      · rw [normalizeFrom_blank _ _ hc, normalizeFrom_blank _ _ hc, ih]
      · have hc : isBlank c = false := by simpa using hc
        have hlast : (upper c).getLast?.or last = (upper c).getLast?.or other := by
          rw [List.getLast?_eq_some_getLast (upper_ne_nil c)]
          rfl
        rw [normalizeFrom_word _ _ hc, normalizeFrom_word _ _ hc, spaceBefore, spaceBefore, h,
          hlast]

/-- A character that the walk copies inside and outside of quotes. -/
structure Final (c : Char) : Prop where
  upper_eq : upper c = [c]
  not_blank : isBlank c = false

theorem Plain.final {c : Char} (h : Plain c) : Final c :=
  ⟨h.upper_eq, h.not_blank⟩

theorem final_of_mem_upperText {cs : List Char} (h : ∀ c ∈ cs, isBlank c = false) {d : Char}
    (hd : d ∈ upperText cs) : Final d := by
  obtain ⟨c, hc, hd⟩ := List.mem_flatMap.1 hd
  exact ⟨upper_of_mem hd, not_blank_of_mem_upper (h c hc) hd⟩

theorem normalizeFrom_final {cs : List Char} (h : ∀ c ∈ cs, Final c) (last : Option Char)
    (quoted : Bool) : normalizeFrom last false quoted cs = cs := by
  induction cs generalizing last quoted with
  | nil => rfl
  | cons c rest ih =>
    obtain ⟨hc, hrest⟩ := List.forall_mem_cons.1 h
    cases quoted with
    | true => rw [normalizeFrom_quoted, ih hrest]
    | false =>
      rw [normalizeFrom_word _ _ hc.not_blank, hc.upper_eq, ih hrest]
      rfl

theorem normal_of_final {cs : List Char} (h : ∀ c ∈ cs, Final c) : Normal cs :=
  normal_iff.2 ⟨trimmed_of_not_blank fun c hc => (h c hc).not_blank,
    normalizeFrom_final h none false⟩

theorem normal_of_plain {word : List Char} (h : ∀ c ∈ word, Plain c) : Normal word :=
  normal_of_final fun c hc => (h c hc).final

/-- Behind a text that does not end with a blank the walk copies final characters, whether or not a
quoted part of the text is still open. -/
theorem normalizeFrom_append_final {cs word : List Char} (hword : ∀ c ∈ word, Final c)
    (hlast : ∀ c, cs.getLast? = some c → isBlank c = false) (last : Option Char) {gap : Bool}
    (hgap : cs = [] → gap = false) (quoted : Bool) :
    normalizeFrom last gap quoted (cs ++ word) = normalizeFrom last gap quoted cs ++ word := by
  induction cs generalizing last gap quoted with
  | nil =>
    rw [hgap rfl]
    exact normalizeFrom_final hword last quoted
  | cons c rest ih =>
    have hrest : ∀ d, rest.getLast? = some d → isBlank d = false := fun d hd =>
      hlast d (by rw [List.getLast?_cons, hd]; rfl)
    rw [List.cons_append]
    cases quoted with
    | true =>
      rw [normalizeFrom_quoted, normalizeFrom_quoted, ih hrest _ fun _ => rfl, List.cons_append]
    | false =>
      by_cases hc : isBlank c = true
      · have hne : rest ≠ [] := by
          rintro rfl
          rw [hlast c rfl] at hc
          cases hc
        rw [normalizeFrom_blank _ _ hc, normalizeFrom_blank _ _ hc,
          ih hrest _ fun hnil => absurd hnil hne]
      · have hc : isBlank c = false := by simpa using hc
        rw [normalizeFrom_word _ _ hc, normalizeFrom_word _ _ hc, ih hrest _ fun _ => rfl,
          List.append_assoc _ _ word]

theorem Normal.append_final {cs word : List Char} (h : Normal cs) (hword : ∀ c ∈ word, Final c) :
    Normal (cs ++ word) := by
  refine normal_iff.2 ⟨⟨fun c hc => ?_, fun c hc => ?_⟩, ?_⟩
  · rw [List.head?_append, Option.or_eq_some_iff] at hc
    rcases hc with hc | ⟨-, hc⟩
    · exact h.trimmed.head c hc
    · exact (hword c (List.mem_of_head? hc)).not_blank
  · rw [List.getLast?_append, Option.or_eq_some_iff] at hc
    rcases hc with hc | ⟨-, hc⟩
    · exact (hword c (List.mem_of_getLast? hc)).not_blank
    · exact h.trimmed.last c hc
  · rw [normalizeFrom_append_final hword h.trimmed.last none fun _ => rfl, (normal_iff.1 h).2]

/-- A normal form stays one behind plain characters that end with an opening bracket or a comma. -/
theorem Normal.behind_plain {cs start : List Char} (h : Normal cs) (hstart : ∀ c ∈ start, Plain c)
    (hgap : keepsGap start.getLast? = keepsGap none) : Normal (start ++ cs) := by
  refine normal_iff.2 ⟨⟨fun c hc => ?_, fun c hc => ?_⟩, ?_⟩
  · rw [List.head?_append, Option.or_eq_some_iff] at hc
    rcases hc with hc | ⟨-, hc⟩
    · exact (hstart c (List.mem_of_head? hc)).not_blank
    · exact h.trimmed.head c hc
  · rw [List.getLast?_append, Option.or_eq_some_iff] at hc
    rcases hc with hc | ⟨-, hc⟩
    · exact h.trimmed.last c hc
    · exact (hstart c (List.mem_of_getLast? hc)).not_blank
  · rw [normalizeFrom_plain hstart, Option.or_none, normalizeFrom_congr hgap, (normal_iff.1 h).2]

theorem upper_of_mem_takeWhile {last : Option Char} {gap : Bool} {cs : List Char} {d : Char}
    (h : d ∈ (withoutBlanks (normalizeFrom last gap false cs)).takeWhile (· != '\'')) :
    upper d = [d] := by
  induction cs generalizing last gap with
  | nil => cases h
  | cons c rest ih =>
    by_cases hc : isBlank c = true
    · rw [normalizeFrom_blank _ _ hc] at h
      exact ih h
    · have hc : isBlank c = false := by simpa using hc
      have hspace : withoutBlanks (spaceBefore last gap c) = [] := by
        unfold spaceBefore
        split <;> rfl
      have hword : withoutBlanks (upper c) = upper c :=
        List.filter_eq_self.2 fun d hd => by simp [not_blank_of_mem_upper hc hd]
      rw [normalizeFrom_word _ _ hc, withoutBlanks, List.filter_append, List.filter_append,
        ← withoutBlanks, ← withoutBlanks, ← withoutBlanks, hspace, hword, List.nil_append] at h
      by_cases hquote : c = '\''
      · subst hquote
        cases h
      · have hall : ∀ e ∈ upper c, (e != '\'') = true := by
          intro e he
          refine bne_iff_ne.2 ?_
          rintro rfl
          exact hquote (eq_of_mem_upper (.inl (by decide)) he)
        rw [List.takeWhile_append_of_pos hall, beq_false_of_ne hquote, List.mem_append] at h
        rcases h with h | h
        · exact upper_of_mem h
        · exact ih h

end SchemaPlan.Ddl
