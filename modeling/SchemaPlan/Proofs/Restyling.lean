import SchemaPlan.Proofs.LowerCase
import SchemaPlan.Proofs.QuotedParts

/-!
# Texts that are styled in another way

The case of ASCII letters and the width of gaps are matters of style, outside of quoted parts. Type
texts that differ in style have one normal form, which is its own normal form and has the quoted
parts of the text.

* `Restyled`: texts that differ in style.
* `normalizeFrom_restyled`: the walk writes the same for both.
* `normalizeChars_eq_trimRight`: a text may as well be trimmed behind the walk.
* `normalize_restyled`: the normal form as a whole.
-/
namespace SchemaPlan.Text

/-- Blanks between words: at least one. -/
structure IsGap (cs : List Char) : Prop where
  ne_nil : cs ≠ []
  blank : ∀ c ∈ cs, isBlank c = true

/-- Texts that differ outside of quoted parts only, in the case of ASCII letters and in how many and
which blanks a gap has. The texts start inside of a part if `quoted` says so. A doubled quote closes
a part and opens the next one, with no gap between. -/
inductive Restyled : (quoted : Bool) → List Char → List Char → Prop
  | nil {quoted : Bool} : Restyled quoted [] []
  | inside {c : Char} {cs ds : List Char} (h : Restyled (c != '\'') cs ds) :
      Restyled true (c :: cs) (c :: ds)
  | letter {c d : Char} {cs ds : List Char} (hcase : c.toLower = d.toLower)
      (hblank : isBlank c = false) (h : Restyled (c == '\'') cs ds) :
      Restyled false (c :: cs) (d :: ds)
  | gap {before after cs ds : List Char} (hbefore : IsGap before) (hafter : IsGap after)
      (h : Restyled false cs ds) : Restyled false (before ++ cs) (after ++ ds)

theorem trimRight_append_blanks {blanks : List Char} (h : ∀ c ∈ blanks, isBlank c = true)
    (cs : List Char) : trimRight (cs ++ blanks) = trimRight cs := by
  rw [trimRight, List.reverse_append,
    List.dropWhile_append_of_pos fun c hc => h c (List.mem_reverse.1 hc)]
  rfl

theorem trimRight_eq_self {cs : List Char} (h : ∀ c, cs.getLast? = some c → isBlank c = false) :
    trimRight cs = cs := by
  rw [trimRight, dropWhile_reverse_eq_self h, List.reverse_reverse]

theorem getLast?_trimRight {cs : List Char} {c : Char} (h : (trimRight cs).getLast? = some c) :
    isBlank c = false := by
  rw [trimRight, List.getLast?_reverse] at h
  exact head?_dropWhile h

end SchemaPlan.Text

namespace SchemaPlan.Ddl

open Text

/-! ## One walk for both texts -/

theorem normalizeFrom_gap {blanks : List Char} (h : IsGap blanks) (last : Option Char) (gap : Bool)
    (cs : List Char) :
    normalizeFrom last gap false (blanks ++ cs) = normalizeFrom last true false cs := by
  obtain ⟨c, more, rfl⟩ := List.exists_cons_of_ne_nil h.ne_nil
  obtain ⟨hc, hmore⟩ := List.forall_mem_cons.1 h.blank
  rw [List.cons_append, normalizeFrom_blank _ _ hc]
  clear h hc
  induction more with
  | nil => rfl
  | cons d more ih =>
    obtain ⟨hd, hmore⟩ := List.forall_mem_cons.1 hmore
    rw [List.cons_append, normalizeFrom_blank _ _ hd, ih hmore]

/-- The walk writes the same for texts that differ in style. -/
theorem normalizeFrom_restyled {quoted : Bool} {cs ds : List Char} (h : Restyled quoted cs ds)
    (last : Option Char) (gap : Bool) :
    normalizeFrom last gap quoted cs = normalizeFrom last gap quoted ds := by
  induction h generalizing last gap with
  | nil => rfl
  | inside _ ih => rw [normalizeFrom_quoted, normalizeFrom_quoted, ih]
  | @letter c d cs ds hcase hblank _ ih =>
    have hupper := upper_eq_of_toLower_eq hcase
    have hdblank : isBlank d = false := by
      rw [← isBlank_toLower, ← hcase, isBlank_toLower, hblank]
    have hquote : (c == '\'') = (d == '\'') := by
      have hc : c = '\'' ↔ c.toLower = '\'' :=
        ⟨fun h => by rw [h]; rfl, eq_of_toLower_eq (by decide)⟩
      have hd : d = '\'' ↔ d.toLower = '\'' :=
        ⟨fun h => by rw [h]; rfl, eq_of_toLower_eq (by decide)⟩
      rw [Bool.eq_iff_iff, beq_iff_eq, beq_iff_eq, hc, hcase, ← hd]
    have hspace : spaceBefore last gap c = spaceBefore last gap d := by
      obtain ⟨e, word, hword⟩ := List.exists_cons_of_ne_nil (upper_ne_nil c)
      have hmem : e ∈ upper c := hword ▸ List.mem_cons_self
      rw [← spaceBefore_upper last gap hmem, spaceBefore_upper last gap (hupper ▸ hmem)]
    rw [normalizeFrom_word _ _ hblank, normalizeFrom_word _ _ hdblank, hspace, hupper, ← hquote, ih]
  | gap hbefore hafter _ ih => rw [normalizeFrom_gap hbefore, normalizeFrom_gap hafter, ih]

/-! ## Trimming behind the walk -/

theorem exists_normalizeFrom_append (last : Option Char) (gap quoted : Bool) (cs : List Char) :
    ∃ last' gap' quoted', ∀ tail, normalizeFrom last gap quoted (cs ++ tail) =
      normalizeFrom last gap quoted cs ++ normalizeFrom last' gap' quoted' tail := by
  induction cs generalizing last gap quoted with
  | nil => exact ⟨last, gap, quoted, fun tail => rfl⟩
  | cons c rest ih =>
    cases quoted with
    | true =>
      obtain ⟨last', gap', quoted', hwalk⟩ := ih (some c) false (c != '\'')
      refine ⟨last', gap', quoted', fun tail => ?_⟩
      rw [List.cons_append, normalizeFrom_quoted, normalizeFrom_quoted, hwalk, List.cons_append]
    | false =>
      by_cases hc : isBlank c = true
      · obtain ⟨last', gap', quoted', hwalk⟩ := ih last true false
        refine ⟨last', gap', quoted', fun tail => ?_⟩
        rw [List.cons_append, normalizeFrom_blank _ _ hc, normalizeFrom_blank _ _ hc, hwalk]
      · have hc : isBlank c = false := by simpa using hc
        obtain ⟨last', gap', quoted', hwalk⟩ :=
          ih ((upper c).getLast?.or last) false (c == '\'')
        refine ⟨last', gap', quoted', fun tail => ?_⟩
        rw [List.cons_append, normalizeFrom_word _ _ hc, normalizeFrom_word _ _ hc, hwalk,
          List.append_assoc _ (normalizeFrom _ _ _ rest)]

/-- For blanks the walk writes nothing, or the same blanks if it is inside of quotes. -/
theorem isBlank_of_mem_normalizeFrom {blanks : List Char} (h : ∀ c ∈ blanks, isBlank c = true)
    (last : Option Char) (gap quoted : Bool) :
    ∀ c ∈ normalizeFrom last gap quoted blanks, isBlank c = true := by
  induction blanks generalizing last gap quoted with
  | nil => exact List.forall_mem_nil _
  | cons d rest ih =>
    obtain ⟨hd, hrest⟩ := List.forall_mem_cons.1 h
    cases quoted with
    | true =>
      rw [normalizeFrom_quoted]
      exact List.forall_mem_cons.2 ⟨hd, ih hrest _ _ _⟩
    | false =>
      rw [normalizeFrom_blank _ _ hd]
      exact ih hrest _ _ _

theorem normalizeFrom_trimRight (last : Option Char) (gap quoted : Bool) (cs : List Char) :
    normalizeFrom last gap quoted (trimRight cs) =
      trimRight (normalizeFrom last gap quoted cs) := by
  obtain ⟨blanks, hblanks, htext⟩ := exists_blanks_of_trimRight cs
  obtain ⟨last', gap', quoted', hwalk⟩ :=
    exists_normalizeFrom_append last gap quoted (trimRight cs)
  have hend : ∀ c, (normalizeFrom last gap quoted (trimRight cs)).getLast? = some c →
      isBlank c = false := by
    intro c hc
    cases hlast : (trimRight cs).getLast? with
    | none =>
      rw [List.getLast?_eq_none_iff.1 hlast] at hc
      cases hc
    | some d =>
      obtain ⟨e, he, hblank⟩ :=
        @getLast?_normalizeFrom last gap quoted _ d hlast (getLast?_trimRight hlast)
      rw [he] at hc
      exact Option.some.inj hc ▸ hblank
  conv_rhs =>
    rw [htext, hwalk, trimRight_append_blanks (isBlank_of_mem_normalizeFrom hblanks _ _ _),
      trimRight_eq_self hend]

/-- The normal form of a text is what the walk writes for it, without the blanks at the end that the
walk has met inside of quotes. -/
theorem normalizeChars_eq_trimRight (cs : List Char) :
    normalizeChars cs = trimRight (normalizeFrom none false false cs) := by
  rw [normalizeChars, trim, normalizeFrom_trimRight, ← normalizeFrom_trimLeft]

/-! ## The normal form -/

/-- The normal form of a text is its own normal form, and that of all texts which differ from it in
style or have more blanks at their ends. It has the quoted parts of the text. -/
theorem normalize_restyled (ddl : String) :
    normalize (normalize ddl) = normalize ddl ∧
      (∀ other : String, Restyled false ddl.toList other.toList →
        normalize other = normalize ddl) ∧
      (∀ before behind : List Char, (∀ c ∈ before, isBlank c = true) →
        (∀ c ∈ behind, isBlank c = true) →
          normalize (String.ofList (before ++ ddl.toList ++ behind)) = normalize ddl) ∧
      quotedParts (normalize ddl).toList = quotedParts ddl.toList := by
  refine ⟨normalize_idem ddl, fun other hother => ?_, fun before behind hbefore hbehind => ?_, ?_⟩
  · rw [normalize, normalize, normalizeChars_eq_trimRight, normalizeChars_eq_trimRight,
      normalizeFrom_restyled hother]
  · rw [normalize, normalize, String.toList_ofList, normalizeChars, normalizeChars,
      trim_append_right hbehind, trim_append_left hbefore]
  · rw [normalize, String.toList_ofList, quotedParts_normalizeChars]

/-- A type in two styles: the letters and the gaps around its quoted part differ. -/
theorem normalize_restyled_enum :
    Restyled false "enum ( 'a B' )".toList "ENUM\t(  'a B'\n)".toList ∧
      normalize "ENUM\t(  'a B'\n)" = normalize "enum ( 'a B' )" ∧
      normalize (String.ofList ([' '] ++ "enum ( 'a B' )".toList ++ ['\n'])) =
        normalize "enum ( 'a B' )" := by
  have hblank : IsGap [' '] := ⟨by simp, by decide⟩
  have htab : IsGap ['\t'] := ⟨by simp, by decide⟩
  have htwo : IsGap [' ', ' '] := ⟨by simp, by decide⟩
  have hline : IsGap ['\n'] := ⟨by simp, by decide⟩
  have hstyle : Restyled false "enum ( 'a B' )".toList "ENUM\t(  'a B'\n)".toList := by
    refine .letter rfl rfl (.letter rfl rfl (.letter rfl rfl (.letter rfl rfl ?_)))
    refine .gap hblank htab (.letter rfl rfl (.gap hblank htwo (.letter rfl rfl ?_)))
    refine .inside (.inside (.inside (.inside (.gap hblank hline (.letter rfl rfl .nil)))))
  exact ⟨hstyle, (normalize_restyled _).2.1 _ hstyle,
    (normalize_restyled _).2.2.1 [' '] ['\n'] hblank.blank hline.blank⟩

end SchemaPlan.Ddl
