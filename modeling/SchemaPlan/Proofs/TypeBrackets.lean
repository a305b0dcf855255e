import SchemaPlan.Proofs.CatalogForm
import SchemaPlan.Proofs.ColumnReconstruction
import SchemaPlan.Proofs.GenericSpelling

/-!
# Column types told apart by their brackets

The type of a field comes from an entry, from the name of its spelling, or, if the spelling has no
type, from its text. The brackets tell which: a generic text keeps its angle bracket, the types of
entries have none, and what a field asks for adds round brackets to a type or replaces it.

* `normalizeChars_generic`: what stands in front of an angle bracket does not show behind it.
* `toList_normalizeType_generic`: the type of a generic spelling that has no type.
* `typeOf_of_none`: the type of a field, by what its spelling resolves to.
* `sizedType_cases`: what becomes of the type of an entry.
-/
namespace SchemaPlan

open Text Ddl

/-! ## Generic texts -/

namespace Ddl

theorem normalizeFrom_upperText {word : List Char}
    (h : ∀ c ∈ word, isBlank c = false ∧ c ≠ '\'') (last : Option Char) (tail : List Char) :
    ∃ last', normalizeFrom last false false (word ++ tail) =
      upperText word ++ normalizeFrom last' false false tail := by
  induction word generalizing last with
  | nil => exact ⟨last, rfl⟩
  | cons c rest ih =>
    obtain ⟨⟨hblank, hquote⟩, hrest⟩ := List.forall_mem_cons.1 h
    obtain ⟨last', hwalk⟩ := ih hrest ((upper c).getLast?.or last)
    refine ⟨last', ?_⟩
    have hupper : upperText (c :: rest) = upper c ++ upperText rest := List.flatMap_cons
    rw [List.cons_append, normalizeFrom_word _ _ hblank, beq_false_of_ne hquote, hwalk, hupper,
      ← List.append_assoc]
    rfl

/-- The normal form of a generic spelling: what stands in front of the bracket does not show behind
it. -/
theorem normalizeChars_generic {head : List Char}
    (h : ∀ c ∈ head, isBlank c = false ∧ c ≠ '\'') (inner : List Char) :
    normalizeChars (genericSpelling head inner) =
      upperText head ++ '<' :: normalizeFrom (some '<') false false (inner ++ ['>']) := by
  have htrimmed : Trimmed (genericSpelling head inner) := by
    refine ⟨fun c hc => ?_, fun c hc => ?_⟩
    · cases head with
      | nil =>
        obtain rfl := Option.some.inj hc
        rfl
      | cons first rest =>
        obtain rfl := Option.some.inj hc
        exact (h _ List.mem_cons_self).1
    · rw [genericSpelling, ← List.cons_append, ← List.append_assoc, List.getLast?_concat] at hc
      obtain rfl := Option.some.inj hc
      rfl
  obtain ⟨last, hwalk⟩ := normalizeFrom_upperText h none ('<' :: (inner ++ ['>']))
  rw [normalizeChars, trim_eq_self htrimmed, genericSpelling, hwalk, normalizeFrom_word _ _ rfl]
  rfl

end Ddl

/-- A type text with an angle bracket in its first word is its own catalog form. -/
theorem MySql.normalizeColumnType_of_angle {ddl : String} {front behind : List Char}
    (hnormal : normalizeChars ddl.toList = front ++ '<' :: behind) (hfront : ' ' ∉ front) :
    normalizeColumnType ddl = Ddl.normalize ddl := by
  have hangle : '<' ∈ (Ddl.normalize ddl).toList := by
    rw [Ddl.normalize, String.toList_ofList, hnormal]
    simp
  have hidem : normalizeColumnType ddl = normalizeColumnType (Ddl.normalize ddl) := by
    rw [normalizeColumnType, normalizeColumnType, Ddl.normalize_idem]
  have hbase : baseType (Ddl.normalize ddl) = Ddl.normalize ddl := by
    rw [baseType, baseTypeChars, normal_toList.2 (Ddl.normalize_idem ddl)]
    simp [hangle]
  have hbefore : ∀ c ∈ front, (c != ' ') = true := fun c hc =>
    bne_iff_ne.2 fun he => hfront (he ▸ hc)
  have hword : '<' ∈ (leadingWord (Ddl.normalize ddl)).toList := by
    rw [leadingWord, hbase, Ddl.normalize, String.toList_ofList, String.toList_ofList, hnormal,
      List.takeWhile_append_of_pos hbefore, List.mem_append]
    exact .inr List.mem_cons_self
  rw [hidem]
  refine normalizeColumnType_other (Ddl.normalize_idem ddl) (fun hmem => ?_) (fun hmem => ?_)
  · have hall : ∀ name ∈ ["BOOL", "BOOLEAN", booleanType], '<' ∉ name.toList := by decide
    exact hall _ hmem hangle
  · have hall : ∀ name ∈ integerTypes, '<' ∉ name.toList := by decide
    exact hall _ hmem hword

namespace Dialect

variable {dialect : Dialect}

theorem toList_normalizeType_generic {head : List Char}
    (h : ∀ c ∈ head, isBlank c = false ∧ c ≠ '\'') {spelling : String} {inner : List Char}
    (htext : spelling.toList = genericSpelling head inner) :
    (dialect.normalizeType spelling).toList =
      upperText head ++ '<' :: normalizeFrom (some '<') false false (inner ++ ['>']) := by
  have hnormal := normalizeChars_generic h inner
  rw [← htext] at hnormal
  have hfront : ' ' ∉ upperText head := fun hmem => by
    have := (final_of_mem_upperText (fun c hc => (h c hc).1) hmem).not_blank
    revert this
    decide
  cases dialect with
  | mysql d =>
    show (MySql.normalizeColumnType spelling).toList = _
    rw [MySql.normalizeColumnType_of_angle hnormal hfront, Ddl.normalize, String.toList_ofList,
      hnormal]
  | spanner d =>
    show (Ddl.normalize spelling).toList = _
    rw [Ddl.normalize, String.toList_ofList, hnormal]

/-! ## The type of a field, by what its spelling resolves to -/

/-- A registered type with what a field asks for. -/
def sizedType : Dialect → String → FieldDecl → String
  | .mysql _, ddl, field => MySql.sizedType ddl field
  | .spanner _, ddl, field => Spanner.sized field.size ddl

/-- The stored form of a spelling that stands for itself. -/
def storedName : Dialect → String → String
  | .mysql _, ddl => MySql.normalizeColumnType ddl
  | .spanner _, ddl => ddl

theorem typeOf_of_none {field : FieldDecl} (h : field.ddlType = none) :
    dialect.typeOf field =
      match dialect.types.resolve? field.type field.isNullable with
      | some (.canonical ddl) => dialect.sizedType ddl field
      | some (.named ddl) => dialect.storedName ddl
      | none => dialect.normalizeType field.type := by
  cases dialect with
  | mysql d =>
    show d.typeOf field = _
    rw [MySql.typeOf, h]
    rfl
  | spanner d =>
    show d.typeOf field = _
    rw [Spanner.typeOf, h]
    rfl

end Dialect

def longTypes : List String :=
  ["MEDIUMTEXT", "LONGTEXT", "MEDIUMBLOB", "LONGBLOB"]

theorem marks_withArguments {name arguments : List Char} (hname : '<' ∉ name)
    (harguments : ∀ c ∈ arguments, Inner c) :
    '(' ∈ withArguments name arguments ∧ '<' ∉ withArguments name arguments := by
  have hinner : '<' ∉ arguments := fun hmem => (harguments _ hmem).not_bracket (by decide)
  simp [withArguments, hname, hinner]

theorem MySql.marks_typeForLength {name medium long : String} (hname : '<' ∉ name.toList)
    (hmedium : medium ∈ longTypes) (hlong : long ∈ longTypes) (limit size : UInt64) :
    typeForLength name limit medium long size ∈ longTypes ∨
      '(' ∈ (typeForLength name limit medium long size).toList ∧
        '<' ∉ (typeForLength name limit medium long size).toList := by
  unfold typeForLength
  split
  · rw [toList_withArgument]
    exact .inr (marks_withArguments hname (inner_decimal _))
  split
  · exact .inl hmedium
  · exact .inl hlong

theorem MySql.marks_sizedType {ddl : String} (h : '<' ∉ ddl.toList) {field : FieldDecl}
    (hresized : Resized ddl field) :
    sizedType ddl field ∈ longTypes ∨
      '(' ∈ (sizedType ddl field).toList ∧ '<' ∉ (sizedType ddl field).toList := by
  cases hresized with
  | text hbase hsize =>
    rw [sizedType_text hbase hsize]
    exact marks_typeForLength (by decide) (by simp [longTypes]) (by simp [longTypes]) _ _
  | bytes hbase hsize =>
    rw [sizedType_bytes hbase hsize]
    exact marks_typeForLength (by decide) (by simp [longTypes]) (by simp [longTypes]) _ _
  | decimal hbase hprecision =>
    rw [sizedType_decimal hbase hprecision, toList_decimalType]
    exact .inr (marks_withArguments (by decide) (inner_decimalArguments _ _))
  | temporal hbase hprecision hpositive =>
    rw [sizedType_temporal hbase hprecision hpositive, toList_withArgument]
    exact .inr (marks_withArguments h (inner_decimal _))

theorem Spanner.marks_sized {ddl : String} (h : '<' ∉ ddl.toList) (size : Option UInt64) :
    sized size ddl = ddl ∨ baseType ddl ∈ ["STRING", "BYTES"] ∧
      '(' ∈ (sized size ddl).toList ∧ '<' ∉ (sized size ddl).toList := by
  have helement : arrayForm.element? ddl.toList = none := by
    rw [Option.eq_none_iff_forall_ne_some]
    intro element helement
    refine h ?_
    rw [ArrayForm.eq_of_element? helement, List.append_assoc]
    exact List.mem_append_left _ (by decide)
  have hnamed : ∀ (start : String) (size : UInt64), '(' ∈ start.toList → '<' ∉ start.toList →
      '(' ∈ (start ++ Decimal.decimal size.toNat ++ ")").toList ∧
        '<' ∉ (start ++ Decimal.decimal size.toNat ++ ")").toList := by
    intro start size hopen hangle
    have hinner : '<' ∉ (Decimal.decimal size.toNat).toList := fun hmem =>
      (inner_decimal _ _ hmem).not_bracket (by decide)
    simp [hopen, hangle, hinner]
  cases size with
  | none => exact .inl rfl
  | some size =>
    rw [sized, Option.map_some, Option.getD_some, sizedType]
    split
    · rename_i hsome
      rw [helement] at hsome
      cases hsome
    rw [String.ofList_toList]
    dsimp only
    split
    · rename_i hcond
      rw [Bool.and_eq_true, decide_eq_true_eq] at hcond
      exact .inr ⟨by simp [hcond.1], hnamed "STRING(" size (by decide) (by decide)⟩
    split
    · rename_i hcond
      rw [Bool.and_eq_true, decide_eq_true_eq] at hcond
      exact .inr ⟨by simp [hcond.1], hnamed "BYTES(" size (by decide) (by decide)⟩
    · exact .inl rfl

/-- A type that is no list stays as it is, becomes a long one, or gets an argument list. -/
theorem Dialect.sizedType_cases (dialect : Dialect) {ddl : String} (h : '<' ∉ ddl.toList)
    (field : FieldDecl) :
    dialect.sizedType ddl field = ddl ∨ dialect.sizedType ddl field ∈ longTypes ∨
      '(' ∈ (dialect.sizedType ddl field).toList ∧
        '<' ∉ (dialect.sizedType ddl field).toList := by
  cases dialect with
  | mysql d =>
    rw [sizedType]
    by_cases hresized : MySql.Resized ddl field
    · exact .inr (MySql.marks_sizedType h hresized)
    · exact .inl (MySql.sizedType_own hresized)
  | spanner d =>
    rw [sizedType]
    exact (Spanner.marks_sized h field.size).imp_right fun hmarks => .inr hmarks.2

namespace Dialect

variable {dialect : Dialect}

theorem angle_not_mem_sizedType {ddl : String} (h : '<' ∉ ddl.toList) (field : FieldDecl) :
    '<' ∉ (dialect.sizedType ddl field).toList := by
  have hlong : ∀ long ∈ longTypes, '<' ∉ long.toList := by decide
  rcases sizedType_cases dialect h field with hsame | hmem | ⟨-, hangle⟩
  · rwa [hsame]
  · exact hlong _ hmem
  · exact hangle

end Dialect

end SchemaPlan
