import SchemaPlan.Proofs.MySqlRows
import SchemaPlan.Proofs.RequestedSize

/-!
# Types as the catalog reports them

The catalog has one name for the boolean type and for each integer type, and no argument lists of
integer types. A field's type is brought into this form if the field spells it out, but a registered
type is taken as it stands.

* `Legacy`: types that the catalog reports in another form.
* `normalizeColumnType_eq_self_iff`: these are the types that are not their own catalog form.
* `legacy_sizedType`: a size does not change whether a type is one of them.
* `typeOf_reported_iff`: a field's type is in catalog form just if its registered type is.
-/
namespace SchemaPlan.MySql

open Text Ddl

/-! ## Types that the catalog reports in another form -/

def leadingWord (ddl : String) : String :=
  String.ofList ((baseType ddl).toList.takeWhile (· != ' '))

/-- A type that the catalog reports in another form: the boolean type and the type `INT` by other
names, and an integer type with an argument list, unless it is the boolean type. -/
inductive Legacy (ddl : String) : Prop
  | boolean (h : ddl ∈ ["BOOL", "BOOLEAN"])
  | long (h : leadingWord ddl = "INTEGER")
  | width (h : leadingWord ddl ∈ integerTypes) (hlist : baseType ddl ≠ ddl)
    (hne : ddl ≠ booleanType)

theorem takeWhile_word {word : List Char} (h : ∀ c ∈ word, Plain c) (rest : List Char) :
    (word ++ rest).takeWhile (· != ' ') = word ++ rest.takeWhile (· != ' ') := by
  refine List.takeWhile_append_of_pos fun c hc => bne_iff_ne.2 ?_
  rintro rfl
  exact absurd (h ' ' hc).not_blank (by decide)

theorem not_legacy {ddl : String} (hboolean : ddl ∉ ["BOOL", "BOOLEAN"])
    (hinteger : leadingWord ddl ∉ integerTypes) : ¬Legacy ddl := by
  rintro (h | h | h)
  · exact hboolean h
  · exact hinteger (h ▸ by decide)
  · exact hinteger h

theorem normalizeChars_int_ne (behind rest : List Char) :
    normalizeChars ("INT ".toList ++ behind) ≠ "INTEGER".toList ++ rest := by
  intro h
  have hplain : ∀ c ∈ "INT".toList, Plain c := by decide
  have htrim : trim ("INT ".toList ++ behind) = "INT".toList ++ trimRight (' ' :: behind) :=
    trim_append_word (by decide) (fun c hc => (hplain c hc).not_blank) _
  rw [normalizeChars, htrim, normalizeFrom_plain hplain] at h
  have hhead : (normalizeFrom (some 'T') false false (trimRight (' ' :: behind))).head? =
      some 'E' := congrArg List.head? (List.append_cancel_left h)
  obtain ⟨blanks, -, htext⟩ := exists_blanks_of_trimRight (' ' :: behind)
  cases hright : trimRight (' ' :: behind) with
  | nil =>
    rw [hright] at hhead
    cases hhead
  | cons c kept =>
    rw [hright] at hhead htext
    obtain rfl := (List.cons.inj htext).1
    rw [normalizeFrom_blank _ _ (by decide)] at hhead
    exact absurd (head?_normalizeFrom_gap (by decide) hhead) (by decide)

section
variable {ddl : String} (hnormal : normalize ddl = ddl)
include hnormal

theorem base_ne_integer {rest : List Char} (hrest : ∀ c, rest.head? = some c → c = ' ')
    (hddl : ddl.toList = "INT".toList ++ rest) :
    baseTypeChars ddl.toList ≠ "INTEGER".toList ++ rest := by
  intro hbase
  have hne : ddl.toList ≠ "INTEGER".toList ++ rest := by
    intro h
    have := congrArg List.length (hddl.symm.trans h)
    simp at this
  rw [baseTypeChars, normal_toList.2 hnormal] at hbase
  split at hbase
  · exact hne hbase
  split at hbase
  · rename_i before inside behind hlist
    -- the argument list is behind the first blank
    have htext := hddl.symm.trans (eq_of_argumentList? hlist)
    obtain ⟨front, hbefore, htail⟩ : ∃ front, before = "INT".toList ++ front ∧
        rest = front ++ '(' :: (inside ++ ')' :: behind) := by
      rcases List.append_eq_append_iff.1 htext with ⟨front, hbefore, htail⟩ | ⟨front, hword, htail⟩
      · exact ⟨front, hbefore, htail⟩
      · cases front with
        | nil => exact ⟨[], by simpa using hword.symm, by simpa using htail.symm⟩
        | cons c front =>
          obtain rfl := (List.cons.inj htail).1
          have hmem : '(' ∈ "INT".toList := by rw [hword]; simp
          exact absurd hmem (by decide)
    cases front with
    | nil => exact absurd (hrest '(' (by rw [htail]; rfl)) (by decide)
    | cons c front =>
      obtain rfl := hrest c (by rw [htail]; rfl)
      refine normalizeChars_int_ne (front ++ ' ' :: behind) rest ?_
      rw [← hbase, hbefore, List.append_assoc]
      rfl
  · exact hne hbase

theorem normalizeColumnType_other (hboolean : ddl ∉ ["BOOL", "BOOLEAN", booleanType])
    (hinteger : leadingWord ddl ∉ integerTypes) : normalizeColumnType ddl = ddl := by
  simp only [List.mem_cons, List.not_mem_nil, or_false, not_or] at hboolean
  unfold normalizeColumnType
  dsimp only
  rw [hnormal, if_neg (by simp [hboolean]), if_neg]
  simpa [leadingWord] using hinteger

theorem normalizeColumnType_integer (hboolean : ddl ∉ ["BOOL", "BOOLEAN", booleanType])
    (hinteger : leadingWord ddl ∈ integerTypes) (hlong : leadingWord ddl ≠ "INTEGER") :
    normalizeColumnType ddl = baseType ddl := by
  have hhead : (baseType ddl).toList.takeWhile (· != ' ') ≠ "INTEGER".toList := fun h =>
    hlong (by rw [leadingWord, h, String.ofList_toList])
  simp only [List.mem_cons, List.not_mem_nil, or_false, not_or] at hboolean
  unfold normalizeColumnType
  dsimp only
  rw [hnormal, if_neg (by simp [hboolean]), if_pos (by simpa [leadingWord] using hinteger),
    if_neg hhead, List.prefix_iff_eq_append.1 (List.takeWhile_prefix _), String.ofList_toList]

theorem normalizeColumnType_long (hboolean : ddl ∉ ["BOOL", "BOOLEAN", booleanType])
    (hlong : leadingWord ddl = "INTEGER") : ∃ rest, (∀ c, rest.head? = some c → c = ' ') ∧
      baseTypeChars ddl.toList = "INTEGER".toList ++ rest ∧
      normalizeColumnType ddl = String.ofList ("INT".toList ++ rest) := by
  have hhead : (baseTypeChars ddl.toList).takeWhile (· != ' ') = "INTEGER".toList := by
    rw [← hlong, leadingWord, baseType, String.toList_ofList, String.toList_ofList]
  have hparts : "INTEGER".toList ++ (baseTypeChars ddl.toList).dropWhile (· != ' ') =
      baseTypeChars ddl.toList := by
    rw [← hhead]
    exact List.takeWhile_append_dropWhile
  refine ⟨(baseTypeChars ddl.toList).dropWhile (· != ' '), fun c hc => ?_, hparts.symm, ?_⟩
  · have := List.head?_dropWhile_not (· != ' ') (baseTypeChars ddl.toList)
    rw [hc] at this
    simpa using this
  · simp only [List.mem_cons, List.not_mem_nil, or_false, not_or] at hboolean
    unfold normalizeColumnType
    dsimp only
    have hbase : (baseType ddl).toList = baseTypeChars ddl.toList := by
      rw [baseType, String.toList_ofList]
    have hdrop := (congrArg (List.drop "INTEGER".toList.length) hparts).symm.trans List.drop_left
    rw [hnormal, if_neg (by simp [hboolean]), hbase, hhead, if_pos (by decide), if_pos rfl, hdrop]

/-- The types that are not legacy are their own catalog form. -/
theorem normalizeColumnType_eq_self_iff : normalizeColumnType ddl = ddl ↔ ¬Legacy ddl := by
  by_cases hboolean : ddl ∈ ["BOOL", "BOOLEAN", booleanType]
  · simp only [List.mem_cons, List.not_mem_nil, or_false] at hboolean
    rcases hboolean with rfl | rfl | rfl
    · exact iff_of_false (by decide +kernel) (not_not_intro (.boolean (by decide)))
    · exact iff_of_false (by decide +kernel) (not_not_intro (.boolean (by decide)))
    · refine iff_of_true (by decide +kernel) ?_
      rintro (h | h | ⟨-, -, hne⟩)
      · exact absurd h (by decide)
      · exact absurd h (by decide +kernel)
      · exact hne rfl
  by_cases hinteger : leadingWord ddl ∈ integerTypes
  case neg =>
    refine iff_of_true (normalizeColumnType_other hnormal hboolean hinteger)
      (not_legacy ?_ hinteger)
    exact fun hmem => hboolean (List.subset_append_left _ [booleanType] hmem)
  by_cases hlong : leadingWord ddl = "INTEGER"
  · obtain ⟨rest, hrest, hbase, hform⟩ := normalizeColumnType_long hnormal hboolean hlong
    refine iff_of_false (fun hsame => ?_) (not_not_intro (.long hlong))
    have htext := congrArg String.toList (hsame.symm.trans hform)
    rw [String.toList_ofList] at htext
    exact base_ne_integer hnormal hrest htext hbase
  · rw [normalizeColumnType_integer hnormal hboolean hinteger hlong]
    constructor
    · rintro hsame (h | h | ⟨-, hlist, -⟩)
      · exact hboolean (List.subset_append_left _ [booleanType] h)
      · exact hlong h
      · exact hlist hsame
    · intro hlegacy
      by_contra hlist
      exact hlegacy (.width hinteger hlist fun hsame => hboolean (by rw [hsame]; decide))

end

/-! ## Sizes -/

/-- The types that a field may ask for with a size or a precision. -/
def resizableTypes : List String :=
  ["VARCHAR", "VARBINARY", "DECIMAL"] ++ temporalTypes

theorem Resized.mem_resizableTypes {ddl : String} {field : FieldDecl} (h : Resized ddl field) :
    baseType ddl ∈ resizableTypes := by
  cases h with
  | text hbase => rw [hbase]; decide
  | bytes hbase => rw [hbase]; decide
  | decimal hbase => rw [hbase]; decide
  | temporal hbase => exact List.mem_append_right _ hbase

/-- A type that a field may ask for with a size is no legacy type. -/
theorem not_legacy_of_base {ddl : String} (h : baseType ddl ∈ resizableTypes) : ¬Legacy ddl := by
  have hall : ∀ name ∈ resizableTypes,
      String.ofList (name.toList.takeWhile (· != ' ')) ∉ integerTypes := by decide
  refine not_legacy (fun hmem => ?_) (hall _ h)
  have hboolean : ∀ type ∈ ["BOOL", "BOOLEAN"], baseType type ∉ resizableTypes := by
    decide +kernel
  exact hboolean ddl hmem h

theorem not_legacy_of_arguments {ddl : String} {name arguments : List Char}
    (hname : ∀ c ∈ name, Inner c) (h : baseTypeChars ddl.toList = withArguments name arguments) :
    ¬Legacy ddl := by
  have hopen : '(' ∈ (leadingWord ddl).toList := by
    rw [leadingWord, baseType, String.toList_ofList, String.toList_ofList, h, withArguments,
      takeWhile_word fun c hc => (hname c hc).toPlain, List.takeWhile_cons_of_pos (by decide)]
    simp
  have hall : ∀ type ∈ ["BOOL", "BOOLEAN"] ++ integerTypes, '(' ∉ type.toList := by decide
  refine not_legacy (fun hmem => ?_) fun hmem => ?_
  · have hboolean : ∀ type ∈ ["BOOL", "BOOLEAN"], leadingWord type = type := by decide +kernel
    rw [hboolean ddl hmem] at hopen
    exact hall ddl (List.mem_append_left _ hmem) hopen
  · exact hall _ (List.mem_append_right _ hmem) hopen

theorem baseType_withArgument {name : String} (hname : ∀ c ∈ name.toList, Inner c)
    (argument : UInt64) : baseType (withArgument name argument) = name := by
  rw [baseType, toList_withArgument, baseTypeChars_arguments hname (inner_decimal _),
    String.ofList_toList]

theorem not_legacy_typeForLength {name medium long : String} (hname : ∀ c ∈ name.toList, Inner c)
    (hbase : name ∈ resizableTypes)
    (hlong : ∀ ddl ∈ [medium, long], ddl ∉ ["BOOL", "BOOLEAN"] ∧ leadingWord ddl ∉ integerTypes)
    (limit length : UInt64) : ¬Legacy (typeForLength name limit medium long length) := by
  unfold typeForLength
  split
  · exact not_legacy_of_base (by rwa [baseType_withArgument hname])
  · split
    · exact not_legacy (hlong medium (by simp)).1 (hlong medium (by simp)).2
    · exact not_legacy (hlong long (by simp)).1 (hlong long (by simp)).2

/-- A type with the size that a field asks for is legacy just if it is without. -/
theorem legacy_sizedType {ddl : String} (hddl : Normal ddl.toList) (field : FieldDecl) :
    Legacy (sizedType ddl field) ↔ Legacy ddl := by
  by_cases hresized : Resized ddl field
  case neg => rw [sizedType_own hresized]
  refine iff_of_false ?_ (not_legacy_of_base hresized.mem_resizableTypes)
  cases hresized with
  | text hbase hsize =>
    rw [sizedType_text hbase hsize]
    exact not_legacy_typeForLength (by decide) (by decide) (by decide +kernel) _ _
  | bytes hbase hsize =>
    rw [sizedType_bytes hbase hsize]
    exact not_legacy_typeForLength (by decide) (by decide) (by decide +kernel) _ _
  | decimal hbase hprecision =>
    rw [sizedType_decimal hbase hprecision]
    refine not_legacy_of_base ?_
    rw [baseType, toList_decimalType,
      baseTypeChars_arguments (by decide) (inner_decimalArguments _ _)]
    decide
  | @temporal precision hbase hprecision hpositive =>
    rw [sizedType_temporal hbase hprecision hpositive]
    have hchars := baseTypeChars_withArguments hddl rfl (inner_temporal hbase)
      (inner_decimal precision.toNat)
    rw [← toList_withArgument] at hchars
    split at hchars
    · exact not_legacy_of_arguments (inner_temporal hbase) hchars
    · refine not_legacy_of_base (List.mem_append_right _ ?_)
      rwa [baseType, hchars]

/-! ## The types of fields -/

theorem not_mem_upperText {mark : Char} (hmark : mark.toNat < 0x41) {cs : List Char}
    (h : mark ∉ cs) : mark ∉ upperText cs := by
  intro hmem
  obtain ⟨c, hc, hmem⟩ := List.mem_flatMap.1 hmem
  exact h (eq_of_mem_upper (.inl hmark) hmem ▸ hc)

theorem bracket_not_mem_named {dialect : MySql} {spelling ddl : String} {nullable : Bool}
    (h : dialect.types.resolve? spelling nullable = some (.named ddl)) : '(' ∉ ddl.toList := by
  rcases Registry.resolve_cases h with ⟨_, _, heq⟩ | ⟨_, _, _, _, hform, _⟩ | ⟨hbracket, heq⟩
  · cases heq
  · cases hform
  · rw [Resolution.named.inj heq, String.toList_ofList]
    exact not_mem_upperText (by decide) fun hmem => hbracket (lastSegment_subset _ hmem)

theorem baseType_eq_self {ddl : String} (hnormal : normalize ddl = ddl)
    (hbracket : '(' ∉ ddl.toList) : baseType ddl = ddl := by
  have hnone : argumentList? ddl.toList = none :=
    Option.eq_none_iff_forall_ne_some.2 fun ⟨before, inside, behind⟩ hlist =>
      hbracket (by simp [eq_of_argumentList? hlist])
  rw [baseType, baseTypeChars, normal_toList.2 hnormal, hnone]
  dsimp only
  rw [ite_self, String.ofList_toList]

/-- The catalog form of a type without brackets is a catalog form. -/
theorem not_legacy_normalizeColumnType {ddl : String} (hnormal : normalize ddl = ddl)
    (hbracket : '(' ∉ ddl.toList) : ¬Legacy (normalizeColumnType ddl) := by
  have hbase := baseType_eq_self hnormal hbracket
  by_cases hboolean : ddl ∈ ["BOOL", "BOOLEAN", booleanType]
  · have hform : ∀ type ∈ ["BOOL", "BOOLEAN", booleanType],
        normalizeColumnType type = booleanType := by decide +kernel
    rw [hform ddl hboolean]
    exact (normalizeColumnType_eq_self_iff (by decide +kernel)).1 (by decide +kernel)
  by_cases hlong : leadingWord ddl = "INTEGER"
  · obtain ⟨rest, hrest, hparts, hform⟩ := normalizeColumnType_long hnormal hboolean hlong
    have hnormal' := normalize_normalizeColumnType ddl
    rw [hform] at hnormal' ⊢
    have hbracket' : '(' ∉ (String.ofList ("INT".toList ++ rest)).toList := by
      rw [← hbase, baseType, String.toList_ofList, hparts] at hbracket
      simp only [String.toList_ofList, List.mem_append, not_or] at hbracket ⊢
      exact ⟨by decide, hbracket.2⟩
    have hbase' := baseType_eq_self hnormal' hbracket'
    have hword : leadingWord (String.ofList ("INT".toList ++ rest)) = "INT" := by
      have hnil : rest.takeWhile (· != ' ') = [] := by
        cases rest with
        | nil => rfl
        | cons c rest => rw [hrest c rfl, List.takeWhile_cons_of_neg (by decide)]
      rw [leadingWord, hbase', String.toList_ofList, takeWhile_word (by decide), hnil,
        List.append_nil, String.ofList_toList]
    rintro (h | h | ⟨-, hlist, -⟩)
    · have hother : ∀ type ∈ ["BOOL", "BOOLEAN"], leadingWord type ≠ "INT" := by decide +kernel
      exact hother _ h hword
    · rw [hword] at h
      exact absurd h (by decide)
    · exact hlist hbase'
  · have hsame : normalizeColumnType ddl = ddl := by
      by_cases hinteger : leadingWord ddl ∈ integerTypes
      · rw [normalizeColumnType_integer hnormal hboolean hinteger hlong, hbase]
      · exact normalizeColumnType_other hnormal hboolean hinteger
    rw [hsame]
    exact (normalizeColumnType_eq_self_iff hnormal).1 hsame

/-- What the type of a field is made from is in catalog form: the registered type that its spelling
resolves to, or, if there is none, the spelling itself after it has been brought into this form. A
spelling that stands for its own name always is. -/
def Reportable (dialect : MySql) (field : FieldDecl) : Prop :=
  match dialect.types.resolve? field.type field.isNullable with
  | some (.canonical ddl) => ¬Legacy ddl
  | some (.named _) => True
  | none => ¬Legacy (normalizeColumnType field.type)

theorem not_legacy_typeOf_iff {dialect : MySql}
    (hmade : ∀ entry ∈ dialect.registered, entry.Made) {field : FieldDecl}
    (hown : field.ddlType = none) :
    ¬Legacy (dialect.typeOf field) ↔ Reportable dialect field := by
  have hnormal : ∀ resolution,
      dialect.types.resolve? field.type field.isNullable = some resolution →
        Normal resolution.ddl.toList :=
    fun resolution => @Dialect.normal_resolve (.mysql dialect) hmade _ _ resolution
  unfold typeOf Reportable
  rw [hown]
  dsimp only
  cases hfound : dialect.types.resolve? field.type field.isNullable with
  | none => exact Iff.rfl
  | some resolution =>
    cases resolution with
    | canonical ddl => exact not_congr (legacy_sizedType (hnormal (.canonical ddl) hfound) field)
    | named ddl =>
      have hddl : Normal ddl.toList := hnormal (.named ddl) hfound
      exact iff_of_true (not_legacy_normalizeColumnType (normal_toList.1 hddl)
        (bracket_not_mem_named hfound)) trivial

theorem exists_column_of_row {version : Version} {parts : List IndexRow}
    {seen : List (String × String)} {rows : List ColumnRow} {columns : List Column}
    (h : columnsFrom version parts seen rows = .ok columns) {row : ColumnRow} (hrow : row ∈ rows)
    {name : String} (hname : row.column = some name) :
    ∃ column ∈ columns, column.table = row.table ∧ column.name = name ∧
      column.dataType = normalizeColumnType row.columnType := by
  induction rows generalizing seen columns with
  | nil => cases hrow
  | cons first rest ih =>
    rcases columnsFrom_cons_ok h with
      ⟨hnone, hrest⟩ | ⟨first_name, column, others, hsome, hcolumn, hrest, rfl⟩
    · rcases List.mem_cons.1 hrow with rfl | hrow
      · rw [hname] at hnone
        cases hnone
      · exact ih hrest hrow
    · rcases List.mem_cons.1 hrow with rfl | hrow
      · obtain rfl := Option.some.inj (hname.symm.trans hsome)
        obtain ⟨htable, hsame, -, htype, -⟩ := columnOfRow_ok hcolumn
        exact ⟨column, List.mem_cons_self, htable, hsame, htype⟩
      · obtain ⟨found, hfound, hof⟩ := ih hrest hrow
        exact ⟨found, List.mem_cons_of_mem _ hfound, hof⟩

/-- The type of a field that does not spell it out is the one that the catalog reports, and a column
that is read with this type keeps it, just if what it is made from is in catalog form. Just then it
is no legacy type. -/
theorem typeOf_reported_iff {dialect : MySql} (hmade : ∀ entry ∈ dialect.registered, entry.Made)
    {field : FieldDecl} (hown : field.ddlType = none) :
    (normalizeColumnType (dialect.typeOf field) = dialect.typeOf field ↔
        Reportable dialect field) ∧
      (¬Legacy (dialect.typeOf field) ↔ Reportable dialect field) ∧
      ∀ rows parts columns, columnsOfRows dialect rows parts = .ok columns →
        ∀ row ∈ rows, ∀ name, row.column = some name → row.columnType = dialect.typeOf field →
          ∃ column ∈ columns, column.table = row.table ∧ column.name = name ∧
            (column.dataType = dialect.typeOf field ↔ Reportable dialect field) := by
  have hlegacy := not_legacy_typeOf_iff hmade hown
  have hnormal : normalize (dialect.typeOf field) = dialect.typeOf field :=
    @Dialect.normalize_typeOf (.mysql dialect) hmade field
  have hform := (normalizeColumnType_eq_self_iff hnormal).trans hlegacy
  refine ⟨hform, hlegacy, fun rows parts columns hread row hrow name hname htype => ?_⟩
  obtain ⟨column, hcolumn, htable, hsame, hcolumnType⟩ := exists_column_of_row hread hrow hname
  refine ⟨column, hcolumn, htable, hsame, ?_⟩
  rw [hcolumnType, htype]
  exact hform

/-- A type that is registered as the catalog reports it. -/
theorem typeOf_reported_id :
    let dialect : MySql := { registered := [.ofSpellings "int unsigned" ["Id32"]] }
    let field : FieldDecl := { name := "id", type := "Id32" }
    normalizeColumnType (dialect.typeOf field) = dialect.typeOf field ∧
      ¬Legacy (dialect.typeOf field) := by
  intro dialect field
  obtain ⟨hform, hlegacy, -⟩ :=
    @typeOf_reported_iff dialect (List.forall_mem_singleton.2 (.ofSpellings _ _)) field rfl
  have hresolve : dialect.types.resolve? field.type field.isNullable =
      some (.canonical "INT UNSIGNED") := by decide +kernel
  have hreportable : Reportable dialect field := by
    rw [Reportable, hresolve]
    exact (normalizeColumnType_eq_self_iff (by decide +kernel)).1 (by decide +kernel)
  exact ⟨hform.2 hreportable, hlegacy.2 hreportable⟩

/-- An integer type that is registered with a display width keeps it. -/
theorem display_width_kept :
    let dialect : MySql := { registered := [.ofSpellings "int(11)" ["Id32"]] }
    let field : FieldDecl := { name := "id", type := "Id32" }
    dialect.typeOf field = "INT(11)" ∧ Legacy (dialect.typeOf field) ∧
      normalizeColumnType (dialect.typeOf field) = "INT" := by
  intro dialect field
  have htype : dialect.typeOf field = "INT(11)" := by decide +kernel
  refine ⟨htype, ?_, by decide +kernel⟩
  rw [htype]
  exact .width (by decide +kernel) (by decide +kernel) (by decide)

end SchemaPlan.MySql
