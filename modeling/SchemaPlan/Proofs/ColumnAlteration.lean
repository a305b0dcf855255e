import SchemaPlan.Proofs.ColumnOptions
import SchemaPlan.Spanner.Dialect

/-!
# Altering a Spanner column

A statement that alters a column defines its type and nullability anew, or assigns options. The
statements between two fields are run on what is stored of a column: they turn what the old field
stores into what the new one stores, and each of them changes one thing only, because a change of
type repeats the old nullability and a change of nullability repeats the new type.

* `Alteration.read_sql`: what a statement says is read back from its text.
* `foldl_alterations`, `eachChangesOne_alterations`: what the statements do, one after the other.
* `alterations_eq_nil_iff`: there are none exactly if nothing is to be changed.
* `alterColumn_turns`: the texts say this, for any types and options.
-/
namespace SchemaPlan.Spanner

open Text Ddl

/-! ## Statements and what they do -/

/-- What a statement that alters a column says. -/
inductive Alteration where
  | define (ddl : String) (nullable : Bool)
  | setOptions (assignments : Options)

/-- What is stored of a column: its type in normal form, whether it accepts null, its options. -/
structure ColumnState where
  ddlType : String
  nullable : Bool
  options : Options

def ColumnState.ofField (dialect : Spanner) (field : FieldDecl) : ColumnState where
  ddlType := normalize (dialect.typeOf field)
  nullable := field.isNullable
  options := Options.ofExtra field.extra

def ColumnState.alter (state : ColumnState) : Alteration → ColumnState
  | .define ddl nullable => { state with ddlType := normalize ddl, nullable }
  | .setOptions assignments =>
    { state with options := assignments.entries.foldl Options.assign state.options }

/-- Two columns that differ in exactly one of type, nullability and options. -/
inductive ChangesOne (before after : ColumnState) : Prop
  | type (changed : before.ddlType ≠ after.ddlType) (nullable : before.nullable = after.nullable)
      (options : before.options = after.options)
  | nullability (changed : before.nullable ≠ after.nullable)
      (ddlType : before.ddlType = after.ddlType) (options : before.options = after.options)
  | options (changed : before.options ≠ after.options) (ddlType : before.ddlType = after.ddlType)
      (nullable : before.nullable = after.nullable)

/-- Each statement changes exactly one thing of the column that the ones before it leave. -/
inductive EachChangesOne : ColumnState → List Alteration → Prop
  | nil (state : ColumnState) : EachChangesOne state []
  | cons {state : ColumnState} {step : Alteration} {rest : List Alteration}
      (changes : ChangesOne state (state.alter step))
      (others : EachChangesOne (state.alter step) rest) : EachChangesOne state (step :: rest)

theorem EachChangesOne.append {state : ColumnState} {first second : List Alteration}
    (hfirst : EachChangesOne state first)
    (hsecond : EachChangesOne (first.foldl ColumnState.alter state) second) :
    EachChangesOne state (first ++ second) := by
  induction hfirst with
  | nil state => exact hsecond
  | cons changes _ ih => exact .cons changes (ih hsecond)

theorem EachChangesOne.single {state next : ColumnState} {step : Alteration}
    (hnext : state.alter step = next) (h : ChangesOne state next) : EachChangesOne state [step] :=
  .cons (hnext ▸ h) (.nil _)

/-! ## Texts of statements -/

def Alteration.clause : Alteration → String
  | .define ddl nullable => typeClause ddl nullable
  | .setOptions assignments => "SET OPTIONS (" ++ assignments.render ++ ")"

def alterationHead (table column : String) : String :=
  "ALTER TABLE " ++ quoteName table ++ " ALTER COLUMN " ++ quoteName column ++ " "

def Alteration.sql (table column : String) (alteration : Alteration) : String :=
  alterationHead table column ++ alteration.clause

/-- Reads what stands behind the name of the column: options are set, or else the column is defined,
as one that accepts null unless the text ends otherwise. -/
def Alteration.readClause? (clause : List Char) : Option Alteration :=
  match afterWord? "SET ".toList clause with
  | some list => (Options.read (String.ofList list)).toOption.map .setOptions
  | none =>
    match beforeWord? " NOT NULL".toList clause with
    | some ddl => some (.define (String.ofList ddl) false)
    | none => some (.define (String.ofList clause) true)

/-- Reads a statement that alters a column. -/
def Alteration.read? (table column sql : String) : Option Alteration :=
  (afterWord? (alterationHead table column).toList sql.toList).bind readClause?

/-- A type that cannot be taken for options, nor for a type with its nullability. -/
def PlainType (ddl : String) : Prop :=
  ¬"SET ".toList <+: (ddl ++ " NOT NULL").toList ∧ ¬" NOT NULL".toList <:+ ddl.toList

instance (ddl : String) : Decidable (PlainType ddl) :=
  inferInstanceAs (Decidable (_ ∧ _))

theorem afterWord?_eq_none {word cs : List Char} (h : ¬word <+: cs) :
    afterWord? word cs = none := by
  cases hafter : afterWord? word cs with
  | none => rfl
  | some rest => exact absurd ⟨rest, (eq_of_afterWord? hafter).symm⟩ h

theorem beforeWord?_eq_none {word cs : List Char} (h : ¬word <:+ cs) :
    beforeWord? word cs = none := by
  rw [beforeWord?, afterWord?_eq_none fun hprefix => h (List.reverse_prefix.1 hprefix)]
  rfl

theorem Alteration.readClause_define {ddl : String} (h : PlainType ddl) (nullable : Bool) :
    readClause? (typeClause ddl nullable).toList = some (.define ddl nullable) := by
  obtain ⟨hset, hnull⟩ := h
  cases nullable with
  | true =>
    have hset' : ¬"SET ".toList <+: ddl.toList := fun hprefix =>
      hset (by rw [String.toList_append]; exact hprefix.trans (List.prefix_append _ _))
    rw [readClause?, typeClause, if_pos rfl, afterWord?_eq_none hset', beforeWord?_eq_none hnull]
    exact congrArg (fun ddl => some (define ddl true)) String.ofList_toList
  | false =>
    rw [readClause?, typeClause, if_neg Bool.false_ne_true, afterWord?_eq_none hset,
      String.toList_append, beforeWord?_append]
    exact congrArg (fun ddl => some (define ddl false)) String.ofList_toList

theorem Alteration.readClause_setOptions {assignments : Options}
    (h : ∀ name value, assignments.find? name = some value → Kept name value) :
    readClause? (Alteration.setOptions assignments).clause.toList =
      some (.setOptions assignments) := by
  have htext : (Alteration.setOptions assignments).clause.toList =
      "SET ".toList ++ ("OPTIONS (" ++ assignments.render ++ ")").toList := by
    simp [Alteration.clause]
  rw [readClause?, htext, afterWord?_append]
  dsimp only
  rw [String.ofList_toList, read_render h]
  rfl

/-- What a statement says can be read: its type is plain, and its options are such as are kept. -/
def Alteration.Readable : Alteration → Prop
  | .define ddl _ => PlainType ddl
  | .setOptions assignments =>
    ∀ name value, assignments.find? name = some value → Kept name value

/-- A statement is read back from its text. -/
theorem Alteration.read_sql {alteration : Alteration} (h : alteration.Readable)
    (table column : String) :
    read? table column (alteration.sql table column) = some alteration := by
  rw [read?, sql, String.toList_append, afterWord?_append, Option.bind_some]
  cases alteration with
  | define ddl nullable => exact readClause_define h nullable
  | setOptions assignments => exact readClause_setOptions h

/-! ## The statements between two fields -/

section
variable (dialect : Spanner) (old new : FieldDecl)

/-- The change of type, with the old nullability. -/
def typeAlteration : List Alteration :=
  if normalize (dialect.typeOf old) = normalize (dialect.typeOf new) then []
  else [.define (dialect.typeOf new) old.isNullable]

/-- The change of nullability, with the new type. -/
def nullabilityAlteration : List Alteration :=
  if old.isNullable = new.isNullable then [] else [.define (dialect.typeOf new) new.isNullable]

def optionsAlteration : List Alteration :=
  let changes := (Options.ofExtra old.extra).changes (Options.ofExtra new.extra)
  if changes.entries.isEmpty then [] else [.setOptions changes]

/-- What the statements between two fields say. -/
def alterations : List Alteration :=
  typeAlteration dialect old new ++ nullabilityAlteration dialect old new ++
    optionsAlteration old new

theorem alterColumn_eq (table : String) :
    dialect.alterColumn table old new =
      (alterations dialect old new).map (Alteration.sql table new.columnName) := by
  simp only [alterColumn, alterations, typeAlteration, nullabilityAlteration, optionsAlteration,
    Alteration.sql, alterationHead, Alteration.clause, List.map_append, List.map_cons, List.map_nil,
    apply_ite (List.map _), String.append_assoc]

end

section
variable {dialect : Spanner} {old new : FieldDecl}

/-- A column with the type of the new field and all else of the old one. -/
def retyped (dialect : Spanner) (old new : FieldDecl) : ColumnState :=
  { ColumnState.ofField dialect old with ddlType := normalize (dialect.typeOf new) }

/-- A column with the type and nullability of the new field and the options of the old one. -/
def redefined (dialect : Spanner) (old new : FieldDecl) : ColumnState :=
  { retyped dialect old new with nullable := new.isNullable }

theorem typeAlteration_spec :
    (typeAlteration dialect old new).foldl ColumnState.alter (.ofField dialect old) =
        retyped dialect old new ∧
      EachChangesOne (.ofField dialect old) (typeAlteration dialect old new) := by
  unfold typeAlteration
  split
  · rename_i h
    refine ⟨?_, .nil _⟩
    rw [retyped, ← h]
    rfl
  · rename_i h
    exact ⟨rfl, .single rfl (.type h rfl rfl)⟩

theorem nullabilityAlteration_spec :
    (nullabilityAlteration dialect old new).foldl ColumnState.alter (retyped dialect old new) =
        redefined dialect old new ∧
      EachChangesOne (retyped dialect old new) (nullabilityAlteration dialect old new) := by
  unfold nullabilityAlteration
  split
  · rename_i h
    refine ⟨?_, .nil _⟩
    rw [redefined, ← h]
    rfl
  · rename_i h
    exact ⟨rfl, .single rfl (.nullability h rfl rfl)⟩

theorem optionsAlteration_spec :
    (optionsAlteration old new).foldl ColumnState.alter (redefined dialect old new) =
        .ofField dialect new ∧
      EachChangesOne (redefined dialect old new) (optionsAlteration old new) := by
  have hassigned : ((Options.ofExtra old.extra).changes (Options.ofExtra new.extra)).entries.foldl
      Options.assign (Options.ofExtra old.extra) = Options.ofExtra new.extra :=
    foldl_assign_changes (find?_ofExtra_ne_null new.extra)
  have hreached : (redefined dialect old new).alter
      (.setOptions ((Options.ofExtra old.extra).changes (Options.ofExtra new.extra))) =
        .ofField dialect new :=
    congrArg (ColumnState.mk _ _) hassigned
  unfold optionsAlteration
  dsimp only
  split
  · rename_i h
    rw [List.isEmpty_iff, entries_changes_eq_nil_iff] at h
    exact ⟨congrArg (ColumnState.mk _ _) h, .nil _⟩
  · rename_i h
    rw [List.isEmpty_iff, entries_changes_eq_nil_iff] at h
    exact ⟨hreached, .single hreached (.options h rfl rfl)⟩

/-- The statements end in what the new field stores. -/
theorem foldl_alterations :
    (alterations dialect old new).foldl ColumnState.alter (.ofField dialect old) =
      .ofField dialect new := by
  rw [alterations, List.foldl_append, List.foldl_append, typeAlteration_spec.1,
    nullabilityAlteration_spec.1, optionsAlteration_spec.1]

theorem eachChangesOne_alterations :
    EachChangesOne (.ofField dialect old) (alterations dialect old new) := by
  obtain ⟨htype, hfirst⟩ := @typeAlteration_spec dialect old new
  obtain ⟨hnull, hsecond⟩ := @nullabilityAlteration_spec dialect old new
  obtain ⟨-, hthird⟩ := @optionsAlteration_spec dialect old new
  refine (hfirst.append ?_).append ?_
  · rwa [htype]
  · rwa [List.foldl_append, htype, hnull]

theorem alterations_eq_nil_iff :
    alterations dialect old new = [] ↔
      ColumnState.ofField dialect old = ColumnState.ofField dialect new := by
  constructor
  · intro h
    have hreached := @foldl_alterations dialect old new
    rwa [h] at hreached
  · intro h
    obtain ⟨htype, hnull, hoptions⟩ := ColumnState.mk.inj h
    have hchanges := entries_changes_eq_nil_iff.2 hoptions
    simp only [alterations, typeAlteration, nullabilityAlteration, optionsAlteration, htype,
      hnull, hchanges, if_pos, List.isEmpty_nil, List.append_nil]

theorem readable_of_mem_alterations (h : PlainType (dialect.typeOf new)) :
    ∀ alteration ∈ alterations dialect old new, alteration.Readable := by
  simp only [alterations, List.forall_mem_append]
  refine ⟨⟨?_, ?_⟩, ?_⟩
  · unfold typeAlteration
    split
    · simp
    · exact List.forall_mem_singleton.2 h
  · unfold nullabilityAlteration
    split
    · simp
    · exact List.forall_mem_singleton.2 h
  · unfold optionsAlteration
    dsimp only
    split
    · simp
    · exact List.forall_mem_singleton.2 fun _ _ =>
        kept_of_changes (fun _ _ => kept_of_ofExtra) fun _ _ => kept_of_ofExtra

/-- The statements between two fields turn a column that stores the old one into one that stores the
new one, each of them changes exactly one of type, nullability and options, and there are none
exactly if all three agree already. The statements are texts; what they say can be read from them
unless the new type looks like options or like a type with its nullability. -/
theorem alterColumn_turns (dialect : Spanner) (table : String) (old new : FieldDecl) :
    ∃ steps : List Alteration,
      dialect.alterColumn table old new = steps.map (Alteration.sql table new.columnName) ∧
      steps.foldl ColumnState.alter (.ofField dialect old) = .ofField dialect new ∧
      EachChangesOne (.ofField dialect old) steps ∧
      (dialect.alterColumn table old new = [] ↔
        ColumnState.ofField dialect old = ColumnState.ofField dialect new) ∧
      (PlainType (dialect.typeOf new) →
        (dialect.alterColumn table old new).map (Alteration.read? table new.columnName) =
          steps.map some) := by
  refine ⟨alterations dialect old new, alterColumn_eq .., foldl_alterations,
    eachChangesOne_alterations, ?_, fun hplain => ?_⟩
  · rw [alterColumn_eq, List.map_eq_nil_iff, alterations_eq_nil_iff]
  · rw [alterColumn_eq, List.map_map]
    refine List.map_congr_left fun alteration h => ?_
    rw [Function.comp_apply, Alteration.read_sql (readable_of_mem_alterations hplain alteration h)]

/-- A column that becomes required in another type, with one option removed, one changed and one
added. -/
theorem alterColumn_turns_score :
    let dialect : Spanner := {}
    let old : FieldDecl :=
      { name := "score", type := "Option<i64>", extra := some "a = 1, b = 2" }
    let new : FieldDecl :=
      { name := "score", type := "String", size := some 20
        extra := some "OPTIONS (b=3, C=TRUE, d=null)" }
    ∃ steps : List Alteration,
      steps.map (Alteration.sql "games" "score") =
        ["ALTER TABLE `games` ALTER COLUMN `score` STRING(20)",
          "ALTER TABLE `games` ALTER COLUMN `score` STRING(20) NOT NULL",
          "ALTER TABLE `games` ALTER COLUMN `score` SET OPTIONS (a=null, b=3, c=true)"] ∧
      steps.foldl ColumnState.alter (.ofField dialect old) = .ofField dialect new ∧
      EachChangesOne (.ofField dialect old) steps ∧
      ColumnState.ofField dialect old ≠ ColumnState.ofField dialect new ∧
      (dialect.alterColumn "games" old new).map (Alteration.read? "games" "score") =
        steps.map some := by
  intro dialect old new
  obtain ⟨steps, htexts, hreached, hone, hnone, hread⟩ :=
    alterColumn_turns dialect "games" old new
  have hname : new.columnName = "score" := by decide +kernel
  rw [hname] at htexts hread
  have hwritten : dialect.alterColumn "games" old new =
      ["ALTER TABLE `games` ALTER COLUMN `score` STRING(20)",
        "ALTER TABLE `games` ALTER COLUMN `score` STRING(20) NOT NULL",
        "ALTER TABLE `games` ALTER COLUMN `score` SET OPTIONS (a=null, b=3, c=true)"] := by
    decide +kernel
  refine ⟨steps, by rw [← htexts, hwritten], hreached, hone, fun hsame => ?_,
    hread (by decide +kernel)⟩
  have hempty := hnone.2 hsame
  rw [hwritten] at hempty
  exact List.cons_ne_nil _ _ hempty

end

end SchemaPlan.Spanner
