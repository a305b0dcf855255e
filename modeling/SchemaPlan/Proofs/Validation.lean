import Mathlib.Data.List.Nodup
import SchemaPlan.Proofs.Computation
import SchemaPlan.Validation

/-!
# What validation promises

A schema that `validate` accepts has tables of different names, and each of its tables has columns,
all of different names, and passes every check that looks at one field or one table alone.

* `Valid`: what is known of an accepted table.
* `validateTable_eq_ok_iff`, `validate_eq_ok_iff`: nothing else is asked of tables and schemas.
* `validate_ok`: names differ and every table is `Valid`.
-/
namespace SchemaPlan

/-- What validation promises of a table. -/
structure Valid (dialect : Dialect) (table : TableDecl) : Prop where
  fields_ne_nil : table.fields ≠ []
  nodup_columns : table.columnNames.Nodup
  fields_ok : ∀ field ∈ table.fields, fieldFault dialect table.name [] field = .ok ()
  uses_ok : validateIndexUses table.name [] table.indexUses = .ok ()
  dialect_ok : dialect.validateTable table = .ok ()

/-- A walk that refuses repeated names asks the same of its first element and of the rest as of all
of them. -/
theorem forall_new_cons {α : Type} (name : α → String) (p : α → Prop) (before : List String)
    (a : α) (rest : List α) :
    (name a ∉ before ∧ p a) ∧ (rest.map name).Nodup ∧
        (∀ b ∈ rest, name b ∉ name a :: before ∧ p b) ↔
      ((a :: rest).map name).Nodup ∧ ∀ b ∈ a :: rest, name b ∉ before ∧ p b := by
  rw [List.map_cons, List.nodup_cons, List.forall_mem_cons]
  constructor
  · intro ⟨ha, hnodup, hrest⟩
    refine ⟨⟨?_, hnodup⟩, ha, fun b hb => ⟨?_, (hrest b hb).2⟩⟩
    · intro hmem
      obtain ⟨b, hb, heq⟩ := List.mem_map.1 hmem
      exact (hrest b hb).1 (heq ▸ List.mem_cons_self)
    · intro hmem
      exact (hrest b hb).1 (List.mem_cons_of_mem _ hmem)
  · intro ⟨⟨hnew, hnodup⟩, ha, hrest⟩
    refine ⟨ha, hnodup, fun b hb => ⟨?_, (hrest b hb).2⟩⟩
    intro hmem
    rcases List.mem_cons.1 hmem with heq | hmem
    · exact hnew (heq ▸ List.mem_map_of_mem hb)
    · exact (hrest b hb).1 hmem

theorem fieldFault_eq_ok_iff {dialect : Dialect} {table : String} {before : List String}
    {field : FieldDecl} :
    fieldFault dialect table before field = .ok () ↔
      field.columnName ∉ before ∧ fieldFault dialect table [] field = .ok () := by
  by_cases hbefore : field.columnName ∈ before <;> simp [fieldFault, hbefore]

theorem validateFields_eq_ok_iff {dialect : Dialect} {table : String} {before : List String}
    {fields : List FieldDecl} :
    validateFields dialect table before fields = .ok () ↔
      (fields.map (·.columnName)).Nodup ∧
        ∀ field ∈ fields, field.columnName ∉ before ∧
          fieldFault dialect table [] field = .ok () := by
  induction fields generalizing before with
  | nil => simp [validateFields]
  | cons field rest ih =>
    rw [validateFields, bind_unit_eq_ok_iff, fieldFault_eq_ok_iff, ih]
    exact forall_new_cons FieldDecl.columnName
      (fun other => fieldFault dialect table [] other = .ok ()) before field rest

/-- Uses of indexes pass if those of one index agree with each other and with those that have come
up. -/
theorem validateIndexUses_eq_ok_iff {table : String} {known uses : List IndexUse} :
    validateIndexUses table known uses = .ok () ↔
      ∀ use ∈ uses, ∀ other ∈ known ++ uses,
        other.index = use.index → other.unique = use.unique := by
  induction uses generalizing known with
  | nil => simp [validateIndexUses]
  | cons use rest ih =>
    by_cases hconflict : ∃ other ∈ known, other.index = use.index ∧ other.unique ≠ use.unique
    · have hany : (known.any fun other =>
          other.index = use.index && other.unique != use.unique) = true := by
        simpa using hconflict
      rw [validateIndexUses, if_pos hany]
      obtain ⟨other, hother, heq, hne⟩ := hconflict
      refine iff_of_false (by simp) ?_
      intro hall
      exact hne (hall use (by simp) other (by simp [hother]) heq)
    · have hany : ¬ (known.any fun other =>
          other.index = use.index && other.unique != use.unique) = true := by
        simpa using hconflict
      rw [validateIndexUses, if_neg hany, ih]
      constructor
      · intro hrest u hu other hother heq
        simp only [List.mem_cons, List.mem_append] at hu hother hrest
        rcases hu with rfl | hu
        · rcases hother with hother | rfl | hother
          · by_contra hne
            exact hconflict ⟨other, hother, heq, hne⟩
          · rfl
          · exact (hrest other hother u (by simp) heq.symm).symm
        · exact hrest u hu other (by tauto) heq
      · intro hall u hu other hother heq
        simp only [List.mem_cons, List.mem_append] at hother
        exact hall u (by simp [hu]) other (by simp only [List.mem_cons, List.mem_append]; tauto) heq

theorem validateTable_eq_ok_iff {dialect : Dialect} {table : TableDecl} :
    validateTable dialect table = .ok () ↔ Valid dialect table := by
  unfold validateTable
  by_cases hfields : table.fields = []
  · refine iff_of_false ?_ fun h => h.fields_ne_nil hfields
    simp [hfields, bind, Except.bind]
  · have hnone : table.fields.isEmpty = false := by simpa using hfields
    simp only [hnone, Bool.false_eq_true, if_false]
    rw [bind_unit_eq_ok_iff, bind_unit_eq_ok_iff, validateFields_eq_ok_iff]
    constructor
    · intro ⟨⟨hnodup, hok⟩, huses, hdialect⟩
      exact ⟨hfields, hnodup, fun field hfield => (hok field hfield).2, huses, hdialect⟩
    · intro h
      exact ⟨⟨h.nodup_columns, fun field hfield => ⟨by simp, h.fields_ok field hfield⟩⟩,
        h.uses_ok, h.dialect_ok⟩

theorem validateTables_eq_ok_iff {dialect : Dialect} {before : List String}
    {tables : List TableDecl} :
    validateTables dialect before tables = .ok () ↔
      (tables.map (·.name)).Nodup ∧
        ∀ table ∈ tables, table.name ∉ before ∧ validateTable dialect table = .ok () := by
  induction tables generalizing before with
  | nil => simp [validateTables]
  | cons table rest ih =>
    have hcons := forall_new_cons TableDecl.name
      (fun other => validateTable dialect other = .ok ()) before table rest
    rw [validateTables]
    by_cases hbefore : table.name ∈ before
    · refine iff_of_false (by simp [hbefore, bind, Except.bind]) fun h => ?_
      exact (h.2 table List.mem_cons_self).1 hbefore
    · simp only [hbefore, List.contains_eq_mem, decide_false, Bool.false_eq_true, if_false]
      rw [bind_unit_eq_ok_iff, ih, ← hcons]
      simp [hbefore]

/-- An accepted schema has tables of different names, each of which passes by itself. -/
theorem validate_eq_ok_iff {dialect : Dialect} {tables : List TableDecl} :
    validate dialect tables = .ok () ↔
      (tables.map (·.name)).Nodup ∧ ∀ table ∈ tables, validateTable dialect table = .ok () := by
  simp [validate, validateTables_eq_ok_iff]

/-- An accepted schema has tables of different names, each of them `Valid`. -/
theorem validate_ok {dialect : Dialect} {tables : List TableDecl}
    (h : validate dialect tables = .ok ()) :
    (tables.map (·.name)).Nodup ∧ ∀ table ∈ tables, Valid dialect table :=
  have h := validate_eq_ok_iff.1 h
  ⟨h.1, fun table ht => validateTable_eq_ok_iff.1 (h.2 table ht)⟩

end SchemaPlan
