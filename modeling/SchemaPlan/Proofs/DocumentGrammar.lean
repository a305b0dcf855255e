import SchemaPlan.Proofs.JsonShape

/-!
# The grammar of documents

Which JSON values are documents, and which document a value states. The readers of the declarations
follow their shapes, from the inside out: an index, a field with its index, a table with its
fields, and the document with its tables.

* `Document.shape`: the values that are documents.
* `Document.StatedBy`: the document a value states, key by key.
* `follows_document`: the reader of documents follows the shape.
* `document_accepted_iff`: a text is read as a document exactly if its value has the shape.
-/
namespace SchemaPlan

open Json

@[mk_iff]
structure IndexDecl.GivenBy (members : List (String × Json)) (index : IndexDecl) : Prop where
  name : GivesOption members "name" IsString index.name
  unique : GivesFlag members "unique" index.unique

def IndexDecl.StatedBy : Json → IndexDecl → Prop :=
  RecordOf IndexDecl.keys IndexDecl.GivenBy

@[mk_iff]
structure FieldDecl.GivenBy (members : List (String × Json)) (field : FieldDecl) : Prop where
  name : Gives members "name" IsString field.name
  type : Gives members "type" IsString field.type
  nullable : GivesFlag members "nullable" field.nullable
  column : GivesOption members "column" IsString field.column
  comment : GivesOption members "comment" IsString field.comment
  unique : GivesFlag members "unique" field.unique
  uniqueIndex : GivesOption members "unique_index" IsString field.uniqueIndex
  primaryKey : GivesFlag members "primary_key" field.primaryKey
  autoIncrement : GivesFlag members "auto_increment" field.autoIncrement
  defaultValue : GivesOption members "default" IsString field.defaultValue
  ddlType : GivesOption members "db_type" IsString field.ddlType
  size : GivesOption members "size" IsWord field.size
  precision : GivesOption members "precision" IsWord field.precision
  scale : GivesOption members "scale" IsWord field.scale
  extra : GivesOption members "extra" IsString field.extra
  index : GivesOption members "index" IndexDecl.StatedBy field.index

def FieldDecl.StatedBy : Json → FieldDecl → Prop :=
  RecordOf FieldDecl.keys FieldDecl.GivenBy

@[mk_iff]
structure TableDecl.GivenBy (members : List (String × Json)) (table : TableDecl) : Prop where
  name : Gives members "name" IsString table.name
  fields : Gives members "fields" (ListOf FieldDecl.StatedBy) table.fields
  option : GivesOption members "option" IsString table.option

def TableDecl.StatedBy : Json → TableDecl → Prop :=
  RecordOf TableDecl.keys TableDecl.GivenBy

/-- The members of an object give a document. -/
@[mk_iff]
structure Document.GivenBy (members : List (String × Json)) (document : Document) : Prop where
  tables : Gives members "tables" (ListOf TableDecl.StatedBy) document.tables

def Document.StatedBy : Json → Document → Prop :=
  RecordOf Document.keys Document.GivenBy

def IndexDecl.shape : Shape :=
  .record [] [("name", .orNull .text), ("unique", .flag)]

def FieldDecl.shape : Shape :=
  .record [("name", .text), ("type", .text)]
    [("nullable", .flag), ("column", .orNull .text), ("comment", .orNull .text), ("unique", .flag),
      ("unique_index", .orNull .text), ("primary_key", .flag), ("auto_increment", .flag),
      ("default", .orNull .text), ("db_type", .orNull .text), ("size", .orNull .word),
      ("precision", .orNull .word), ("scale", .orNull .word), ("extra", .orNull .text),
      ("index", .orNull IndexDecl.shape)]

def TableDecl.shape : Shape :=
  .record [("name", .text), ("fields", .list FieldDecl.shape)] [("option", .orNull .text)]

/-- The values that are documents. -/
def Document.shape : Shape :=
  .record [("tables", .list TableDecl.shape)] []

/-! ## Declarations -/

section
variable {members others : List (String × Json)}

theorem IndexDecl.exists_givenBy_iff : (∃ index, IndexDecl.GivenBy members index) ↔
    (∃ name, GivesOption members "name" IsString name) ∧
    ∃ unique, GivesFlag members "unique" unique := by
  constructor
  · rintro ⟨_, h⟩
    exact ⟨⟨_, h.name⟩, ⟨_, h.unique⟩⟩
  · rintro ⟨⟨_, hname⟩, ⟨_, hunique⟩⟩
    exact ⟨⟨_, _⟩, ⟨hname, hunique⟩⟩

theorem IndexDecl.GivenBy.rearranged {index : IndexDecl}
    (hothers : MembersRearranged members others) (h : IndexDecl.GivenBy members index) :
    IndexDecl.GivenBy others index where
  name := h.name.rearranged follows_text hothers
  unique := h.unique.rearranged hothers

theorem follows_index : Follows IndexDecl.shape IndexDecl.ofJson IndexDecl.StatedBy := by
  refine follows_record rfl (fun {members index} hkeys hvalues => ?_) (fun {members} hkeys => ?_)
    IndexDecl.GivenBy.rearranged
  · simp only [List.nil_append, List.forall_mem_cons, List.not_mem_nil, IsEmpty.forall_iff,
      implies_true, and_true] at hvalues
    obtain ⟨hname, -⟩ := hvalues
    refine IndexDecl.ofJson_object_iff.trans ((and_iff_right hkeys).trans ?_)
    rw [IndexDecl.givenBy_iff, optional_iff_givesOption follows_text nofun hkeys.once hname,
      flag_eq_ok_iff hkeys.once]
  · simp only [List.forall_mem_cons, List.not_mem_nil, IsEmpty.forall_iff, implies_true, and_true,
      true_and, IndexDecl.exists_givenBy_iff, exists_givesOption_iff follows_text hkeys.once,
      exists_givesFlag_iff hkeys.once]

theorem FieldDecl.exists_givenBy_iff : (∃ field, FieldDecl.GivenBy members field) ↔
    ((∃ name, Gives members "name" IsString name) ∧ ∃ type, Gives members "type" IsString type) ∧
    (∃ nullable, GivesFlag members "nullable" nullable) ∧
    (∃ column, GivesOption members "column" IsString column) ∧
    (∃ comment, GivesOption members "comment" IsString comment) ∧
    (∃ unique, GivesFlag members "unique" unique) ∧
    (∃ uniqueIndex, GivesOption members "unique_index" IsString uniqueIndex) ∧
    (∃ primaryKey, GivesFlag members "primary_key" primaryKey) ∧
    (∃ autoIncrement, GivesFlag members "auto_increment" autoIncrement) ∧
    (∃ defaultValue, GivesOption members "default" IsString defaultValue) ∧
    (∃ ddlType, GivesOption members "db_type" IsString ddlType) ∧
    (∃ size, GivesOption members "size" IsWord size) ∧
    (∃ precision, GivesOption members "precision" IsWord precision) ∧
    (∃ scale, GivesOption members "scale" IsWord scale) ∧
    (∃ extra, GivesOption members "extra" IsString extra) ∧
    ∃ index, GivesOption members "index" IndexDecl.StatedBy index := by
  constructor
  · rintro ⟨_, h⟩
    exact ⟨⟨⟨_, h.name⟩, ⟨_, h.type⟩⟩, ⟨_, h.nullable⟩, ⟨_, h.column⟩, ⟨_, h.comment⟩,
      ⟨_, h.unique⟩, ⟨_, h.uniqueIndex⟩, ⟨_, h.primaryKey⟩, ⟨_, h.autoIncrement⟩,
      ⟨_, h.defaultValue⟩, ⟨_, h.ddlType⟩, ⟨_, h.size⟩, ⟨_, h.precision⟩, ⟨_, h.scale⟩,
      ⟨_, h.extra⟩, ⟨_, h.index⟩⟩
  · rintro ⟨⟨⟨_, hname⟩, ⟨_, htype⟩⟩, ⟨_, hnullable⟩, ⟨_, hcolumn⟩, ⟨_, hcomment⟩,
      ⟨_, hunique⟩, ⟨_, huniqueIndex⟩, ⟨_, hprimaryKey⟩, ⟨_, hautoIncrement⟩, ⟨_, hdefault⟩,
      ⟨_, hddlType⟩, ⟨_, hsize⟩, ⟨_, hprecision⟩, ⟨_, hscale⟩, ⟨_, hextra⟩, ⟨_, hindex⟩⟩
    exact ⟨⟨_, _, _, _, _, _, _, _, _, _, _, _, _, _, _, _⟩,
      ⟨hname, htype, hnullable, hcolumn, hcomment, hunique, huniqueIndex, hprimaryKey,
        hautoIncrement, hdefault, hddlType, hsize, hprecision, hscale, hextra, hindex⟩⟩

theorem FieldDecl.GivenBy.rearranged {field : FieldDecl}
    (hothers : MembersRearranged members others) (h : FieldDecl.GivenBy members field) :
    FieldDecl.GivenBy others field where
  name := h.name.rearranged follows_text hothers
  type := h.type.rearranged follows_text hothers
  nullable := h.nullable.rearranged hothers
  column := h.column.rearranged follows_text hothers
  comment := h.comment.rearranged follows_text hothers
  unique := h.unique.rearranged hothers
  uniqueIndex := h.uniqueIndex.rearranged follows_text hothers
  primaryKey := h.primaryKey.rearranged hothers
  autoIncrement := h.autoIncrement.rearranged hothers
  defaultValue := h.defaultValue.rearranged follows_text hothers
  ddlType := h.ddlType.rearranged follows_text hothers
  size := h.size.rearranged follows_word hothers
  precision := h.precision.rearranged follows_word hothers
  scale := h.scale.rearranged follows_word hothers
  extra := h.extra.rearranged follows_text hothers
  index := h.index.rearranged follows_index hothers

theorem follows_field : Follows FieldDecl.shape FieldDecl.ofJson FieldDecl.StatedBy := by
  refine follows_record rfl (fun {members field} hkeys hvalues => ?_) (fun {members} hkeys => ?_)
    FieldDecl.GivenBy.rearranged
  · have hmembers := hkeys.once
    simp only [List.cons_append, List.nil_append, List.forall_mem_cons, List.not_mem_nil,
      IsEmpty.forall_iff, implies_true, and_true] at hvalues
    obtain ⟨hname, htype, -, hcolumn, hcomment, -, huniqueIndex, -, -, hdefault, hddlType, hsize,
      hprecision, hscale, hextra, hindex⟩ := hvalues
    refine FieldDecl.ofJson_object_iff.trans ((and_iff_right hkeys).trans ?_)
    rw [FieldDecl.givenBy_iff, required_iff_gives follows_text hmembers hname,
      required_iff_gives follows_text hmembers htype,
      optional_iff_givesOption follows_text nofun hmembers hcolumn,
      optional_iff_givesOption follows_text nofun hmembers hcomment,
      optional_iff_givesOption follows_text nofun hmembers huniqueIndex,
      optional_iff_givesOption follows_text nofun hmembers hdefault,
      optional_iff_givesOption follows_text nofun hmembers hddlType,
      optional_iff_givesOption follows_word nofun hmembers hsize,
      optional_iff_givesOption follows_word nofun hmembers hprecision,
      optional_iff_givesOption follows_word nofun hmembers hscale,
      optional_iff_givesOption follows_text nofun hmembers hextra,
      optional_iff_givesOption follows_index nofun hmembers hindex]
    simp only [flag_eq_ok_iff hmembers]
  · simp only [List.forall_mem_cons, List.not_mem_nil, IsEmpty.forall_iff, implies_true, and_true,
      FieldDecl.exists_givenBy_iff, exists_gives_iff follows_text hkeys.once,
      exists_givesOption_iff follows_text hkeys.once,
      exists_givesOption_iff follows_word hkeys.once,
      exists_givesOption_iff follows_index hkeys.once, exists_givesFlag_iff hkeys.once]

theorem TableDecl.exists_givenBy_iff : (∃ table, TableDecl.GivenBy members table) ↔
    ((∃ name, Gives members "name" IsString name) ∧
      ∃ fields, Gives members "fields" (ListOf FieldDecl.StatedBy) fields) ∧
    ∃ option, GivesOption members "option" IsString option := by
  constructor
  · rintro ⟨_, h⟩
    exact ⟨⟨⟨_, h.name⟩, ⟨_, h.fields⟩⟩, ⟨_, h.option⟩⟩
  · rintro ⟨⟨⟨_, hname⟩, ⟨_, hfields⟩⟩, ⟨_, hoption⟩⟩
    exact ⟨⟨_, _, _⟩, ⟨hname, hfields, hoption⟩⟩

theorem TableDecl.GivenBy.rearranged {table : TableDecl}
    (hothers : MembersRearranged members others) (h : TableDecl.GivenBy members table) :
    TableDecl.GivenBy others table where
  name := h.name.rearranged follows_text hothers
  fields := h.fields.rearranged (follows_list follows_field) hothers
  option := h.option.rearranged follows_text hothers

theorem follows_table : Follows TableDecl.shape TableDecl.ofJson TableDecl.StatedBy := by
  refine follows_record rfl (fun {members table} hkeys hvalues => ?_) (fun {members} hkeys => ?_)
    TableDecl.GivenBy.rearranged
  · simp only [List.cons_append, List.nil_append, List.forall_mem_cons, List.not_mem_nil,
      IsEmpty.forall_iff, implies_true, and_true] at hvalues
    obtain ⟨hname, hfields, hoption⟩ := hvalues
    refine TableDecl.ofJson_object_iff.trans ((and_iff_right hkeys).trans ?_)
    rw [TableDecl.givenBy_iff, required_iff_gives follows_text hkeys.once hname,
      required_iff_gives (follows_list follows_field) hkeys.once hfields,
      optional_iff_givesOption follows_text nofun hkeys.once hoption]
  · simp only [List.forall_mem_cons, List.not_mem_nil, IsEmpty.forall_iff, implies_true, and_true,
      TableDecl.exists_givenBy_iff, exists_gives_iff follows_text hkeys.once,
      exists_gives_iff (follows_list follows_field) hkeys.once,
      exists_givesOption_iff follows_text hkeys.once]

theorem Document.exists_givenBy_iff : (∃ document, Document.GivenBy members document) ↔
    ∃ tables, Gives members "tables" (ListOf TableDecl.StatedBy) tables := by
  constructor
  · rintro ⟨_, h⟩
    exact ⟨_, h.tables⟩
  · rintro ⟨_, htables⟩
    exact ⟨⟨_⟩, ⟨htables⟩⟩

theorem Document.GivenBy.rearranged {document : Document}
    (hothers : MembersRearranged members others) (h : Document.GivenBy members document) :
    Document.GivenBy others document where
  tables := h.tables.rearranged (follows_list follows_table) hothers

theorem follows_document : Follows Document.shape Document.ofJson Document.StatedBy := by
  refine follows_record rfl (fun {members document} hkeys hvalues => ?_)
    (fun {members} hkeys => ?_) Document.GivenBy.rearranged
  · simp only [List.append_nil, List.forall_mem_singleton] at hvalues
    refine Document.ofJson_object_iff.trans ((and_iff_right hkeys).trans ?_)
    rw [Document.givenBy_iff,
      required_iff_gives (follows_list follows_table) hkeys.once hvalues]
  · simp only [List.forall_mem_singleton, List.not_mem_nil, IsEmpty.forall_iff, implies_true,
      and_true, Document.exists_givenBy_iff,
      exists_gives_iff (follows_list follows_table) hkeys.once]

end

/-! ## Texts of documents -/

theorem read_eq_ok_iff {value : Json} {text : String} (htext : IsText value text)
    (hvalue : ¬ Document.shape.Positional value) {document : Document} :
    Document.read text = .ok document ↔ Document.StatedBy value document := by
  rw [Document.read, read_of_isText htext]
  constructor
  · intro h
    split at h
    · exact (follows_document.reads hvalue).1 h
    · cases h
  · intro h
    have hreadable : (numbers value).all Number.isReadable = true :=
      List.all_eq_true.2 (isReadable_of_accepts (follows_document.accepts.1 ⟨document, h⟩))
    rw [if_pos hreadable]
    exact (follows_document.reads hvalue).2 h

/-- A text of a value without lists for records is read as a document exactly if the value has the
shape of documents. The document is then the one the value states, key by key, and it is read from
the texts of the value with the members of its objects in any other order too. -/
theorem document_accepted_iff {value : Json} {text : String} (htext : IsText value text)
    (hvalue : ¬ Document.shape.Positional value) :
    ((∃ document, Document.read text = .ok document) ↔ Document.shape.Accepts value) ∧
      (∀ document, Document.read text = .ok document → Document.StatedBy value document) ∧
      ∀ other otherText, Rearranged value other → IsText other otherText →
        ∀ document, Document.read otherText = .ok document ↔ Document.read text = .ok document := by
  refine ⟨?_, fun document => (read_eq_ok_iff htext hvalue).1, ?_⟩
  · simp only [read_eq_ok_iff htext hvalue]
    exact follows_document.accepts
  · intro other otherText hother hotherText document
    have hpositional : ¬ Document.shape.Positional other :=
      fun h => hvalue (h.rearranged hother.symm)
    rw [read_eq_ok_iff htext hvalue, read_eq_ok_iff hotherText hpositional]
    exact ⟨follows_document.rearranged hother.symm, follows_document.rearranged hother⟩

/-- A document with the members of its table. -/
def userJson (members : List (String × Json)) : Json :=
  .object [("tables", .list [.object members])]

theorem document_accepted_user :
    let name := ("name", Json.text "user")
    let fields := ("fields", Json.list [.object [("type", .text "String"), ("size", natural 7),
      ("name", .text "id"), ("column", .null)]])
    let document : Document :=
      ⟨[{ name := "user", fields := [{ name := "id", type := "String", size := some 7 }] }]⟩
    IsText (userJson [name, fields]) (compact (userJson [name, fields])) ∧
      ¬ Document.shape.Positional (userJson [name, fields]) ∧
      Document.read (compact (userJson [name, fields])) = .ok document ∧
      Document.StatedBy (userJson [name, fields]) document ∧
      Document.read (compact (userJson [fields, name])) = .ok document := by
  intro name fields document
  have htext {members : List (String × Json)} (hmembers : members.Perm [name, fields]) :
      IsText (userJson members) (compact (userJson members)) := by
    refine isText_compact fun n hn => ?_
    simp only [userJson, numbers, memberNumbers, itemNumbers, List.append_nil, mem_memberNumbers,
      hmembers.mem_iff] at hn
    obtain rfl : n = .ofNat 7 := by
      simpa [name, fields, numbers, itemNumbers, memberNumbers, natural] using hn
    exact spells_ofNat 7
  have hfield : FieldDecl.shape.Accepts (.object [("type", .text "String"), ("size", natural 7),
      ("name", .text "id"), ("column", .null)]) :=
    .record ⟨by decide, by decide⟩ (by decide) (by
      simpa using And.intro .text ⟨.text, .null, .value (.word rfl (by decide))⟩)
  have htable : TableDecl.shape.Accepts (.object [name, fields]) :=
    .record ⟨by decide, by decide⟩ (by decide) (by
      simpa [name, fields] using And.intro .text (.list (by simpa using hfield)))
  have haccepts : Document.shape.Accepts (userJson [name, fields]) :=
    .record ⟨by decide, by decide⟩ (by decide) (by
      simpa using Shape.Accepts.list (by simpa using htable))
  have hobjects := not_positional_of_accepts haccepts
  have h := document_accepted_iff (htext (.refl _)) hobjects
  have hread : Document.read (compact (userJson [name, fields])) = .ok document := by
    decide +kernel
  have hother : Rearranged (userJson [name, fields]) (userJson [fields, name]) :=
    @Rearranged.member [] [] "tables" _ _ (@Rearranged.item [] [] _ _ (.members (.swap ..)))
  exact ⟨htext (.refl _), hobjects, hread, h.2.1 document hread,
    (h.2.2 _ _ hother (htext (.swap ..)) document).2 hread⟩

example : Document.read "\x7b\"tables\": [], \"table\": []\x7d" = .error .mismatch := by
  decide +kernel

end SchemaPlan
