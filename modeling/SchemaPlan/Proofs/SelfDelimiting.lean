import SchemaPlan.Operation
import SchemaPlan.Proofs.Literals
import SchemaPlan.Proofs.Quoting
import SchemaPlan.Spanner.Rows

/-!
# Quoted texts are self-delimiting

A quoted name starts and ends with a backtick, a literal with a quote, and a reader finds where each
of them ends, whatever characters it holds. A list of quoted texts, a statement and a query that are
made of them can be taken apart in one way only, so equal texts are about equal names.

* `SelfDelimiting`: a reader that finds the end of each written value.
* `SelfDelimiting.append_inj`, `SelfDelimiting.list_append_inj`: what is written, and a list of it
  with commas, is told from what stands behind it.
* `createStatement_inj`, `catalogQuery_injective`: an index statement and a catalog query name what
  they are about without ambiguity.
* `quoting_unambiguous`: all of this in both dialects.
-/
namespace SchemaPlan.Text

/-- Written values start with a mark, and a reader gives each of them and what stands behind it,
unless another mark follows. -/
structure SelfDelimiting {α : Type} (scan : List Char → Option (α × List Char)) (write : α → String)
    (mark : Char) : Prop where
  head : ∀ a, (write a).toList.head? = some mark
  reads : ∀ (a : α) (rest : List Char), rest.head? ≠ some mark →
    scan ((write a).toList ++ rest) = some (a, rest)

def writtenList {α : Type} (write : α → String) (values : List α) : String :=
  ", ".intercalate (values.map write)

/-- What stands behind the first value of a list. -/
def behindFirst {α : Type} (write : α → String) (rest : List Char) : List α → List Char
  | [] => rest
  | next :: more => ',' :: ' ' :: ((writtenList write (next :: more)).toList ++ rest)

theorem toList_writtenList_cons {α : Type} (write : α → String) (rest : List Char) (a : α)
    (values : List α) : (writtenList write (a :: values)).toList ++ rest =
      (write a).toList ++ behindFirst write rest values := by
  cases values with
  | nil => simp [writtenList, behindFirst]
  | cons next more =>
    simp [writtenList, behindFirst, String.toList_intercalate]

namespace SelfDelimiting

variable {α : Type} {scan : List Char → Option (α × List Char)} {write : α → String} {mark : Char}
  (h : SelfDelimiting scan write mark) {rest behind : List Char}
include h

theorem append_inj {a b : α} (hrest : rest.head? ≠ some mark) (hbehind : behind.head? ≠ some mark)
    (heq : (write a).toList ++ rest = (write b).toList ++ behind) : a = b ∧ rest = behind := by
  have hread := h.reads a rest hrest
  rw [heq, h.reads b behind hbehind] at hread
  exact ⟨(Prod.mk.inj (Option.some.inj hread)).1.symm, (Prod.mk.inj (Option.some.inj hread)).2.symm⟩

theorem head?_writtenList (a : α) (values : List α) (rest : List Char) :
    ((writtenList write (a :: values)).toList ++ rest).head? = some mark := by
  rw [toList_writtenList_cons, List.head?_append, h.head a]
  rfl

/-- A list of written values ends where neither a comma nor a mark follows. -/
theorem list_append_inj (hmark : mark ≠ ',') {as bs : List α}
    (hrest : rest.head? ≠ some mark ∧ rest.head? ≠ some ',')
    (hbehind : behind.head? ≠ some mark ∧ behind.head? ≠ some ',')
    (heq : (writtenList write as).toList ++ rest = (writtenList write bs).toList ++ behind) :
    as = bs ∧ rest = behind := by
  have hfirst {text : List Char} (htext : text.head? ≠ some mark) (values : List α) :
      (behindFirst write text values).head? ≠ some mark := by
    cases values with
    | nil => exact htext
    | cons => exact fun he => hmark (Option.some.inj he).symm
  induction as generalizing bs with
  | nil =>
    cases bs with
    | nil => exact ⟨rfl, heq⟩
    | cons b bs =>
      refine absurd ?_ hrest.1
      rw [← h.head?_writtenList b bs behind, ← heq]
      rfl
  | cons a as ih =>
    cases bs with
    | nil =>
      refine absurd ?_ hbehind.1
      rw [← h.head?_writtenList a as rest, heq]
      rfl
    | cons b bs =>
      rw [toList_writtenList_cons, toList_writtenList_cons] at heq
      obtain ⟨rfl, hmore⟩ := h.append_inj (hfirst hrest.1 as) (hfirst hbehind.1 bs) heq
      cases as with
      | nil =>
        cases bs with
        | nil => exact ⟨rfl, hmore⟩
        | cons => exact absurd (congrArg List.head? hmore) hrest.2
      | cons next more =>
        cases bs with
        | nil => exact absurd (congrArg List.head? hmore).symm hbehind.2
        | cons next' more' =>
          obtain ⟨hvalues, htext⟩ := ih (List.cons.inj (List.cons.inj hmore).2).2
          exact ⟨congrArg _ hvalues, htext⟩

end SelfDelimiting

/-! ## Names and literals -/

theorem selfDelimiting_quoteName : SelfDelimiting scanName quoteName '`' where
  head name := by rw [quoteName, String.toList_ofList]; rfl
  reads name _ hrest := scanName_quoteName hrest name

theorem selfDelimiting_quoteLiteral (style : QuoteStyle) :
    SelfDelimiting (scanLiteral style) (quoteLiteral style) '\'' where
  head := head?_quoteLiteral style
  reads text _ hrest := scanLiteral_quoteLiteral style hrest text

theorem quoteNames_injective : Function.Injective quoteNames := fun names others heq =>
  (selfDelimiting_quoteName.list_append_inj (by decide) (by simp) (by simp)
    (congrArg (fun text => text.toList ++ []) heq)).1

end SchemaPlan.Text

namespace SchemaPlan

open Text

/-! ## Statements and queries -/

theorem toList_createStatement (table : String) (index : Index) :
    (index.createStatement table).toList =
      "CREATE ".toList ++ ((if index.unique then "UNIQUE ".toList else []) ++ ("INDEX ".toList ++
        ((quoteName index.name).toList ++ (" ON ".toList ++ ((quoteName table).toList ++
          (" (".toList ++ ((quoteNames index.columns).toList ++ [')']))))))) := by
  have hunique : (if index.unique then "UNIQUE " else "").toList =
      if index.unique then "UNIQUE ".toList else [] := by split <;> rfl
  rw [Index.createStatement]
  simp only [String.toList_append, hunique, List.append_assoc]
  rfl

/-- The text of an index statement tells the table and the index. -/
theorem createStatement_inj {table table' : String} {index index' : Index}
    (heq : index.createStatement table = index'.createStatement table') :
    table = table' ∧ index = index' := by
  have hname := selfDelimiting_quoteName
  have hchars := congrArg String.toList heq
  rw [toList_createStatement, toList_createStatement] at hchars
  have hkind := List.append_cancel_left hchars
  have hunique : index.unique = index'.unique := by
    -- The kinds differ in the first letter behind `CREATE`.
    have hletter := congrArg List.head? hkind
    cases hfirst : index.unique <;> cases hsecond : index'.unique <;>
      simp [hfirst, hsecond] at hletter ⊢
  rw [hunique] at hkind
  obtain ⟨hindex, hon⟩ := hname.append_inj (by simp) (by simp)
    (List.append_cancel_left (List.append_cancel_left hkind))
  obtain ⟨htable, hcolumns⟩ := hname.append_inj (by simp) (by simp) (List.append_cancel_left hon)
  obtain ⟨hcolumns, -⟩ := hname.list_append_inj (by decide) (by simp) (by simp)
    (List.append_cancel_left hcolumns)
  refine ⟨htable, ?_⟩
  obtain ⟨name, columns, unique⟩ := index
  obtain ⟨name', columns', unique'⟩ := index'
  dsimp only at hunique hindex hcolumns
  rw [hunique, hindex, hcolumns]

/-- The text of a catalog query tells the tables that it asks for. -/
theorem catalogQuery_injective : Function.Injective Spanner.catalogQuery := by
  intro tables others heq
  have hliteral := selfDelimiting_quoteLiteral .backslashed
  have hchars := congrArg String.toList heq
  simp only [Spanner.catalogQuery, String.toList_append, List.append_assoc] at hchars
  have hfilter := List.append_cancel_left hchars
  cases tables with
  | nil =>
    cases others with
    | nil => rfl
    | cons other others => simp at hfilter
  | cons table tables =>
    cases others with
    | nil => simp at hfilter
    | cons other others =>
      simp only [List.isEmpty_cons, Bool.false_eq_true, if_false, String.toList_append,
        List.append_assoc] at hfilter
      exact (hliteral.list_append_inj (by decide) (by simp) (by simp)
        (List.append_cancel_left hfilter)).1

/-! ## Dialects -/

/-- How a dialect writes the quotes inside of a literal. -/
def Dialect.quoteStyle : Dialect → QuoteStyle
  | .mysql _ => .doubled
  | .spanner _ => .backslashed

/-- Names and literals are self-delimiting in both dialects. So the statement that creates an index
tells its table, name, columns and uniqueness, a list of names tells the names, and a catalog query
the tables that it asks for. -/
theorem quoting_unambiguous (dialect : Dialect) :
    SelfDelimiting scanName quoteName '`' ∧
      SelfDelimiting (scanLiteral dialect.quoteStyle) dialect.quoteLiteral '\'' ∧
      (∀ table table' index index',
        dialect.render (.createIndex table index) = dialect.render (.createIndex table' index') →
          table = table' ∧ index = index') ∧
      Function.Injective quoteNames ∧ Function.Injective Spanner.catalogQuery := by
  refine ⟨selfDelimiting_quoteName, ?_, fun table table' index index' heq => ?_,
    quoteNames_injective, catalogQuery_injective⟩
  · cases dialect with
    | mysql => exact selfDelimiting_quoteLiteral .doubled
    | spanner => exact selfDelimiting_quoteLiteral .backslashed
  · have htexts : [index.createStatement table] = [index'.createStatement table'] :=
      Except.ok.inj heq
    exact createStatement_inj (List.cons.inj htexts).1

end SchemaPlan
