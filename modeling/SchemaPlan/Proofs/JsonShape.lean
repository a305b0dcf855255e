import SchemaPlan.Proofs.JsonReading
import SchemaPlan.Proofs.JsonRecord

/-!
# Shapes of JSON values

Which JSON values a reader takes, written down as a shape. A reader follows a shape when it takes
exactly the values of the shape, gives what they stand for, and does so in whatever order the
members of objects stand.

* `Shape.Accepts`: the values of a shape; `Shape.Positional`: the values with lists for records.
* `Rearranged`: the members of objects in another order.
* `IsString`, `IsWord`, `ListOf`, `RecordOf`: what a value stands for.
* `Follows`: what a shape says of a reader; `follows_text`, `follows_word`, `follows_list`,
  `follows_record` are the readers for each kind of shape.
-/
namespace SchemaPlan.Json

open Decimal

/-! ## Shapes -/

/-- What a value has to be: a string, a flag, a whole number of 64 bits, a value or null, a list
of values, or an object with keys that have to be there and keys that may be missing. -/
inductive Shape where
  | text
  | flag
  | word
  | orNull (shape : Shape)
  | list (shape : Shape)
  | record (needed free : List (String × Shape))

/-- The values of a shape. -/
inductive Shape.Accepts : Shape → Json → Prop
  | text {s : String} : Accepts .text (.text s)
  | flag {b : Bool} : Accepts .flag (.bool b)
  | word {number : Number} {n : Nat} (h : number.natural? = some n) (hn : n < UInt64.size) :
    Accepts .word (.number number)
  | null {shape : Shape} : Accepts (.orNull shape) .null
  | value {shape : Shape} {value : Json} (h : Accepts shape value) :
    Accepts (.orNull shape) value
  | list {shape : Shape} {items : List Json} (h : ∀ item ∈ items, Accepts shape item) :
    Accepts (.list shape) (.list items)
  | record {needed free : List (String × Shape)} {members : List (String × Json)}
    (keys : WellKeyed ((needed ++ free).map Prod.fst) members)
    (present : ∀ entry ∈ needed, entry.1 ∈ members.map Prod.fst)
    (values : ∀ entry ∈ needed ++ free, ∀ value, (entry.1, value) ∈ members →
      Accepts entry.2 value) :
    Accepts (.record needed free) (.object members)

/-- Somewhere in a value a list stands for a record. -/
inductive Shape.Positional : Shape → Json → Prop
  | here {needed free : List (String × Shape)} {items : List Json} :
    Positional (.record needed free) (.list items)
  | orNull {shape : Shape} {value : Json} (h : Positional shape value) :
    Positional (.orNull shape) value
  | item {shape : Shape} {items : List Json} {item : Json} (hitem : item ∈ items)
    (h : Positional shape item) : Positional (.list shape) (.list items)
  | member {needed free : List (String × Shape)} {members : List (String × Json)}
    {entry : String × Shape} {value : Json} (hentry : entry ∈ needed ++ free)
    (hmember : (entry.1, value) ∈ members) (h : Positional entry.2 value) :
    Positional (.record needed free) (.object members)

theorem Shape.not_positional_null {shape : Shape} : ¬ shape.Positional .null := by
  intro h
  generalize hvalue : Json.null = value at h
  induction h with
  | here => cases hvalue
  | orNull _ ih => exact ih hvalue
  | item => cases hvalue
  | member => cases hvalue

theorem not_positional_of_accepts {shape : Shape} {value : Json} (h : shape.Accepts value) :
    ¬ shape.Positional value := by
  induction h with
  | text => nofun
  | flag => nofun
  | word => nofun
  | null => exact Shape.not_positional_null
  | value _ ih => exact fun | .orNull h => ih h
  | list _ ih => exact fun | .item hitem h => ih _ hitem h
  | record _ _ _ ih => exact fun | .member hentry hmember h => ih _ hentry _ hmember h

theorem isReadable_of_accepts {shape : Shape} {value : Json} (h : shape.Accepts value) :
    ∀ n ∈ numbers value, n.isReadable = true := by
  induction h with
  | text => simp [numbers]
  | flag => simp [numbers]
  | word h hn => simpa [numbers] using isReadable_of_natural? h hn
  | null => simp [numbers]
  | value _ ih => exact ih
  | list _ ih =>
    intro n hn
    obtain ⟨item, hitem, hn⟩ := mem_itemNumbers.1 hn
    exact ih item hitem n hn
  | record keys _ _ ih =>
    intro n hn
    obtain ⟨⟨key, value⟩, hmember, hn⟩ := mem_memberNumbers.1 hn
    obtain ⟨entry, hentry, rfl⟩ := List.mem_map.1 (keys.declared key (List.mem_map_of_mem hmember))
    exact ih entry hentry value hmember n hn

/-! ## The order of members -/

/-- A value with the members of its objects in another order: the members of one object, anywhere
in the value, are permuted, and this any number of times. -/
inductive Rearranged : Json → Json → Prop
  | refl (value : Json) : Rearranged value value
  | trans {value between other : Json} (h : Rearranged value between)
    (h' : Rearranged between other) : Rearranged value other
  | members {members others : List (String × Json)} (h : members.Perm others) :
    Rearranged (.object members) (.object others)
  | member {before after : List (String × Json)} {key : String} {value other : Json}
    (h : Rearranged value other) :
    Rearranged (.object (before ++ (key, value) :: after))
      (.object (before ++ (key, other) :: after))
  | item {before after : List Json} {value other : Json} (h : Rearranged value other) :
    Rearranged (.list (before ++ value :: after)) (.list (before ++ other :: after))

theorem Rearranged.symm {value other : Json} (h : Rearranged value other) :
    Rearranged other value := by
  induction h with
  | refl value => exact .refl value
  | trans _ _ ih ih' => exact .trans ih' ih
  | members h => exact .members h.symm
  | member _ ih => exact .member ih
  | item _ ih => exact .item ih

/-- Members with the same keys, whose values differ in the order of members at most. -/
structure MembersRearranged (members others : List (String × Json)) : Prop where
  keys : (members.map Prod.fst).Perm (others.map Prod.fst)
  values : ∀ {key : String} {value : Json}, (key, value) ∈ members →
    ∃ other, (key, other) ∈ others ∧ Rearranged value other

theorem Rearranged.of_object {value other : Json} (h : Rearranged value other)
    {members : List (String × Json)} (hvalue : value = .object members) :
    ∃ others, other = .object others ∧ MembersRearranged members others := by
  -- The steps meet in the middle at some other members, so these vary in the induction.
  induction h generalizing members with
  | refl value =>
    refine ⟨members, hvalue, List.Perm.refl _, fun {_ found} hmember => ?_⟩
    exact ⟨found, hmember, .refl found⟩
  | trans _ _ ih ih' =>
    obtain ⟨between, hbetween, hkeys, hvalues⟩ := ih hvalue
    obtain ⟨others, hother, hkeys', hvalues'⟩ := ih' hbetween
    refine ⟨others, hother, hkeys.trans hkeys', fun hmember => ?_⟩
    obtain ⟨value, hvalue, h⟩ := hvalues hmember
    obtain ⟨other, hother, h'⟩ := hvalues' hvalue
    exact ⟨other, hother, h.trans h'⟩
  | members h =>
    cases hvalue
    refine ⟨_, rfl, h.map _, fun {_ found} hmember => ?_⟩
    exact ⟨found, h.subset hmember, .refl found⟩
  | @member before after key value other h _ =>
    cases hvalue
    refine ⟨_, rfl, by simp, fun {wanted found} hmember => ?_⟩
    simp only [List.mem_append, List.mem_cons, Prod.mk.injEq] at hmember ⊢
    rcases hmember with hmember | ⟨rfl, rfl⟩ | hmember
    · exact ⟨found, .inl hmember, .refl found⟩
    · exact ⟨other, .inr (.inl ⟨rfl, rfl⟩), h⟩
    · exact ⟨found, .inr (.inr hmember), .refl found⟩
  | item => cases hvalue

theorem Rearranged.of_list {value other : Json} (h : Rearranged value other) {items : List Json}
    (hvalue : value = .list items) :
    ∃ others, other = .list others ∧ List.Forall₂ Rearranged items others := by
  have hrefl (items : List Json) : List.Forall₂ Rearranged items items :=
    List.forall₂_same.2 fun item _ => .refl item
  induction h generalizing items with
  | refl value => exact ⟨items, hvalue, hrefl items⟩
  | trans _ _ ih ih' =>
    obtain ⟨between, hbetween, h⟩ := ih hvalue
    obtain ⟨others, hother, h'⟩ := ih' hbetween
    exact ⟨others, hother, forall₂_trans (fun hhead hnext => hhead.trans hnext) h h'⟩
  | members => cases hvalue
  | member => cases hvalue
  | item h _ =>
    cases hvalue
    exact ⟨_, rfl, List.rel_append (hrefl _) (.cons h (hrefl _))⟩

/-- A value that is neither a list nor an object has no members. -/
theorem Rearranged.of_scalar {value other : Json} (h : Rearranged value other)
    (hlist : ∀ items, value ≠ .list items) (hobject : ∀ members, value ≠ .object members) :
    other = value := by
  induction h with
  | refl value => rfl
  | trans _ _ ih ih' =>
    obtain rfl := ih hlist hobject
    exact ih' hlist hobject
  | members => exact absurd rfl (hobject _)
  | member => exact absurd rfl (hobject _)
  | item => exact absurd rfl (hlist _)

theorem Shape.Positional.rearranged {shape : Shape} {value other : Json}
    (h : shape.Positional value) (hother : Rearranged value other) : shape.Positional other := by
  induction h generalizing other with
  | here =>
    obtain ⟨others, rfl, -⟩ := hother.of_list rfl
    exact .here
  | orNull _ ih => exact .orNull (ih hother)
  | item hitem _ ih =>
    obtain ⟨others, rfl, hitems⟩ := hother.of_list rfl
    obtain ⟨item, hitem, h⟩ := exists_right_of_mem hitems hitem
    exact .item hitem (ih h)
  | member hentry hmember _ ih =>
    obtain ⟨others, rfl, hmembers⟩ := hother.of_object rfl
    obtain ⟨value, hvalue, h⟩ := hmembers.values hmember
    exact .member hentry hvalue (ih h)

/-! ## What a value stands for -/

inductive IsString : Json → String → Prop
  | text {s : String} : IsString (.text s) s

/-- A value is a word, spelled without sign, fraction and exponent. -/
inductive IsWord : Json → UInt64 → Prop
  | number {number : Number} {word : UInt64} (h : number.natural? = some word.toNat) :
    IsWord (.number number) word

inductive ListOf {α : Type} (means : Json → α → Prop) : Json → List α → Prop
  | items {items : List Json} {l : List α} (h : List.Forall₂ means items l) :
    ListOf means (.list items) l

/-- A value is an object with some of the keys, each of them once, and its members give a record. -/
inductive RecordOf {α : Type} (keys : List String) (given : List (String × Json) → α → Prop) :
    Json → α → Prop
  | members {members : List (String × Json)} {a : α} (hkeys : WellKeyed keys members)
    (hgiven : given members a) : RecordOf keys given (.object members) a

/-! ## Readers that follow a shape -/

/-- A reader takes exactly the values of a shape, and gives what they stand for, in whatever order
the members of objects stand. Of values with lists for records nothing is said. -/
structure Follows {α : Type} (shape : Shape) (read : Json → Except Fault α)
    (means : Json → α → Prop) : Prop where
  reads : ∀ {value a}, ¬ shape.Positional value → (read value = .ok a ↔ means value a)
  accepts : ∀ {value}, (∃ a, means value a) ↔ shape.Accepts value
  rearranged : ∀ {value other a}, Rearranged value other → means value a → means other a

theorem follows_text : Follows .text readText IsString where
  reads {value s} _ := by
    constructor
    · intro h
      unfold readText at h
      split at h
      · cases h
        exact .text
      · cases h
    · rintro ⟨⟩
      rfl
  accepts {value} := by
    constructor
    · rintro ⟨s, ⟨⟩⟩
      exact .text
    · rintro ⟨⟩
      exact ⟨_, .text⟩
  rearranged h hmeans := by
    cases hmeans
    rw [h.of_scalar (by simp) (by simp)]
    exact .text

theorem follows_word : Follows .word readWord IsWord where
  reads {value word} _ := by
    constructor
    · intro h
      unfold readWord at h
      split at h
      · split at h
        · next n hn =>
          split at h
          · next hlt =>
            cases h
            exact .number (by rw [hn, UInt64.toNat_ofNat_of_lt' hlt])
          · cases h
        · cases h
      · cases h
    · rintro ⟨hn⟩
      exact readWord_number hn
  accepts {value} := by
    constructor
    · rintro ⟨word, h⟩
      cases h with
      | number h => exact .word h word.toNat_lt
    · intro h
      cases h with
      | @word number n h hn =>
        exact ⟨UInt64.ofNat n, .number (by rw [h, UInt64.toNat_ofNat_of_lt' hn])⟩
  rearranged h hmeans := by
    cases hmeans with
    | number hword =>
      rw [h.of_scalar (by simp) (by simp)]
      exact .number hword

theorem follows_list {α : Type} {shape : Shape} {read : Json → Except Fault α}
    {means : Json → α → Prop} (h : Follows shape read means) :
    Follows (.list shape) (readList read) (ListOf means) where
  reads {value l} hvalue := by
    cases value with
    | list items =>
      have hitem : ∀ item ∈ items, ∀ a, read item = .ok a ↔ means item a :=
        fun item hitem _ => h.reads fun hpositional => hvalue (.item hitem hpositional)
      rw [readList, mapM_eq_ok_iff, forall₂_iff_of_mem hitem]
      exact ⟨.items, fun | .items hitems => hitems⟩
    | _ => exact ⟨nofun, nofun⟩
  accepts {value} := by
    constructor
    · rintro ⟨_, ⟨hitems⟩⟩
      exact .list fun item hitem => h.accepts.1 (exists_forall₂_iff.1 ⟨_, hitems⟩ item hitem)
    · intro hvalue
      cases hvalue with
      | list hitems =>
        obtain ⟨l, hl⟩ := exists_forall₂_iff.2 fun item hitem => h.accepts.2 (hitems item hitem)
        exact ⟨l, .items hl⟩
  rearranged hother hmeans := by
    cases hmeans with
    | items hitems =>
      obtain ⟨others, rfl, hothers⟩ := hother.of_list rfl
      refine .items (forall₂_trans (fun hitem hmeans => ?_) hothers.flip hitems)
      exact h.rearranged hitem hmeans

/-! ## Keys -/

section
variable {α : Type} {members others : List (String × Json)} {key : String} {shape : Shape}
variable {read : Json → Except Fault α} {means : Json → α → Prop}

theorem required_iff_gives (h : Follows shape read means)
    (hmembers : (members.map Prod.fst).Nodup)
    (hvalues : ∀ value, (key, value) ∈ members → ¬ shape.Positional value) {a : α} :
    required members key read = .ok a ↔ Gives members key means a := by
  rw [required_eq_ok_iff hmembers]
  constructor
  · rintro ⟨hvalue, hread⟩
    exact .value hvalue ((h.reads (hvalues _ hvalue)).1 hread)
  · rintro ⟨hvalue, hmeans⟩
    exact .value hvalue ((h.reads (hvalues _ hvalue)).2 hmeans)

theorem optional_iff_givesOption (h : Follows shape read means) (hnull : ¬ shape.Accepts .null)
    (hmembers : (members.map Prod.fst).Nodup)
    (hvalues : ∀ value, (key, value) ∈ members → ¬ (Shape.orNull shape).Positional value)
    {o : Option α} : optional members key read = .ok o ↔ GivesOption members key means o := by
  -- Null stands for no value only because no value is read from it.
  have hread : ∀ a, read .null ≠ .ok a := fun a hread =>
    hnull (h.accepts.1 ⟨a, (h.reads Shape.not_positional_null).1 hread⟩)
  rw [optional_eq_ok_iff hmembers hread]
  constructor
  · rintro (hmissing | hvalue | ⟨hvalue, hread⟩)
    · exact .missing hmissing
    · exact .null hvalue
    · exact .value hvalue ((h.reads (mt .orNull (hvalues _ hvalue))).1 hread)
  · rintro (hmissing | hvalue | ⟨hvalue, hmeans⟩)
    · exact .missing hmissing
    · exact .null hvalue
    · exact .value hvalue ((h.reads (mt .orNull (hvalues _ hvalue))).2 hmeans)

theorem eq_of_mem_of_mem (hmembers : (members.map Prod.fst).Nodup) {value other : Json}
    (hvalue : (key, value) ∈ members) (hother : (key, other) ∈ members) : other = value := by
  rw [← lookup_eq_some_iff_mem hmembers] at hvalue hother
  exact Option.some.inj (hother.symm.trans hvalue)

theorem exists_value_of_mem (hkey : key ∈ members.map Prod.fst) :
    ∃ value, (key, value) ∈ members := by
  obtain ⟨⟨_, value⟩, hmember, rfl⟩ := List.mem_map.1 hkey
  exact ⟨value, hmember⟩

theorem exists_gives_iff (h : Follows shape read means)
    (hmembers : (members.map Prod.fst).Nodup) :
    (∃ a, Gives members key means a) ↔
      key ∈ members.map Prod.fst ∧ ∀ value, (key, value) ∈ members → shape.Accepts value := by
  constructor
  · rintro ⟨a, ⟨hvalue, hmeans⟩⟩
    refine ⟨List.mem_map_of_mem hvalue, fun other hother => ?_⟩
    rw [eq_of_mem_of_mem hmembers hvalue hother]
    exact h.accepts.1 ⟨a, hmeans⟩
  · rintro ⟨hkey, hvalues⟩
    obtain ⟨value, hvalue⟩ := exists_value_of_mem hkey
    obtain ⟨a, hmeans⟩ := h.accepts.2 (hvalues value hvalue)
    exact ⟨a, .value hvalue hmeans⟩

theorem exists_givesOption_iff (h : Follows shape read means)
    (hmembers : (members.map Prod.fst).Nodup) :
    (∃ o, GivesOption members key means o) ↔
      ∀ value, (key, value) ∈ members → (Shape.orNull shape).Accepts value := by
  constructor
  · rintro ⟨_, hmissing | hvalue | ⟨hvalue, hmeans⟩⟩ other hother
    · exact absurd (List.mem_map_of_mem hother) hmissing
    · rw [eq_of_mem_of_mem hmembers hvalue hother]
      exact .null
    · rw [eq_of_mem_of_mem hmembers hvalue hother]
      exact .value (h.accepts.1 ⟨_, hmeans⟩)
  · intro hvalues
    by_cases hkey : key ∈ members.map Prod.fst
    · obtain ⟨value, hvalue⟩ := exists_value_of_mem hkey
      cases hvalues value hvalue with
      | null => exact ⟨none, .null hvalue⟩
      | value haccepts =>
        obtain ⟨a, hmeans⟩ := h.accepts.2 haccepts
        exact ⟨some a, .value hvalue hmeans⟩
    · exact ⟨none, .missing hkey⟩

theorem exists_givesFlag_iff (hmembers : (members.map Prod.fst).Nodup) :
    (∃ b, GivesFlag members key b) ↔
      ∀ value, (key, value) ∈ members → Shape.flag.Accepts value := by
  constructor
  · rintro ⟨_, hmissing | hvalue⟩ other hother
    · exact absurd (List.mem_map_of_mem hother) hmissing
    · rw [eq_of_mem_of_mem hmembers hvalue hother]
      exact .flag
  · intro hvalues
    by_cases hkey : key ∈ members.map Prod.fst
    · obtain ⟨value, hvalue⟩ := exists_value_of_mem hkey
      cases hvalues value hvalue with
      | @flag b => exact ⟨b, .value hvalue⟩
    · exact ⟨false, .missing hkey⟩

theorem MembersRearranged.not_mem (h : MembersRearranged members others)
    (hkey : key ∉ members.map Prod.fst) : key ∉ others.map Prod.fst :=
  mt h.keys.mem_iff.2 hkey

theorem Gives.rearranged (h : Follows shape read means) (hothers : MembersRearranged members others)
    {a : α} (hgives : Gives members key means a) : Gives others key means a := by
  cases hgives with
  | value hvalue hmeans =>
    obtain ⟨other, hother, hrearranged⟩ := hothers.values hvalue
    exact .value hother (h.rearranged hrearranged hmeans)

theorem GivesOption.rearranged (h : Follows shape read means)
    (hothers : MembersRearranged members others) {o : Option α}
    (hgives : GivesOption members key means o) : GivesOption others key means o := by
  cases hgives with
  | missing hmissing => exact .missing (hothers.not_mem hmissing)
  | null hvalue =>
    obtain ⟨other, hother, hrearranged⟩ := hothers.values hvalue
    rw [hrearranged.of_scalar (by simp) (by simp)] at hother
    exact .null hother
  | value hvalue hmeans =>
    obtain ⟨other, hother, hrearranged⟩ := hothers.values hvalue
    exact .value hother (h.rearranged hrearranged hmeans)

theorem GivesFlag.rearranged (hothers : MembersRearranged members others) {b : Bool}
    (hgives : GivesFlag members key b) : GivesFlag others key b := by
  cases hgives with
  | missing hmissing => exact .missing (hothers.not_mem hmissing)
  | value hvalue =>
    obtain ⟨other, hother, hrearranged⟩ := hothers.values hvalue
    rw [hrearranged.of_scalar (by simp) (by simp)] at hother
    exact .value hother

end

/-! ## Records -/

/-- A reader of records follows a shape, if it does so for the members of objects whose keys are
declared and occur once. -/
theorem follows_record {α : Type} {keys : List String} {needed free : List (String × Shape)}
    {read : List (String × Json) → Except Fault α} {given : List (String × Json) → α → Prop}
    (hkeys : (needed ++ free).map Prod.fst = keys)
    (hreads : ∀ {members a}, WellKeyed keys members →
      (∀ entry ∈ needed ++ free, ∀ value, (entry.1, value) ∈ members →
        ¬ entry.2.Positional value) →
      (readRecord keys read (.object members) = .ok a ↔ given members a))
    (haccepts : ∀ {members}, WellKeyed keys members → ((∃ a, given members a) ↔
      (∀ entry ∈ needed, entry.1 ∈ members.map Prod.fst ∧
        ∀ value, (entry.1, value) ∈ members → entry.2.Accepts value) ∧
      ∀ entry ∈ free, ∀ value, (entry.1, value) ∈ members → entry.2.Accepts value))
    (hrearranged : ∀ {members others a}, MembersRearranged members others → given members a →
      given others a) :
    Follows (.record needed free) (readRecord keys read) (RecordOf keys given) where
  reads {value a} hvalue := by
    cases value with
    | object members =>
      have hpositional : ∀ entry ∈ needed ++ free, ∀ value, (entry.1, value) ∈ members →
          ¬ entry.2.Positional value :=
        fun entry hentry value hmember h => hvalue (.member hentry hmember h)
      constructor
      · intro h
        have hmembers := (readRecord_object_iff.1 h).1
        exact .members hmembers ((hreads hmembers hpositional).1 h)
      · rintro ⟨hmembers, hgiven⟩
        exact (hreads hmembers hpositional).2 hgiven
    | list items => exact absurd .here hvalue
    | _ => exact ⟨nofun, nofun⟩
  accepts {value} := by
    subst hkeys
    constructor
    · rintro ⟨a, ⟨hmembers, hgiven⟩⟩
      obtain ⟨hneeded, hfree⟩ := (haccepts hmembers).1 ⟨a, hgiven⟩
      refine .record hmembers (fun entry hentry => (hneeded entry hentry).1) ?_
      exact List.forall_mem_append.2 ⟨fun entry hentry => (hneeded entry hentry).2, hfree⟩
    · intro hvalue
      cases hvalue with
      | record hmembers hpresent hvalues =>
        obtain ⟨hneeded, hfree⟩ := List.forall_mem_append.1 hvalues
        obtain ⟨a, hgiven⟩ := (haccepts hmembers).2
          ⟨fun entry hentry => ⟨hpresent entry hentry, hneeded entry hentry⟩, hfree⟩
        exact ⟨a, .members hmembers hgiven⟩
  rearranged hother hmeans := by
    cases hmeans with
    | members hmembers hgiven =>
      obtain ⟨others, rfl, hothers⟩ := hother.of_object rfl
      refine .members ⟨?_, hothers.keys.nodup_iff.1 hmembers.once⟩ (hrearranged hothers hgiven)
      exact fun key hkey => hmembers.declared key (hothers.keys.mem_iff.2 hkey)

end SchemaPlan.Json
