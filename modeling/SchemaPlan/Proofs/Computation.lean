import Mathlib.Data.List.Forall2

/-!
# Computations that may fail or carry a state

What is known of a computation from what is known of its steps.

* `bind_eq_ok_iff`, `mapM_eq_ok_iff`: a sequence of steps passes only if each step does.
* `exists_forall₂_iff`, `forall₂_trans`: lists that correspond.
* `mapM_eq_error_iff`: it fails at the first step that does.
* `mapM_congr`: it is the same for other elements with the same steps.
* `run_bind`, `run_pure`: what a computation with a state does, step by step.
-/
namespace SchemaPlan

theorem bind_eq_ok_iff {ε α β : Type} {x : Except ε α} {f : α → Except ε β} {b : β} :
    x >>= f = .ok b ↔ ∃ a, x = .ok a ∧ f a = .ok b := by
  cases x with
  | error e => simp [bind, Except.bind]
  | ok a => simp [bind, Except.bind]

theorem bind_unit_eq_ok_iff {ε α : Type} {x : Except ε Unit} {y : Unit → Except ε α} {r : α} :
    x >>= y = .ok r ↔ x = .ok () ∧ y () = .ok r := by
  rw [bind_eq_ok_iff]
  exact ⟨fun ⟨_, hx, hy⟩ => ⟨hx, hy⟩, fun ⟨hx, hy⟩ => ⟨(), hx, hy⟩⟩

theorem bind_eq_ok {ε α : Type} {x : Except ε Unit} {y : Unit → Except ε α} {r : α}
    (h : x >>= y = .ok r) : x = .ok () ∧ y () = .ok r :=
  bind_unit_eq_ok_iff.1 h

theorem ite_error_eq_ok_iff {ε α : Type} {c : Prop} [Decidable c] {error : ε} {x : Except ε α}
    {r : α} : (if c then .error error else x) = .ok r ↔ ¬c ∧ x = .ok r := by
  by_cases hc : c <;> simp [hc]

theorem eq_ok_of_toOption {ε α : Type} {x : Except ε α} {r : α} (h : x.toOption = some r) :
    x = .ok r := by
  cases x with
  | error e => cases h
  | ok a => exact congrArg Except.ok (Option.some.inj h)

theorem mapM_eq_ok_iff {ε α β : Type} {f : α → Except ε β} {l : List α} {results : List β} :
    l.mapM f = .ok results ↔ List.Forall₂ (fun a b => f a = .ok b) l results := by
  induction l generalizing results with
  | nil => cases results <;> simp [pure, Except.pure]
  | cons a rest ih =>
    rw [List.mapM_cons]
    cases ha : f a with
    | error e => cases results <;> simp [bind, Except.bind, ha]
    | ok b =>
      cases hrest : rest.mapM f with
      | error e => cases results <;> simp [bind, Except.bind, ha, ← ih, hrest]
      | ok bs => cases results <;> simp [bind, Except.bind, pure, Except.pure, ha, ← ih, hrest]

theorem map_eq_of_forall₂ {α β γ : Type} {f : α → γ} {g : β → γ} {l : List α} {l' : List β}
    (h : List.Forall₂ (fun a b => f a = g b) l l') : l.map f = l'.map g := by
  rwa [← List.forall₂_eq_eq_eq, List.forall₂_map_left_iff, List.forall₂_map_right_iff]

theorem exists_left_of_mem {α β : Type} {R : α → β → Prop} {l : List α} {l' : List β}
    (h : List.Forall₂ R l l') {b : β} (hb : b ∈ l') : ∃ a ∈ l, R a b := by
  induction h with
  | nil => cases hb
  | cons hhead _ ih =>
    rcases List.mem_cons.1 hb with rfl | hb
    · exact ⟨_, List.mem_cons_self, hhead⟩
    · obtain ⟨a, ha, hab⟩ := ih hb
      exact ⟨a, List.mem_cons_of_mem _ ha, hab⟩

theorem exists_right_of_mem {α β : Type} {R : α → β → Prop} {l : List α} {l' : List β}
    (h : List.Forall₂ R l l') {a : α} (ha : a ∈ l) : ∃ b ∈ l', R a b :=
  exists_left_of_mem h.flip ha

theorem forall₂_trans {α β γ : Type} {R : α → β → Prop} {S : β → γ → Prop} {T : α → γ → Prop}
    (htrans : ∀ {a b c}, R a b → S b c → T a c) {l : List α} {l' : List β} {l'' : List γ}
    (h : List.Forall₂ R l l') (h' : List.Forall₂ S l' l'') : List.Forall₂ T l l'' := by
  induction h generalizing l'' with
  | nil =>
    cases h'
    exact .nil
  | cons hhead _ ih =>
    cases h' with
    | cons hnext hrest => exact .cons (htrans hhead hnext) (ih hrest)

theorem forall₂_iff_of_mem {α β : Type} {R S : α → β → Prop} {l : List α} {l' : List β}
    (h : ∀ a ∈ l, ∀ b, R a b ↔ S a b) : List.Forall₂ R l l' ↔ List.Forall₂ S l l' := by
  induction l generalizing l' with
  | nil => cases l' <;> simp
  | cons a rest ih =>
    cases l' with
    | nil => simp
    | cons b rest' =>
      rw [List.forall₂_cons, List.forall₂_cons, h a List.mem_cons_self,
        ih fun other hother => h other (List.mem_cons_of_mem _ hother)]

theorem exists_forall₂_iff {α β : Type} {R : α → β → Prop} {l : List α} :
    (∃ l', List.Forall₂ R l l') ↔ ∀ a ∈ l, ∃ b, R a b := by
  constructor
  · rintro ⟨l', h⟩ a ha
    obtain ⟨b, -, hab⟩ := exists_right_of_mem h ha
    exact ⟨b, hab⟩
  · intro h
    induction l with
    | nil => exact ⟨[], .nil⟩
    | cons a rest ih =>
      obtain ⟨⟨b, hab⟩, hrest⟩ := List.forall_mem_cons.1 h
      obtain ⟨l', hl'⟩ := ih hrest
      exact ⟨b :: l', .cons hab hl'⟩

/-- Traversals of lists that correspond, with steps that agree, have the same result. -/
theorem mapM_congr {ε α β γ : Type} {f : α → Except ε γ} {g : β → Except ε γ} {l : List α}
    {l' : List β} (h : List.Forall₂ (fun a b => f a = g b) l l') : l.mapM f = l'.mapM g := by
  induction h with
  | nil => rfl
  | cons hhead _ ih => rw [List.mapM_cons, List.mapM_cons, hhead, ih]

theorem exists_first_cons {α : Type} {p q : α → Prop} {a : α} {rest : List α} :
    (∃ before x after, a :: rest = before ++ x :: after ∧ (∀ b ∈ before, p b) ∧ q x) ↔
      q a ∨ p a ∧ ∃ before x after, rest = before ++ x :: after ∧ (∀ b ∈ before, p b) ∧ q x := by
  constructor
  · rintro ⟨before, x, after, hl, hbefore, hx⟩
    cases before with
    | nil =>
      obtain ⟨rfl, rfl⟩ := List.cons.inj hl
      exact .inl hx
    | cons first before =>
      obtain ⟨rfl, rfl⟩ := List.cons.inj hl
      have hbefore := List.forall_mem_cons.1 hbefore
      exact .inr ⟨hbefore.1, before, x, after, rfl, hbefore.2, hx⟩
  · rintro (ha | ⟨ha, before, x, after, rfl, hbefore, hx⟩)
    · exact ⟨[], a, rest, rfl, List.forall_mem_nil _, ha⟩
    · exact ⟨a :: before, x, after, rfl, List.forall_mem_cons.2 ⟨ha, hbefore⟩, hx⟩

/-- If something happens at an element of a list, it happens at a first one. -/
theorem exists_first {α : Type} {p : α → Prop} {l : List α} (h : ∃ a ∈ l, p a) :
    ∃ before a after, l = before ++ a :: after ∧ (∀ b ∈ before, ¬ p b) ∧ p a := by
  induction l with
  | nil => simp at h
  | cons a rest ih =>
    rw [exists_first_cons]
    by_cases ha : p a
    · exact .inl ha
    · obtain ⟨x, hx, hp⟩ := h
      refine .inr ⟨ha, ih ⟨x, ?_, hp⟩⟩
      exact (List.mem_cons.1 hx).resolve_left fun heq => ha (heq ▸ hp)

/-- A traversal fails at the first element that fails, and with its error. -/
theorem mapM_eq_error_iff {ε α β : Type} {f : α → Except ε β} {l : List α} {error : ε} :
    l.mapM f = .error error ↔
      ∃ before a after, l = before ++ a :: after ∧ (∀ b ∈ before, ∃ result, f b = .ok result) ∧
        f a = .error error := by
  induction l with
  | nil => simp [pure, Except.pure]
  | cons a rest ih =>
    rw [List.mapM_cons, exists_first_cons, ← ih]
    cases ha : f a with
    | error e => simp [bind, Except.bind]
    | ok result => cases rest.mapM f <;> simp [bind, Except.bind, pure, Except.pure]

theorem exists_ok_iff {ε α : Type} {x : Except ε α} :
    (∃ result, x = .ok result) ↔ ¬ ∃ error, x = .error error := by
  cases x <;> simp

theorem run_bind {σ α β : Type} (first : StateM σ α) (next : α → StateM σ β) (state : σ) :
    (first >>= next).run state = (next (first.run state).1).run (first.run state).2 := rfl

theorem run_pure {σ α : Type} (value : α) (state : σ) :
    (pure value : StateM σ α).run state = (value, state) := rfl

end SchemaPlan
