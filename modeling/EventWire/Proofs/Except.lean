/-!
# Results that are taken apart

A computation of several steps succeeds when each of its steps does. These lemmas
open such a computation from the front when the result of a step is known, and from
the back when the whole is known to succeed.
-/

namespace EventWire

variable {ε ε' α β γ : Type}

@[simp] theorem ok_bind (a : α) (f : α → Except ε β) : (Except.ok a >>= f) = f a := rfl

@[simp] theorem error_bind (e : ε) (f : α → Except ε β) : (Except.error e >>= f) = .error e := rfl

/-- Two steps succeed when the first does and the second does on its result. -/
theorem bind_eq_ok {x : Except ε α} {f : α → Except ε β} {b : β} :
    (x >>= f) = .ok b ↔ ∃ a, x = .ok a ∧ f a = .ok b := by
  cases x <;> simp

/-- Two steps fail when the first does, or the second does on its result. -/
theorem bind_eq_error {x : Except ε α} {f : α → Except ε β} {e : ε} :
    (x >>= f) = .error e ↔ x = .error e ∨ ∃ a, x = .ok a ∧ f a = .error e := by
  cases x <;> simp

@[simp] theorem mapError_ok (a : α) (f : ε → ε') : (Except.ok a).mapError f = .ok a := rfl

/-- Rewording an error does not touch success. -/
theorem mapError_eq_ok {x : Except ε α} {f : ε → ε'} {a : α} :
    x.mapError f = .ok a ↔ x = .ok a := by
  cases x with
  | error e => exact ⟨fun h => (nomatch h), fun h => (nomatch h)⟩
  | ok b => exact ⟨fun h => congrArg _ (Except.ok.inj h), fun h => congrArg _ (Except.ok.inj h)⟩

/-- Rewording an error does not touch failure. -/
theorem mapError_eq_error {x : Except ε α} {f : ε → ε'} {e : ε'} :
    x.mapError f = .error e ↔ ∃ e', x = .error e' ∧ f e' = e := by
  cases x with
  | error e' =>
    refine ⟨fun h => ⟨e', rfl, Except.error.inj h⟩, fun ⟨d, hd, hf⟩ => ?_⟩
    cases hd
    exact congrArg _ hf
  | ok a => exact ⟨fun h => (nomatch h), fun ⟨_, h, _⟩ => (nomatch h)⟩

theorem map_eq_ok {x : Except ε α} {f : α → β} {b : β} :
    x.map f = .ok b ↔ ∃ a, x = .ok a ∧ f a = b := by
  cases x with
  | error e => exact ⟨fun h => (nomatch h), fun ⟨_, h, _⟩ => (nomatch h)⟩
  | ok a =>
    refine ⟨fun h => ⟨a, rfl, Except.ok.inj h⟩, fun ⟨c, hc, hf⟩ => ?_⟩
    cases hc
    exact congrArg _ hf

theorem map_eq_error {x : Except ε α} {f : α → β} {e : ε} : x.map f = .error e ↔ x = .error e := by
  cases x with
  | error e' =>
    exact ⟨fun h => congrArg _ (Except.error.inj h), fun h => congrArg _ (Except.error.inj h)⟩
  | ok a => exact ⟨fun h => (nomatch h), fun h => (nomatch h)⟩

theorem isOk_map (x : Except ε α) (f : α → β) : (x.map f).isOk = x.isOk := by
  cases x with
  | error e => rfl
  | ok a => rfl

/-- A computation whose success was checked has a result. -/
theorem exists_ok_of_isOk {x : Except ε α} (h : x.isOk = true) : ∃ a, x = .ok a := by
  cases x with
  | error e => cases h
  | ok a => exact ⟨a, rfl⟩

/-- What a result is can be checked when it is compared as an option. -/
theorem toOption_eq_some {x : Except ε α} {a : α} : x.toOption = some a ↔ x = .ok a := by
  cases x with
  | error e => exact ⟨fun h => (nomatch h), fun h => (nomatch h)⟩
  | ok b =>
    exact ⟨fun h => congrArg _ (Option.some.inj h), fun h => congrArg _ (Except.ok.inj h)⟩

/-- A list is read when each of its items is. -/
theorem mapM_map_eq_ok {f : α → β} {g : β → Except ε γ} {k : α → γ} {as : List α}
    (h : ∀ a ∈ as, g (f a) = .ok (k a)) : (as.map f).mapM g = .ok (as.map k) := by
  induction as with
  | nil => rfl
  | cons a rest ih =>
    obtain ⟨ha, hrest⟩ := List.forall_mem_cons.mp h
    rw [List.map_cons, List.mapM_cons, ha, ok_bind, ih hrest]
    rfl

/-- There are results for a list when there is one for each of its items. -/
theorem exists_mapM_eq_ok {f : α → Except ε β} {as : List α} :
    (∃ bs, as.mapM f = .ok bs) ↔ ∀ a ∈ as, ∃ b, f a = .ok b := by
  induction as with
  | nil => exact ⟨fun _ _ ha => (nomatch ha), fun _ => ⟨[], rfl⟩⟩
  | cons a rest ih =>
    rw [List.forall_mem_cons, ← ih, List.mapM_cons]
    constructor
    · rintro ⟨bs, h⟩
      obtain ⟨b, hb, hrest⟩ := bind_eq_ok.mp h
      obtain ⟨later, hlater, -⟩ := bind_eq_ok.mp hrest
      exact ⟨⟨b, hb⟩, later, hlater⟩
    · rintro ⟨⟨b, hb⟩, later, hlater⟩
      rw [hb, ok_bind, hlater]
      exact ⟨b :: later, rfl⟩

/-- A list fails for the first of its items that fails. -/
theorem mapM_eq_error {f : α → Except ε β} {e : ε} {as : List α} :
    as.mapM f = .error e ↔ ∃ before a after, as = before ++ a :: after ∧
      (∀ x ∈ before, ∃ b, f x = .ok b) ∧ f a = .error e := by
  induction as with
  | nil =>
    constructor
    · intro h
      cases h
    · intro h
      obtain ⟨before, a, after, hsplit, -, -⟩ := h
      exact absurd hsplit.symm (List.append_ne_nil_of_right_ne_nil before (List.cons_ne_nil a after))
  | cons first rest ih =>
    rw [List.mapM_cons]
    constructor
    · intro h
      rcases bind_eq_error.mp h with hfirst | ⟨b, hfirst, hlater⟩
      · exact ⟨[], first, rest, rfl, List.forall_mem_nil _, hfirst⟩
      · rcases bind_eq_error.mp hlater with hrest | ⟨bs, -, hdone⟩
        · obtain ⟨before, a, after, rfl, hbefore, ha⟩ := ih.mp hrest
          exact ⟨first :: before, a, after, rfl,
            List.forall_mem_cons.mpr ⟨⟨b, hfirst⟩, hbefore⟩, ha⟩
        · cases hdone
    · intro h
      obtain ⟨before, a, after, hsplit, hbefore, ha⟩ := h
      cases before with
      | nil =>
        cases hsplit
        rw [ha, error_bind]
      | cons x later =>
        cases hsplit
        obtain ⟨⟨b, hfirst⟩, hlater⟩ := List.forall_mem_cons.mp hbefore
        rw [hfirst, ok_bind, ih.mpr ⟨later, a, after, rfl, hlater, ha⟩, error_bind]

/-- What is read from each of several results is read from all of them, in order. -/
theorem mapM_of_mapM {f : α → Except ε β} {g : β → Except ε' γ} {k : α → γ} {as : List α} :
    ∀ {bs : List β}, as.mapM f = .ok bs → (∀ a ∈ as, ∀ b, f a = .ok b → g b = .ok (k a)) →
      bs.mapM g = .ok (as.map k) := by
  induction as with
  | nil =>
    intro bs h _
    cases h
    rfl
  | cons a rest ih =>
    intro bs h hread
    rw [List.mapM_cons] at h
    obtain ⟨b, hb, hrest⟩ := bind_eq_ok.mp h
    obtain ⟨later, hlater, hdone⟩ := bind_eq_ok.mp hrest
    cases hdone
    obtain ⟨ha, hmore⟩ := List.forall_mem_cons.mp hread
    rw [List.mapM_cons, ha b hb, ok_bind, ih hlater hmore]
    rfl

/-- A fold whose steps depend on the state only in the end is a fold over results. -/
theorem foldlM_eq_mapM {σ α β ε : Type} {step : σ → α → Except ε σ} {f : α → Except ε β}
    {g : σ → β → σ} (h : ∀ s a, step s a = (f a).map (g s)) (as : List α) :
    ∀ s, as.foldlM step s = (as.mapM f).map fun bs => bs.foldl g s := by
  induction as with
  | nil =>
    intro s
    rfl
  | cons a rest ih =>
    intro s
    rw [List.foldlM_cons, List.mapM_cons, h]
    cases f a with
    | error e => rfl
    | ok b =>
      rw [ok_bind]
      show rest.foldlM step (g s b) = _
      rw [ih]
      cases rest.mapM f with
      | error e => rfl
      | ok bs => rfl

/-- What is taken from results is what is taken from what they are results of. -/
theorem filterMap_of_mapM {α β γ ε : Type} {f : α → Except ε β} {k : β → Option γ}
    {g : α → Option γ} {as : List α} (h : ∀ a b, f a = .ok b → k b = g a) :
    ∀ {bs : List β}, as.mapM f = .ok bs → bs.filterMap k = as.filterMap g := by
  induction as with
  | nil =>
    intro bs hbs
    cases hbs
    rfl
  | cons a rest ih =>
    intro bs hbs
    rw [List.mapM_cons] at hbs
    obtain ⟨b, hb, hrest⟩ := bind_eq_ok.mp hbs
    obtain ⟨later, hlater, hdone⟩ := bind_eq_ok.mp hrest
    cases hdone
    rw [List.filterMap_cons, List.filterMap_cons, h a b hb, ih hlater]

end EventWire
