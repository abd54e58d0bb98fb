/-!
# Computations that may fail

When a computation made of steps succeeds, and when it fails. Whatever succeeds
was a success at every step, so a success is taken apart step by step; a failure
is that of one step after successes.
-/

namespace Except

variable {ε α β : Type}

theorem ok_bind (a : α) (f : α → Except ε β) : (ok a >>= f) = f a := rfl

/-- Two steps succeed when the first does and the second does on its
result. -/
theorem bind_eq_ok {x : Except ε α} {f : α → Except ε β} {b : β} :
    x >>= f = .ok b ↔ ∃ a, x = .ok a ∧ f a = .ok b := by
  constructor
  · intro h
    cases x with
    | error e => cases h
    | ok a => exact ⟨a, rfl, h⟩
  · rintro ⟨a, rfl, h⟩
    exact h

/-- Two steps fail when the first does, or the second does on the result of the
first. -/
theorem bind_eq_error {x : Except ε α} {f : α → Except ε β} {e : ε} :
    x >>= f = .error e ↔ x = .error e ∨ ∃ a, x = .ok a ∧ f a = .error e := by
  cases x with
  | error d =>
    constructor
    · intro h
      cases h
      exact .inl rfl
    · rintro (h | ⟨a, ha, -⟩)
      · cases h
        rfl
      · cases ha
  | ok a =>
    constructor
    · intro h
      exact .inr ⟨a, rfl, h⟩
    · rintro (h | ⟨b, ⟨⟩, h⟩)
      · cases h
      · exact h

/-- What does not succeed fails. -/
theorem exists_eq_error_iff {x : Except ε α} :
    (∃ e, x = .error e) ↔ ¬∃ a, x = .ok a := by
  cases x with
  | error e => exact iff_of_true ⟨e, rfl⟩ nofun
  | ok a => exact iff_of_false nofun fun h => h ⟨a, rfl⟩

/-- A step whose result is passed through a function. -/
theorem map_eq_ok {x : Except ε α} {f : α → β} {b : β} :
    x.map f = .ok b ↔ ∃ a, x = .ok a ∧ f a = b := by
  constructor
  · intro h
    cases x with
    | error e => cases h
    | ok a => exact ⟨a, rfl, Except.ok.inj h⟩
  · rintro ⟨a, rfl, rfl⟩
    rfl

/-- A step fails the same whatever its result is passed through. -/
theorem map_eq_error {x : Except ε α} {f : α → β} {e : ε} :
    x.map f = .error e ↔ x = .error e := by
  cases x with
  | error d =>
    show Except.error d = Except.error e ↔ _
    rw [Except.error.injEq, Except.error.injEq]
  | ok a => exact ⟨fun h => (nomatch h), fun h => (nomatch h)⟩

/-- Renaming errors does not touch successes. -/
theorem mapError_eq_ok {δ : Type} {g : ε → δ} {x : Except ε α} {a : α} :
    x.mapError g = .ok a ↔ x = .ok a := by
  cases x with
  | error e => exact ⟨fun h => (nomatch h), fun h => (nomatch h)⟩
  | ok b =>
    show Except.ok b = Except.ok a ↔ _
    rw [Except.ok.injEq, Except.ok.injEq]

/-- Errors are renamed step by step. -/
theorem mapError_bind {δ : Type} (g : ε → δ) (x : Except ε α) (f : α → Except ε β) :
    (x >>= f).mapError g = x.mapError g >>= fun a => (f a).mapError g := by
  cases x <;> rfl

/-- Renaming errors does not touch results. -/
theorem mapError_map {δ : Type} (g : ε → δ) (x : Except ε α) (f : α → β) :
    (x.map f).mapError g = (x.mapError g).map f := by
  cases x <;> rfl

/-! ## Two computations -/

variable {δ α' β' : Type} {E : ε → δ → Prop} {A : α → α' → Prop} {B : β → β' → Prop}

/-- **Two computations go alike**: both fail, with errors that are related, or both succeed, with results
that are. -/
inductive Rel (E : ε → δ → Prop) (A : α → α' → Prop) : Except ε α → Except δ α' → Prop where
  | error {e : ε} {d : δ} (h : E e d) : Rel E A (.error e) (.error d)
  | ok {a : α} {a' : α'} (h : A a a') : Rel E A (.ok a) (.ok a')

/-- Steps that go alike make computations that do. -/
theorem Rel.bind {x : Except ε α} {y : Except δ α'} {f : α → Except ε β} {g : α' → Except δ β'}
    (h : Rel E A x y) (hnext : ∀ {a a'}, A a a' → Rel E B (f a) (g a')) :
    Rel E B (x >>= f) (y >>= g) := by
  cases h with
  | error h => exact .error h
  | ok h => exact hnext h

/-- Results that go alike are passed through functions that keep them so. -/
theorem Rel.map {x : Except ε α} {y : Except δ α'} {f : α → β} {g : α' → β'} (h : Rel E A x y)
    (hmap : ∀ {a a'}, A a a' → B (f a) (g a')) : Rel E B (x.map f) (y.map g) := by
  cases h with
  | error h => exact .error h
  | ok h => exact .ok (hmap h)

/-- What they are related by may say less. -/
theorem Rel.mono {E' : ε → δ → Prop} {A' : α → α' → Prop} {x : Except ε α} {y : Except δ α'}
    (h : Rel E A x y) (herror : ∀ {e d}, E e d → E' e d) (hok : ∀ {a a'}, A a a' → A' a a') :
    Rel E' A' x y := by
  cases h with
  | error h => exact .error (herror h)
  | ok h => exact .ok (hok h)

end Except
