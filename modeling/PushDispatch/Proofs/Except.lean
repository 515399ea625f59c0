/-! Computations that may fail, opened by what their first step came to. -/
namespace PushDispatch

variable {ε ε' α β : Type}

@[simp] theorem ok_bind (a : α) (f : α → Except ε β) : (Except.ok a >>= f) = f a := rfl

@[simp] theorem error_bind (e : ε) (f : α → Except ε β) : (Except.error e >>= f) = .error e := rfl

@[simp] theorem map_ok (f : α → β) (a : α) : (Except.ok a : Except ε α).map f = .ok (f a) := rfl

@[simp] theorem map_error (f : α → β) (e : ε) : (Except.error e).map f = .error e := rfl

theorem exists_of_map_eq_ok {x : Except ε α} {f : α → β} {b : β} (h : x.map f = .ok b) :
    ∃ a, x = .ok a ∧ f a = b := by
  cases x with
  | error => cases h
  | ok a => exact ⟨a, rfl, Except.ok.inj h⟩

theorem exists_of_bind_eq_ok {x : Except ε α} {f : α → Except ε β} {b : β}
    (h : (x >>= f) = .ok b) : ∃ a, x = .ok a ∧ f a = .ok b := by
  cases x with
  | error => cases h
  | ok a => exact ⟨a, rfl, h⟩

theorem eq_ok_of_toOption {x : Except ε α} {a : α} (h : x.toOption = some a) : x = .ok a := by
  cases x <;> simp_all [Except.toOption]

@[simp] theorem mapError_ok (g : ε → ε') (a : α) : (Except.ok a).mapError g = .ok a := rfl

@[simp] theorem mapError_eq_ok_iff {g : ε → ε'} {x : Except ε α} {a : α} :
    x.mapError g = .ok a ↔ x = .ok a := by
  cases x with
  | error => exact iff_of_false nofun nofun
  | ok b => rw [mapError_ok, Except.ok.injEq, Except.ok.injEq]

theorem exists_of_mapError_eq_error {g : ε → ε'} {x : Except ε α} {e' : ε'}
    (h : x.mapError g = .error e') : ∃ e, x = .error e ∧ e' = g e := by
  cases x with
  | ok => cases h
  | error e => exact ⟨e, rfl, (Except.error.inj h).symm⟩

theorem exists_of_isOk {x : Except ε α} (h : x.isOk) (a : α) :
    ∃ b, x = .ok b ∧ x.toOption.getD a = b := by
  cases x with
  | error => cases h
  | ok b => exact ⟨b, rfl, rfl⟩

theorem getD_of_not_isOk {x : Except ε α} (h : x.isOk = false) (a : α) : x.toOption.getD a = a := by
  cases x with
  | error => rfl
  | ok => cases h

/-- Both computations fail, or both succeed, with related results. -/
inductive Corresponds (E : ε → ε → Prop) (A : α → α → Prop) : Except ε α → Except ε α → Prop where
  | ok {a a' : α} (related : A a a') : Corresponds E A (.ok a) (.ok a')
  | error {e e' : ε} (related : E e e') : Corresponds E A (.error e) (.error e')

theorem Corresponds.refl {E : ε → ε → Prop} {A : α → α → Prop} (errors : ∀ e, E e e)
    (results : ∀ a, A a a) (x : Except ε α) : Corresponds E A x x := by
  cases x with
  | ok a => exact .ok (results a)
  | error e => exact .error (errors e)

theorem Corresponds.eq_ok {E : ε → ε → Prop} {x x' : Except ε α} (h : Corresponds E Eq x x') {a : α}
    (succeeded : x = .ok a) : x' = .ok a := by
  cases h with
  | ok same => rw [← same, succeeded]
  | error => cases succeeded

end PushDispatch
