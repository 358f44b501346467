/-!
# Computations that may fail

When a composed computation has a result: each part has one, and they go together. When it fails:
its first part does, or the part that follows.

* `bind_eq_ok_iff`, `bind_pure_eq_ok_iff`, `bind_pure_eq_error_iff`, `seq_eq_ok_iff`,
  `ite_throw_eq_ok_iff`: one computation after another;
* `map_eq_ok_iff`, `map_eq_error_iff`, `mapError_eq_ok_iff`, `mapError_eq_error_iff`: a changed
  result and a changed error;
* `mapBoth`: the outcome with both changed.
-/

namespace HopQuery

variable {ε δ α β : Type}

theorem bind_eq_ok_iff (x : Except ε α) (f : α → Except ε β) (b : β) :
    (x >>= f) = .ok b ↔ ∃ a, x = .ok a ∧ f a = .ok b := by
  constructor
  · intro h
    cases x with
    | error e => cases h
    | ok a => exact ⟨a, rfl, h⟩
  · rintro ⟨a, rfl, h⟩
    exact h

theorem bind_pure_eq_ok_iff (x : Except ε α) (f : α → β) (b : β) :
    (x >>= fun a => pure (f a)) = .ok b ↔ ∃ a, x = .ok a ∧ b = f a := by
  rw [bind_eq_ok_iff]
  constructor
  · rintro ⟨a, hx, heq⟩
    cases heq
    exact ⟨a, hx, rfl⟩
  · rintro ⟨a, hx, rfl⟩
    exact ⟨a, hx, rfl⟩

/-- A computation without a result of its own before another one. -/
theorem seq_eq_ok_iff (x : Except ε Unit) (y : Except ε β) (b : β) :
    (x >>= fun _ => y) = .ok b ↔ x = .ok () ∧ y = .ok b := by
  rw [bind_eq_ok_iff]
  exact ⟨fun ⟨(), h⟩ => h, fun h => ⟨(), h⟩⟩

/-- A computation that is not begun if something is the case. -/
theorem ite_throw_eq_ok_iff (p : Prop) [Decidable p] (e : ε) (x : Except ε β) (b : β) :
    (if p then throw e >>= fun _ : Unit => x else x) = .ok b ↔ ¬ p ∧ x = .ok b := by
  split
  · next h => simp [h, throw, throwThe, MonadExceptOf.throw, bind, Except.bind]
  · next h => simp [h]

theorem map_eq_ok_iff (x : Except ε α) (f : α → β) (b : β) :
    x.map f = .ok b ↔ ∃ a, x = .ok a ∧ b = f a :=
  bind_pure_eq_ok_iff x f b

theorem mapError_eq_ok_iff (x : Except ε α) (f : ε → δ) (a : α) :
    x.mapError f = .ok a ↔ x = .ok a := by
  constructor
  · intro h
    cases x with
    | error e => cases h
    | ok b =>
      cases h
      rfl
  · rintro rfl
    rfl

theorem bind_pure_eq_error_iff (x : Except ε α) (f : α → β) (e : ε) :
    (x >>= fun a => pure (f a)) = .error e ↔ x = .error e := by
  cases x with
  | error e' =>
    constructor <;> (rintro ⟨⟩; rfl)
  | ok a => constructor <;> rintro ⟨⟩

theorem map_eq_error_iff (x : Except ε α) (f : α → β) (e : ε) :
    x.map f = .error e ↔ x = .error e :=
  bind_pure_eq_error_iff x f e

theorem mapError_eq_error_iff (x : Except ε α) (f : ε → δ) (d : δ) :
    x.mapError f = .error d ↔ ∃ e, x = .error e ∧ d = f e := by
  constructor
  · intro h
    cases x with
    | error e =>
      cases h
      exact ⟨e, rfl, rfl⟩
    | ok a => cases h
  · rintro ⟨e, rfl, rfl⟩
    rfl

/-- The outcome with its error and its result changed. -/
def mapBoth (f : ε → δ) (g : α → β) : Except ε α → Except δ β
  | .error error => .error (f error)
  | .ok result => .ok (g result)

/-- A change of errors that follows another one of errors and results. -/
theorem mapError_mapBoth {f : ε → ε} {g : α → β} {f' : δ → δ} {k : ε → δ}
    (h : ∀ error, k (f error) = f' (k error)) (x : Except ε α) :
    (mapBoth f g x).mapError k = mapBoth f' g (x.mapError k) := by
  cases x with
  | error error => exact congrArg Except.error (h error)
  | ok result => rfl

end HopQuery
