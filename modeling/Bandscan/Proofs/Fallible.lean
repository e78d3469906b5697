/-!
Computations that may fail, taken apart: what has gone before when they return a value.
-/

namespace Bandscan

variable {ε ε' α β : Type} {x : Except ε α} {f : α → Except ε β}

@[simp]
theorem bind_eq_ok {b : β} : (x >>= f) = .ok b ↔ ∃ a, x = .ok a ∧ f a = .ok b := by
  cases x with
  | error e => simp [bind, Except.bind]
  | ok a => simp [bind, Except.bind]

@[simp]
theorem pure_eq_ok {a b : α} : (pure a : Except ε α) = .ok b ↔ a = b :=
  ⟨Except.ok.inj, congrArg Except.ok⟩

@[simp]
theorem throw_ne_ok {a : α} {e : ε} : (throw e : Except ε α) ≠ .ok a := nofun

@[simp]
theorem throw_bind {e : ε} : (throw e >>= f) = throw e := rfl

@[simp]
theorem ite_throw_eq_ok {p : Prop} [Decidable p] {a : α} {e : ε} :
    (if p then throw e else x) = .ok a ↔ ¬p ∧ x = .ok a := by
  split
  case isTrue hp => simp [hp]
  case isFalse hp => simp [hp]

@[simp]
theorem map_eq_ok {g : α → β} {b : β} : x.map g = .ok b ↔ ∃ a, x = .ok a ∧ g a = b := by
  cases x with
  | error e => simp [Except.map]
  | ok a => simp [Except.map]

@[simp]
theorem mapError_eq_ok {g : ε → ε'} {a : α} : x.mapError g = .ok a ↔ x = .ok a := by
  cases x with
  | error e => exact ⟨nofun, nofun⟩
  | ok b => exact ⟨fun h => congrArg _ (Except.ok.inj h), fun h => congrArg _ (Except.ok.inj h)⟩

end Bandscan
