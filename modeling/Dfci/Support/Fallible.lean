import Mathlib.Tactic.Common

/-! # Inverting computations that may fail -/

namespace Fallible

universe u

variable {ε : Type*} {α β : Type u}

theorem bind_eq_ok {computation : Except ε α} {next : α → Except ε β} {result : β} :
    (computation >>= next) = .ok result ↔ ∃ value, computation = .ok value ∧ next value = .ok result := by
  cases computation <;> simp [bind, Except.bind]

/-- A check that throws lets through what it does not refuse. -/
theorem ite_throw_eq_ok {refused : Prop} [Decidable refused] {error : ε} {next : α → Except ε β} {rest : Except ε β}
    {result : β} : (if refused then throw error >>= next else rest) = .ok result ↔ ¬ refused ∧ rest = .ok result := by
  split <;> simp_all [bind, Except.bind, throw, throwThe, MonadExceptOf.throw]

theorem ite_bind {condition : Prop} [Decidable condition] (first second : Except ε α) (next : α → Except ε β) :
    (if condition then first >>= next else second >>= next) = (if condition then first else second) >>= next := by
  split <;> rfl

theorem toOption_eq_some {computation : Except ε α} {value : α} :
    computation.toOption = some value ↔ computation = .ok value := by
  cases computation <;> simp [Except.toOption]

end Fallible
