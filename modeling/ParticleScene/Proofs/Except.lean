import Mathlib.Tactic.Lemma

/-!
# Results that may be failures

What it takes for a computation in steps to succeed, and where its failure comes from.
-/

namespace ParticleScene

variable {ε α β : Type} {x : Except ε α}

lemma error_ne_ok {why : ε} {a : α} : Except.error why ≠ Except.ok a := by
  rintro ⟨⟩

/-- Two steps succeed when the first does and the second does on its value. -/
lemma bind_eq_ok_iff {f : α → Except ε β} {b : β} :
    x >>= f = .ok b ↔ ∃ a, x = .ok a ∧ f a = .ok b := by
  cases x with
  | error why => simp [bind, Except.bind]
  | ok a => simp [bind, Except.bind]

lemma map_eq_ok_iff {f : α → β} {b : β} : x.map f = .ok b ↔ ∃ a, x = .ok a ∧ f a = b := by
  cases x with
  | error why => simp [Except.map]
  | ok a => simp [Except.map]

/-- The failure of a result that is one. -/
def failure? : Except ε α → Option ε
  | .ok _ => none
  | .error why => some why

lemma failure?_map (f : α → β) : failure? (x.map f) = failure? x := by
  cases x <;> rfl

/-- Steps fail as the first one does when the second cannot fail. -/
lemma failure?_bind {f : α → Except ε β} (hf : ∀ a, failure? (f a) = none) :
    failure? (x >>= f) = failure? x := by
  cases x with
  | error why => rfl
  | ok a => exact hf a

end ParticleScene
