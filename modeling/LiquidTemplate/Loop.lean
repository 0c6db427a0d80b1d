/-!
# Loops

A loop that ends because what is left to read shrinks.

* `Loop.iterate`: repeats a step on a state with errors.
* `Loop.iterate_eq_ok`: what holds before the first step and is kept by each step that makes the state
  smaller holds of the result.
-/

namespace LiquidTemplate.Loop

variable {ε σ α β : Type}

/-- **Iteration.** A step gives either the value for the next step or the result. Every step but the
last has to make the state smaller; where one does not, `stuck` takes over. -/
def iterate (size : σ → Nat) (stuck : EStateM ε σ β) (step : α → EStateM ε σ (α ⊕ β)) (a : α) :
    EStateM ε σ β := fun s =>
  match step a s with
  | .error e t => .error e t
  | .ok (.inr b) t => .ok b t
  | .ok (.inl a) t => if size t < size s then iterate size stuck step a t else stuck t
termination_by s => size s

/-- **Invariant of a loop.** -/
theorem iterate_eq_ok {size : σ → Nat} {stuck : EStateM ε σ β}
    {step : α → EStateM ε σ (α ⊕ β)} {before : α → σ → Prop} {after : β → σ → Prop}
    (h_stuck : ∀ s b t, stuck s = .ok b t → after b t)
    (h_next : ∀ a s a' t, before a s → step a s = .ok (.inl a') t → size t < size s → before a' t)
    (h_last : ∀ a s b t, before a s → step a s = .ok (.inr b) t → after b t)
    {a : α} {s : σ} {b : β} {t : σ} (ha : before a s)
    (h : iterate size stuck step a s = .ok b t) : after b t := by
  induction hn : size s using Nat.strongRecOn generalizing a s with
  | _ n ih =>
    rw [iterate] at h
    split at h
    · simp at h
    · next b' u hu =>
      cases h
      exact h_last a s b t ha hu
    · next a' u hu =>
      split at h
      · next hlt => exact ih (size u) (hn ▸ hlt) (h_next a s a' u ha hu hlt) h rfl
      · exact h_stuck u b t h

end LiquidTemplate.Loop
