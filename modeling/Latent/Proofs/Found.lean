/-!
# Found values

What is looked for in two places is there in both or in neither.  Where both values are related, so are those
that stand in for them and what is made of them.
-/

namespace Latent

variable {α β : Type} {r : α → β → Prop} {x : Option α} {y : Option β} {a : α} {b : β}

/-- What is related to nothing is nothing, in either direction. -/
theorem rel_swap (h : Option.Rel r x y) : Option.Rel (fun b a => r a b) y x := by
  cases h with
  | none => exact .none
  | some h => exact .some h

/-- A value that is found is related to itself, as all values are. -/
theorem rel_self {r : α → α → Prop} (hr : ∀ a, r a a) : Option.Rel r x x := by
  cases x with
  | none => exact .none
  | some a => exact .some (hr a)

/-- What follows from the relation of what is found relates it too. -/
theorem rel_imp {s : α → β → Prop} (hrs : ∀ a b, x = some a → y = some b → r a b → s a b)
    (h : Option.Rel r x y) : Option.Rel s x y := by
  cases h with
  | none => exact .none
  | some h => exact .some (hrs _ _ rfl rfl h)

/-- What is found in one place has a related value in the other. -/
theorem exists_of_rel (h : Option.Rel r x y) (hx : x = some a) : ∃ b, y = some b ∧ r a b := by
  cases h with
  | none => cases hx
  | some h =>
      cases hx
      exact ⟨_, rfl, h⟩

/-- Related values, or related values in their place. -/
theorem rel_getD (h : Option.Rel r x y) (hdefault : r a b) : r (x.getD a) (y.getD b) := by
  cases h with
  | none => exact hdefault
  | some h => exact h

/-- A view that does not tell related values apart does not tell apart what is found. -/
theorem map_eq_of_rel {γ : Type} {f : α → γ} {g : β → γ} (hview : ∀ a b, r a b → f a = g b)
    (h : Option.Rel r x y) : x.map f = y.map g := by
  cases h with
  | none => rfl
  | some h => exact congrArg some (hview _ _ h)

/-- Nor does a search that goes on from what is found. -/
theorem bind_eq_of_rel {γ : Type} {f : α → Option γ} {g : β → Option γ}
    (hview : ∀ a b, r a b → f a = g b) (h : Option.Rel r x y) : x.bind f = y.bind g := by
  cases h with
  | none => rfl
  | some h => exact hview _ _ h

/-- What is found alike up to a view is related by it. -/
theorem rel_of_map_eq {x y : Option α} {f : α → β} (h : x.map f = y.map f) :
    Option.Rel (fun a b => f a = f b) x y := by
  cases x with
  | none =>
      cases y with
      | none => exact .none
      | some b => cases h
  | some a =>
      cases y with
      | none => cases h
      | some b => exact .some (Option.some.inj h)

end Latent
