import Latent.Proofs.Value.Correspondence

/-!
# Nodes of corresponding values

The checks of construction do not look at the order of entries.  So from values that differ in it alone,
either no node is built, or nodes are built with operands that differ in it alone
(`Node.concur_build`, and `Node.concur_ofRecord` for a record).
-/

namespace Latent

/-! ## Computations that concur -/

/-- Both computations fail, or both succeed, with related results. -/
inductive Concur {ε ε' α β : Type} (r : α → β → Prop) : Except ε α → Except ε' β → Prop where
  | ok {a : α} {b : β} (h : r a b) : Concur r (.ok a) (.ok b)
  | error (e : ε) (e' : ε') : Concur r (.error e) (.error e')

namespace Concur

variable {ε ε' ε'' α β γ α' β' : Type} {r : α → β → Prop} {x : Except ε α} {y : Except ε' β}

theorem exists_of_ok {a : α} (h : Concur r x y) (hx : x = .ok a) : ∃ b, y = .ok b ∧ r a b := by
  cases h with
  | ok h =>
      cases hx
      exact ⟨_, rfl, h⟩
  | error _ _ => cases hx

/-- What concurs step by step concurs. -/
theorem bind {s : α' → β' → Prop} {f : α → Except ε α'} {g : β → Except ε' β'} (h : Concur r x y)
    (hnext : ∀ a b, x = .ok a → y = .ok b → r a b → Concur s (f a) (g b)) :
    Concur s (x >>= f) (y >>= g) := by
  cases h with
  | ok h => exact hnext _ _ rfl rfl h
  | error e e' => exact .error e e'

/-- Outcomes concur through others. -/
theorem trans {r' : β → γ → Prop} {s : α → γ → Prop} {z : Except ε'' γ} (h : Concur r x y)
    (h' : Concur r' y z) (hs : ∀ a b c, r a b → r' b c → s a c) : Concur s x z := by
  cases h with
  | ok h =>
      cases h' with
      | ok h' => exact .ok (hs _ _ _ h h')
  | error e _ =>
      cases h' with
      | error _ e' => exact .error e e'

theorem imp {s : α → β → Prop} (h : Concur r x y) (hs : ∀ a b, r a b → s a b) : Concur s x y := by
  cases h with
  | ok h => exact .ok (hs _ _ h)
  | error e e' => exact .error e e'

theorem mapError {ε₁ ε₂ : Type} (f : ε → ε₁) (g : ε' → ε₂) (h : Concur r x y) :
    Concur r (x.mapError f) (y.mapError g) := by
  cases h with
  | ok h => exact .ok h
  | error e e' => exact .error (f e) (g e')

end Concur

/-! ## Checks -/

namespace Value

namespace Corresponds

variable {v w : Value}

/-- Corresponding values are of the same kinds. -/
theorem kinds_eq (h : Corresponds Eq v w) : v.kinds = w.kinds := by
  refine Corresponds.induction ?_ ?_ ?_ ?_ h
  · rintro v _ _ _ rfl
    rfl
  · intro items others _
    rfl
  · intro entries others _ _ _
    rfl
  · intro op operands others ih
    exact kinds_node_congr op (ih.imp fun _ _ h => h.1)

/-- They meet the same requirements. -/
theorem accepts_eq (h : Corresponds Eq v w) (r : Requirement) : r.accepts v = r.accepts w := by
  have hkinds := h.kinds_eq
  cases h with
  | leaf _ _ h => rw [h]
  | list _ | map _ _ _ _ => cases r <;> rfl
  | node op _ => exact congrArg (r.acceptsNode op) hkinds

theorem isTruthValue_eq (h : Corresponds Eq v w) : v.isTruthValue = w.isTruthValue := by
  have hkinds := h.kinds_eq
  cases h with
  | leaf _ _ h => rw [h]
  | list _ | map _ _ _ _ => rfl
  | node op _ => rw [isTruthValue, isTruthValue, hkinds]

/-- They correspond after their truth was asked for. -/
theorem coerceTruth (h : Corresponds Eq v w) : Corresponds Eq v.coerceTruth w.coerceTruth := by
  rw [Value.coerceTruth, Value.coerceTruth, h.isTruthValue_eq]
  split
  · exact h
  · exact .node .bool (.cons h .nil)

end Corresponds

end Value

/-! ## Construction -/

namespace Node

open Value (Corresponds)

variable {op : Operator} {v w : Value} {values others : List Value}

/-- In any role, corresponding values make corresponding operands, or fail alike. -/
theorem concur_operandOf (field : String) (role : Role) (h : Corresponds Eq v w) :
    Concur (Corresponds Eq) (operandOf op field v role) (operandOf op field w role) := by
  cases role with
  | free => exact .ok h
  | truth => exact .ok h.coerceTruth
  | must r =>
      rw [operandOf, operandOf, require, require, h.accepts_eq]
      split
      · exact .ok h
      · exact .error _ _
  -- what corresponds to a list is a list of as many statements
  | statements =>
      cases h with
      | leaf hleaf _ h =>
          cases h
          cases v with
          | list _ | map _ | node _ _ => cases hleaf
          | _ => exact .error _ _
      | map _ _ _ _ | node _ _ => exact .error _ _
      | list h =>
          rw [operandOf, operandOf, requireCount, requireCount, h.length_eq]
          split
          · exact .error _ _
          · refine .ok (.list ?_)
            rw [List.forall₂_map_left_iff, List.forall₂_map_right_iff]
            exact h.imp fun _ _ => Corresponds.coerceTruth

/-- From corresponding values, corresponding operands are made or none. -/
theorem concur_operandsOf (slots : List Slot)
    (h : List.Forall₂ (Corresponds Eq) values others) :
    Concur (List.Forall₂ (Corresponds Eq)) (operandsOf op slots values)
      (operandsOf op slots others) := by
  induction slots generalizing values others with
  | nil => exact .ok .nil
  | cons slot slots ih =>
      cases h with
      | nil => exact .ok .nil
      | cons hvalue hvalues =>
          rw [operandsOf, operandsOf]
          refine (concur_operandOf slot.key slot.role hvalue).bind fun _ _ _ _ hoperand => ?_
          refine (ih hvalues).bind fun _ _ _ _ hoperands => ?_
          exact .ok (.cons hoperand hoperands)

/-- **From corresponding values, corresponding nodes are built or none.** -/
theorem concur_build (op : Operator) (h : List.Forall₂ (Corresponds Eq) values others) :
    Concur (Corresponds Eq) (build op values) (build op others) := by
  rw [build, build]
  refine (concur_operandsOf _ h).bind fun operands operands' _ _ hoperands => ?_
  rw [requireTogether_congr op (hoperands.imp fun _ _ => Corresponds.kinds_eq)]
  cases requireTogether op operands' with
  | error e => exact .error e e
  | ok _ => exact .ok (.node op hoperands)

/-- A record may bind its fields in any order. -/
theorem concur_ofRecord (op : Operator) {fields fields' : Entries Value}
    (h : ∀ key, Option.Rel (Corresponds Eq) (Entries.find? key fields) (Entries.find? key fields')) :
    Concur (Corresponds Eq) (ofRecord op fields) (ofRecord op fields') := by
  refine concur_build op ?_
  rw [List.forall₂_map_left_iff, List.forall₂_map_right_iff, List.forall₂_same]
  intro slot hslot
  have hleaf := (missing_isLeaf hslot).1
  exact rel_getD (h slot.key) (.leaf hleaf hleaf rfl)

end Node

end Latent
