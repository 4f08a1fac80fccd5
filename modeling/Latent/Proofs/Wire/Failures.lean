import Latent.Proofs.Json.Parts
import Latent.Proofs.Wire.Carries

/-!
# Why a tree is not revived

Evaluating a tree never fails.  Rebuilding goes through the tagged records of the tree in turn, inner ones
first, and fails at the first one whose fields make no node (`Value.stopsAtFirst_revive`).  The error
names that record's operator and says why its fields were refused.
-/

namespace Latent

/-! ## Work that stops at the first failure -/

/-- The work goes through steps in turn: it succeeds when all of them pass, and else it fails as the first
step that does not pass. -/
inductive StopsAtFirst {ε α β : Type} (passes : β → Prop) (fails : β → ε → Prop) :
    List β → Except ε α → Prop where
  | ok {steps : List β} (a : α) (h : ∀ step ∈ steps, passes step) :
      StopsAtFirst passes fails steps (.ok a)
  | error {before : List β} {step : β} (after : List β) {e : ε} (hbefore : ∀ b ∈ before, passes b)
      (h : fails step e) : StopsAtFirst passes fails (before ++ step :: after) (.error e)

namespace StopsAtFirst

variable {ε α α' β : Type} {passes : β → Prop} {fails : β → ε → Prop} {steps : List β}
  {x : Except ε α} {e : ε}

/-- Without steps nothing fails. -/
theorem nil (a : α) : StopsAtFirst passes fails [] (.ok a : Except ε α) :=
  .ok a fun _ h => absurd h List.not_mem_nil

/-- The only step passes. -/
theorem single {step : β} (a : α) (h : passes step) :
    StopsAtFirst passes fails [step] (.ok a : Except ε α) :=
  .ok a (List.forall_mem_singleton.2 h)

/-- The only step fails. -/
theorem single_error {step : β} (h : fails step e) :
    StopsAtFirst passes fails [step] (.error e : Except ε α) := by
  have hnone : ∀ b ∈ [], passes b := fun _ h => absurd h List.not_mem_nil
  exact .error [] hnone h

/-- When nothing failed, every step passed. -/
theorem passes_of_ok {a : α} (h : StopsAtFirst passes fails steps (.ok a : Except ε α)) :
    ∀ step ∈ steps, passes step := by
  cases h with
  | ok _ h => exact h

/-- The failure is that of a step before which all passed. -/
theorem exists_of_error (h : StopsAtFirst passes fails steps (.error e : Except ε α)) :
    ∃ before step after, steps = before ++ step :: after ∧ (∀ b ∈ before, passes b) ∧
      fails step e := by
  cases h with
  | error after hbefore h => exact ⟨_, _, after, rfl, hbefore, h⟩

/-- Further work comes after what was done. -/
theorem bind {others : List β} {f : α → Except ε α'} (h : StopsAtFirst passes fails steps x)
    (hnext : ∀ a, x = .ok a → StopsAtFirst passes fails others (f a)) :
    StopsAtFirst passes fails (steps ++ others) (x >>= f) := by
  cases h with
  | error after hbefore h =>
      rw [List.append_assoc]
      exact .error _ hbefore h
  | ok a h =>
      show StopsAtFirst passes fails _ (f a)
      generalize hy : f a = y
      have hrest := hnext a rfl
      rw [hy] at hrest
      cases hrest with
      | ok b hothers => exact .ok b (List.forall_mem_append.2 ⟨h, hothers⟩)
      | error after hbefore hfails =>
          rw [← List.append_assoc]
          exact .error after (List.forall_mem_append.2 ⟨h, hbefore⟩) hfails

/-- What is made of the result does not fail. -/
theorem map (h : StopsAtFirst passes fails steps x) (f : α → α') :
    StopsAtFirst passes fails steps (x >>= fun a => .ok (f a)) := by
  cases h with
  | ok a h => exact .ok (f a) h
  | error after hbefore h => exact .error after hbefore h

/-- A step that fails, wherever it is, makes the work fail. -/
theorem error_iff (h : StopsAtFirst passes fails steps x) (hne : ∀ b e, fails b e → ¬ passes b) :
    (∃ e, x = .error e) ↔ ∃ step ∈ steps, ∃ e, fails step e := by
  cases h with
  | ok a h =>
      constructor
      · rintro ⟨e, herror⟩
        cases herror
      · rintro ⟨step, hstep, e, hfails⟩
        exact absurd (h step hstep) (hne step e hfails)
  | error after hbefore h =>
      exact ⟨fun _ => ⟨_, List.mem_append_right _ List.mem_cons_self, _, h⟩, fun _ => ⟨_, rfl⟩⟩

end StopsAtFirst

/-! ## Refusals -/

namespace Node

variable {op : Operator} {cause : BuildError}

/-- A refusal of a field names the operator. -/
theorem operator_of_operandOf {field : String} {v : Value} {role : Role}
    (h : operandOf op field v role = .error cause) : cause.operator = op := by
  cases role with
  | free | truth => cases h
  | must r =>
      rcases error_of_bind_eq_error h with hrequire | ⟨_, _, hok⟩
      · unfold require at hrequire
        split at hrequire
        · cases hrequire
        · cases hrequire
          rfl
      · cases hok
  | statements =>
      cases v with
      | list items =>
          rcases error_of_bind_eq_error h with hcount | ⟨_, _, hok⟩
          · unfold requireCount at hcount
            split at hcount
            · cases hcount
              rfl
            · cases hcount
          · cases hok
      | _ =>
          cases h
          rfl

/-- So does a refusal among several fields. -/
theorem operator_of_operandsOf {slots : List Slot} {values : List Value}
    (h : operandsOf op slots values = .error cause) : cause.operator = op := by
  induction slots generalizing values with
  | nil => cases h
  | cons slot slots ih =>
      cases values with
      | nil => cases h
      | cons v values =>
          rcases error_of_bind_eq_error h with hoperand | ⟨operand, _, h⟩
          · exact operator_of_operandOf hoperand
          · rcases error_of_bind_eq_error h with hoperands | ⟨operands, _, hok⟩
            · exact ih hoperands
            · cases hok

/-- So does a refusal of operands taken together. -/
theorem operator_of_requireTogether {operands : List Value}
    (h : requireTogether op operands = .error cause) : cause.operator = op := by
  unfold requireTogether at h
  split at h
  · unfold requireSameKinds at h
    split at h
    · cases h
    · cases h
      rfl
  · cases h

/-- **A refusal names the operator of the node that was to be built.** -/
theorem operator_of_ofRecord {fields : Entries Value} (h : ofRecord op fields = .error cause) :
    cause.operator = op := by
  rcases error_of_bind_eq_error h with hoperands | ⟨operands, _, h⟩
  · exact operator_of_operandsOf hoperands
  · rcases error_of_bind_eq_error h with htogether | ⟨_, _, hok⟩
    · exact operator_of_requireTogether htogether
    · cases hok

end Node

/-! ## Records -/

namespace Json

/-- A tagged record: the operator that it is tagged with, and its entries. -/
structure Record where
  op : Operator
  entries : Entries Json

mutual

/-- The tagged records in a tree, each one after those that are inside it. -/
def records : Json → List Record
  | array items => recordsOfItems items
  | object entries => recordsOfEntries entries ++ (tag? entries).toList.map (⟨·, entries⟩)
  | _ => []

/-- The records of the items, one after the other. -/
def recordsOfItems : List Json → List Record
  | [] => []
  | item :: rest => records item ++ recordsOfItems rest

/-- The records of the trees that keys are bound to. -/
def recordsOfEntries : List (String × Json) → List Record
  | [] => []
  | (_, tree) :: rest => records tree ++ recordsOfEntries rest

end

namespace Record

/-- The tagged records inside a record. -/
def inner (r : Record) : List Record := recordsOfEntries r.entries

/-- A node is made of the revived fields of the record. -/
def IsAccepted (r : Record) : Prop :=
  ∃ values v, Value.reviveEntries .rebuilding r.entries = .ok values ∧
    Node.ofRecord r.op (Entries.remove tagKey values) = .ok v

/-- All records inside are accepted, but the revived fields of the record itself are refused. -/
def IsRejected (r : Record) (cause : BuildError) : Prop :=
  (∀ i ∈ r.inner, i.IsAccepted) ∧
    ∃ values, Value.reviveEntries .rebuilding r.entries = .ok values ∧
      Node.ofRecord r.op (Entries.remove tagKey values) = .error cause

variable {r : Record} {cause : BuildError}

/-- A record is not both accepted and rejected. -/
theorem IsRejected.not_isAccepted (h : r.IsRejected cause) : ¬ r.IsAccepted := by
  obtain ⟨-, values, hvalues, herror⟩ := h
  rintro ⟨others, v, hothers, hok⟩
  cases hvalues.symm.trans hothers
  cases herror.symm.trans hok

/-- The cause is about the operator of the record. -/
theorem IsRejected.operator_eq (h : r.IsRejected cause) : cause.operator = r.op := by
  obtain ⟨-, values, -, hrecord⟩ := h
  exact Node.operator_of_ofRecord hrecord

/-- A rejected record fails with this error. -/
def FailsAs (r : Record) (e : WireError) : Prop :=
  ∃ cause, r.IsRejected cause ∧ e = .invalidRecord r.op cause

/-- A record that fails is none that is accepted. -/
theorem not_isAccepted_of_failsAs {e : WireError} (h : r.FailsAs e) : ¬ r.IsAccepted := by
  obtain ⟨cause, hrejected, -⟩ := h
  exact hrejected.not_isAccepted

end Record

end Json

namespace Value

/-! ## Evaluating -/

section

variable {scope : Scope}

/-- Items are all evaluated if each of them is. -/
theorem exists_reviveItems_evaluating {trees : List Json}
    (h : ∀ tree ∈ trees, ∃ v, revive (.evaluating scope) tree = .ok v) :
    ∃ values, reviveItems (.evaluating scope) trees = .ok values := by
  induction trees with
  | nil => exact ⟨[], rfl⟩
  | cons tree rest ih =>
      obtain ⟨⟨v, hv⟩, hrest⟩ := List.forall_mem_cons.1 h
      obtain ⟨values, hvalues⟩ := ih hrest
      exact ⟨v :: values, reviveItems_cons hv hvalues⟩

/-- So are the values of a map. -/
theorem exists_reviveEntries_evaluating {entries : Entries Json}
    (h : ∀ entry ∈ entries, ∃ v, revive (.evaluating scope) entry.2 = .ok v) :
    ∃ values, reviveEntries (.evaluating scope) entries = .ok values := by
  induction entries with
  | nil => exact ⟨[], rfl⟩
  | cons entry rest ih =>
      obtain ⟨⟨v, hv⟩, hrest⟩ := List.forall_mem_cons.1 h
      obtain ⟨values, hvalues⟩ := ih hrest
      refine ⟨(entry.1, v) :: values, ?_⟩
      rw [reviveEntries, hv, hvalues]
      rfl

/-- Evaluating a tree never fails. -/
theorem exists_revive_evaluating (scope : Scope) (tree : Json) :
    ∃ v, revive (.evaluating scope) tree = .ok v := by
  induction tree using Json.induction with
  | leaf tree hleaf =>
      cases tree with
      | array _ | object _ => cases hleaf
      | _ => exact ⟨_, rfl⟩
  | array items ih =>
      obtain ⟨values, hvalues⟩ := exists_reviveItems_evaluating ih
      refine ⟨list values, ?_⟩
      rw [revive, hvalues]
      rfl
  | object entries ih =>
      obtain ⟨values, hvalues⟩ := exists_reviveEntries_evaluating ih
      rw [revive, hvalues]
      cases Json.tag? entries with
      | none => exact ⟨map values, rfl⟩
      | some op => exact ⟨scope.apply op (Entries.remove tagKey values), rfl⟩

end

/-! ## Rebuilding -/

/-- Rebuilding a tree goes through its records. -/
abbrev GoesThrough {α : Type} (records : List Json.Record) (x : Except WireError α) : Prop :=
  StopsAtFirst Json.Record.IsAccepted Json.Record.FailsAs records x

/-- Rebuilding items goes through their records, in order. -/
theorem goesThrough_reviveItems {trees : List Json}
    (h : ∀ tree ∈ trees, GoesThrough tree.records (revive .rebuilding tree)) :
    GoesThrough (Json.recordsOfItems trees) (reviveItems .rebuilding trees) := by
  induction trees with
  | nil => exact .nil []
  | cons tree rest ih =>
      obtain ⟨htree, hrest⟩ := List.forall_mem_cons.1 h
      rw [Json.recordsOfItems, reviveItems]
      exact htree.bind fun v _ => (ih hrest).map (v :: ·)

/-- So does rebuilding the values of a map. -/
theorem goesThrough_reviveEntries {entries : Entries Json}
    (h : ∀ entry ∈ entries, GoesThrough entry.2.records (revive .rebuilding entry.2)) :
    GoesThrough (Json.recordsOfEntries entries) (reviveEntries .rebuilding entries) := by
  induction entries with
  | nil => exact .nil []
  | cons entry rest ih =>
      obtain ⟨htree, hrest⟩ := List.forall_mem_cons.1 h
      rw [Json.recordsOfEntries, reviveEntries]
      exact htree.bind fun v _ => (ih hrest).map ((entry.1, v) :: ·)

/-- Once the entries are revived, the record itself is accepted or rejected. -/
theorem goesThrough_finish {r : Json.Record} {values : Entries Value}
    (hvalues : reviveEntries .rebuilding r.entries = .ok values)
    (hinner : ∀ i ∈ r.inner, i.IsAccepted) :
    GoesThrough [r] (Revival.rebuilding.finish r.op (Entries.remove tagKey values)) := by
  rw [Revival.finish]
  cases hrecord : Node.ofRecord r.op (Entries.remove tagKey values) with
  | ok v => exact .single v ⟨values, v, hvalues, hrecord⟩
  | error cause => exact .single_error ⟨cause, ⟨hinner, values, hvalues, hrecord⟩, rfl⟩

/-- **Rebuilding a tree goes through its records**, inner ones first. -/
theorem goesThrough_revive (tree : Json) : GoesThrough tree.records (revive .rebuilding tree) := by
  induction tree using Json.induction with
  | leaf tree hleaf =>
      cases tree with
      | array _ | object _ => cases hleaf
      | _ => exact .nil _
  | array items ih =>
      rw [Json.records, revive]
      exact (goesThrough_reviveItems ih).map list
  | object entries ih =>
      -- the records among the entries come first, whether the record of the object has such fields or not
      have hentries := goesThrough_reviveEntries ih
      rw [Json.records, revive]
      refine hentries.bind fun values hvalues => ?_
      rw [hvalues] at hentries
      cases htag : Json.tag? entries with
      | none => exact .nil (map values)
      | some op => exact goesThrough_finish (r := ⟨op, entries⟩) hvalues hentries.passes_of_ok

/-- **Why a tree is not revived.**  Evaluating never fails.  Rebuilding fails when a record is rejected, and
only then: the error is that of the first such record, and its cause is about the record's operator. -/
theorem revive_failures :
    (∀ scope tree, ∃ v, revive (.evaluating scope) tree = .ok v) ∧
    ∀ tree : Json,
      ((∃ e, revive .rebuilding tree = .error e) ↔ ∃ r ∈ tree.records, ∃ cause, r.IsRejected cause) ∧
      ∀ e, revive .rebuilding tree = .error e → ∃ before r after cause,
        tree.records = before ++ r :: after ∧ (∀ b ∈ before, ¬ ∃ cause, b.IsRejected cause) ∧
        r.IsRejected cause ∧ e = .invalidRecord r.op cause ∧ cause.operator = r.op := by
  refine ⟨exists_revive_evaluating, fun tree => ⟨?_, fun e herror => ?_⟩⟩
  · rw [(goesThrough_revive tree).error_iff fun _ _ => Json.Record.not_isAccepted_of_failsAs]
    constructor
    · rintro ⟨r, hr, e, cause, hrejected, -⟩
      exact ⟨r, hr, cause, hrejected⟩
    · rintro ⟨r, hr, cause, hrejected⟩
      exact ⟨r, hr, _, cause, hrejected, rfl⟩
  · have hfirst := goesThrough_revive tree
    rw [herror] at hfirst
    obtain ⟨before, r, after, hrecords, hbefore, cause, hrejected, rfl⟩ := hfirst.exists_of_error
    refine ⟨before, r, after, cause, hrecords, ?_, hrejected, rfl, hrejected.operator_eq⟩
    rintro b hb ⟨_, hearlier⟩
    exact hearlier.not_isAccepted (hbefore b hb)

/-- Two records are rejected; the first is inside one that has no such field. -/
theorem revive_failures_unknown :
    let few : Json := .object [("s", .array [.boolean true]), (tagKey, .string "And")]
    let outer : Json := .object [(tagKey, .string "Not"), ("u", few), ("v", .string "x")]
    let tree : Json := .array [outer, .object [(tagKey, .string "Len"), ("v", .null)]]
    let e : WireError := .invalidRecord .and (.tooFewStatements .and 2 1)
    revive .rebuilding tree = .error e ∧ (∃ r ∈ tree.records, ∃ cause, r.IsRejected cause) ∧
      ∃ before r after cause, tree.records = before ++ r :: after ∧
        (∀ b ∈ before, ¬ ∃ cause, b.IsRejected cause) ∧ r.IsRejected cause ∧
        e = .invalidRecord r.op cause ∧ cause.operator = r.op := by
  intro few outer tree e
  have herror : revive .rebuilding tree = .error e := rfl
  obtain ⟨hiff, hfirst⟩ := revive_failures.2 tree
  exact ⟨herror, hiff.1 ⟨e, herror⟩, hfirst e herror⟩

end Value

end Latent
