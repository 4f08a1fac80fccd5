import Latent.Proofs.Node.Rules
import Latent.Proofs.Wire.CalendarRecords
import Latent.Proofs.Wire.Rebuilding

/-!
# Leaves that come back in another form

A date, a date-time or a duration is rebuilt as the node whose record it was written as, and a decimal
as a number of JSON.  The new leaf has the kinds of the old one and passes every check that the old one
passes, so the nodes around it are built as before; and it is written as the old one was.
-/

namespace Latent

namespace Value

variable {v : Value}

/-- What is written can be rebuilt, the parts of the value aside: a time of day is not written, and an
infinite number is written as null. -/
def isRebuildable : Value → Bool
  | time _ => false
  | float x => x.isFinite
  | decimal d => d.toBinary64.isFinite
  | _ => true

/-- What a leaf is rebuilt as. -/
def rebuiltLeaf : Value → Value
  | float x => ofBinary64 x
  | decimal d => ofDecimal d
  | date d => node .date (dateValues d)
  | dateTime t => node .dateTime (dateValues t.date ++ timeValues t.time)
  | duration d => node .timeDelta (durationValues d)
  | v => v

/-- The value with every leaf in the form in which it is rebuilt. -/
def rebuiltForm (v : Value) : Value := v.mapLeaves rebuiltLeaf

/-! ## Nodes of calendar values -/

/-- The fields of a date are operands of a `Date`. -/
theorem isSound_dateValues (d : Date) : Node.IsSound .date (dateValues d) :=
  Node.permits_iff.1 rfl

/-- Those of a date-time are operands of a `DateTime`. -/
theorem isSound_dateTimeValues (t : DateTime) :
    Node.IsSound .dateTime (dateValues t.date ++ timeValues t.time) :=
  Node.permits_iff.1 rfl

/-- Those of a duration are operands of a `TimeDelta`. -/
theorem isSound_durationValues (d : Duration) : Node.IsSound .timeDelta (durationValues d) :=
  Node.permits_iff.1 rfl

/-- A value that is written as the record of a sound node is rebuilt as that node. -/
theorem carries_record {op : Operator} {operands : List Value} {trees : List Json}
    (hsound : Node.IsSound op operands) (h : List.Forall₂ IsWrittenAs operands trees)
    (htree : v.toJson = .ok (.tagged op trees)) :
    Carries .rebuilding v (node op operands) := by
  refine ⟨_, htree, ?_⟩
  rw [revive_tagged (reviveItems_of_isWrittenAs .rebuilding h), Revival.finish,
    Node.ofRecord_of_isSound hsound]
  rfl

/-- The node is written as that record. -/
theorem toJson_record {operands : List Value} {trees : List Json} (op : Operator)
    (h : List.Forall₂ IsWrittenAs operands trees) :
    (node op operands).toJson = .ok (.tagged op trees) := by
  rw [toJson, itemsToJson_of_isWrittenAs h]
  rfl

/-! ## Numbers -/

/-- The plain form of a finite number is a number. -/
theorem isNumber_ofBinary64 {x : Binary64} (h : x.isFinite = true) : (ofBinary64 x).isNumber := by
  rw [ofBinary64_finite h]
  cases x.toInt64? <;> rfl

/-- So is that of a decimal in the range of binary64. -/
theorem isNumber_ofDecimal {d : Decimal} (h : d.toBinary64.isFinite = true) :
    (ofDecimal d).isNumber := by
  unfold ofDecimal
  cases d.toInt64? with
  | some i => rfl
  | none => exact isNumber_ofBinary64 h

/-- Such a decimal is written like its plain form. -/
theorem toJson_ofDecimal {d : Decimal} (h : d.toBinary64.isFinite = true) :
    (ofDecimal d).toJson = .ok (.ofDecimal d) := by
  unfold ofDecimal Json.ofDecimal
  cases d.toInt64? with
  | some i => rfl
  | none => exact toJson_ofBinary64 h

/-! ## Checks -/

/-- The leaves that JSON has no form of its own for. -/
def isOpaque : Value → Bool
  | decimal _ | date _ | dateTime _ | time _ | duration _ => true
  | _ => false

/-- Of the checks, an opaque leaf passes at most that of a comparison. -/
theorem standsFor_of_isOpaque {w : Value} (hform : v.isOpaque) (hkinds : w.kinds = v.kinds)
    (hcomparable : Requirement.comparable.accepts v → Requirement.comparable.accepts w) :
    w.StandsFor v := by
  refine ⟨hkinds, fun role hrole => ?_⟩
  cases v with
  | decimal _ | date _ | dateTime _ | time _ | duration _ =>
      cases role with
      | free => rfl
      | truth | statements => cases hrole
      | must r =>
          cases r with
          | comparable => exact hcomparable hrole
          | _ => cases hrole
  | _ => cases hform

/-- A number of JSON stands for a decimal. -/
theorem standsFor_decimal {w : Value} (h : w.isNumber) (d : Decimal) : w.StandsFor (decimal d) := by
  cases w with
  | integer _ | float _ | decimal _ => exact standsFor_of_isOpaque rfl rfl fun _ => rfl
  | _ => cases h

/-! ## Leaves -/

section

variable (hleaf : v.isLeaf) (h : v.isRebuildable)

include hleaf h

/-- A leaf comes back as its rebuilt form. -/
theorem carries_rebuiltLeaf : Carries .rebuilding v (rebuiltLeaf v) := by
  cases v with
  | null => exact carries_null
  | boolean b => exact carries_boolean b
  | integer i => exact carries_integer i
  | float x => exact carries_float x
  | decimal d => exact carries_decimal d
  | string s => exact carries_string s
  | date d => exact carries_record (isSound_dateValues d) (isWrittenAs_dateFields d) rfl
  | dateTime t => exact carries_record (isSound_dateTimeValues t) (isWrittenAs_dateTimeFields t) rfl
  | duration d => exact carries_record (isSound_durationValues d) (isWrittenAs_durationFields d) rfl
  | time _ => cases h
  | list _ | map _ | node _ _ => cases hleaf

/-- The rebuilt form of a leaf is written as the leaf is. -/
theorem toJson_rebuiltLeaf : (rebuiltLeaf v).toJson = v.toJson := by
  cases v with
  | float x => exact toJson_ofBinary64 h
  | decimal d => exact toJson_ofDecimal h
  | date d => exact toJson_record .date (isWrittenAs_dateFields d)
  | dateTime t => exact toJson_record .dateTime (isWrittenAs_dateTimeFields t)
  | duration d => exact toJson_record .timeDelta (isWrittenAs_durationFields d)
  | time _ => cases h
  | list _ | map _ | node _ _ => cases hleaf
  | _ => rfl

/-- The rebuilt form of a leaf stands for it. -/
theorem rebuiltLeaf_standsFor : (rebuiltLeaf v).StandsFor v := by
  cases v with
  | float x => exact plainLeaf_standsFor hleaf h
  | decimal d => exact standsFor_decimal (isNumber_ofDecimal h) d
  | date _ | dateTime _ => exact standsFor_of_isOpaque rfl rfl fun _ => rfl
  | duration _ => exact standsFor_of_isOpaque rfl rfl fun hrefused => by cases hrefused
  | time _ => cases h
  | list _ | map _ | node _ _ => cases hleaf
  | _ => exact .refl _

end

/-! ## Values -/

/-- **What is written can be rebuilt, whatever its leaves.**  No check of the construction fails; the
result has the same kinds, and is written as the same tree. -/
theorem revive_rebuilding_rebuiltForm (hbuilt : WellBuilt v) (h : v.all isRebuildable)
    (htag : v.all isUntagged) :
    ∃ tree w, v.toJson = .ok tree ∧ revive .rebuilding tree = .ok w ∧ w = v.rebuiltForm ∧
      w.kinds = v.kinds ∧ w.toJson = .ok tree ∧ w.encode = v.encode := by
  obtain ⟨tree, htree, hrevive⟩ : Carries .rebuilding v v.rebuiltForm :=
    carries_mapLeaves (fun _ hleaf h => ⟨carries_rebuiltLeaf hleaf h, rebuiltLeaf_standsFor hleaf h⟩)
      ⟨v, hbuilt, all_and h htag⟩
  have hkinds : v.rebuiltForm.kinds = v.kinds :=
    (mapLeaves_standsFor (fun _ hleaf h => rebuiltLeaf_standsFor hleaf h) h).kinds
  have hagain : v.rebuiltForm.toJson = v.toJson :=
    toJson_mapLeaves (fun _ hleaf h => toJson_rebuiltLeaf hleaf h) h
  refine ⟨tree, v.rebuiltForm, htree, hrevive, rfl, hkinds, hagain.trans htree, ?_⟩
  rw [encode, encode, hagain]

/-- A date compared with a decimal, a look-up with a duration for a default, and an equality of a date-time
with the result of that look-up. -/
theorem revive_rebuilding_rebuiltForm_comparison :
    let day : Date := ⟨0, 2, 29, by decide⟩
    let get := node .get [map [("k", decimal ⟨150, 2⟩)], string "k", duration ⟨-1500, by decide⟩]
    let greater := node .greater [date day, decimal ⟨150, 2⟩, node .bool [date day]]
    let v := list [greater, node .equal [dateTime ⟨day, ⟨86399, 1999999999, by decide⟩⟩, get]]
    (WellBuilt v ∧ v.all isRebuildable ∧ v.all isUntagged) ∧
      ∃ tree w, v.toJson = .ok tree ∧ revive .rebuilding tree = .ok w ∧ w = v.rebuiltForm ∧
        w.kinds = v.kinds ∧ w.toJson = .ok tree ∧ w.encode = v.encode := by
  intro day get greater v
  have hbuilt : WellBuilt v := wellBuilt_iff.2 ⟨by decide, by decide⟩
  have hrebuildable : v.all isRebuildable := by decide +kernel
  have htag : v.all isUntagged := by decide
  exact ⟨⟨hbuilt, hrebuildable, htag⟩, revive_rebuilding_rebuiltForm hbuilt hrebuildable htag⟩

end Value

end Latent
