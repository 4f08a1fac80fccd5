import Latent.Proofs.Evaluate.Variables
import Latent.Proofs.Value.Ordinals

/-!
# Comparisons of variables

What `Equal`, `Greater` and `Less` say of two variables is decided by the equality of their values and by
the places of their ordinals (`compares_named`).  The ordinals are in one of three orders; so the verdicts
are coherent exactly when equality is that of the ordinals.
-/

namespace Latent

/-- What comparisons say of two values: equal, greater, less, greater or equal. -/
structure Verdicts where
  equal : Bool
  greater : Bool
  less : Bool
  atLeast : Bool
  deriving DecidableEq, Repr

namespace Verdicts

/-- How many of equal, greater and less hold. -/
def count (v : Verdicts) : Nat := [v.equal, v.greater, v.less].count true

/-- Exactly one of equal, greater and less holds, and the fourth holds with greater and with equal only. -/
def IsCoherent (v : Verdicts) : Prop := v.count = 1 ∧ v.atLeast = (v.greater || v.equal)

/-- At most one of equal, greater and less holds, and the fourth holds with greater and with equal. -/
def IsConsistent (v : Verdicts) : Prop := v.count ≤ 1 ∧ (v.greater || v.equal → v.atLeast)

instance (v : Verdicts) : Decidable v.IsCoherent := inferInstanceAs (Decidable (_ ∧ _))

/-- The verdicts on values of which it is known whether they are equal, by their ordinals. -/
def ofOrdinals (equal : Bool) (x y : Binary64) : Verdicts := ⟨equal, y.lt x, x.lt y, y.le x⟩

variable {equal : Bool} {x y : Binary64} (hx : x.isNan = false) (hy : y.isNan = false)
  (h : equal → x.eq y)

include hx hy h

/-- **If equal values have one ordinal, the verdicts on them are consistent**, and they are coherent unless
different values have one ordinal. -/
theorem isCoherent_ofOrdinals : (ofOrdinals equal x y).IsConsistent ∧
    ((ofOrdinals equal x y).IsCoherent ↔ ¬(equal = false ∧ x.eq y)) := by
  obtain ⟨p, hp⟩ := Binary64.exists_rank? hx
  obtain ⟨q, hq⟩ := Binary64.exists_rank? hy
  have heq : x.eq y = decide (p = q) := by rw [Binary64.eq, Binary64.compare, hp, hq]
  have hgreater : y.lt x = decide (q < p) := by rw [Binary64.lt, Binary64.compare, hp, hq]
  have hless : x.lt y = decide (p < q) := by rw [Binary64.lt, Binary64.compare, hp, hq]
  have hatLeast : y.le x = decide (q ≤ p) := by rw [Binary64.le, Binary64.compare, hp, hq]
  rw [heq, decide_eq_true_eq] at h ⊢
  unfold IsConsistent IsCoherent count ofOrdinals
  rw [hgreater, hless, hatLeast]
  -- one case for each order of the places, in which all comparisons of them are known
  rcases Int.lt_trichotomy p q with hlt | rfl | hgt
  · have hne : equal = false := Bool.eq_false_iff.2 fun hequal => hlt.ne (h hequal)
    simp [hne, hlt, hlt.ne, not_lt.2 hlt.le, not_le.2 hlt]
  · cases equal <;> simp
  · have hne : equal = false := Bool.eq_false_iff.2 fun hequal => hgt.ne' (h hequal)
    simp [hne, hgt, hgt.le, hgt.ne', not_lt.2 hgt.le]

end Verdicts

/-- The variable of a name, zero when there is none. -/
def Value.named (name : String) : Value := .node .eval [.string name, .integer 0]

namespace Scope

/-- The result of a call: its node is built, or refused, and evaluated. -/
def call (scope : Scope) (op : Operator) (args : List Value) : Except BuildError Value :=
  (Node.ofArguments op args).map (Value.evaluate scope)

/-- The calls of the comparisons of two values have these results. -/
structure Compares (scope : Scope) (left right : Value) (v : Verdicts) : Prop where
  equal : scope.call .equal [left, right] = .ok (.boolean v.equal)
  greater : scope.call .greater [left, right, .boolean false] = .ok (.boolean v.greater)
  less : scope.call .less [left, right, .boolean false] = .ok (.boolean v.less)
  atLeast : scope.call .greater [left, right, .boolean true] = .ok (.boolean v.atLeast)

variable {scope : Scope} {left right : String} {a b : Value}

/-- A name that is bound is not walked along. -/
theorem resolve?_of_find? (h : scope.bindings.find? left = some a) :
    Path.resolve? left scope.bindings = some a := by
  obtain ⟨rest, hsplit⟩ := Path.exists_splitOn left.toList
  have hjoin := Path.join_segments left
  rw [Path.segments, hsplit] at hjoin
  rw [Path.resolve?, Path.segments, hsplit, Path.reach?, hjoin, h]

/-- A variable has the value that it is bound to. -/
theorem evaluate_named (h : scope.bindings.find? left = some a) :
    (Value.named left).evaluate scope = a := by
  rw [Value.named, Value.evaluate_node]
  refine (scope.apply_eval_string left [.integer 0]).trans ?_
  rw [resolve?_of_find? h, Option.getD_some]

/-- A call that is built is applied to its evaluated operands. -/
theorem call_of_ofArguments {op : Operator} {args operands : List Value}
    (h : Node.ofArguments op args = .ok (.node op operands)) : scope.call op args
      = .ok (scope.apply op (Value.record op (operands.map (Value.evaluate scope)))) := by
  rw [call, h, ← Value.evaluate_node]
  rfl

/-- A comparison that is accepted as it is compares what its operands evaluate to. -/
theorem call_comparison {op : Operator} (hop : op = .greater ∨ op = .less) {l r : Value} {e : Bool}
    (hnode : Node.ofArguments op [l, r, .boolean e] = .ok (.node op [l, r, .boolean e]))
    (ha : l.evaluate scope = a) (hb : r.evaluate scope = b) :
    scope.call op [l, r, .boolean e]
      = .ok (scope.apply op [("s1", a), ("s2", b), ("e", .boolean e)]) := by
  have hfields : op.fields = ["s1", "s2", "e"] := by
    rcases hop with rfl | rfl <;> rfl
  rw [call_of_ofArguments hnode, Value.record, hfields]
  simp only [List.map_cons, List.map_nil, ha, hb]
  rfl

/-- Values are compared by their ordinals. -/
theorem compare_eq {x y : Binary64} (hx : a.ordinal? = some x) (hy : b.ordinal? = some y)
    (strict inclusive : Binary64 → Binary64 → Bool) (e : Bool) :
    Fields.compare [("s1", a), ("s2", b), ("e", .boolean e)] strict inclusive
      = .boolean (if e then inclusive x y else strict x y) := by
  have hordinals : Fields.ordinals? [("s1", a), ("s2", b), ("e", .boolean e)] = some (x, y) := by
    show (a.ordinal?.bind fun x => b.ordinal?.bind fun y => some (x, y)) = _
    rw [hx, hy]
    rfl
  rw [Fields.compare, hordinals]
  rfl

/-- **The verdicts on two variables are those on their values.** -/
theorem compares_named {x y : Binary64} (hleft : scope.bindings.find? left = some a)
    (hright : scope.bindings.find? right = some b) (hx : a.ordinal? = some x)
    (hy : b.ordinal? = some y) : scope.Compares (.named left) (.named right)
      (.ofOrdinals (a.looselyEqual b) x y) := by
  have ha := evaluate_named hleft
  have hb := evaluate_named hright
  refine ⟨?_, ?_, ?_, ?_⟩
  · have hnode : Node.ofArguments .equal [.named left, .named right]
        = .ok (.node .equal [.named left, .named right]) := rfl
    rw [call_of_ofArguments hnode]
    simp only [List.map_cons, List.map_nil, ha, hb]
    rfl
  -- variables count as numbers, which is what their default is, so they may be compared
  · rw [call_comparison (.inl rfl) rfl ha hb]
    exact congrArg Except.ok (compare_eq hx hy _ _ false)
  · rw [call_comparison (.inr rfl) rfl ha hb]
    exact congrArg Except.ok (compare_eq hx hy _ _ false)
  · rw [call_comparison (.inl rfl) rfl ha hb]
    exact congrArg Except.ok (compare_eq hx hy _ _ true)

/-- **Comparisons of two numbers, or of two date-times, are coherent unless these are blurred**: different
decimals or date-times with one ordinal.  Of blurred values too at most one of equal, greater and less holds,
and decimals of moderate size and date-times near 1970-01-01 are not blurred. -/
theorem compares_coherent_iff (scope : Scope) (left right : String) (a b : Value)
    (hleft : scope.bindings.find? left = some a) (hright : scope.bindings.find? right = some b)
    (h : a.AreComparable b) :
    ∃ v, scope.Compares (.named left) (.named right) v ∧ v.IsConsistent ∧
      (v.IsCoherent ↔ ¬a.Blurred b) ∧ (a.AreSpaced b → v.IsCoherent) := by
  obtain ⟨x, y, hordinals⟩ := Value.exists_haveOrdinals h
  obtain ⟨hconsistent, hcoherent⟩ := Verdicts.isCoherent_ofOrdinals hordinals.left_isNan
    hordinals.right_isNan hordinals.eq_of_equal
  rw [← hordinals.blurred_iff] at hcoherent
  exact ⟨_, compares_named hleft hright hordinals.left hordinals.right, hconsistent, hcoherent,
    fun hspaced => hcoherent.2 (Value.not_blurred hspaced)⟩

/-- The last microsecond of a year and the first one of the next. -/
theorem compares_coherent_iff_micros :
    let a : Value := .dateTime ⟨⟨2099, 12, 31, by decide⟩, ⟨86399, 999999000, by decide⟩⟩
    let b : Value := .dateTime ⟨⟨2100, 1, 1, by decide⟩, ⟨0, 0, by decide⟩⟩
    let scope : Scope := ⟨[("a.b", a), ("b", b)], default⟩
    (scope.bindings.find? "a.b" = some a ∧ scope.bindings.find? "b" = some b ∧ a.AreComparable b ∧
        a.AreSpaced b) ∧
      ∃ v, scope.Compares (.named "a.b") (.named "b") v ∧ v.IsConsistent ∧
        (v.IsCoherent ↔ ¬a.Blurred b) ∧ (a.AreSpaced b → v.IsCoherent) := by
  intro a b scope
  have hspaced : a.AreSpaced b := by
    show DateTime.IsNear _ ∧ DateTime.IsNear _
    decide
  have hcomparable : a.AreComparable b := .inr ⟨_, _, rfl, rfl⟩
  exact ⟨⟨rfl, rfl, hcomparable, hspaced⟩,
    compares_coherent_iff scope "a.b" "b" a b rfl rfl hcomparable⟩

/-- Two decimals that differ in the twentieth place, and two instants a microsecond apart in the year 3000:
none of equal, greater and less holds of them, but greater or equal does. -/
theorem compares_incoherent :
    let x : Value := .decimal ⟨1, 0⟩
    let y : Value := .decimal ⟨100000000000000000001, 20⟩
    let s : Value := .dateTime ⟨⟨3000, 1, 1, by decide⟩, ⟨0, 0, by decide⟩⟩
    let t : Value := .dateTime ⟨⟨3000, 1, 1, by decide⟩, ⟨0, 1000, by decide⟩⟩
    let scope : Scope := ⟨[("x", x), ("y", y), ("s", s), ("t", t)], default⟩
    let v : Verdicts := ⟨false, false, false, true⟩
    (x.AreComparable y ∧ scope.Compares (.named "x") (.named "y") v) ∧
      (s.AreComparable t ∧ scope.Compares (.named "s") (.named "t") v) ∧ ¬v.IsCoherent := by
  intro x y s t scope v
  have hdecimals : Verdicts.ofOrdinals (x.looselyEqual y) (Decimal.toBinary64 ⟨1, 0⟩)
      (Decimal.toBinary64 ⟨100000000000000000001, 20⟩) = v := by
    decide +kernel
  have hinstants : Verdicts.ofOrdinals (s.looselyEqual t)
      (DateTime.millis ⟨⟨3000, 1, 1, by decide⟩, ⟨0, 0, by decide⟩⟩)
      (DateTime.millis ⟨⟨3000, 1, 1, by decide⟩, ⟨0, 1000, by decide⟩⟩) = v := by
    decide +kernel
  refine ⟨⟨.inl ⟨by decide +kernel, by decide +kernel⟩, ?_⟩, ⟨.inr ⟨_, _, rfl, rfl⟩, ?_⟩, by decide⟩
  · rw [← hdecimals]
    exact compares_named rfl rfl rfl rfl
  · rw [← hinstants]
    exact compares_named rfl rfl rfl rfl

end Scope

end Latent
