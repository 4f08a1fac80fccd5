import Latent.Proofs.Evaluate.Agreement
import Latent.Proofs.Evaluate.Parts
import Latent.Proofs.Value.Sameness

/-!
# Equal fields, equal results

Operators look at their fields through views that do not tell corresponding values apart, so on
corresponding fields they have corresponding results (`Scope.apply_corresponds`).  One view is finer: a
number that is looked up in a map spells a key, and `-0` is not `0`.  But for the membership of a zero in
a map, an operator has therefore the same result on fields that are the same (`Scope.apply_same`).
-/

namespace Latent

open Value (Corresponds LeafViews Identified)

/-! ## Lookups -/

namespace Value

variable {related : Value → Value → Prop} {v v' w w' : Value}

/-- Of related items, some satisfies a test when some satisfies the other. -/
theorem any_congr {p q : Value → Bool} {items others : List Value}
    (h : List.Forall₂ related items others) (hpq : ∀ v w, related v w → p v = q w) :
    items.any p = others.any q := by
  induction h with
  | nil => rfl
  | cons hitem _ ih => rw [List.any_cons, List.any_cons, hpq _ _ hitem, ih]

/-- A leaf binds nothing. -/
theorem entries?_of_isLeaf (h : v.isLeaf) : v.entries? = none := by
  cases v with
  | list _ | map _ | node _ _ => cases h
  | _ => rfl

/-- A leaf is no list of statements. -/
theorem truths?_of_isLeaf (h : v.isLeaf) : v.truths? = none := by
  cases v with
  | list _ | map _ | node _ _ => cases h
  | _ => rfl

/-- What operators make is a leaf. -/
theorem isLeaf_of_isComputed (h : v.isComputed) : v.isLeaf := by
  cases v with
  | list _ | map _ | node _ _ => cases h
  | _ => rfl

/-- Of leaves, texts alone hold something. -/
theorem holds_of_isLeaf (h : v.isLeaf) (key : Value) : v.holds key
    = (v.toText?.bind fun text =>
        key.toText?.map fun part => Text.occursIn part.toList text.toList).getD false := by
  cases v with
  | list _ | map _ | node _ _ => cases h
  | _ => rfl

namespace Corresponds

variable (hviews : LeafViews related)

include hviews

/-- Truth by truth, corresponding lists are alike. -/
theorem map_isTruthy {items others : List Value}
    (h : List.Forall₂ (Corresponds related) items others) :
    items.map Value.isTruthy = others.map Value.isTruthy := by
  induction h with
  | nil => rfl
  | cons hitem _ ih => rw [List.map_cons, List.map_cons, hitem.isTruthy hviews, ih]

/-- Corresponding lists of statements have the same truths. -/
theorem truths? (h : Corresponds related v v') : v.truths? = v'.truths? := by
  cases h with
  | leaf hv hv' _ => rw [truths?_of_isLeaf hv, truths?_of_isLeaf hv']
  | list h => exact congrArg some (map_isTruthy hviews h)
  | map _ _ _ _ | node _ _ => rfl

/-- Corresponding values exceed corresponding ones alike. -/
theorem exceeds (h : Corresponds related v v') (h' : Corresponds related w w') {inclusive : Bool} :
    v.exceeds inclusive w = v'.exceeds inclusive w' := by
  have hleft := rel_of_map_eq (h.ordinal? hviews)
  have hright := rel_of_map_eq (h'.ordinal? hviews)
  rw [Value.exceeds, Value.exceeds]
  generalize v.ordinal? = x, v'.ordinal? = x' at hleft ⊢
  generalize w.ordinal? = y, w'.ordinal? = y' at hright ⊢
  cases hleft with
  | none => rfl
  | some hx =>
      cases hright with
      | none => rfl
      | some hy =>
          show (if inclusive then _ else _) = if inclusive then _ else _
          rw [Binary64.le_congr hy hx, Binary64.lt_congr hy hx]

/-- Corresponding maps bind corresponding values to a text. -/
theorem bound? (h : Corresponds related v v') (hkey : Corresponds related w w') :
    Option.Rel (Corresponds related) (v.bound? w) (v'.bound? w') := by
  rw [Value.bound?, Value.bound?, hkey.toText? hviews]
  cases w'.toText? with
  | none => exact .none
  | some key =>
      cases h with
      | leaf hv hv' _ =>
          rw [entries?_of_isLeaf hv, entries?_of_isLeaf hv']
          exact .none
      | map _ _ _ h => exact h key
      | list _ | node _ _ => exact .none

/-- **Corresponding values hold corresponding keys alike**, if a map does not tell the keys apart. -/
theorem holds (h : Corresponds related v v') (hkey : Corresponds related w w')
    (hmap : ∀ entries, v = .map entries → v.holds w = v.holds w') : v.holds w = v'.holds w' := by
  cases h with
  | leaf hv hv' h =>
      rw [holds_of_isLeaf hv, holds_of_isLeaf hv', hviews.toText? _ _ h, hkey.toText? hviews]
  | list h => exact any_congr h fun _ _ hitem => hitem.looselyEqual_congr hviews hkey
  | map _ _ _ h =>
      rw [hmap _ rfl, Value.holds, Value.holds]
      cases w'.asKey? with
      | none => rfl
      | some key =>
          exact congrArg (Option.getD · false) (map_eq_of_rel (fun _ _ h => h.isTruthy hviews) (h key))
  | node _ _ => rfl

end Corresponds

end Value

/-! ## Views of fields -/

namespace Fields

variable {related : Value → Value → Prop} (hviews : LeafViews related) {fields others : Fields}
  (h : ∀ key, Corresponds related (fields.value key) (others.value key))

include hviews h

/-- Corresponding fields have one whole part. -/
theorem whole?_corresponds (key : String) : fields.whole? key = others.whole? key := by
  refine congrArg (Option.map fun i => (Int64.ofIntClamp i).toInt) ?_
  exact bind_eq_of_rel (fun _ _ => Binary64.truncate?_congr) (rel_of_map_eq ((h key).rank? hviews))

/-- Corresponding fields are components of one rank. -/
theorem component_corresponds (key : String) :
    (fields.component key).rank? = (others.component key).rank? :=
  rel_getD (rel_of_map_eq ((h key).rank? hviews)) rfl

/-- Corresponding fields adjust a date alike. -/
theorem dateAdjustment_corresponds : fields.dateAdjustment = others.dateAdjustment :=
  dateAdjustment_congr (fun key _ => whole?_corresponds hviews h key)
    fun key _ => congrArg (Option.getD · 0) (whole?_corresponds hviews h key)

/-- So they do a time. -/
theorem timeAdjustment_corresponds : fields.timeAdjustment = others.timeAdjustment :=
  timeAdjustment_congr (fun key _ => whole?_corresponds hviews h key)
    fun key _ => congrArg (Option.getD · 0) (whole?_corresponds hviews h key)

end Fields

/-! ## Operators -/

namespace Scope

variable {related : Value → Value → Prop} (hviews : LeafViews related) (scope : Scope)
  {op : Operator} {fields others : Fields}

include hviews

/-- An operator finds corresponding values in corresponding fields, if a map that is asked for a member does
not tell the keys apart. -/
theorem seesAlike_of_corresponds
    (h : ∀ key, Corresponds related (fields.value key) (others.value key))
    (hmap : op = .member → ∀ entries, fields.value "v" = .map entries →
      (fields.value "v").holds (fields.value "k") = (fields.value "v").holds (others.value "k")) :
    scope.SeesAlike (Corresponds related) fields others op := by
  -- each operator looks at its operands by views; only `member` spells a number as a key
  cases op with
  | eval => exact ⟨(h "v").toText? hviews, fun _ => h "d"⟩
  | not | bool => exact (h "v").isTruthy hviews
  | and | or => exact (h "s").truths? hviews
  | equal => exact (h "s1").looselyEqual_congr hviews (h "s2")
  | greater =>
      rw [SeesAlike, (h "e").isTruthy hviews]
      exact (h "s1").exceeds hviews (h "s2")
  | less =>
      rw [SeesAlike, (h "e").isTruthy hviews]
      exact (h "s2").exceeds hviews (h "s1")
  | choose => exact ⟨(h "c").isTruthy hviews, h "t", h "e"⟩
  | get => exact ⟨(h "v").bound? hviews (h "k"), h "d"⟩
  | member => exact (h "v").holds hviews (h "k") (hmap rfl)
  | date =>
      exact ⟨Fields.dateAdjustment_corresponds hviews h, (h "start").startDate hviews scope⟩
  | dateTime =>
      exact ⟨Fields.dateAdjustment_corresponds hviews h, Fields.timeAdjustment_corresponds hviews h,
        (h "start").startTime hviews scope⟩
  | timeDelta =>
      exact Duration.ofComponents?_congr (Fields.component_corresponds hviews h "d")
        (Fields.component_corresponds hviews h "s") (Fields.component_corresponds hviews h "m")
  | len => exact (h "v").length? hviews

/-- **An operator has corresponding results on corresponding fields**, if a map that is asked for a member
does not tell the keys apart. -/
theorem apply_corresponds (hscope : (Value.map scope.bindings).all Value.hasDistinctKeys)
    (h : ∀ key, Corresponds related (fields.value key) (others.value key))
    (hmap : op = .member → ∀ entries, fields.value "v" = .map entries →
      (fields.value "v").holds (fields.value "k") = (fields.value "v").holds (others.value "k")) :
    Corresponds related (scope.apply op fields) (scope.apply op others) := by
  refine scope.related_apply (fun v hv => ?_) (fun path v hreach => ?_)
    (seesAlike_of_corresponds hviews scope h hmap)
  · have hleaf := Value.isLeaf_of_isComputed hv
    exact .leaf hleaf hleaf (hviews.refl v hleaf)
  · exact .refl hviews.refl (Path.all_of_reach? hreach hscope)

end Scope

/-! ## Fields that are the same -/

namespace Value

variable {v w : Value} {entries : Entries Value}

/-- Canonical leaves spell the keys that they stand for, `-0` apart. -/
theorem asKey?_canonicalLeaf (h : v ≠ .float (.zero true)) : (canonicalLeaf v).asKey? = v.asKey? := by
  cases v with
  | float x =>
      have hx : x ≠ .zero true := fun heq => h (congrArg _ heq)
      rw [canonicalLeaf_eq_settledLeaf hx]
      exact asKey?_settled (.float x)
  | _ => rfl

/-- Asked for members, a map looks at the key alone that a value spells. -/
theorem holds_map_congr (h : v.asKey? = w.asKey?) : (map entries).holds v = (map entries).holds w := by
  rw [holds, holds, h]

/-- A map does not tell keys that are the same apart, unless one of them is negative zero and the map
gives the spellings of the two zeros different truths. -/
theorem holds_map_of_corresponds (h : Corresponds Identified v w)
    (hzero : (v = .float (.zero true) ↔ w = .float (.zero true)) ∨
      (map entries).holds (.string "-0") = (map entries).holds (.string "0")) :
    (map entries).holds v = (map entries).holds w := by
  have hcanonical {v : Value} (hv : v ≠ .float (.zero true)) :
      (map entries).holds (canonicalLeaf v) = (map entries).holds v :=
    holds_map_congr (asKey?_canonicalLeaf hv)
  cases h with
  | list _ | map _ _ _ _ | node _ _ => rfl
  | leaf _ _ h =>
      rcases hzero with hzero | hzero
      · by_cases hv : v = .float (.zero true)
        · rw [hv, hzero.1 hv]
        · rw [← hcanonical hv, h, hcanonical (mt hzero.2 hv)]
      · have hall (v : Value) : (Value.map entries).holds (canonicalLeaf v)
            = (Value.map entries).holds v := by
          by_cases hv : v = .float (.zero true)
          · have hspelled : (float (.zero true)).asKey? = (string "-0").asKey? := by decide +kernel
            rw [hv, canonicalLeaf_zero, holds_map_congr hspelled, hzero]
            rfl
          · exact hcanonical hv
        rw [← hall v, h, hall w]

/-- Operators do not make a `nan`. -/
theorem isReflexive_of_isComputed (h : v.isComputed) : v.isReflexive := by
  cases v with
  | null | boolean _ | integer _ | date _ | dateTime _ | duration _ => rfl
  | _ => cases h

end Value

namespace Scope

/-- **An operator has the same result on fields that are the same.**  There is one exception: asked for
the membership of a key, a map may tell negative zero from a zero of another form, when it gives the
keys `-0` and `0` different truths. -/
theorem apply_same (scope : Scope) (op : Operator) (fields others : Fields)
    (hscope : (Value.map scope.bindings).all Value.isReflexive)
    (hfields : (Value.map fields).all Value.hasDistinctKeys)
    (hothers : (Value.map others).all Value.hasDistinctKeys)
    (hsame : ∀ key, Option.Rel (fun v w => v.same w = true) (Entries.find? key fields)
      (Entries.find? key others))
    (hzero : op = .member → ∀ entries, fields.value "v" = .map entries →
      (fields.value "k" = .float (.zero true) ↔ others.value "k" = .float (.zero true)) ∨
        (Value.map entries).holds (.string "-0") = (Value.map entries).holds (.string "0")) :
    (scope.apply op fields).same (scope.apply op others) = true := by
  have hvalue (key : String) : (fields.value key).all Value.isReflexive ∧
      Corresponds Identified (fields.value key) (others.value key) := by
    have hfound := rel_imp (fun v w hv hw h => Value.corresponds_of_same
      ((Value.all_map.1 hfields).2 (key, v) (Entries.mem_of_find? hv))
      ((Value.all_map.1 hothers).2 (key, w) (Entries.mem_of_find? hw)) h) (hsame key)
    exact rel_getD hfound ⟨rfl, .leaf rfl rfl rfl⟩
  have hresult : (scope.apply op fields).all Value.isReflexive :=
    scope.all_apply op (fun _ => Value.isReflexive_of_isComputed) hscope fun key => (hvalue key).1
  refine Value.same_of_corresponds hresult (apply_corresponds Value.identified_views scope
    (Value.hasDistinctKeys_of_isReflexive hscope) (fun key => (hvalue key).2) ?_)
  intro hop entries hmap
  rw [hmap]
  exact Value.holds_map_of_corresponds (hvalue "k").2 (hzero hop entries hmap)

/-- Zeros of both forms are looked up in maps that differ in the order of their entries and in the scale
of a decimal, and bind both spellings to what is true. -/
theorem apply_same_zero :
    let scope : Scope := ⟨[("x", .list [.integer 1])], default⟩
    let entries : Entries Value := [("0", .boolean true), ("a", .decimal ⟨15, 1⟩), ("-0", .string "b")]
    let reordered : Entries Value := [("a", .decimal ⟨150, 2⟩), ("-0", .string "b"), ("0", .boolean true)]
    let fields : Fields := [("k", .float (.zero true)), ("v", .map entries)]
    let others : Fields := [("v", .map reordered), ("k", .integer 0)]
    ((Value.map scope.bindings).all Value.isReflexive ∧
      (Value.map fields).all Value.hasDistinctKeys ∧ (Value.map others).all Value.hasDistinctKeys ∧
      (∀ key, Option.Rel (fun v w => v.same w = true) (Entries.find? key fields)
        (Entries.find? key others)) ∧
      (Value.map entries).holds (.string "-0") = (Value.map entries).holds (.string "0")) ∧
    (scope.apply .member fields).same (scope.apply .member others) = true := by
  intro scope entries reordered fields others
  have hscope : (Value.map scope.bindings).all Value.isReflexive := by decide
  have hfields : (Value.map fields).all Value.hasDistinctKeys := by decide
  have hothers : (Value.map others).all Value.hasDistinctKeys := by decide
  have hdistinct : Entries.Distinct fields := by decide
  have hlength : fields.length = others.length := by decide
  have hbound : Value.allBound Value.same fields others := by decide +kernel
  have hsame (key : String) : Option.Rel (fun v w => v.same w = true) (Entries.find? key fields)
      (Entries.find? key others) :=
    Value.rel_of_allBound hdistinct hlength hbound (fun _ _ _ _ h => h) key
  have hspellings : (Value.map entries).holds (.string "-0") = (Value.map entries).holds (.string "0") := by
    decide
  refine ⟨⟨hscope, hfields, hothers, hsame, hspellings⟩,
    apply_same scope .member fields others hscope hfields hothers hsame fun _ _ hmap => .inr ?_⟩
  cases hmap
  exact hspellings

/-- Negative zero and zero are the same, and yet a map that binds `0` alone holds only one of them. -/
theorem exists_member_not_same : ∃ (scope : Scope) (fields others : Fields),
    (Value.map scope.bindings).all Value.isReflexive ∧
    (Value.map fields).all Value.hasDistinctKeys ∧ (Value.map others).all Value.hasDistinctKeys ∧
    (∀ key, Option.Rel (fun v w => v.same w = true) (Entries.find? key fields)
      (Entries.find? key others)) ∧
    (scope.apply .member fields).same (scope.apply .member others) = false := by
  let container : Value := .map [("0", .boolean true)]
  let fields : Fields := [("k", .float (.zero true)), ("v", container)]
  let others : Fields := [("k", .integer 0), ("v", container)]
  have hdistinct : Entries.Distinct fields := by decide
  have hlength : fields.length = others.length := by decide
  have hbound : Value.allBound Value.same fields others := by decide +kernel
  exact ⟨default, fields, others, rfl, by decide, by decide,
    Value.rel_of_allBound hdistinct hlength hbound fun _ _ _ _ h => h, by decide +kernel⟩

end Scope

end Latent
