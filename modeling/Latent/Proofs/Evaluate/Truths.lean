import Latent.Proofs.Evaluate.Records

/-!
# Operators on truths

Construction wraps an operand that is asked for its truth, unless the operand declares to be a truth value;
and a variable may be bound to something else than its node declares.  Neither is seen in a result: a node
evaluates to the result of its operator on the evaluated values that it was built from
(`Node.evaluate_build`).  So `And`, `Or`, `Not`, `If` and the comparisons compute with the truths of these
values, and a negation goes through `And` and `Or` (`Scope.map_notAll`, `Scope.map_anyNot`).
-/

namespace Latent

/-! ## When a node is built -/

/-- A field of the given role takes a value, as it is or coerced. -/
def Role.takes : Role → Value → Bool
  | free, _ | truth, _ => true
  | must r, v => r.accepts v
  | statements, .list items => Operator.leastStatements ≤ items.length
  | statements, _ => false

namespace Node

variable {op : Operator} {values : List Value} {v : Value}

/-- An operand is made when the field takes its value. -/
theorem isOk_operandOf (field : String) (v : Value) (role : Role) :
    (operandOf op field v role).isOk = role.takes v := by
  cases role with
  | free | truth => rfl
  | must r =>
      rw [operandOf, require, Role.takes]
      cases r.accepts v <;> rfl
  | statements =>
      cases v with
      | list items =>
          rw [operandOf, requireCount, Role.takes]
          by_cases hcount : items.length < Operator.leastStatements
          · rw [if_pos hcount, decide_eq_false (Nat.not_le.2 hcount)]
            rfl
          · rw [if_neg hcount, decide_eq_true (Nat.not_lt.1 hcount)]
            rfl
      | _ => rfl

/-- Operands are made when every field takes its value. -/
theorem isOk_operandsOf {slots : List Slot} (hlength : values.length = slots.length) :
    (operandsOf op slots values).isOk
      = (slots.zip values).all fun pair => pair.1.role.takes pair.2 := by
  induction slots generalizing values with
  | nil => rfl
  | cons slot slots ih =>
      obtain ⟨v, rest, rfl⟩ := List.exists_cons_of_length_eq_add_one hlength
      have hhead : (operandOf op slot.key v slot.role).isOk = _ := isOk_operandOf slot.key v slot.role
      have hrest : (operandsOf op slots rest).isOk = _ := ih (by simpa using hlength)
      rw [List.zip_cons_cons, List.all_cons, ← hhead, ← hrest, operandsOf]
      cases operandOf op slot.key v slot.role with
      | error e => rfl
      | ok operand => cases operandsOf op slots rest <;> rfl

/-- Only `Equal` asks something of its operands taken together. -/
theorem isOk_build (hop : op ≠ .equal) (hlength : values.length = op.fields.length) :
    (build op values).isOk = (op.slots.zip values).all fun pair => pair.1.role.takes pair.2 := by
  have htogether (operands : List Value) : requireTogether op operands = .ok () := by
    cases op <;> first | rfl | exact absurd rfl hop
  have hoperands : (operandsOf op op.slots values).isOk = _ :=
    isOk_operandsOf (hlength.trans op.length_slots.symm)
  rw [← hoperands, build]
  cases operandsOf op op.slots values with
  | error e => rfl
  | ok operands =>
      show ((requireTogether op operands >>= fun _ => _) : Except BuildError Value).isOk = true
      rw [htogether]
      rfl

/-! ## What it evaluates to -/

/-- **A node evaluates to the result of its operator on the values that it was built from**, coerced or
not. -/
theorem evaluate_build (scope : Scope) (hlength : values.length = op.fields.length)
    (h : build op values = .ok v) :
    v.evaluate scope = scope.apply op (Value.record op (values.map (Value.evaluate scope))) := by
  have hrecord : ofRecord op (op.fields.zip values) = .ok v := (ofRecord_zip_all hlength).trans h
  have hfields : Value.record op (values.map (Value.evaluate scope))
      = (op.fields.zip values).map fun entry => (entry.1, entry.2.evaluate scope) :=
    List.zip_map_right
  obtain ⟨operands, rfl, _⟩ := exists_operandsOf h
  rw [Value.evaluate_node, hfields]
  refine scope.apply_eq_of_agree (agree_ofRecord scope hrecord) fun heval => .inl ?_
  -- the default is the last of the two values
  subst heval
  obtain ⟨path, default, rfl⟩ := List.length_eq_two.1 hlength
  rfl

/-- A `Not` around an `And` of the statements. -/
def notAll (statements : List Value) : Except BuildError Value := do
  let all ← build .and [.list statements]
  build .not [all]

/-- An `Or` of the statements, each with a `Not` around it. -/
def anyNot (statements : List Value) : Except BuildError Value := do
  let negations ← statements.mapM fun statement => build .not [statement]
  build .or [.list negations]

end Node

/-! ## Truths -/

namespace Scope

variable (scope : Scope) {xs : List Value}

/-- The truth of a value in a scope: that of what it evaluates to. -/
def truthOf (v : Value) : Bool := (v.evaluate scope).isTruthy

/-- The result of a node with the given values for its fields: it is built, or refused, and evaluated. -/
def result (op : Operator) (values : List Value) : Except BuildError Value :=
  (Node.build op values).map (Value.evaluate scope)

variable {op : Operator} {values : List Value}

/-- A node that is built has the result of its operator on the evaluated values. -/
theorem result_eq (hlength : values.length = op.fields.length) (h : (Node.build op values).isOk) :
    scope.result op values
      = .ok (scope.apply op (Value.record op (values.map (Value.evaluate scope)))) := by
  obtain ⟨v, hv⟩ := exists_of_isOk h
  rw [result, hv, ← Node.evaluate_build scope hlength hv]
  rfl

/-- Two statements or more can be joined. -/
theorem isOk_build_statements (hop : op = .and ∨ op = .or) (hxs : 2 ≤ xs.length) :
    (Node.build op [.list xs]).isOk := by
  rcases hop with rfl | rfl <;>
  · refine (Node.isOk_build (by decide) rfl).trans ?_
    simp [Operator.slots, Role.takes, Operator.leastStatements, hxs]

/-- `And` and `Or` have their result on the list of all evaluated statements. -/
theorem result_statements (hop : op = .and ∨ op = .or) (hxs : 2 ≤ xs.length) :
    scope.result op [.list xs] = .ok (scope.apply op [("s", .list (xs.map (Value.evaluate scope)))]) := by
  have hfields : op.fields = ["s"] := by
    rcases hop with rfl | rfl <;> rfl
  rw [scope.result_eq (by rw [hfields]; rfl) (isOk_build_statements hop hxs), Value.record, hfields,
    List.map_singleton, Value.evaluate_list]
  rfl

/-- `And` is true when all statements are. -/
theorem result_and (hxs : 2 ≤ xs.length) :
    scope.result .and [.list xs] = .ok (.boolean (xs.all scope.truthOf)) := by
  have hall : (xs.map (Value.evaluate scope)).all Value.isTruthy = xs.all scope.truthOf := List.all_map
  rw [scope.result_statements (.inl rfl) hxs, ← hall]
  rfl

/-- `Or` is true when some statement is. -/
theorem result_or (hxs : 2 ≤ xs.length) :
    scope.result .or [.list xs] = .ok (.boolean (xs.any scope.truthOf)) := by
  have hany : (xs.map (Value.evaluate scope)).any Value.isTruthy = xs.any scope.truthOf := List.any_map
  rw [scope.result_statements (.inr rfl) hxs, ← hany]
  rfl

/-- `Not` turns the truth round. -/
theorem result_not (c : Value) : scope.result .not [c] = .ok (.boolean !scope.truthOf c) :=
  scope.result_eq rfl rfl

/-- `If` has the value of the branch that its condition chooses. -/
theorem result_choose (c t e : Value) : scope.result .choose [c, t, e]
    = .ok (if scope.truthOf c then t.evaluate scope else e.evaluate scope) :=
  scope.result_eq rfl rfl

/-- A comparison is built when both sides have an order. -/
theorem isOk_build_comparison (hop : op = .greater ∨ op = .less) (a b i : Value) :
    (Node.build op [a, b, i]).isOk
      = (Requirement.comparable.accepts a && Requirement.comparable.accepts b) := by
  rcases hop with rfl | rfl <;>
  · refine (Node.isOk_build (by decide) rfl).trans ?_
    simp [Operator.slots, Role.takes]

/-! ## Laws -/

/-- The negation of all statements is true when they are not all true. -/
theorem map_notAll (hxs : 2 ≤ xs.length) : (Node.notAll xs).map (Value.evaluate scope)
    = .ok (.boolean !xs.all scope.truthOf) := by
  obtain ⟨v, hv⟩ := exists_of_isOk (isOk_build_statements (.inl rfl) hxs)
  have htruth : v.evaluate scope = .boolean (xs.all scope.truthOf) := by
    have hresult := scope.result_and hxs
    rw [result, hv] at hresult
    exact Except.ok.inj hresult
  rw [Node.notAll, hv]
  refine (scope.result_not v).trans ?_
  rw [truthOf, htruth]
  rfl

/-- So is some negation: one statement that is not true is enough. -/
theorem map_anyNot (hxs : 2 ≤ xs.length) : (Node.anyNot xs).map (Value.evaluate scope)
    = .ok (.boolean !xs.all scope.truthOf) := by
  -- a negation is never refused
  have hnegations : (xs.mapM fun x => Node.build .not [x])
      = Except.ok (xs.map fun x => .node .not [x.coerceTruth]) :=
    List.mapM_pure (m := Except BuildError)
  have hnegation (x : Value) : scope.truthOf (.node .not [x.coerceTruth]) = !scope.truthOf x := by
    have hresult : (Value.node .not [x.coerceTruth]).evaluate scope = .boolean !scope.truthOf x :=
      Except.ok.inj (scope.result_not x)
    rw [truthOf, hresult]
    rfl
  rw [Node.anyNot, hnegations]
  refine (scope.result_or (by rwa [List.length_map])).trans ?_
  rw [List.any_map, List.not_all_eq_any_not]
  congr 2
  exact congrArg xs.any (funext hnegation)

/-- **The results of the operators on truths are those on the truths of their operands**, whatever these are
and whether they are coerced or not. -/
theorem results_of_truths (hxs : 2 ≤ xs.length) (c t e a b i : Value) :
    scope.result .and [.list xs] = .ok (.boolean (xs.all scope.truthOf)) ∧
      scope.result .or [.list xs] = .ok (.boolean (xs.any scope.truthOf)) ∧
      scope.result .not [c] = .ok (.boolean !scope.truthOf c) ∧
      scope.result .choose [c, t, e]
        = .ok (if scope.truthOf c then t.evaluate scope else e.evaluate scope) ∧
      (∀ op, op = .greater ∨ op = .less → (Node.build op [a, b, i]).isOk
        = (Requirement.comparable.accepts a && Requirement.comparable.accepts b)) ∧
      (∀ v, Node.build .greater [a, b, i] = .ok v → v.evaluate scope
        = .boolean ((a.evaluate scope).exceeds (scope.truthOf i) (b.evaluate scope))) ∧
      (∀ v, Node.build .less [a, b, i] = .ok v → v.evaluate scope
        = .boolean ((b.evaluate scope).exceeds (scope.truthOf i) (a.evaluate scope))) ∧
      (Node.notAll xs).map (Value.evaluate scope) = (Node.anyNot xs).map (Value.evaluate scope) ∧
      (Node.anyNot xs).map (Value.evaluate scope) = .ok (.boolean !xs.all scope.truthOf) := by
  refine ⟨scope.result_and hxs, scope.result_or hxs, scope.result_not c, scope.result_choose c t e,
    ?_, ?_, ?_, ?_, scope.map_anyNot hxs⟩
  · intro op hop
    exact isOk_build_comparison hop a b i
  · intro v hv
    exact (Node.evaluate_build scope rfl hv).trans (scope.apply_greater _)
  · intro v hv
    exact (Node.evaluate_build scope rfl hv).trans (scope.apply_less _)
  · rw [scope.map_notAll hxs, scope.map_anyNot hxs]

/-- A variable that declares a truth value is not coerced; here it is bound to a list. -/
theorem results_of_truths_list :
    let scope : Scope := ⟨[("x", .list [.null]), ("n", .integer 2)], default⟩
    let x : Value := .node .eval [.string "x", .boolean false]
    let n : Value := .node .eval [.string "n", .integer 0]
    let xs : List Value := [x, .string ""]
    (2 ≤ xs.length ∧ x.isTruthValue ∧ x.evaluate scope = .list [.null]) ∧
      scope.result .and [.list xs] = .ok (.boolean false) ∧
      scope.result .or [.list xs] = .ok (.boolean true) ∧
      scope.result .not [x] = .ok (.boolean false) ∧
      scope.result .choose [x, n, .null] = .ok (.integer 2) ∧
      scope.result .greater [n, .integer 2, x] = .ok (.boolean true) ∧
      scope.result .less [n, .integer 2, .string ""] = .ok (.boolean false) ∧
      (Node.notAll xs).map (Value.evaluate scope) = (Node.anyNot xs).map (Value.evaluate scope) := by
  intro scope x n xs
  have hcount : 2 ≤ xs.length := le_rfl
  obtain ⟨hand, hor, hnot, hchoose, _, hgreater, _, hduality, _⟩ :=
    results_of_truths scope hcount x n .null n (.integer 2) x
  obtain ⟨_, _, _, _, _, _, hless, _⟩ :=
    results_of_truths scope hcount x n .null n (.integer 2) (.string "")
  have hinclusive : (n.evaluate scope).exceeds (scope.truthOf x) (.integer 2) = true := by
    decide +kernel
  have hstrict : Value.exceeds (scope.truthOf (.string "")) (.integer 2) (n.evaluate scope) = false := by
    decide +kernel
  refine ⟨⟨hcount, by decide, rfl⟩, hand, hor, hnot, hchoose, ?_, ?_, hduality⟩
  · exact congrArg Except.ok ((hgreater _ rfl).trans (congrArg Value.boolean hinclusive))
  · exact congrArg Except.ok ((hless _ rfl).trans (congrArg Value.boolean hstrict))

end Scope

end Latent
