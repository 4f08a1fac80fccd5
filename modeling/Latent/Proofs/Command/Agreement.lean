import Latent.Command.Run
import Latent.Proofs.Syntax.Rereading
import Latent.Proofs.Value.Settled
import Latent.Proofs.Wire.Nesting
import Latent.Proofs.Wire.Transport

/-!
# The commands agree

A text can be evaluated as it stands, or encoded, sent, and evaluated while it is decoded.  A command
line gives the same line either way, or the same complaint about the context.  Decoding without
evaluation gives the canonical text of the value that was encoded, and that text is encoded as before.

Along the way numbers are brought into their plain form at different moments.  For a finite number
other than negative zero, no text tells the two forms apart.
-/

namespace Latent

namespace Value

variable {v : Value}

/-! ## The text of the plain form -/

/-- A number that has the text of its plain form: it is finite and not negative zero. -/
def isExact : Value → Bool
  | float x => x.isFinite && x ≠ Binary64.zero true
  | _ => true

/-- The plain form of an exact number is its settled form. -/
theorem plainLeaf_eq_settledLeaf (hordinary : v.isOrdinary) (hexact : v.isExact) :
    plainLeaf v = settledLeaf v := by
  cases v with
  | float x =>
      obtain ⟨hfinite, hzero⟩ := Bool.and_eq_true_iff.1 hexact
      exact (ofBinary64_finite hfinite).trans (if_neg (of_decide_eq_true hzero)).symm
  | decimal _ | date _ | dateTime _ | time _ | duration _ => cases hordinary
  | _ => rfl

/-- A settled leaf has the text of the leaf. -/
theorem text_settledLeaf (v : Value) : (settledLeaf v).text = v.text := by
  refine view_settledLeaf text (fun i hexact => ?_) v
  rw [text, text, Binary64.canonicalText_ofInt hexact]

/-- The value and, when it is a list, its items are written like their plain form. -/
structure KeepsText (v : Value) : Prop where
  whole : v.plain.text = v.text
  items : ∀ items, v = list items → ∀ w ∈ items, w.plain.text = w.text

/-- Exact leaves keep their text. -/
theorem keepsText_leaf (hleaf : v.isLeaf) (hordinary : v.isOrdinary) (hexact : v.isExact) :
    KeepsText v := by
  refine ⟨?_, fun items heq => ?_⟩
  · rw [plain_leaf hleaf, plainLeaf_eq_settledLeaf hordinary hexact, text_settledLeaf]
  · rw [heq] at hleaf
    cases hleaf

/-- Lists keep their text, and that of their items. -/
theorem keepsText_list {items : List Value} (h : ∀ w ∈ items, KeepsText w) :
    KeepsText (list items) := by
  have hitems (w : Value) (hw : w ∈ items) : w.plain.text = w.text := (h w hw).whole
  have htexts : (items.map plain).map text = items.map text := by
    rw [List.map_map]
    exact List.map_congr_left hitems
  refine ⟨?_, fun others heq => ?_⟩
  · rw [plain_list, text_list, text_list, htexts]
  · cases heq
    exact hitems

/-- Maps keep their text. -/
theorem keepsText_map {entries : Entries Value} (h : ∀ entry ∈ entries, KeepsText entry.2) :
    KeepsText (map entries) := by
  refine ⟨?_, fun _ heq => by cases heq⟩
  rw [plain_map, text_map, text_map, List.map_map]
  have htexts : entries.map ((fun entry => Text.quoted entry.1.toList ++ ':' :: ' ' :: text entry.2) ∘
        fun entry => (entry.1, entry.2.plain))
      = entries.map fun entry => Text.quoted entry.1.toList ++ ':' :: ' ' :: text entry.2 :=
    List.map_congr_left fun entry hentry =>
      congrArg (Text.quoted entry.1.toList ++ ':' :: ' ' :: ·) (h entry hentry).whole
  rw [htexts]

/-- Nodes keep the text of their arguments, which may be items of an operand. -/
theorem keepsText_node {op : Operator} {operands : List Value} (hsound : Node.IsSound op operands)
    (h : ∀ w ∈ operands, KeepsText w) : KeepsText (node op operands) := by
  have hargs (w : Value) (hw : w ∈ arguments op operands) : w.plain.text = w.text := by
    rcases mem_arguments hw with hw | ⟨items, hitems, hw⟩
    · exact (h w hw).whole
    · exact (h _ hitems).items items rfl w hw
  have htexts : ((arguments op operands).map plain).map text = (arguments op operands).map text := by
    rw [List.map_map]
    exact List.map_congr_left hargs
  refine ⟨?_, fun _ heq => by cases heq⟩
  rw [plain_node, text_node, text_node, hsound.arguments_map plain_list, htexts]

/-- **What is built is written like its plain form**, if its numbers are exact. -/
theorem text_plain (b : Built fun v => v.isOrdinary && v.isExact) :
    b.value.plain.text = b.value.text := by
  -- The statements of `And` and `Or` are written without their list, so more is shown of a list than
  -- what it is written as.
  suffices KeepsText b.value from this.whole
  induction b using Built.induction with
  | leaf v hleaf h =>
      obtain ⟨hordinary, hexact⟩ := Bool.and_eq_true_iff.1 h
      exact keepsText_leaf hleaf hordinary hexact
  | list items _ ih => exact keepsText_list (List.forall_mem_map.2 ih)
  | map entries _ _ ih => exact keepsText_map (List.forall_mem_map.2 ih)
  | node op operands hsound _ ih => exact keepsText_node hsound (List.forall_mem_map.2 ih)

/-! ## What was read crosses the wire -/

/-- What comes from a text is ordinary if its numbers are exact. -/
theorem isOrdinary_of_isExact (hclear : v.all isClear) (hexact : v.all isExact) :
    v.all isOrdinary := by
  refine isOrdinary_of_isFiniteNumber hclear (all_of_imp (fun v hexact => ?_) hexact)
  cases v with
  | float x => exact (Bool.and_eq_true_iff.1 hexact).1
  | _ => rfl

/-- It crosses the wire if its maps do not read as records. -/
theorem crossesWire_of_isClear (hclear : v.all isClear) (htag : v.all isUntagged) :
    v.all crossesWire := by
  refine all_of_imp (fun v hv => ?_) (all_and hclear htag)
  obtain ⟨hclear, htag⟩ := Bool.and_eq_true_iff.1 hv
  cases v with
  | map _ => exact htag
  | decimal _ | date _ | dateTime _ | time _ | duration _ => cases hclear
  | _ => rfl

section

variable {text : String} {tree : Json} (hread : read text = .ok v)

include hread

/-- What was read is printed like its plain form, if its numbers are exact. -/
theorem print_plain_of_read (hexact : v.all isExact) : v.plain.print = v.print := by
  have hordinary := isOrdinary_of_isExact (Built.ofRead hread).all hexact
  exact congrArg String.ofList (text_plain ⟨v, wellBuilt_read hread, all_and hordinary hexact⟩)

variable (htree : v.toJson = .ok tree) (hnesting : tree.nesting ≤ Json.Reading.maxNesting)

include htree hnesting

/-- What was read and is encoded is decoded as its tree is revived. -/
theorem decode_of_read (revival : Revival) : decode revival tree.print = revive revival tree :=
  decode_print revival (hasDistinctKeys_toJson (.ofRead hread) htree) hnesting

/-- Evaluated while it is decoded, it gives what it evaluates to. -/
theorem decode_evaluating_of_read (htag : v.all isUntagged) (scope : Scope) :
    decode (.evaluating scope) tree.print = .ok (v.evaluate scope) := by
  obtain ⟨tree', htree', hrevive⟩ :=
    carries_evaluate scope v (crossesWire_of_isClear (Built.ofRead hread).all htag)
  cases htree.symm.trans htree'
  exact (decode_of_read hread htree hnesting _).trans hrevive

/-- Decoded without evaluation, it gives its plain form. -/
theorem decode_rebuilding_of_read (hexact : v.all isExact) (htag : v.all isUntagged) :
    decode .rebuilding tree.print = .ok v.plain := by
  have hordinary := isOrdinary_of_isExact (Built.ofRead hread).all hexact
  obtain ⟨tree', htree', hrevive⟩ :=
    carries_plain ⟨v, wellBuilt_read hread, all_and hordinary htag⟩
  cases htree.symm.trans htree'
  exact (decode_of_read hread htree hnesting _).trans hrevive

/-- Its canonical text is read as its plain form: it has the levels of the value, and so no more than
those of the tree. -/
theorem read_print_of_read (hexact : v.all isExact) : read v.print = .ok v.plain := by
  have hordinary := isOrdinary_of_isExact (Built.ofRead hread).all hexact
  refine read_of_spells (spells_text ⟨v, wellBuilt_read hread, hordinary⟩ ?_)
  calc v.levels ≤ v.nesting + 1 := v.levels_le_nesting
    _ = tree.nesting + 1 := congrArg (· + 1) (nesting_toJson (.ofRead hread) htree).symm
    _ ≤ maxLevels := Nat.succ_le_succ hnesting

end

end Value

namespace Command

variable {text : String} {v : Value}

/-! ## Lines -/

section

variable (world : World) (source : ContextSource)

/-- A text that is read is encoded. -/
theorem line_encode {written : String} (hread : Value.read text = .ok v)
    (hwritten : v.encode = .ok written) : line world ⟨.encode, text, source⟩ = .ok written := by
  show ((Value.read text).mapError ReadError.headline >>= fun v =>
    v.encode.mapError WireError.message) = _
  rw [hread]
  show v.encode.mapError WireError.message = _
  rw [hwritten]
  rfl

/-- The commands that evaluate complain about the context first. -/
theorem line_error {complaint : String} (h : bindings world source = .error complaint)
    {action : Action} (haction : action ≠ .encode) :
    line world ⟨action, text, source⟩ = .error complaint := by
  cases action with
  | encode => exact absurd rfl haction
  | decode _ | eval =>
      show (bindings world source >>= _) = _
      rw [h]
      rfl

variable {given : Entries Value} (h : bindings world source = .ok given)

include h

/-- A text that is read is evaluated. -/
theorem line_eval (hread : Value.read text = .ok v) :
    line world ⟨.eval, text, source⟩ = .ok (v.evaluate ⟨given, world.clock⟩).print := by
  show (bindings world source >>= fun given =>
    (Value.read text).mapError ReadError.headline >>= fun v =>
      .ok (v.evaluate ⟨given, world.clock⟩).print) = _
  rw [h, hread]
  rfl

/-- What is decoded is printed. -/
theorem line_decode (rebuild : Bool) (hdecode : Value.decode
      (if rebuild then .rebuilding else .evaluating ⟨given, world.clock⟩) text = .ok v) :
    line world ⟨.decode rebuild, text, source⟩ = .ok v.print := by
  show (bindings world source >>= fun given =>
    (Value.decode (if rebuild then .rebuilding else .evaluating ⟨given, world.clock⟩)
      text).mapError WireError.message >>= fun v => .ok v.print) = _
  rw [h]
  show (Except.mapError _ (Value.decode _ text) >>= _) = _
  rw [hdecode]
  rfl

end

/-! ## Agreement -/

/-- **The commands agree.**  A text whose numbers are exact and whose maps do not read as records is
encoded, if it is not nested too deep for a JSON text; to evaluate it and to decode what was encoded
gives one line or one complaint, whatever the context and the clock; decoded without evaluation, it is
the canonical text of its value, which is encoded as before. -/
theorem line_agree (hread : Value.read text = .ok v) (hexact : v.all Value.isExact)
    (htag : v.all Value.isUntagged)
    (hnesting : ∀ tree, v.toJson = .ok tree → tree.nesting ≤ Json.Reading.maxNesting) :
    ∃ written,
      (∀ world source, line world ⟨.encode, text, source⟩ = .ok written) ∧
      (∀ world source,
        (∃ complaint, bindings world source = .error complaint ∧
          line world ⟨.eval, text, source⟩ = .error complaint ∧
          line world ⟨.decode false, written, source⟩ = .error complaint) ∨
        ∃ output, line world ⟨.eval, text, source⟩ = .ok output ∧
          line world ⟨.decode false, written, source⟩ = .ok output) ∧
      (∀ world source, (bindings world source).isOk →
        line world ⟨.decode true, written, source⟩ = .ok v.print) ∧
      ∀ world source, line world ⟨.encode, v.print, source⟩ = .ok written := by
  have hclear : v.all Value.isClear := (Built.ofRead hread).all
  obtain ⟨tree, htree⟩ := Value.exists_toJson_of_isClear hclear
  have hnesting := hnesting tree htree
  -- what is written is the text of the tree, whatever the context
  refine ⟨tree.print, fun world source => ?_, fun world source => ?_, fun world source hok => ?_,
    fun world source => ?_⟩
  · exact line_encode world source hread (Value.encode_of_toJson htree)
  · cases hbindings : bindings world source with
    | error complaint =>
        refine .inl ⟨complaint, rfl, ?_, ?_⟩
        · exact line_error world source hbindings Action.noConfusion
        · exact line_error world source hbindings Action.noConfusion
    | ok given =>
        refine .inr ⟨_, line_eval world source hbindings hread, ?_⟩
        exact line_decode world source hbindings false
          (Value.decode_evaluating_of_read hread htree hnesting htag _)
  · obtain ⟨given, hbindings⟩ := exists_of_isOk hok
    rw [← Value.print_plain_of_read hread hexact]
    exact line_decode world source hbindings true
      (Value.decode_rebuilding_of_read hread htree hnesting hexact htag)
  · have hplain : v.plain.toJson = v.toJson :=
      Value.toJson_mapLeaves (fun _ _ => Value.toJson_plainLeaf)
        (Value.isOrdinary_of_isExact hclear hexact)
    exact line_encode world source (Value.read_print_of_read hread htree hnesting hexact)
      (Value.encode_of_toJson (hplain.trans htree))

/-- A choice by a variable between numbers in two forms and a look-up in a map with a tag of its own. -/
theorem line_agree_choice :
    let text := "If(Eval('x', 0), [1.5, 2.0], Get(\x7b'__class__': 'x', 2: And(1, [])\x7d, '2', -7))"
    ∃ v, (Value.read text = .ok v ∧ v.all Value.isExact ∧ v.all Value.isUntagged ∧
        ∀ tree, v.toJson = .ok tree → tree.nesting ≤ Json.Reading.maxNesting) ∧
      ∃ written,
        (∀ world source, line world ⟨.encode, text, source⟩ = .ok written) ∧
        (∀ world source,
          (∃ complaint, bindings world source = .error complaint ∧
            line world ⟨.eval, text, source⟩ = .error complaint ∧
            line world ⟨.decode false, written, source⟩ = .error complaint) ∨
          ∃ output, line world ⟨.eval, text, source⟩ = .ok output ∧
            line world ⟨.decode false, written, source⟩ = .ok output) ∧
        (∀ world source, (bindings world source).isOk →
          line world ⟨.decode true, written, source⟩ = .ok v.print) ∧
        ∀ world source, line world ⟨.encode, v.print, source⟩ = .ok written := by
  intro text
  have hcheck : (Value.read text >>= fun v =>
      if v.all Value.isExact && v.all Value.isUntagged && decide (v.nesting ≤ 127) then .ok ()
      else .error .tooDeep) = .ok () := by decide +kernel
  obtain ⟨v, hread, hcheck⟩ := exists_of_bind_eq_ok hcheck
  split at hcheck
  · rename_i hparts
    obtain ⟨hparts, hdeep⟩ := Bool.and_eq_true_iff.1 hparts
    obtain ⟨hexact, htag⟩ := Bool.and_eq_true_iff.1 hparts
    have hnesting (tree : Json) (htree : v.toJson = .ok tree) : tree.nesting ≤ 127 := by
      rw [Value.nesting_toJson (.ofRead hread) htree]
      exact of_decide_eq_true hdeep
    exact ⟨v, ⟨hread, hexact, htag, hnesting⟩, line_agree hread hexact htag hnesting⟩
  · cases hcheck

end Command

end Latent
