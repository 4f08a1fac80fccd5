import Latent.Proofs.Json.Nesting
import Latent.Proofs.Syntax.Built
import Latent.Proofs.Value.Levels
import Latent.Proofs.Wire.Failures
import Latent.Proofs.Wire.OpaqueLeaves
import Latent.Proofs.Wire.Texts

/-!
# How deep written values are nested

`Value.nesting` is the nesting of the tree that a value is written as.  The call syntax counts levels in
another way: a list of statements is an array inside the record of its node, and a value whose truth is
asked for is wrapped in a record.  So what is read from a text of so many levels may be nested twice as
deep, and the reader accepts texts that are not decoded once they are encoded.
-/

namespace Latent

namespace Value

variable {v : Value} {tree : Json} {op : Operator} {operands : List Value} {entries : Entries Value}

/-! ## Nesting -/

mutual

/-- So many arrays and objects are inside each other in what is written. -/
def nesting : Value → Nat
  | list items => nestingItems items + 1
  | map entries => nestingEntries entries + 1
  | node _ operands => nestingItems operands + 1
  | date _ | dateTime _ | duration _ => 1
  | _ => 0

/-- The nesting of the deepest item. -/
def nestingItems : List Value → Nat
  | [] => 0
  | item :: rest => max (nesting item) (nestingItems rest)

/-- The nesting of the deepest value that is bound to a key. -/
def nestingEntries : List (String × Value) → Nat
  | [] => 0
  | (_, value) :: rest => max (nesting value) (nestingEntries rest)

end

/-- No item is nested deeper than the deepest one. -/
theorem nesting_le_items {items : List Value} (h : v ∈ items) : v.nesting ≤ nestingItems items := by
  induction items with
  | nil => cases h
  | cons item rest ih =>
      rw [nestingItems]
      rcases List.mem_cons.1 h with rfl | h
      · exact Nat.le_max_left _ _
      · exact Nat.le_trans (ih h) (Nat.le_max_right _ _)

/-- No bound value is nested deeper than the deepest one. -/
theorem nesting_le_entries {entry : String × Value} (h : entry ∈ entries) :
    entry.2.nesting ≤ nestingEntries entries := by
  induction entries with
  | nil => cases h
  | cons first rest ih =>
      rw [nestingEntries]
      rcases List.mem_cons.1 h with rfl | h
      · exact Nat.le_max_left _ _
      · exact Nat.le_trans (ih h) (Nat.le_max_right _ _)

/-- The deepest item is nested no deeper than all of them may be. -/
theorem nestingItems_le {items : List Value} {n : Nat} (h : ∀ v ∈ items, v.nesting ≤ n) :
    nestingItems items ≤ n := by
  induction items with
  | nil => exact Nat.zero_le n
  | cons item rest ih =>
      obtain ⟨hitem, hrest⟩ := List.forall_mem_cons.1 h
      rw [nestingItems]
      exact Nat.max_le.2 ⟨hitem, ih hrest⟩

/-- So is the deepest bound value. -/
theorem nestingEntries_le {n : Nat} (h : ∀ entry ∈ entries, entry.2.nesting ≤ n) :
    nestingEntries entries ≤ n := by
  induction entries with
  | nil => exact Nat.zero_le n
  | cons entry rest ih =>
      obtain ⟨hentry, hrest⟩ := List.forall_mem_cons.1 h
      rw [nestingEntries]
      exact Nat.max_le.2 ⟨hentry, ih hrest⟩

/-! ## The tree of a value -/

/-- A leaf that has a form of its own in the call syntax, the parts of the value aside. -/
def isClear (v : Value) : Bool := !v.isOpaque

/-- Building makes no calendar values and no decimals. -/
theorem keptByBuilding_isClear : KeptByBuilding isClear where
  leaf v hleaf hordinary := by
    cases v with
    | list _ | map _ | node _ _ => cases hleaf
    | decimal _ | date _ | dateTime _ | time _ | duration _ => cases hordinary
    | _ => rfl
  list _ := rfl
  node _ _ _ := rfl

/-- A clear leaf is written as a leaf. -/
theorem isLeaf_toJson (hleaf : v.isLeaf) (hclear : v.isClear) (htree : v.toJson = .ok tree) :
    tree.isLeaf := by
  have hbinary64 (x : Binary64) : (Json.ofBinary64 x).isLeaf := by
    unfold Json.ofBinary64
    split <;> rfl
  cases v with
  | list _ | map _ | node _ _ => cases hleaf
  | decimal _ | date _ | dateTime _ | time _ | duration _ => cases hclear
  | float x =>
      cases htree
      unfold Json.ofFloat
      split
      · split
        · rfl
        · exact hbinary64 x
      · exact hbinary64 x
  | null | boolean _ | integer _ | string _ =>
      cases htree
      rfl

/-- Leaves of this kind are not nested. -/
theorem nesting_of_isLeaf (hleaf : v.isLeaf) (hclear : v.isClear) : v.nesting = 0 := by
  cases v with
  | list _ | map _ | node _ _ => cases hleaf
  | decimal _ | date _ | dateTime _ | time _ | duration _ => cases hclear
  | _ => rfl

/-- Items are written one by one. -/
theorem forall₂_of_itemsToJson {items : List Value} {trees : List Json}
    (h : itemsToJson items = .ok trees) :
    List.Forall₂ (fun v tree => v.toJson = .ok tree) items trees := by
  induction items generalizing trees with
  | nil =>
      cases h
      exact .nil
  | cons item rest ih =>
      obtain ⟨tree, htree, h⟩ := exists_of_bind_eq_ok h
      obtain ⟨others, hothers, h⟩ := exists_of_bind_eq_ok h
      cases h
      exact .cons htree (ih hothers)

/-- Entries are written one by one, under their keys. -/
theorem forall₂_of_entriesToJson {trees : Entries Json} (h : entriesToJson entries = .ok trees) :
    List.Forall₂ (fun entry written => written.1 = entry.1 ∧ entry.2.toJson = .ok written.2)
      entries trees := by
  induction entries generalizing trees with
  | nil =>
      cases h
      exact .nil
  | cons entry rest ih =>
      obtain ⟨tree, htree, h⟩ := exists_of_bind_eq_ok h
      obtain ⟨others, hothers, h⟩ := exists_of_bind_eq_ok h
      cases h
      exact .cons ⟨rfl, htree⟩ (ih hothers)

/-- Entries are written under their keys. -/
theorem keys_of_forall₂ {trees : Entries Json}
    (h : List.Forall₂ (fun entry written => written.1 = entry.1 ∧ entry.2.toJson = .ok written.2)
      entries trees) : Entries.keys trees = Entries.keys entries := by
  unfold Entries.keys
  induction h with
  | nil => rfl
  | cons hentry _ ih => rw [List.map_cons, List.map_cons, hentry.1, ih]

/-- No key is written twice. -/
theorem hasDistinctKeys_toJson (b : Built isClear) (htree : b.value.toJson = .ok tree) :
    tree.all Json.hasDistinctKeys := by
  induction b using Built.induction generalizing tree with
  | leaf v hleaf hclear => exact Json.all_hasDistinctKeys_of_isLeaf (isLeaf_toJson hleaf hclear htree)
  | list items _ ih =>
      obtain ⟨trees, htrees, htree⟩ := exists_of_bind_eq_ok htree
      cases htree
      refine Json.all_array.2 ⟨rfl, fun tree hmem => ?_⟩
      obtain ⟨v, hv, htree⟩ := exists_of_mem_of_forall₂ (forall₂_of_itemsToJson htrees) hmem
      obtain ⟨b, hb, rfl⟩ := List.mem_map.1 hv
      exact ih b hb htree
  | map entries hkeys _ ih =>
      obtain ⟨trees, htrees, htree⟩ := exists_of_bind_eq_ok htree
      cases htree
      have hwritten := forall₂_of_entriesToJson htrees
      have hdistinct := hkeys.map Built.value
      refine Json.all_object.2 ⟨?_, fun written hmem => ?_⟩
      · unfold Entries.Distinct at hdistinct
        rw [← keys_of_forall₂ hwritten] at hdistinct
        exact decide_eq_true hdistinct
      · obtain ⟨_, hentry, _, htree⟩ := exists_of_mem_of_forall₂ hwritten hmem
        obtain ⟨entry, he, rfl⟩ := List.mem_map.1 hentry
        exact ih entry he htree
  | node op operands hsound _ ih =>
      obtain ⟨trees, htrees, htree⟩ := exists_of_bind_eq_ok htree
      cases htree
      have hwritten := forall₂_of_itemsToJson htrees
      have hlength : op.fields.length ≤ trees.length :=
        le_of_eq (hsound.length.symm.trans hwritten.length_eq)
      refine Json.all_object.2 ⟨decide_eq_true (Json.distinct_tagged hlength), fun entry hentry => ?_⟩
      -- the tag is a text; what follows it are the fields
      rcases List.mem_cons.1 hentry with rfl | hentry
      · rfl
      · obtain ⟨v, hv, htree⟩ := exists_of_mem_of_forall₂ hwritten (List.of_mem_zip hentry).2
        obtain ⟨b, hb, rfl⟩ := List.mem_map.1 hv
        exact ih b hb htree

/-- Trees of items are nested like the items. -/
theorem deepest_of_forall₂ {items : List Value} {trees : List Json}
    (h : List.Forall₂ (fun v tree => v.toJson = .ok tree) items trees)
    (hnesting : ∀ v ∈ items, ∀ tree, v.toJson = .ok tree → tree.nesting = v.nesting) :
    Json.deepest trees = nestingItems items := by
  induction h with
  | nil => rfl
  | cons hitem _ ih =>
      obtain ⟨hfirst, hrest⟩ := List.forall_mem_cons.1 hnesting
      rw [Json.deepest, nestingItems, hfirst _ hitem, ih hrest]

/-- Trees of entries are nested like the entries. -/
theorem deepestEntry_of_forall₂ {trees : Entries Json}
    (h : List.Forall₂ (fun entry written => written.1 = entry.1 ∧ entry.2.toJson = .ok written.2)
      entries trees)
    (hnesting : ∀ entry ∈ entries, ∀ tree, entry.2.toJson = .ok tree →
      tree.nesting = entry.2.nesting) : Json.deepestEntry trees = nestingEntries entries := by
  induction h with
  | nil => rfl
  | cons hentry _ ih =>
      obtain ⟨hfirst, hrest⟩ := List.forall_mem_cons.1 hnesting
      rw [Json.deepestEntry, nestingEntries, hfirst _ hentry.2, ih hrest]

end Value

namespace Json

/-- Keys do not add to the nesting. -/
theorem deepestEntry_zip {keys : List String} {trees : List Json} (h : keys.length = trees.length) :
    deepestEntry (keys.zip trees) = deepest trees := by
  induction trees generalizing keys with
  | nil =>
      rw [List.zip_nil_right]
      rfl
  | cons tree rest ih =>
      obtain ⟨key, keys, rfl⟩ := List.exists_cons_of_length_eq_add_one h
      rw [List.zip_cons_cons, deepestEntry, deepest, ih (by simpa using h)]

/-- A record is nested one deeper than its deepest field. -/
theorem nesting_tagged_of_length {op : Operator} {fields : List Json}
    (hlength : op.fields.length = fields.length) :
    (tagged op fields).nesting = deepest fields + 1 := by
  rw [tagged, nesting, deepestEntry, deepestEntry_zip hlength]
  exact congrArg (· + 1) (Nat.zero_max _)

end Json

namespace Value

variable {v : Value} {tree : Json} {op : Operator}

/-- **The nesting of a value is that of its tree.** -/
theorem nesting_toJson (b : Built isClear) (htree : b.value.toJson = .ok tree) :
    tree.nesting = b.value.nesting := by
  induction b using Built.induction generalizing tree with
  | leaf v hleaf hclear =>
      rw [Built.value_leaf, nesting_of_isLeaf hleaf hclear,
        Json.nesting_of_isLeaf (isLeaf_toJson hleaf hclear htree)]
  | list items _ ih =>
      obtain ⟨trees, htrees, htree⟩ := exists_of_bind_eq_ok htree
      cases htree
      rw [Built.value_list, nesting, Json.nesting,
        deepest_of_forall₂ (forall₂_of_itemsToJson htrees) (List.forall_mem_map.2 fun b hb _ => ih b hb)]
  | map entries _ _ ih =>
      obtain ⟨trees, htrees, htree⟩ := exists_of_bind_eq_ok htree
      cases htree
      rw [Built.value_map, nesting, Json.nesting,
        deepestEntry_of_forall₂ (forall₂_of_entriesToJson htrees)
          (List.forall_mem_map.2 fun entry hentry _ => ih entry hentry)]
  | node op operands hsound _ ih =>
      obtain ⟨trees, htrees, htree⟩ := exists_of_bind_eq_ok htree
      cases htree
      have hwritten := forall₂_of_itemsToJson htrees
      have hlength : op.fields.length = trees.length := hsound.length.symm.trans hwritten.length_eq
      rw [Built.value_node, nesting, Json.nesting_tagged_of_length hlength,
        deepest_of_forall₂ hwritten (List.forall_mem_map.2 fun b hb _ => ih b hb)]

/-- A value has at most one level more than its tree. -/
theorem levels_le_nesting (v : Value) : v.levels ≤ v.nesting + 1 := by
  induction v using Value.induction with
  | leaf v hleaf =>
      cases v with
      | list _ | map _ | node _ _ => cases hleaf
      | _ => exact Nat.succ_le_succ (Nat.zero_le _)
  | list items ih =>
      refine Nat.succ_le_succ (deepest_le fun v hv => (ih v hv).trans ?_)
      exact Nat.succ_le_succ (nesting_le_items hv)
  | map entries ih =>
      refine Nat.succ_le_succ (deepestEntry_le fun e he => (ih e he).trans ?_)
      exact Nat.succ_le_succ (nesting_le_entries he)
  | node op operands ih =>
      have hdeepest : deepest operands ≤ nestingItems operands + 1 :=
        deepest_le fun v hv => (ih v hv).trans (Nat.succ_le_succ (nesting_le_items hv))
      rw [levels, nesting]
      split
      · exact Nat.succ_le_succ ((deepestSpread_le_deepest operands).trans hdeepest)
      · exact Nat.succ_le_succ hdeepest

/-- A value without opaque leaves is written. -/
theorem exists_toJson_of_isClear {v : Value} (hclear : v.all isClear) : ∃ tree, v.toJson = .ok tree := by
  refine exists_toJson (all_of_imp (fun v hv => ?_) hclear)
  cases v with
  | time _ => cases hv
  | _ => rfl

/-! ## Building -/

/-- Asking for the truth of a value does not make it shallower. -/
theorem nesting_le_coerceTruth (v : Value) : v.nesting ≤ v.coerceTruth.nesting := by
  unfold coerceTruth
  split
  · exact Nat.le_refl _
  · rw [nesting, nestingItems, nestingItems, Nat.max_zero]
    exact Nat.le_succ _

/-- It makes it deeper by one level at most. -/
theorem nesting_coerceTruth_le (v : Value) : v.coerceTruth.nesting ≤ v.nesting + 1 := by
  unfold coerceTruth
  split
  · exact Nat.le_succ _
  · rw [nesting, nestingItems, nestingItems, Nat.max_zero]

/-- What a field makes of a value is nested no deeper than the truth of the value. -/
theorem nesting_operandOf {field : String} {role : Role} {w : Value}
    (h : Node.operandOf op field v role = .ok w) : w.nesting ≤ v.coerceTruth.nesting := by
  cases role with
  | free =>
      cases h
      exact nesting_le_coerceTruth v
  | truth =>
      cases h
      exact Nat.le_refl _
  | must r =>
      obtain ⟨_, _, h⟩ := exists_of_bind_eq_ok h
      cases h
      exact nesting_le_coerceTruth v
  | statements =>
      cases v with
      | list items =>
          obtain ⟨_, _, h⟩ := exists_of_bind_eq_ok h
          cases h
          show nestingItems (items.map coerceTruth) + 1 ≤ (node .bool [list items]).nesting
          rw [nesting, nestingItems, nestingItems, Nat.max_zero, nesting]
          refine Nat.succ_le_succ (nestingItems_le (List.forall_mem_map.2 fun item hitem => ?_))
          exact (nesting_coerceTruth_le item).trans (Nat.succ_le_succ (nesting_le_items hitem))
      | _ => cases h

/-- A call adds two to the nesting of its arguments at most. -/
theorem nesting_ofArguments {args : List Value} {n : Nat} (hn : 0 < n)
    (h : ∀ w ∈ args, w.coerceTruth.nesting ≤ n) (hv : Node.ofArguments op args = .ok v) :
    v.coerceTruth.nesting ≤ n + 2 := by
  by_cases hvariadic : op.isVariadic = true
  · -- the statements are in an array of their own, but the node is a truth value
    obtain rfl := Node.eq_of_ofArguments_statements hvariadic hv
    have htruth : (node op [list (args.map coerceTruth)]).isTruthValue := by
      cases op <;> first | rfl | cases hvariadic
    rw [coerceTruth_of_isTruthValue htruth, nesting, nestingItems, nestingItems, Nat.max_zero, nesting]
    exact Nat.succ_le_succ (Nat.succ_le_succ (nestingItems_le (List.forall_mem_map.2 h)))
  · obtain ⟨values, hlength, hbuild, hvalues⟩ := Node.exists_of_ofArguments hv
    obtain ⟨operands, rfl, _, hmade⟩ := Node.exists_of_build hlength hbuild
    have hnode : (node op operands).nesting ≤ n + 1 := by
      rw [nesting]
      refine Nat.succ_le_succ (nestingItems_le fun w hw => ?_)
      obtain ⟨u, hu, _, _, hfrom⟩ := hmade w hw
      refine (nesting_operandOf hfrom).trans ?_
      -- a value that the operands are made of is an argument or a default
      rcases hvalues u hu with ⟨hop, _⟩ | harg | ⟨hleaf, hordinary⟩
      · exact absurd hop hvariadic
      · exact h u harg
      · have hzero := nesting_of_isLeaf hleaf (keptByBuilding_isClear.leaf u hleaf hordinary)
        have hle := nesting_coerceTruth_le u
        omega
    exact (nesting_coerceTruth_le _).trans (Nat.succ_le_succ hnode)

/-- So does a call without arguments, whose operands are leaves. -/
theorem nesting_ofArguments_nil (hv : Node.ofArguments op [] = .ok v) :
    v.coerceTruth.nesting ≤ 2 := by
  cases op <;> cases hv <;> decide

end Value

/-! ## Reading -/

namespace Phrase

/-- A numeral is read as an integer or a float. -/
theorem isClear_of_numeral {text : List Char} {v : Value} (h : Reader.numeral text = .ok v) : v.isClear := by
  obtain ⟨i, rfl⟩ | ⟨x, _, rfl⟩ := exists_of_numeral h
  · rfl
  · rfl

/-- A text has no calendar values and no decimals. -/
theorem isClear_value (levels : Nat) : (value levels).Denotes fun v => v.all Value.isClear := by
  induction levels with
  | zero => exact fun _ _ h => h.elim
  | succ levels ih =>
      exact fun _ _ hform => all_form Value.keptByBuilding_isClear (fun _ => rfl) ih hform
        fun _ _ _ _ => isClear_of_numeral

/-- Items of no phrase at all are none. -/
theorem eq_nil_of_items {tokens : List Token} {args : List Value}
    (h : (value 0).Items tokens args) : args = [] := by
  cases h with
  | empty => rfl
  | last h | more h _ => exact h.elim

/-- **A text of so many levels denotes values that are nested at most twice as deep**, even if their
truth is asked for. -/
theorem nesting_value (levels : Nat) :
    (value levels).Denotes fun v => v.coerceTruth.nesting ≤ 2 * levels := by
  induction levels with
  | zero => exact fun _ _ h => h.elim
  | succ levels ih =>
      have hleaf {v : Value} (hleaf : v.isLeaf) (hclear : v.isClear) :
          v.coerceTruth.nesting ≤ 2 * (levels + 1) := by
        have hle := v.nesting_coerceTruth_le
        rw [Value.nesting_of_isLeaf hleaf hclear] at hle
        omega
      have hparts (w : Value) (h : w.coerceTruth.nesting ≤ 2 * levels) : w.nesting ≤ 2 * levels :=
        w.nesting_le_coerceTruth.trans h
      have hwhole {v : Value} (h : v.nesting ≤ 2 * levels + 1) :
          v.coerceTruth.nesting ≤ 2 * (levels + 1) :=
        v.nesting_coerceTruth_le.trans (Nat.succ_le_succ h)
      intro tokens v hform
      cases hform with
      | truth b => exact hleaf rfl rfl
      | null => exact hleaf rfl rfl
      | number hread | negative hread =>
          exact hleaf (isLeaf_of_numeral hread) (isClear_of_numeral hread)
      | string s => exact hleaf rfl rfl
      | list hitems =>
          refine hwhole (Nat.succ_le_succ (Value.nestingItems_le fun w hw => hparts w ?_))
          exact denotes_items ih _ _ hitems w hw
      | map hpairs =>
          refine hwhole (Nat.succ_le_succ (Value.nestingEntries_le fun entry hentry => hparts _ ?_))
          exact denotes_items (denotes_entry ih) _ _ hpairs entry (Entries.mem_of_mem_ofPairs hentry)
      | call _ hargs hnode =>
          -- a call without levels below it has no arguments
          cases levels with
          | zero =>
              rw [eq_nil_of_items hargs] at hnode
              exact Value.nesting_ofArguments_nil hnode
          | succ levels =>
              exact Value.nesting_ofArguments (Nat.succ_pos _) (denotes_items ih _ _ hargs) hnode

end Phrase

/-- What is read from a text is built, and has no calendar values and no decimals. -/
def Built.ofRead {text : String} {v : Value} (h : Value.read text = .ok v) : Built Value.isClear where
  value := v
  wellBuilt := Value.wellBuilt_read h
  all := by
    obtain ⟨_, _, hphrase⟩ := Value.phrase_of_read h
    exact Phrase.isClear_value _ _ _ hphrase

/-! ## Decoding what was read -/

namespace Value

variable {revival : Revival}

/-- Whatever becomes of a tree, it is one. -/
theorem revive_ne_notJson (tree : Json) : revive revival tree ≠ .error .notJson := by
  intro herror
  cases revival with
  | evaluating scope =>
      obtain ⟨v, hv⟩ := exists_revive_evaluating scope tree
      cases hv.symm.trans herror
  | rebuilding =>
      have hthrough := goesThrough_revive tree
      rw [herror] at hthrough
      obtain ⟨_, _, _, _, _, _, _, heq⟩ := hthrough.exists_of_error
      cases heq

/-- A text is no JSON text exactly when no tree is read from it. -/
theorem decode_eq_notJson_iff {text : String} :
    decode revival text = .error .notJson ↔ ¬ (Json.read? text).isSome := by
  unfold decode
  split
  · rename_i tree hread
    simp [revive_ne_notJson, hread]
  · rename_i hread
    simp [hread]

/-- **What the reader accepts is nested at most twice as deep as its text has levels.**  It is decoded
once it is encoded unless it is nested deeper than a JSON text may be, so a text of half as many levels
always is. -/
theorem nesting_of_read {text : String} {v : Value} (h : read text = .ok v) :
    ∃ tree written, v.toJson = .ok tree ∧ v.encode = .ok written ∧
      (∀ levels tokens, tokenize text = tokens ++ [.eof] → Phrase.value levels tokens v →
        tree.nesting ≤ 2 * levels) ∧
      tree.nesting ≤ 2 * maxLevels ∧
      ∀ revival, decode revival written = .error .notJson ↔
        Json.Reading.maxNesting < tree.nesting := by
  obtain ⟨tokens, htokens, hphrase⟩ := phrase_of_read h
  obtain ⟨tree, htree⟩ := exists_toJson_of_isClear (Built.ofRead h).all
  have hlevels (levels : Nat) (tokens : List Token) (hdenotes : Phrase.value levels tokens v) :
      tree.nesting ≤ 2 * levels := by
    rw [nesting_toJson (.ofRead h) htree]
    exact (nesting_le_coerceTruth v).trans (Phrase.nesting_value levels _ _ hdenotes)
  refine ⟨tree, tree.print, htree, encode_of_toJson htree, fun levels tokens _ => hlevels levels tokens,
    hlevels _ tokens hphrase, fun revival => ?_⟩
  rw [decode_eq_notJson_iff,
    Json.isSome_read?_print_iff (hasDistinctKeys_toJson (.ofRead h) htree)]
  exact Nat.not_le

/-- A conjunction of lists, whose record is nested twice as deep as the call. -/
theorem nesting_of_read_and :
    let text := "And([], And([1], 2))"
    ∃ v, read text = .ok v ∧ ∃ tree written, v.toJson = .ok tree ∧ v.encode = .ok written ∧
      (∀ levels tokens, tokenize text = tokens ++ [.eof] → Phrase.value levels tokens v →
        tree.nesting ≤ 2 * levels) ∧
      tree.nesting ≤ 2 * maxLevels ∧
      ∀ revival, decode revival written = .error .notJson ↔
        Json.Reading.maxNesting < tree.nesting := by
  intro text
  obtain ⟨v, hread⟩ : ∃ v, read text = .ok v := exists_of_isOk (by decide +kernel)
  exact ⟨v, hread, nesting_of_read hread⟩

/-- So many brackets are opened, and all of them closed. -/
def brackets (n : Nat) : List Char := List.replicate n '[' ++ List.replicate n ']'

/-- As many brackets as the reader accepts make a text that is encoded as it is, and not decoded. -/
theorem decode_brackets :
    let text := String.ofList (brackets maxLevels)
    (∃ v, read text = .ok v ∧ v.encode = .ok text) ∧
      ∀ revival, decode revival text = .error .notJson := by
  intro text
  have hchars : text.toList = brackets maxLevels := String.toList_ofList
  have hread : (Reader.ofTokens (Lexer.tokensWithin (brackets maxLevels).length (brackets maxLevels))
      >>= fun v => (v.toJson >>= fun tree => .ok tree.text).mapError fun _ => .tooDeep)
        = .ok (brackets maxLevels) := by decide +kernel
  have htree : ¬ (Json.Reading.ofTextWithin? Json.Reading.maxNesting (brackets maxLevels)).isSome := by
    decide +kernel
  constructor
  · obtain ⟨v, hv, hprint⟩ := exists_of_bind_eq_ok hread
    obtain ⟨tree, htree, htext⟩ := exists_of_bind_eq_ok (eq_ok_of_mapError hprint)
    refine ⟨v, ?_, ?_⟩
    · rw [read, tokenize, hchars]
      exact hv
    · rw [encode, htree]
      exact congrArg (Except.ok ∘ String.ofList) (Except.ok.inj htext)
  · intro revival
    rw [decode_eq_notJson_iff, Json.read?, hchars]
    exact htree

end Value

end Latent
