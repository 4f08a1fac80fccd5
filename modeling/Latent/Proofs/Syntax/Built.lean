import Latent.Proofs.Node.Calls
import Latent.Proofs.Syntax.Acceptance
import Latent.Proofs.Wire.Rebuilt

/-!
# Nodes that come from text

A text of the call syntax denotes a well-built value: its calls are built from well-built arguments and
from defaults, level by level.  With what is known of trees, every node that enters through a text obeys
the rules of its operator, however deep it is.
-/

namespace Latent

/-! ## Phrases -/

namespace Phrase

variable {α : Type} {item : Phrase α} {P : α → Prop}

/-- Everything that the phrase denotes is one of these. -/
def Denotes (phrase : Phrase α) (P : α → Prop) : Prop := ∀ tokens a, phrase tokens a → P a

/-- The items of a list denote what an item denotes. -/
theorem denotes_items (h : item.Denotes P) : item.Items.Denotes fun as => ∀ a ∈ as, P a := by
  intro tokens as hitems
  induction hitems with
  | empty => exact fun _ hmem => absurd hmem List.not_mem_nil
  | last hitem => exact List.forall_mem_singleton.2 (h _ _ hitem)
  | more hitem _ ih => exact List.forall_mem_cons.2 ⟨h _ _ hitem, ih⟩

/-- An entry denotes what its value denotes. -/
theorem denotes_entry {value : Phrase Value} {P : Value → Prop} (h : value.Denotes P) :
    value.Entry.Denotes fun pair => P pair.2 := by
  intro tokens pair hentry
  cases hentry with
  | string _ hv | number _ hv => exact h _ _ hv

/-- A numeral is a whole number or a binary64 number. -/
theorem exists_of_numeral {text : List Char} {v : Value} (h : Reader.numeral text = .ok v) :
    (∃ i, v = .integer i) ∨ ∃ x, Binary64.ofText? text = some x ∧ v = .float x := by
  unfold Reader.numeral at h
  dsimp only at h
  split at h
  · rename_i i _
    cases h
    exact .inl ⟨i, rfl⟩
  · split at h
    · rename_i x hx
      cases h
      exact .inr ⟨x, hx, rfl⟩
    · cases h

/-- A numeral is read as a leaf. -/
theorem isLeaf_of_numeral {text : List Char} {v : Value} (h : Reader.numeral text = .ok v) :
    v.isLeaf := by
  obtain ⟨i, rfl⟩ | ⟨x, _, rfl⟩ := exists_of_numeral h
  · rfl
  · rfl

/-- With well-built parts, every form is well built. -/
theorem wellBuilt_form {value : Phrase Value} (h : value.Denotes WellBuilt) :
    value.Form.Denotes WellBuilt := by
  intro tokens v hform
  cases hform with
  | truth b => exact .leaf _ rfl
  | null => exact .leaf _ rfl
  | number hread | negative hread => exact .leaf v (isLeaf_of_numeral hread)
  | string s => exact .leaf _ rfl
  | list hitems => exact .list _ (denotes_items h _ _ hitems)
  | map hpairs =>
      -- a key that is repeated is bound once
      refine .map _ (Entries.distinct_ofPairs _) fun entry hentry => ?_
      exact denotes_items (denotes_entry h) _ _ hpairs entry (Entries.mem_of_mem_ofPairs hentry)
  | call _ hargs hnode => exact .ofArguments (denotes_items h _ _ hargs) hnode

/-- A condition that construction keeps holds of every part of a form, if it holds of every map and of
the numbers that the tokens of the form are read as. -/
theorem all_form {p : Value → Bool} (hp : Value.KeptByBuilding p) (hmap : ∀ entries, p (.map entries))
    {value : Phrase Value} (h : value.Denotes fun v => v.all p) {tokens : List Token} {v : Value}
    (hform : value.Form tokens v)
    (hnumber : ∀ text negative w, .number text ∈ tokens →
      Reader.numeral (signText negative ++ text.toList) = .ok w → p w) : v.all p := by
  have hleaf {v : Value} (hleaf : v.isLeaf) (hordinary : v.isOrdinary) : v.all p :=
    Value.all_of_isLeaf hleaf (hp.leaf v hleaf hordinary)
  cases hform with
  | truth b => exact hleaf rfl rfl
  | null => exact hleaf rfl rfl
  | number hread =>
      exact Value.all_of_isLeaf (isLeaf_of_numeral hread) (hnumber _ false v (by simp) hread)
  | negative hread =>
      exact Value.all_of_isLeaf (isLeaf_of_numeral hread) (hnumber _ true v (by simp) hread)
  | string s => exact hleaf rfl rfl
  | list hitems => exact Value.all_list.2 ⟨hp.list _, denotes_items h _ _ hitems⟩
  | map hpairs =>
      refine Value.all_map.2 ⟨hmap _, fun entry hentry => ?_⟩
      exact denotes_items (denotes_entry h) _ _ hpairs entry (Entries.mem_of_mem_ofPairs hentry)
  | call _ hargs hnode => exact Node.all_of_ofArguments hp (denotes_items h _ _ hargs) hnode

/-- Phrases of any number of levels denote well-built values only. -/
theorem wellBuilt_value (levels : Nat) : (value levels).Denotes WellBuilt := by
  induction levels with
  | zero => exact fun _ _ h => h.elim
  | succ levels ih => exact wellBuilt_form ih

end Phrase

/-! ## Texts -/

namespace Value

/-- **What is read from a text is well built.** -/
theorem wellBuilt_read {text : String} {v : Value} (h : read text = .ok v) : WellBuilt v := by
  obtain ⟨_, _, hphrase⟩ := phrase_of_read h
  exact Phrase.wellBuilt_value _ _ _ hphrase

/-- **No ill-formed node enters through a text.**  Whatever is rebuilt from a tree, or read from a text
of the call syntax, has nodes that obey the rules of their operators only, at every depth. -/
theorem obeysRules_of_text :
    (∀ (tree : Json) (v : Value), revive .rebuilding tree = .ok v → v.all obeysRules) ∧
      ∀ (text : String) (v : Value), read text = .ok v → v.all obeysRules :=
  ⟨fun _ _ => obeysRules_rebuilt, fun _ _ h => (wellBuilt_iff.1 (wellBuilt_read h)).1⟩

/-- A choice by a text, which is coerced, without its second branch; and a call that repeats a key and
takes defaults for all but two fields of a date-time. -/
theorem obeysRules_of_text_choice :
    let length : Json := .object [("v", .string "abc"), (tagKey, .string "Len")]
    let tree : Json := .object [("t", length), (tagKey, .string "If"), ("c", .string "x")]
    let v := node .choose [node .bool [string "x"], node .len [string "abc"], null]
    let text := "Less(DateTime(2024, 2), Get(\x7b'a': 1, 'a': 2\x7d, 'a', 0), [])"
    (revive .rebuilding tree = .ok v ∧ v.all obeysRules) ∧
      ∃ w, read text = .ok w ∧ w.all obeysRules := by
  intro length tree v text
  have hrevive : revive .rebuilding tree = .ok v := rfl
  obtain ⟨w, hread⟩ : ∃ w, read text = .ok w := exists_of_isOk (by decide +kernel)
  exact ⟨⟨hrevive, obeysRules_of_text.1 tree v hrevive⟩, w, hread, obeysRules_of_text.2 text w hread⟩

end Value

end Latent
