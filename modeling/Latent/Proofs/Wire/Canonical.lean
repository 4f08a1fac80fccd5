import Latent.Proofs.Json.Keys
import Latent.Proofs.Wire.Rebuilt

/-!
# Canonical trees

A tree can leave fields out, bind others that are none, and have its fields in any order; whatever is
rebuilt from it is written in one form.  That form is rebuilt as an equal value, and is written again as
it was, to the order of the keys.
-/

namespace Latent

namespace Value

variable {tree : Json} {w : Value}

/-- The value is written as a tree that is rebuilt as an equal value, which is written as the same
tree. -/
def HasCanonicalTree (w : Value) : Prop :=
  ∃ tree w', w.toJson = .ok tree ∧ revive .rebuilding tree = .ok w' ∧ w'.same w = true ∧
    w'.toJson = .ok tree

/-- What is rebuilt is a well-built value of JSON data, so it is carried to its plain form. -/
theorem hasCanonicalTree_of_revive (hkeys : tree.all Json.hasDistinctKeys)
    (h : revive .rebuilding tree = .ok w) : w.HasCanonicalTree := by
  have hbuilt : WellBuilt w := wellBuilt_rebuilt h hkeys
  have hordinary : w.all isOrdinary := isOrdinary_rebuilt h
  obtain ⟨tree', htree', hrevive⟩ :=
    carries_plain ⟨w, hbuilt, all_and hordinary (isUntagged_rebuilt h)⟩
  have hagain : w.plain.toJson = w.toJson := toJson_mapLeaves (fun _ _ => toJson_plainLeaf) hordinary
  exact ⟨tree', w.plain, htree', hrevive, plain_same ⟨w, hbuilt, hordinary⟩, hagain.trans htree'⟩

/-- **Rebuilding and writing brings a tree into one form, once and for all.**  This is so of every tree
and of every text that is rebuilt. -/
theorem hasCanonicalTree_rebuilt :
    (∀ (tree : Json) (w : Value), tree.all Json.hasDistinctKeys → revive .rebuilding tree = .ok w →
      w.HasCanonicalTree) ∧
    ∀ (text : String) (w : Value), decode .rebuilding text = .ok w → w.HasCanonicalTree := by
  refine ⟨fun _ _ => hasCanonicalTree_of_revive, fun text w h => ?_⟩
  unfold decode at h
  split at h
  · rename_i tree hread
    exact hasCanonicalTree_of_revive (Json.hasDistinctKeys_of_read? hread) h
  · cases h

/-- A comparison with the tag last, of a date without most of its fields; and a text that binds a field
twice. -/
theorem hasCanonicalTree_rebuilt_greater :
    let tomorrow : Json := .object [("z", .null), (tagKey, .string "Date"), ("dd", .ofInt64 1)]
    let tree : Json := .object [("e", .string "x"), ("s2", .number (.float 7 (by decide +kernel))),
      ("s1", tomorrow), (tagKey, .string "Greater")]
    let date := node .date [null, null, null, integer 0, integer 0, integer 1, null]
    let w := node .greater [date, float 7, node .bool [string "x"]]
    let text := "\x7b\"__class__\":\"Not\",\"v\":1,\"z\":null,\"v\":[]\x7d"
    (tree.all Json.hasDistinctKeys ∧ revive .rebuilding tree = .ok w ∧ w.HasCanonicalTree) ∧
      ∃ w, decode .rebuilding text = .ok w ∧ w.HasCanonicalTree := by
  intro tomorrow tree date w text
  have hkeys : tree.all Json.hasDistinctKeys := by decide
  have hrevive : revive .rebuilding tree = .ok w := rfl
  obtain ⟨w', hdecode⟩ : ∃ w, decode .rebuilding text = .ok w := exists_of_isOk (by decide +kernel)
  exact ⟨⟨hkeys, hrevive, hasCanonicalTree_rebuilt.1 tree w hkeys hrevive⟩, w', hdecode,
    hasCanonicalTree_rebuilt.2 text w' hdecode⟩

end Value

end Latent
