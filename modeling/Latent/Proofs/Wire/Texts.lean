import Latent.Proofs.Json.Texts
import Latent.Proofs.Wire.Carries

/-!
# Values and their JSON texts

The text that a value is written as is read back as the tree of the value.  What is carried as a tree is
therefore transported as a text, as far as the tree is one that is read back: no key is bound twice, and
it is not nested too deep.  A record of leaves is such a tree.
-/

namespace Latent

namespace Json

variable {op : Operator} {fields : List Json}

/-- A whole number is written without parts. -/
theorem isLeaf_ofInt (i : Int) : (ofInt i).isLeaf := by
  unfold ofInt ofBinary64
  split
  · rfl
  · split <;> rfl

/-- A record binds its tag and its fields, all of them once. -/
theorem distinct_tagged (hlength : op.fields.length ≤ fields.length) :
    Entries.Distinct ((tagKey, Json.string op.name) :: op.fields.zip fields) := by
  unfold Entries.Distinct Entries.keys
  rw [List.map_cons, List.map_fst_zip hlength]
  exact List.nodup_cons.2 ⟨op.tagKey_notMem_fields, op.nodup_fields⟩

/-- A record of leaves can be read back. -/
theorem all_hasDistinctKeys_tagged (hlength : op.fields.length ≤ fields.length)
    (hfields : ∀ field ∈ fields, field.isLeaf) : (tagged op fields).all hasDistinctKeys := by
  refine all_object.2 ⟨decide_eq_true (distinct_tagged hlength), fun entry hentry => ?_⟩
  rcases List.mem_cons.1 hentry with rfl | hentry
  · rfl
  · exact all_hasDistinctKeys_of_isLeaf (hfields _ (List.of_mem_zip hentry).2)

/-- A record of leaves is nested once. -/
theorem nesting_tagged (hfields : ∀ field ∈ fields, field.isLeaf) : (tagged op fields).nesting = 1 := by
  have hleaves (entries : List (String × Json)) (h : ∀ entry ∈ entries, entry.2.isLeaf) :
      deepestEntry entries = 0 := by
    induction entries with
    | nil => rfl
    | cons entry rest ih =>
        rw [deepestEntry, nesting_of_isLeaf (h entry List.mem_cons_self),
          ih fun entry hentry => h entry (List.mem_cons_of_mem _ hentry), Nat.max_self]
  rw [tagged, nesting, hleaves]
  intro entry hentry
  rcases List.mem_cons.1 hentry with rfl | hentry
  · rfl
  · exact hfields _ (List.of_mem_zip hentry).2

end Json

namespace Value

variable {revival : Revival} {v w : Value}

/-- What has a tree has the text of the tree. -/
theorem encode_of_toJson {tree : Json} (htree : v.toJson = .ok tree) : v.encode = .ok tree.print := by
  rw [encode, htree]
  rfl

/-- The text of a tree is decoded as the tree is revived. -/
theorem decode_print (revival : Revival) {tree : Json} (hkeys : tree.all Json.hasDistinctKeys)
    (hnesting : tree.nesting ≤ Json.Reading.maxNesting) :
    decode revival tree.print = revive revival tree := by
  rw [decode, Json.read?_print hkeys hnesting]

/-- **A value is decoded from its text as from its tree.** -/
theorem exists_encode (revival : Revival) {tree : Json} (htree : v.toJson = .ok tree)
    (hkeys : tree.all Json.hasDistinctKeys) (hnesting : tree.nesting ≤ Json.Reading.maxNesting) :
    ∃ text, v.encode = .ok text ∧ decode revival text = revive revival tree :=
  ⟨tree.print, encode_of_toJson htree, decode_print revival hkeys hnesting⟩

/-- The value is written as a text that is decoded as `w`. -/
def Transports (revival : Revival) (v w : Value) : Prop :=
  ∃ text, v.encode = .ok text ∧ decode revival text = .ok w

/-- There is one text, and it is decoded as one value. -/
theorem Transports.unique {w' : Value} (h : Transports revival v w) (h' : Transports revival v w') :
    w = w' := by
  obtain ⟨text, htext, hw⟩ := h
  obtain ⟨text', htext', hw'⟩ := h'
  cases htext.symm.trans htext'
  exact Except.ok.inj (hw.symm.trans hw')

/-- What is carried by a record of leaves is transported by its text. -/
theorem transports_iff_carries {op : Operator} {fields : List Json}
    (htree : v.toJson = .ok (.tagged op fields)) (hlength : op.fields.length ≤ fields.length)
    (hfields : ∀ field ∈ fields, field.isLeaf) :
    Transports revival v w ↔ Carries revival v w := by
  have hnesting : (Json.tagged op fields).nesting ≤ Json.Reading.maxNesting := by
    rw [Json.nesting_tagged hfields]
    decide
  obtain ⟨text, htext, hdecode⟩ :=
    exists_encode revival htree (Json.all_hasDistinctKeys_tagged hlength hfields) hnesting
  constructor
  · rintro ⟨other, hother, hw⟩
    cases hother.symm.trans htext
    exact ⟨_, htree, hdecode.symm.trans hw⟩
  · rintro ⟨tree, hother, hw⟩
    cases hother.symm.trans htree
    exact ⟨text, htext, hdecode.trans hw⟩

end Value

end Latent
