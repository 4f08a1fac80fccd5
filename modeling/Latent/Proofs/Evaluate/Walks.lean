import Latent.Proofs.Evaluate.Variables
import Latent.Proofs.Numeral.Texts

/-!
# Walks along paths

Where no key has a dot in it, a path names what a walk along its segments reaches: no key can be the
rest of a path, so that every segment is one step (`Path.reach?_eq_some_iff`).
-/

namespace Latent

/-- No key of the value has a dot in it, through maps and lists. -/
inductive Value.IsUndotted : Value → Prop where
  | list (items : List Value) (h : ∀ v ∈ items, IsUndotted v) : IsUndotted (.list items)
  | map (entries : Entries Value) (hkeys : ∀ entry ∈ entries, '.' ∉ entry.1.toList)
      (h : ∀ entry ∈ entries, IsUndotted entry.2) : IsUndotted (.map entries)
  | leaf (v : Value) (h : v.isLeaf) : IsUndotted v
  | node (op : Operator) (operands : List Value) : IsUndotted (.node op operands)

namespace Path

/-! ## Walks -/

/-- One step: to the value of a key that is bound, or to the item at a position, spelled by its decimal
digits. -/
inductive Step : Value → List Char → Value → Prop where
  | key {entries : Entries Value} {segment : List Char} {v : Value}
      (h : Entries.find? (String.ofList segment) entries = some v) : Step (.map entries) segment v
  | position {items : List Value} {n : Nat} (h : n < items.length) :
      Step (.list items) (Nat.toDigits 10 n) items[n]

/-- A step for each segment. -/
inductive Walk : Value → List (List Char) → Value → Prop where
  | done (v : Value) : Walk v [] v
  | step {v w u : Value} {segment : List Char} {rest : List (List Char)} (hfirst : Step v segment w)
      (hrest : Walk w rest u) : Walk v (segment :: rest) u

variable {entries : Entries Value} {items : List Value} {segment : List Char}
  {rest segments : List (List Char)} {v w : Value}

/-- Into a map a segment is a key. -/
theorem step_map_iff :
    Step (.map entries) segment v ↔ Entries.find? (String.ofList segment) entries = some v :=
  ⟨fun h => by cases h; assumption, .key⟩

/-- Positions are spelled without a sign and without zeros in front. -/
theorem step_list_iff : Step (.list items) segment v ↔ itemAt? items segment = some v := by
  constructor
  · intro h
    cases h with
    | position hlt =>
        rw [itemAt?, Scientific.natOfText?_toDigits]
        dsimp only
        rw [if_pos rfl, List.getElem?_eq_getElem hlt]
  · intro h
    unfold itemAt? at h
    split at h
    · split at h
      · rename_i hdigits
        obtain ⟨hlt, rfl⟩ := List.getElem?_eq_some_iff.1 h
        rw [← hdigits]
        exact .position hlt
      · cases h
    · cases h

/-- What a step reaches has no dots in its keys either. -/
theorem Step.isUndotted (hstep : Step v segment w) (h : v.IsUndotted) : w.IsUndotted := by
  cases hstep with
  | key hfind =>
      cases h with
      | map _ _ hentries => exact hentries _ (Entries.mem_of_find? hfind)
      | leaf _ hleaf => cases hleaf
  | position hlt =>
      cases h with
      | list _ hitems => exact hitems _ (List.getElem_mem hlt)
      | leaf _ hleaf => cases hleaf

/-- A walk begins with a step. -/
theorem walk_cons_iff : Walk v (segment :: rest) w ↔ ∃ u, Step v segment u ∧ Walk u rest w := by
  constructor
  · intro h
    cases h with
    | step hfirst hrest => exact ⟨_, hfirst, hrest⟩
  · rintro ⟨_, hfirst, hrest⟩
    exact .step hfirst hrest

/-! ## Resolution -/

/-- Two segments or more are joined with a dot. -/
theorem dot_mem_join (h : rest ≠ []) : '.' ∈ (join (segment :: rest)).toList := by
  obtain ⟨next, rest, rfl⟩ := List.exists_cons_of_ne_nil h
  simp [join, List.intercalate, List.intersperse]

/-- In a map whose keys have no dots, no key is several segments. -/
theorem find?_join (hentries : (Value.map entries).IsUndotted) (h : rest ≠ []) :
    Entries.find? (join (segment :: rest)) entries = none := by
  cases hfind : Entries.find? (join (segment :: rest)) entries with
  | none => rfl
  | some v =>
      cases hentries with
      | map _ hkeys _ => exact absurd (dot_mem_join h) (hkeys _ (Entries.mem_of_find? hfind))
      | leaf _ hleaf => cases hleaf

/-- Where no key has a dot in it, the first segment of a path is one step, and the rest of the path goes
on from there. -/
theorem reach?_cons_eq_some_iff (hv : v.IsUndotted) : reach? (segment :: rest) v = some w ↔
    ∃ u, Step v segment u ∧ (if rest = [] then u = w else reach? rest u = some w) := by
  cases v with
  | map entries =>
      simp only [step_map_iff]
      by_cases hrest : rest = []
      · have hjoin : join (segment :: rest) = String.ofList segment := by
          rw [hrest, join, List.intercalate_singleton]
        rw [reach?, hjoin]
        cases hfind : Entries.find? (String.ofList segment) entries <;> simp [hrest]
      · simp only [reach?, find?_join hv hrest, if_neg hrest, Option.bind_eq_some_iff]
  | list items =>
      simp only [step_list_iff]
      by_cases hrest : rest = []
      · simp [reach?, hrest]
      · simp only [reach?, if_neg hrest, Option.bind_eq_some_iff]
  | _ =>
      refine iff_of_false (fun h => by cases h) ?_
      rintro ⟨_, hstep, _⟩
      cases hstep

/-- **Where no key has a dot in it, a path reaches what a walk along its segments reaches.** -/
theorem reach?_eq_some_iff (hsegments : segments ≠ []) (hv : v.IsUndotted) :
    reach? segments v = some w ↔ Walk v segments w := by
  induction segments generalizing v with
  | nil => exact absurd rfl hsegments
  | cons segment rest ih =>
      rw [reach?_cons_eq_some_iff hv, walk_cons_iff]
      refine exists_congr fun u => and_congr_right fun hstep => ?_
      by_cases hrest : rest = []
      · rw [if_pos hrest, hrest]
        exact ⟨fun h => h ▸ .done u, fun h => by cases h; rfl⟩
      · rw [if_neg hrest, ih hrest (hstep.isUndotted hv)]

/-- **A variable is what a walk along the segments of its path reaches, and its default where a step
fails.** -/
theorem evaluate_eval_of_isUndotted (scope : Scope) (path : String) (default : Value)
    (h : (Value.map scope.bindings).IsUndotted) :
    (∀ v, Walk (.map scope.bindings) (path.toList.splitOn '.') v →
        (Value.node .eval [.string path, default]).evaluate scope = v) ∧
      ((¬∃ v, Walk (.map scope.bindings) (path.toList.splitOn '.') v) →
        (Value.node .eval [.string path, default]).evaluate scope = default.evaluate scope) := by
  obtain ⟨rest, hsplit⟩ := exists_splitOn path.toList
  have hsegments : segments path ≠ [] := by
    rw [segments, hsplit]
    exact List.cons_ne_nil _ _
  -- with keys without dots, what is reached is where the walk ends
  have hresolve {v : Value} : resolve? path scope.bindings = some v ↔
      Walk (.map scope.bindings) (path.toList.splitOn '.') v := reach?_eq_some_iff hsegments h
  have hresult : (Value.node .eval [.string path, default]).evaluate scope
      = (resolve? path scope.bindings).getD (default.evaluate scope) := by
    rw [Value.evaluate_node]
    exact scope.apply_eval_string path [default.evaluate scope]
  rw [hresult]
  constructor
  · intro v hwalk
    rw [hresolve.2 hwalk, Option.getD_some]
  · intro hnone
    cases hfound : resolve? path scope.bindings with
    | none => rfl
    | some v => exact absurd ⟨v, hresolve.1 hfound⟩ hnone

/-- A null behind a position of a list, and a position with a zero in front, in place of which the default is
taken. -/
theorem evaluate_eval_of_isUndotted_position :
    let scope : Scope := ⟨[("a", .list [.string "0", .map [("", .null)]])], default⟩
    (Value.map scope.bindings).IsUndotted ∧
      (Walk (.map scope.bindings) ("a.1.".toList.splitOn '.') .null ∧
        (Value.node .eval [.string "a.1.", .float 2]).evaluate scope = .null) ∧
      (¬∃ v, Walk (.map scope.bindings) ("a.01.".toList.splitOn '.') v) ∧
        (Value.node .eval [.string "a.01.", .float 2]).evaluate scope
          = (Value.float 2).evaluate scope := by
  intro scope
  have hundotted : (Value.map scope.bindings).IsUndotted := by
    refine .map _ (by decide) (List.forall_mem_singleton.2 (.list _ ?_))
    refine List.forall_mem_cons.2 ⟨.leaf _ rfl, List.forall_mem_singleton.2 ?_⟩
    exact .map _ (by decide) (List.forall_mem_singleton.2 (.leaf _ rfl))
  have hwalk : Walk (.map scope.bindings) ("a.1.".toList.splitOn '.') .null :=
    (reach?_eq_some_iff (by decide) hundotted).1 rfl
  have hnone : ¬∃ v, Walk (.map scope.bindings) ("a.01.".toList.splitOn '.') v := by
    rintro ⟨v, h⟩
    have hreach := (reach?_eq_some_iff (by decide) hundotted).2 h
    cases hreach
  exact ⟨hundotted, ⟨hwalk, (evaluate_eval_of_isUndotted scope "a.1." _ hundotted).1 .null hwalk⟩,
    hnone, (evaluate_eval_of_isUndotted scope "a.01." _ hundotted).2 hnone⟩

end Path

end Latent
