import Latent.Proofs.Evaluate.Operators
import Latent.Proofs.Value.Parts

/-!
# The variables that an evaluation reads

However many segments a path has, its resolution looks up two names among the variables at most: the
path as a whole, and the text before its first dot (`Path.resolve?_congr`).  So the result of a value
hangs on the variables that its own look-ups name, wherever they stand in it, and on no other.
-/

namespace Latent

namespace Path

/-- The names that the resolution of a path looks up: the path itself, and the path up to its first dot. -/
def names (path : String) : List String := [path, String.ofList (path.toList.takeWhile (· ≠ '.'))]

/-- The first segment is what stands before the first dot. -/
theorem exists_splitOn (text : List Char) :
    ∃ rest, text.splitOn '.' = text.takeWhile (· ≠ '.') :: rest := by
  unfold List.splitOn
  induction text with
  | nil => exact ⟨[], List.splitOnP_nil⟩
  | cons c text ih =>
      obtain ⟨rest, hrest⟩ := ih
      rw [List.splitOnP_cons_eq_if_modifyHead]
      by_cases hdot : c = '.'
      · refine ⟨text.splitOnP (· == '.'), ?_⟩
        simp [hdot]
      · refine ⟨rest, ?_⟩
        rw [hrest]
        simp [hdot]

/-- The segments of a path make the path again. -/
theorem join_segments (path : String) : join (segments path) = path := by
  rw [join, segments, List.intercalate_splitOn, String.ofList_toList]

/-- **A path is resolved by two names at most**, and the walk goes on inside the value of the second. -/
theorem resolve?_congr {path : String} {bindings others : Entries Value}
    (h : ∀ name ∈ names path, Entries.find? name bindings = Entries.find? name others) :
    resolve? path bindings = resolve? path others := by
  obtain ⟨rest, hsegments⟩ := exists_splitOn path.toList
  have hwhole : Entries.find? path bindings = Entries.find? path others :=
    h path List.mem_cons_self
  have hhead : Entries.find? (String.ofList (path.toList.takeWhile (· ≠ '.'))) bindings
      = Entries.find? (String.ofList (path.toList.takeWhile (· ≠ '.'))) others :=
    h _ (List.mem_cons_of_mem _ List.mem_cons_self)
  have hjoin := join_segments path
  unfold resolve?
  rw [segments, hsegments] at hjoin ⊢
  rw [reach?, reach?, hjoin, hwhole, hhead]

end Path

/-! ## Variables of a value -/

namespace Value

/-- The path of a look-up of a variable. -/
def path? : Value → Option String
  | node .eval (string path :: _) => some path
  | _ => none

/-- A variable is looked up by a text: no other operand can be the path of an `Eval`. -/
def hasPath : Value → Bool
  | node .eval operands => (path? (node .eval operands)).isSome
  | _ => true

mutual

/-- The paths of all variables that are looked up anywhere in a value. -/
def paths : Value → List String
  | list items => itemPaths items
  | map entries => entryPaths entries
  | node op operands => (path? (node op operands)).toList ++ itemPaths operands
  | _ => []

/-- The paths of the items, one after the other. -/
def itemPaths : List Value → List String
  | [] => []
  | item :: rest => paths item ++ itemPaths rest

/-- The paths of what the keys are bound to. -/
def entryPaths : List (String × Value) → List String
  | [] => []
  | (_, value) :: rest => paths value ++ entryPaths rest

end

variable {path : String}

theorem mem_itemPaths {items : List Value} :
    path ∈ itemPaths items ↔ ∃ v ∈ items, path ∈ v.paths := by
  induction items with
  | nil => simp [itemPaths]
  | cons item rest ih => simp [itemPaths, ih]

theorem mem_entryPaths {entries : List (String × Value)} :
    path ∈ entryPaths entries ↔ ∃ entry ∈ entries, path ∈ entry.2.paths := by
  induction entries with
  | nil => simp [entryPaths]
  | cons entry rest ih => simp [entryPaths, ih]

/-- A path of a list is that of an item. -/
theorem mem_paths_list {items : List Value} :
    path ∈ (list items).paths ↔ ∃ v ∈ items, path ∈ v.paths := by
  rw [paths, mem_itemPaths]

/-- A path of a map is that of a bound value. -/
theorem mem_paths_map {entries : List (String × Value)} :
    path ∈ (map entries).paths ↔ ∃ entry ∈ entries, path ∈ entry.2.paths := by
  rw [paths, mem_entryPaths]

/-- A path of a node is its own, or that of an operand. -/
theorem mem_paths_node {op : Operator} {operands : List Value} :
    path ∈ (node op operands).paths ↔
      path? (node op operands) = some path ∨ ∃ v ∈ operands, path ∈ v.paths := by
  rw [paths, List.mem_append, Option.mem_toList, mem_itemPaths]

/-- The operands of a look-up that has a path begin with the text of the path. -/
theorem exists_of_hasPath {operands : List Value} (h : (node .eval operands).hasPath) :
    ∃ path rest, operands = string path :: rest := by
  cases operands with
  | nil => cases h
  | cons first rest =>
      cases first with
      | string path => exact ⟨path, rest, rfl⟩
      | _ => cases h

end Value

/-! ## Evaluation -/

/-- Only `Eval` reads the variables. -/
theorem Scope.apply_of_ne_eval {op : Operator} (h : op ≠ .eval) (bindings others : Entries Value)
    (clock : Clock) (fields : Fields) :
    Scope.apply ⟨bindings, clock⟩ op fields = Scope.apply ⟨others, clock⟩ op fields := by
  cases op with
  | eval => exact absurd rfl h
  | _ => rfl

/-- `Eval` on a path gives what the path names, or else the default. -/
theorem Scope.apply_eval_string (scope : Scope) (path : String) (operands : List Value) :
    scope.apply .eval (Value.record .eval (.string path :: operands))
      = (Path.resolve? path scope.bindings).getD
          (Fields.value (Value.record .eval (.string path :: operands)) "d") := by
  have hpath : Fields.value (Value.record .eval (.string path :: operands)) "v" = .string path := rfl
  rw [apply_eval, hpath]
  rfl

namespace Value

variable {clock : Clock} {bindings others : Entries Value}

/-- A node has one result when the variable that it may look up is found alike. -/
theorem apply_congr_bindings {op : Operator} {operands : List Value}
    (hpath : (node op operands).hasPath)
    (h : ∀ path, path? (node op operands) = some path →
      Path.resolve? path bindings = Path.resolve? path others) :
    Scope.apply ⟨bindings, clock⟩ op (record op (operands.map (evaluate ⟨others, clock⟩)))
      = Scope.apply ⟨others, clock⟩ op (record op (operands.map (evaluate ⟨others, clock⟩))) := by
  by_cases heval : op = .eval
  · subst heval
    obtain ⟨path, rest, rfl⟩ := exists_of_hasPath hpath
    have hresolve : Path.resolve? path bindings = Path.resolve? path others := h path rfl
    -- a text is evaluated to itself, so the path that is resolved is the one that is written
    have hself : (string path).evaluate ⟨others, clock⟩ = string path := rfl
    rw [List.map_cons, hself, Scope.apply_eval_string, Scope.apply_eval_string, hresolve]
  · exact Scope.apply_of_ne_eval heval bindings others clock _

/-- **An evaluation reads only the variables that its look-ups name.**  Whatever else two contexts hold,
the results are identical when each path of the value, and the text before its first dot, is bound
alike in both, or in neither. -/
theorem evaluate_eq_of_agree (v : Value) (clock : Clock) (bindings others : Entries Value)
    (hpaths : v.all hasPath)
    (h : ∀ path ∈ v.paths, ∀ name ∈ Path.names path,
      Entries.find? name bindings = Entries.find? name others) :
    v.evaluate ⟨bindings, clock⟩ = v.evaluate ⟨others, clock⟩ := by
  induction v, hpaths using all_induction with
  | leaf v _ hleaf =>
      cases v with
      | list _ | map _ | node _ _ => cases hleaf
      | _ => rfl
  | list items _ ih =>
      have hitems : ∀ v ∈ items, v.evaluate ⟨bindings, clock⟩ = v.evaluate ⟨others, clock⟩ := by
        intro v hv
        apply ih v hv
        intro path hpath
        exact h path (mem_paths_list.2 ⟨v, hv, hpath⟩)
      rw [evaluate_list, evaluate_list, List.map_congr_left hitems]
  | map entries _ ih =>
      have hentries : ∀ entry ∈ entries, (entry.1, entry.2.evaluate ⟨bindings, clock⟩)
          = (entry.1, entry.2.evaluate ⟨others, clock⟩) := by
        intro entry hentry
        refine congrArg (Prod.mk entry.1) (ih entry hentry ?_)
        intro path hpath
        exact h path (mem_paths_map.2 ⟨entry, hentry, hpath⟩)
      rw [evaluate_map, evaluate_map, List.map_congr_left hentries]
  | node op operands hpaths ih =>
      have hoperands : ∀ v ∈ operands,
          v.evaluate ⟨bindings, clock⟩ = v.evaluate ⟨others, clock⟩ := by
        intro v hv
        apply ih v hv
        intro path hmem
        exact h path (mem_paths_node.2 (.inr ⟨v, hv, hmem⟩))
      rw [evaluate_node, evaluate_node, List.map_congr_left hoperands]
      -- the operands are evaluated alike, and the path of the node itself is among those of the
      -- value
      apply apply_congr_bindings (holds_of_all hpaths)
      intro path hown
      exact Path.resolve?_congr (h path (mem_paths_node.2 (.inl hown)))

/-- A look-up by a long path whose default looks up another variable, in a map beside a date that starts
today; the contexts differ in the order of what both bind, and in what is not named. -/
theorem evaluate_eq_of_agree_default :
    let v := list [map [("k", node .eval [string "a.b.c", node .eval [string "x", null]])],
      node .date [null, null, null, integer 0, integer 0, integer 1, null]]
    let bindings : Entries Value := [("x", integer 1), ("a", map [("b", list [])]), ("y", float .nan)]
    let others : Entries Value := [("a", map [("b", list [])]), ("b", string "a"), ("x", integer 1)]
    (v.all hasPath ∧ ∀ path ∈ v.paths, ∀ name ∈ Path.names path,
        Entries.find? name bindings = Entries.find? name others) ∧
      v.evaluate ⟨bindings, default⟩ = v.evaluate ⟨others, default⟩ := by
  intro v bindings others
  have hpaths : v.all hasPath := by decide
  have hlist : v.paths = ["a.b.c", "x"] := by decide
  have hagree : ∀ path ∈ v.paths, ∀ name ∈ Path.names path,
      Entries.find? name bindings = Entries.find? name others := by
    rw [hlist]
    intro path hpath name hname
    have hnames : name ∈ ["a.b.c", "x"].flatMap Path.names :=
      List.mem_flatMap.2 ⟨path, hpath, hname⟩
    have heq : ["a.b.c", "x"].flatMap Path.names = ["a.b.c", "a", "x", "x"] := by decide
    rw [heq] at hnames
    simp only [List.mem_cons, List.not_mem_nil, or_false] at hnames
    rcases hnames with rfl | rfl | rfl | rfl <;> rfl
  exact ⟨⟨hpaths, hagree⟩, evaluate_eq_of_agree v default bindings others hpaths hagree⟩

end Value

end Latent
