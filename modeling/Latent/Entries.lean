/-!
# Entries

Key–value pairs in order, the data of a mapping.  `put` keeps the position of a key that is already
bound; a list of entries built by `put` alone never binds a key twice.
-/

namespace Latent

/-- Key–value pairs in order. -/
abbrev Entries (α : Type) := List (String × α)

namespace Entries

variable {α : Type}

/-- The value bound to a key, if there is one. -/
def find? (key : String) : Entries α → Option α
  | [] => none
  | (k, v) :: rest => if k = key then some v else find? key rest

/-- Binds a key: in its place when it is already bound, at the end otherwise. -/
def put (key : String) (value : α) : Entries α → Entries α
  | [] => [(key, value)]
  | (k, v) :: rest => if k = key then (k, value) :: rest else (k, v) :: put key value rest

/-- Unbinds a key, keeping the order of the rest. -/
def remove (key : String) : Entries α → Entries α
  | [] => []
  | (k, v) :: rest => if k = key then rest else (k, v) :: remove key rest

/-- The pairs put one after another: a repeated key keeps its first place and its last value. -/
def ofPairs (pairs : List (String × α)) : Entries α :=
  pairs.foldl (fun entries pair => put pair.1 pair.2 entries) []

/-- The keys that are bound, in order. -/
def keys (entries : Entries α) : List String := entries.map Prod.fst

/-- No key is bound twice. -/
def Distinct (entries : Entries α) : Prop := (keys entries).Nodup

instance (entries : Entries α) : Decidable (Distinct entries) :=
  inferInstanceAs (Decidable (List.Nodup _))

/-! ## Lookup after an update -/

theorem find?_put_self (key : String) (value : α) (entries : Entries α) :
    find? key (put key value entries) = some value := by
  induction entries with
  | nil => simp [put, find?]
  | cons head rest ih =>
    obtain ⟨k, v⟩ := head
    by_cases h : k = key <;> simp [put, find?, h, ih]

theorem find?_put_of_ne {key other : String} (ne : key ≠ other) (value : α)
    (entries : Entries α) : find? other (put key value entries) = find? other entries := by
  induction entries with
  | nil => simp [put, find?, ne]
  | cons head rest ih =>
    obtain ⟨k, v⟩ := head
    by_cases h : k = key
    · subst h
      simp [put, find?, ne]
    · rw [put, if_neg h, find?, find?, ih]

/-- The keys after `put`: the same, or one more at the end. -/
theorem keys_put (key : String) (value : α) (entries : Entries α) :
    keys (put key value entries)
      = if key ∈ keys entries then keys entries else keys entries ++ [key] := by
  induction entries with
  | nil => simp [put, keys]
  | cons head rest ih =>
    obtain ⟨k, v⟩ := head
    by_cases h : k = key
    · simp [put, keys, h]
    · have h' : ¬ key = k := fun e => h e.symm
      simp only [keys] at ih
      by_cases hm : key ∈ rest.map Prod.fst <;> simp_all [put, keys]

/-- `put` binds no key twice. -/
theorem Distinct.put {entries : Entries α} (h : Distinct entries) (key : String) (value : α) :
    Distinct (Entries.put key value entries) := by
  unfold Distinct at *
  rw [keys_put]
  split
  · exact h
  · rename_i hm
    refine List.nodup_append.2 ⟨h, by simp, ?_⟩
    intro a ha b hb
    rintro rfl
    simp only [List.mem_singleton] at hb
    exact hm (hb ▸ ha)

/-- Changed values have the same keys. -/
theorem Distinct.map {β : Type} {entries : Entries α} (h : Distinct entries) (f : α → β) :
    Distinct (entries.map fun entry => (entry.1, f entry.2)) := by
  unfold Distinct keys at *
  rwa [List.map_map]

/-- Entries built from pairs bind no key twice. -/
theorem distinct_ofPairs (pairs : List (String × α)) : Distinct (ofPairs pairs) := by
  have step : ∀ (pairs : List (String × α)) (entries : Entries α), Distinct entries →
      Distinct (pairs.foldl (fun entries pair => Entries.put pair.1 pair.2 entries) entries) := by
    intro pairs
    induction pairs with
    | nil => exact fun _ h => h
    | cons head rest ih => exact fun _ h => ih _ (h.put _ _)
  exact step pairs [] (by simp [Distinct, keys])

/-- A new key is bound at the end. -/
theorem put_of_notMem {entries : Entries α} {key : String} (h : key ∉ keys entries) (value : α) :
    put key value entries = entries ++ [(key, value)] := by
  induction entries with
  | nil => rfl
  | cons head rest ih =>
    obtain ⟨k, v⟩ := head
    obtain ⟨hne, hrest⟩ := not_or.1 fun hor => h (List.mem_cons.2 hor)
    rw [put, if_neg fun heq => hne heq.symm, ih hrest, List.cons_append]

/-- Pairs with keys of their own are entries as they are. -/
theorem ofPairs_of_distinct {pairs : List (String × α)} (h : Distinct pairs) :
    ofPairs pairs = pairs := by
  have step : ∀ (pairs : List (String × α)) (entries : Entries α), Distinct (entries ++ pairs) →
      pairs.foldl (fun entries pair => Entries.put pair.1 pair.2 entries) entries
        = entries ++ pairs := by
    intro pairs
    induction pairs with
    | nil => exact fun entries _ => (List.append_nil entries).symm
    | cons head rest ih =>
      intro entries hdistinct
      have hassoc : entries ++ head :: rest = entries ++ [head] ++ rest := by simp
      have hnew : head.1 ∉ keys entries := by
        intro hmem
        unfold Distinct keys at hdistinct
        rw [List.map_append, List.nodup_append] at hdistinct
        exact hdistinct.2.2 _ hmem _ List.mem_cons_self rfl
      rw [List.foldl_cons, put_of_notMem hnew, hassoc]
      rw [hassoc] at hdistinct
      exact ih _ hdistinct
  exact step pairs [] h

/-- Exactly the bound keys are found. -/
theorem isSome_find?_iff {key : String} {entries : Entries α} :
    (find? key entries).isSome ↔ key ∈ keys entries := by
  induction entries with
  | nil => simp [find?, keys]
  | cons head rest ih =>
    obtain ⟨k, v⟩ := head
    by_cases h : k = key
    · simp [find?, keys, h]
    · have h' : ¬ key = k := fun e => h e.symm
      simp only [keys] at ih
      simp [find?, keys, h, h', ih]

/-- A lookup among changed values. -/
theorem find?_map {β : Type} (f : α → β) (key : String) (entries : Entries α) :
    find? key (entries.map fun entry => (entry.1, f entry.2)) = (find? key entries).map f := by
  induction entries with
  | nil => rfl
  | cons head rest ih =>
    obtain ⟨k, v⟩ := head
    rw [List.map_cons, find?, find?, ih]
    split <;> rfl

/-- Unbinding one key keeps the others. -/
theorem find?_remove_of_ne {key other : String} (ne : key ≠ other) (entries : Entries α) :
    find? other (remove key entries) = find? other entries := by
  induction entries with
  | nil => rfl
  | cons head rest ih =>
    obtain ⟨k, v⟩ := head
    by_cases h : k = key
    · subst h
      rw [remove, if_pos rfl, find?, if_neg ne]
    · rw [remove, if_neg h, find?, find?, ih]

/-! ## Lookup by position -/

/-- A bound pair is found by its key. -/
theorem find?_of_mem {entries : Entries α} (h : Distinct entries) {key : String} {value : α}
    (hmem : (key, value) ∈ entries) : find? key entries = some value := by
  induction entries with
  | nil => cases hmem
  | cons head rest ih =>
    obtain ⟨k, v⟩ := head
    obtain ⟨hk, hrest⟩ := List.nodup_cons.1 h
    rcases List.mem_cons.1 hmem with heq | hmem
    · cases heq
      rw [find?, if_pos rfl]
    · have hne : k ≠ key := by
        rintro rfl
        exact hk (List.mem_map.2 ⟨_, hmem, rfl⟩)
      rw [find?, if_neg hne, ih hrest hmem]

/-- What is found is bound. -/
theorem mem_of_find? {entries : Entries α} {key : String} {value : α}
    (h : find? key entries = some value) : (key, value) ∈ entries := by
  induction entries with
  | nil => cases h
  | cons head rest ih =>
    obtain ⟨k, v⟩ := head
    rw [find?] at h
    split at h
    · rename_i hk
      cases h
      rw [hk]
      exact List.mem_cons_self
    · exact List.mem_cons_of_mem _ (ih h)

/-- Unbinding a key adds no pair. -/
theorem mem_of_mem_remove {entries : Entries α} {key : String} {pair : String × α}
    (h : pair ∈ remove key entries) : pair ∈ entries := by
  induction entries with
  | nil => cases h
  | cons head rest ih =>
    rw [remove] at h
    split at h
    · exact List.mem_cons_of_mem _ h
    · rcases List.mem_cons.1 h with rfl | h
      · exact List.mem_cons_self
      · exact List.mem_cons_of_mem _ (ih h)

/-- `put` adds the pair that it binds, and no other. -/
theorem mem_of_mem_put {entries : Entries α} {key : String} {value : α} {pair : String × α}
    (h : pair ∈ put key value entries) : pair = (key, value) ∨ pair ∈ entries := by
  induction entries with
  | nil => exact .inl (List.mem_singleton.1 h)
  | cons head rest ih =>
    obtain ⟨k, v⟩ := head
    rw [put] at h
    split at h
    · rename_i hk
      rcases List.mem_cons.1 h with rfl | h
      · exact .inl (by rw [hk])
      · exact .inr (List.mem_cons_of_mem _ h)
    · rcases List.mem_cons.1 h with rfl | h
      · exact .inr List.mem_cons_self
      · exact (ih h).imp_right (List.mem_cons_of_mem _)

/-- Every entry is one of the pairs. -/
theorem mem_of_mem_ofPairs {pairs : List (String × α)} {pair : String × α}
    (h : pair ∈ ofPairs pairs) : pair ∈ pairs := by
  have step : ∀ (pairs : List (String × α)) (entries : Entries α),
      pair ∈ pairs.foldl (fun entries pair => put pair.1 pair.2 entries) entries →
        pair ∈ pairs ∨ pair ∈ entries := by
    intro pairs
    induction pairs with
    | nil => exact fun _ h => .inr h
    | cons head rest ih =>
      intro entries h
      rcases ih _ h with h | h
      · exact .inl (List.mem_cons_of_mem _ h)
      · rcases mem_of_mem_put h with rfl | h
        · exact .inl List.mem_cons_self
        · exact .inr h
  exact (step pairs [] h).resolve_right List.not_mem_nil

/-- Values bound to keys of their own are found again, in their order. -/
theorem map_find?_zip {keys : List String} {values : List α} (h : keys.Nodup)
    (hlength : values.length = keys.length) :
    keys.map (fun key => find? key (keys.zip values)) = values.map some := by
  induction keys generalizing values with
  | nil =>
    rw [List.eq_nil_of_length_eq_zero hlength]
    rfl
  | cons key rest ih =>
    obtain ⟨hkey, hrest⟩ := List.nodup_cons.1 h
    obtain ⟨value, values, rfl⟩ := List.exists_cons_of_length_eq_add_one hlength
    have htail : ∀ other ∈ rest, find? other ((key, value) :: rest.zip values)
        = find? other (rest.zip values) := by
      intro other hother
      have hne : key ≠ other := fun heq => hkey (heq ▸ hother)
      rw [find?, if_neg hne]
    rw [List.zip_cons_cons, List.map_cons, List.map_cons, find?, if_pos rfl,
      List.map_congr_left htail, ih hrest (by simpa using hlength)]

end Entries

end Latent
