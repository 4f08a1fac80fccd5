import Latent.Proofs.Json.Numbers
import Latent.Proofs.Json.Parts

/-!
# JSON trees and their texts

The compact text of a tree is read as that tree, if its objects bind no key twice and it is not nested
deeper than is read.  Every part of the text is followed by a comma, a bracket or nothing, and none of
these goes on with a number.
-/

namespace Latent

namespace Json.Reading

variable {rest : List Char}

/-! ## Strings -/

/-- An escaped character is read as that character. -/
theorem stringBody_escaped (c : Char) (rest : List Char) :
    stringBody (Text.escaped c ++ rest) = (stringBody rest).map (prepend c) := by
  unfold Text.escaped
  -- seven letters of their own, the digits of a code point, and the character itself
  split_ifs with hquote hslash hback hfeed hline hreturn htab hcontrol
  · rw [hquote]; rfl
  · rw [hslash]; rfl
  · rw [hback]; rfl
  · rw [hfeed]; rfl
  · rw [hline]; rfl
  · rw [hreturn]; rfl
  · rw [htab]; rfl
  · have hcode := Text.hex4?_control c.toNat hcontrol
    have hnot : ¬ (0xd800 ≤ c.toNat ∧ c.toNat ≤ 0xdbff) := by omega
    show stringBody ('\\' :: 'u' :: '0' :: '0' :: Nat.digitChar (c.toNat / 16) ::
      Nat.digitChar (c.toNat % 16) :: rest) = _
    simp only [stringBody, hcode, if_neg hnot, Text.charOfCode?_toNat]
  · show stringBody (c :: rest) = _
    rw [stringBody]
    · exact if_neg fun h => h.elim hslash hcontrol
    · exact hquote
    · simp [hslash]
    · simp [hslash]

theorem stringBody_quoted (content rest : List Char) :
    stringBody (content.flatMap Text.escaped ++ '"' :: rest) = some (content, rest) := by
  induction content with
  | nil => rfl
  | cons c content ih =>
      rw [List.flatMap_cons, List.append_assoc, stringBody_escaped, ih]
      rfl

/-- Quoted text is read as what is quoted. -/
theorem quotedString_quoted (s : String) (rest : List Char) :
    quotedString (Text.quoted s.toList ++ rest) = some (s, rest) := by
  rw [Text.quoted, List.cons_append, List.append_assoc, List.singleton_append, quotedString,
    stringBody_quoted, Option.map_some, String.ofList_toList]

/-! ## Lists -/

/-- A text is read as an item, whatever follows that does not go on with a number. -/
def ReadsAs {α : Type} (item : Reads α) (text : List Char) (a : α) : Prop :=
  ∀ rest, EndsNumber rest → item (text ++ rest) = some (a, rest)

/-- A value begins with this character: it is no blank, and closes nothing. -/
def beginsValue (c : Char) : Bool := !isSpace c && (c ≠ ']' && c ≠ '\x7d')

/-- A bracket that closes a list. -/
def closesList (c : Char) : Bool := c = ']' || c = '\x7d'

/-- A bracket that closes a list ends what is before it. -/
theorem of_closesList {c : Char} (h : closesList c = true) :
    isSpace c = false ∧ continuesNumber c = false ∧ ',' ≠ c ∧ beginsValue c = false := by
  rcases Bool.or_eq_true_iff.1 h with hc | hc <;> rw [of_decide_eq_true hc] <;> decide

theorem skipSpace_cons {c : Char} (h : isSpace c = false) (text : List Char) :
    skipSpace (c :: text) = c :: text :=
  List.dropWhile_cons_of_neg (by rw [h]; exact Bool.false_ne_true)

theorem isSpace_of_beginsValue {c : Char} (h : beginsValue c = true) : isSpace c = false := by
  have hand := Bool.and_eq_true_iff.1 h
  rw [← Bool.not_eq_true']
  exact hand.1

section Lists

variable {α : Type} {item : Reads α} {close : Char} {f : α → List Char} {as : List α}

/-- Items with commas between them are read one by one, with fuel for each of them. -/
theorem itemsUntil_intercalate (hclose : closesList close = true) (h : ∀ a ∈ as, ReadsAs item (f a) a)
    (hne : as ≠ []) {fuel : Nat} (hfuel : as.length ≤ fuel) (rest : List Char) :
    itemsUntil close item fuel ([','].intercalate (as.map f) ++ close :: rest) = some (as, rest) := by
  obtain ⟨hspace, hends, hcomma, _⟩ := of_closesList hclose
  induction as generalizing fuel with
  | nil => exact absurd rfl hne
  | cons a as ih =>
      -- there is fuel for the first item, and for one item less behind it
      obtain ⟨fuel, rfl⟩ := Nat.exists_eq_add_of_lt (Nat.lt_of_lt_of_le (Nat.succ_pos _) hfuel)
      rw [Nat.zero_add] at hfuel ⊢
      have hfirst := h a List.mem_cons_self
      cases as with
      | nil =>
          rw [List.map_singleton, List.intercalate_singleton, itemsUntil, hfirst _ (endsRun_cons hends)]
          simp only [skipSpace_cons hspace, if_pos]
      | cons b as =>
          have htext : [','].intercalate ((a :: b :: as).map f) ++ close :: rest
              = f a ++ ',' :: ([','].intercalate ((b :: as).map f) ++ close :: rest) := by
            rw [List.map_cons, List.map_cons, List.intercalate_cons_cons, List.append_assoc,
              List.append_assoc]
            rfl
          have hothers := ih (fun b hb => h b (List.mem_cons_of_mem _ hb)) (List.cons_ne_nil _ _)
            (Nat.le_of_succ_le_succ hfuel)
          rw [htext, itemsUntil, hfirst _ (endsRun_cons rfl)]
          simp only [skipSpace_cons (c := ',') rfl, if_neg hcomma, if_pos, hothers, Option.map_some]
          rfl

/-- There are no more items than characters. -/
theorem length_le_intercalate (texts : List (List Char)) :
    texts.length ≤ ([','].intercalate texts).length + 1 := by
  induction texts with
  | nil => exact Nat.zero_le _
  | cons text texts ih =>
      cases texts with
      | nil => exact Nat.le_add_left _ _
      | cons other texts =>
          rw [List.intercalate_cons_cons]
          simp only [List.length_append, List.length_cons, List.length_nil] at ih ⊢
          omega

/-- Texts with commas between them begin as the first of them does. -/
theorem exists_cons_intercalate (c : Char) (text : List Char) (texts : List (List Char)) :
    ∃ following, [','].intercalate ((c :: text) :: texts) = c :: following := by
  cases texts with
  | nil => exact ⟨text, List.intercalate_singleton⟩
  | cons other texts => exact ⟨_, List.intercalate_cons_cons⟩

/-- A list is read up to its bracket. -/
theorem listUntil_intercalate (hclose : closesList close = true) (h : ∀ a ∈ as, ReadsAs item (f a) a)
    (hbegins : ∀ a ∈ as, ∃ c text, f a = c :: text ∧ beginsValue c = true) (rest : List Char) :
    listUntil close item ([','].intercalate (as.map f) ++ close :: rest) = some (as, rest) := by
  obtain ⟨hspace, _, _, hnot⟩ := of_closesList hclose
  cases as with
  | nil =>
      unfold listUntil
      rw [List.map_nil, List.intercalate_nil, List.nil_append, skipSpace_cons hspace]
      exact if_pos rfl
  | cons a as =>
      -- the fuel is the length of the text, and every item takes a character
      have hfuel : (a :: as).length
          ≤ ([','].intercalate ((a :: as).map f) ++ close :: rest).length := by
        have hlength := length_le_intercalate ((a :: as).map f)
        rw [List.length_map] at hlength
        rw [List.length_append]
        exact hlength.trans (Nat.add_le_add_left (Nat.succ_pos _) _)
      have hitems := itemsUntil_intercalate hclose h (List.cons_ne_nil _ _) hfuel rest
      obtain ⟨c, text, hfirst, hc⟩ := hbegins a List.mem_cons_self
      obtain ⟨following, hcons⟩ := exists_cons_intercalate c text (as.map f)
      have hne : c ≠ close := by
        rintro rfl
        rw [hnot] at hc
        cases hc
      rw [List.map_cons, hfirst, hcons, List.cons_append] at hitems ⊢
      unfold listUntil
      rw [skipSpace_cons (isSpace_of_beginsValue hc)]
      show (if c = close then _ else _) = _
      rw [if_neg hne]
      exact hitems

end Lists

/-! ## Trees -/

/-- What is read as a number begins with a minus sign or a digit. -/
theorem exists_cons_of_number {text : List Char} {read : Number × List Char}
    (h : number text = some read) : ∃ c rest, text = c :: rest ∧ (c = '-' ∨ c.isDigit = true) := by
  cases text with
  | nil => cases h
  | cons c rest =>
      refine ⟨c, rest, rfl, ?_⟩
      by_contra hnot
      obtain ⟨hminus, hdigit⟩ := not_or.1 hnot
      have hnone : wholeDigits (c :: rest) = none := by
        unfold wholeDigits digits
        rw [List.takeWhile_cons_of_neg hdigit]
        rfl
      unfold number at h
      split at h
      rename_i heq
      split at heq
      · rename_i hcons
        exact hminus (List.cons.inj hcons).1
      · cases heq
        rw [hnone] at h
        cases h

/-- The text of a number begins with a minus sign or a digit. -/
theorem exists_cons_of_text (n : Number) :
    ∃ c text, n.text = c :: text ∧ (c = '-' ∨ c.isDigit = true) := by
  have hread := number_text n (endsRun_nil _)
  rw [List.append_nil] at hread
  exact exists_cons_of_number hread

/-- The text of a tree begins like a value. -/
theorem exists_cons_beginsValue (tree : Json) :
    ∃ c text, tree.text = c :: text ∧ beginsValue c = true := by
  match tree with
  | .null | .boolean true | .boolean false | .string _ | .array _ | .object _ =>
      exact ⟨_, _, rfl, by decide⟩
  | .number n =>
      obtain ⟨c, text, htext, hc⟩ := exists_cons_of_text n
      refine ⟨c, text, htext, ?_⟩
      rcases hc with rfl | hc
      · decide
      · exact forall_digit (fun c => beginsValue c = true) (by decide) hc

/-- A number is read as a tree. -/
theorem scalar_number {text : List Char} {n : Number} (h : number text = some (n, rest)) :
    scalar text = some (.number n, rest) := by
  obtain ⟨c, text, rfl, hc⟩ := exists_cons_of_number h
  have hne (d : Char) (hd : d ≠ '-' ∧ d.isDigit = false) : c ≠ d := by
    rintro rfl
    rcases hc with hc | hc
    · exact hd.1 hc
    · rw [hd.2] at hc
      cases hc
  have hscalar : scalar (c :: text) = (number (c :: text)).map fun read => (.number read.1, read.2) := by
    rw [scalar]
    · rintro following heq
      exact hne 'n' (by decide) (List.cons.inj heq).1
    · rintro following heq
      exact hne 't' (by decide) (List.cons.inj heq).1
    · rintro following heq
      exact hne 'f' (by decide) (List.cons.inj heq).1
    · rintro following heq
      exact hne '"' (by decide) (List.cons.inj heq).1
  rw [hscalar, h, Option.map_some]

/-- A tree without parts is read by `scalar`, at every level. -/
theorem tree_eq_scalar {c : Char} {text : List Char} (hspace : isSpace c = false) (harray : c ≠ '[')
    (hobject : c ≠ '\x7b') (levels : Nat) : tree levels (c :: text) = scalar (c :: text) := by
  cases levels with
  | zero => rw [tree, skipSpace_cons hspace]
  | succ levels =>
      rw [tree, skipSpace_cons hspace]
      split
      · rename_i heq
        exact absurd (List.cons.inj heq).1 harray
      · rename_i heq
        exact absurd (List.cons.inj heq).1 hobject
      · rfl

/-- A key with its value is read as an entry. -/
theorem member_text {value : Reads Json} {entry : String × Json}
    (h : ReadsAs value entry.2.text entry.2) :
    ReadsAs (member value) (Text.quoted entry.1.toList ++ ':' :: entry.2.text) entry := by
  intro rest hrest
  have hkey : member value (Text.quoted entry.1.toList ++ (':' :: (entry.2.text ++ rest)))
      = (value (entry.2.text ++ rest)).map fun read => ((entry.1, read.1), read.2) := by
    unfold member
    rw [Text.quoted, List.cons_append, skipSpace_cons rfl, ← List.cons_append, ← Text.quoted,
      quotedString_quoted]
    rfl
  rw [List.append_assoc, List.cons_append, hkey, h rest hrest]
  rfl

/-- The text of a number is read as that number, at every level. -/
theorem tree_text_number (n : Number) (levels : Nat) :
    ReadsAs (Reading.tree levels) (Json.number n).text (.number n) := by
  intro rest hrest
  have hnumber := number_text n hrest
  obtain ⟨c, text, htext, hc⟩ := exists_cons_of_text n
  have hne : isSpace c = false ∧ c ≠ '[' ∧ c ≠ '\x7b' := by
    rcases hc with rfl | hc
    · decide
    · exact forall_digit (fun c => isSpace c = false ∧ c ≠ '[' ∧ c ≠ '\x7b') (by decide) hc
  show Reading.tree levels (n.text ++ rest) = _
  rw [htext] at hnumber ⊢
  rw [List.cons_append, tree_eq_scalar hne.1 hne.2.1 hne.2.2 levels]
  exact scalar_number hnumber

/-- So is that of every other leaf. -/
theorem tree_text_leaf {tree : Json} (hleaf : tree.isLeaf) (levels : Nat) :
    ReadsAs (Reading.tree levels) tree.text tree := by
  match tree, hleaf with
  | .number n, _ => exact tree_text_number n levels
  | .null, _ | .boolean true, _ | .boolean false, _ =>
      exact fun rest _ => tree_eq_scalar (by decide) (by decide) (by decide) levels
  | .string s, _ =>
      intro rest _
      refine (tree_eq_scalar (by decide) (by decide) (by decide) levels).trans ?_
      show (quotedString (Text.quoted s.toList ++ rest)).map _ = _
      rw [quotedString_quoted]
      rfl

/-- An array is read one level above its items. -/
theorem tree_text_array {levels : Nat} {items : List Json}
    (h : ∀ item ∈ items, ReadsAs (Reading.tree levels) item.text item) :
    ReadsAs (Reading.tree (levels + 1)) (Json.array items).text (.array items) := by
  intro rest _
  have hlist : listUntil ']' (Reading.tree levels)
      ([','].intercalate (items.map Json.text) ++ ']' :: rest) = some (items, rest) :=
    listUntil_intercalate (by decide) h (fun item _ => exists_cons_beginsValue item) rest
  rw [text_array, List.cons_append, List.append_assoc, List.singleton_append]
  show (listUntil ']' (Reading.tree levels) _).map _ = _
  rw [hlist]
  rfl

/-- An object is read one level above what it binds; with distinct keys nothing is dropped. -/
theorem tree_text_object {levels : Nat} {entries : Entries Json} (hkeys : Entries.Distinct entries)
    (h : ∀ entry ∈ entries, ReadsAs (Reading.tree levels) entry.2.text entry.2) :
    ReadsAs (Reading.tree (levels + 1)) (Json.object entries).text (.object entries) := by
  intro rest _
  have hlist : listUntil '\x7d' (member (Reading.tree levels))
      ([','].intercalate (entries.map fun entry =>
        Text.quoted entry.1.toList ++ ':' :: entry.2.text) ++ '\x7d' :: rest) = some (entries, rest) :=
    listUntil_intercalate (by decide) (fun entry hentry => member_text (h entry hentry))
      (fun entry _ => ⟨_, _, rfl, by decide⟩) rest
  rw [text_object, List.cons_append, List.append_assoc, List.singleton_append]
  show (listUntil '\x7d' (member (Reading.tree levels)) _).map _ = _
  rw [hlist]
  show some (Json.object (Entries.ofPairs entries), rest) = _
  rw [Entries.ofPairs_of_distinct hkeys]

/-- **The text of a tree is read as that tree.** -/
theorem tree_text (tree : Json) (hkeys : tree.all hasDistinctKeys) {levels : Nat}
    (hlevels : tree.nesting ≤ levels) : ReadsAs (Reading.tree levels) tree.text tree := by
  -- Induction on the tree: an array or an object leaves one level less to its parts.
  induction tree, hkeys using Json.all_induction generalizing levels with
  | leaf tree _ hleaf => exact tree_text_leaf hleaf levels
  | array items _ ih =>
      obtain ⟨levels, rfl⟩ := Nat.exists_eq_add_of_le' (Nat.lt_of_lt_of_le (Nat.succ_pos _) hlevels)
      exact tree_text_array fun item hitem =>
        ih item hitem ((nesting_le_deepest hitem).trans (Nat.le_of_succ_le_succ hlevels))
  | object entries hkeys ih =>
      obtain ⟨levels, rfl⟩ := Nat.exists_eq_add_of_le' (Nat.lt_of_lt_of_le (Nat.succ_pos _) hlevels)
      refine tree_text_object (of_decide_eq_true (Json.holds_of_all hkeys)) fun entry hentry => ?_
      exact ih entry hentry ((nesting_le_deepestEntry hentry).trans (Nat.le_of_succ_le_succ hlevels))

end Json.Reading

/-- **What is printed is read back.** -/
theorem Json.read?_print {tree : Json} (hkeys : tree.all hasDistinctKeys)
    (hnesting : tree.nesting ≤ Reading.maxNesting) : Json.read? tree.print = some tree := by
  have hread := Reading.tree_text tree hkeys hnesting [] (endsRun_nil _)
  rw [List.append_nil] at hread
  unfold Json.read? Reading.ofTextWithin? Json.print
  rw [String.toList_ofList, hread]
  rfl

end Latent
