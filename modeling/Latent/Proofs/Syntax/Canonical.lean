import Latent.Proofs.Node.Calls
import Latent.Proofs.Syntax.Grammar
import Latent.Proofs.Syntax.Lexing
import Latent.Proofs.Value.Levels

/-!
# Canonical text is read back

A text *spells* something when its tokens are a phrase of it, whatever ends the text.  The canonical text
of a well-built value of JSON data spells the plain form of the value: leaves do, and a list, a map or a
call does when its parts do.  The phrase has as many levels as the value.
-/

namespace Latent

open Lexer (Delimited tokens)

variable {α β : Type}

/-- The tokens of the text are a phrase of `a`, whatever ends the text. -/
def Spells (phrase : Phrase α) (text : List Char) (a : α) : Prop :=
  ∃ used, phrase used a ∧ ∀ rest, Delimited rest → tokens (text ++ rest) = used ++ tokens rest

namespace Spells

variable {phrase : Phrase Value}

/-! ## Leaves -/

/-- `null` is a keyword. -/
theorem null : Spells phrase.Form ['n', 'u', 'l', 'l'] .null :=
  ⟨[.null], .null, fun _ hrest => Lexer.tokens_word _ (by decide) hrest⟩

/-- A truth value is a token of its own. -/
theorem tokens_boolean (b : Bool) {rest : List Char} (hrest : Delimited rest) :
    tokens ((Value.boolean b).text ++ rest) = .truth b :: tokens rest := by
  cases b with
  | true => exact Lexer.tokens_word ['t', 'r', 'u', 'e'] (by decide) hrest
  | false => exact Lexer.tokens_word ['f', 'a', 'l', 's', 'e'] (by decide) hrest

/-- Truth values are keywords. -/
theorem boolean (b : Bool) : Spells phrase.Form (Value.boolean b).text (.boolean b) :=
  ⟨[.truth b], .truth b, fun _ => tokens_boolean b⟩

/-- Between its quotes, a text is a token of its own. -/
theorem tokens_string (s : String) (rest : List Char) :
    tokens (Text.quoted s.toList ++ rest) = .string s :: tokens rest := by
  rw [Lexer.tokens_quoted, String.ofList_toList]

/-- A text is spelled between quotes, with escapes. -/
theorem string (s : String) : Spells phrase.Form (Text.quoted s.toList) (.string s) :=
  ⟨[.string s], .string s, fun rest _ => tokens_string s rest⟩

/-- The sign of a numeral is a token of its own. -/
def signTokens (negative : Bool) : List Token := if negative then [.mark .minus] else []

/-- A numeral behind a sign is two tokens. -/
theorem tokens_signed (negative : Bool) {text rest : List Char} (h : IsNumeral text) (hrest : Delimited rest) :
    tokens (signText negative ++ text ++ rest)
      = signTokens negative ++ [.number (String.ofList text)] ++ tokens rest := by
  cases negative with
  | false => exact Lexer.tokens_numeral h hrest
  | true =>
      have hminus := Lexer.tokens_mark .minus (text ++ rest)
      rw [Lexer.tokens_numeral h hrest] at hminus
      exact hminus

/-- What a numeral is read as is spelled by it. -/
theorem numeral {negative : Bool} {text : List Char} {v : Value} (h : IsNumeral text)
    (hread : Reader.numeral (signText negative ++ text) = .ok v) :
    Spells phrase.Form (signText negative ++ text) v := by
  refine ⟨signTokens negative ++ [.number (String.ofList text)], ?_, fun _ => tokens_signed negative h⟩
  rw [← String.toList_ofList (l := text)] at hread
  cases negative with
  | false => exact .number hread
  | true => exact .negative hread

/-- A whole number is spelled by its digits. -/
theorem integer (i : Int64) : Spells phrase.Form (intText i.toInt) (.integer i) := by
  have hread := Reader.numeral_intText i
  rw [intText_eq] at hread ⊢
  exact numeral (isNumeral_toDigits _) hread

/-- A finite number is spelled by its canonical text, as its plain form. -/
theorem float {x : Binary64} (h : x.isFinite = true) :
    Spells phrase.Form x.canonicalText (Value.ofBinary64 x) := by
  match x, h with
  | .finite negative units fits, _ =>
      obtain ⟨text, htext, hnumeral⟩ := Binary64.exists_canonicalText negative units fits
      have hread := Reader.numeral_canonicalText negative units fits
      rw [htext] at hread ⊢
      exact numeral hnumeral hread

/-- An ordinary leaf spells its plain form. -/
theorem leaf {v : Value} (hleaf : v.isLeaf) (h : v.isOrdinary) :
    Spells phrase.Form v.text (Value.plainLeaf v) := by
  cases v with
  | null => exact null
  | boolean b => exact boolean b
  | integer i => exact integer i
  | float x => exact float h
  | string s => exact string s
  | list _ | map _ | node _ _ => cases hleaf
  | decimal _ | date _ | dateTime _ | time _ | duration _ => cases h

/-! ## Items -/

/-- Behind a comma and a blank the text goes on. -/
theorem tokens_comma (rest : List Char) :
    tokens (',' :: ' ' :: rest) = .mark .comma :: tokens rest := by
  have hcomma := Lexer.tokens_mark .comma (' ' :: rest)
  rw [Lexer.tokens_space] at hcomma
  exact hcomma

/-- Texts with commas between them spell what they spell one by one. -/
theorem items {item : Phrase β} {f : α → List Char} {g : α → β} {as : List α}
    (h : ∀ a ∈ as, Spells item (f a) (g a)) :
    Spells item.Items (commaSeparated (as.map f)) (as.map g) := by
  induction as with
  | nil => exact ⟨[], .empty, fun _ _ => rfl⟩
  | cons a as ih =>
      obtain ⟨used, hused, hlex⟩ := h a List.mem_cons_self
      obtain ⟨others, hothers, hlexOthers⟩ := ih fun a ha => h a (List.mem_cons_of_mem _ ha)
      cases as with
      | nil =>
          refine ⟨used, .last hused, fun rest hrest => ?_⟩
          rw [List.map_singleton, commaSeparated, List.intercalate_singleton]
          exact hlex rest hrest
      | cons b as =>
          refine ⟨used ++ .mark .comma :: others, .more hused hothers, fun rest hrest => ?_⟩
          have htext : commaSeparated ((a :: b :: as).map f) ++ rest
              = f a ++ ',' :: ' ' :: (commaSeparated ((b :: as).map f) ++ rest) := by
            rw [List.map_cons, List.map_cons, commaSeparated, List.intercalate_cons_cons,
              List.append_assoc, List.append_assoc]
            rfl
          -- the comma ends the first text, whatever comes behind it
          have hends := Lexer.delimited_mark .comma (' ' :: (commaSeparated ((b :: as).map f) ++ rest))
          have hfirst := hlex _ hends
          rw [htext]
          refine hfirst.trans ?_
          rw [List.append_assoc, List.cons_append, ← hlexOthers rest hrest]
          exact congrArg (used ++ ·) (tokens_comma _)

/-- Items between two marks. -/
theorem tokens_enclosed {text : List Char} {used : List Token} (opening close : Mark)
    (h : ∀ rest, Delimited rest → tokens (text ++ rest) = used ++ tokens rest) (rest : List Char) :
    tokens (opening.char :: (text ++ [close.char]) ++ rest)
      = .mark opening :: (used ++ [.mark close]) ++ tokens rest := by
  have hinner := h _ (Lexer.delimited_mark close rest)
  rw [Lexer.tokens_mark close rest] at hinner
  rw [List.cons_append, Lexer.tokens_mark, List.append_assoc, List.singleton_append, hinner,
    List.cons_append, List.append_assoc, List.singleton_append]

variable {text : List Char}

/-- A list is spelled between brackets. -/
theorem list {vs : List Value} (h : Spells phrase.Items text vs) :
    Spells phrase.Form ('[' :: (text ++ [']'])) (.list vs) := by
  obtain ⟨used, hused, hlex⟩ := h
  exact ⟨_, .list hused, fun rest _ => tokens_enclosed .leftBracket .rightBracket hlex rest⟩

/-- A quoted key, a colon, a blank and what the key is bound to. -/
theorem tokens_bound {used : List Token} (key : String)
    (h : ∀ rest, Delimited rest → tokens (text ++ rest) = used ++ tokens rest) (rest : List Char)
    (hrest : Delimited rest) :
    tokens (Text.quoted key.toList ++ ':' :: ' ' :: text ++ rest)
      = .string key :: .mark .colon :: used ++ tokens rest := by
  have hcolon := Lexer.tokens_mark .colon (' ' :: (text ++ rest))
  rw [Lexer.tokens_space, h rest hrest] at hcolon
  rw [List.append_assoc, tokens_string]
  exact congrArg (Token.string key :: ·) hcolon

/-- An entry is spelled by its key, a colon and its value. -/
theorem entry {v : Value} (key : String) (h : Spells phrase text v) :
    Spells phrase.Entry (Text.quoted key.toList ++ ':' :: ' ' :: text) (key, v) := by
  obtain ⟨used, hused, hlex⟩ := h
  exact ⟨.string key :: .mark .colon :: used, .string key hused, tokens_bound key hlex⟩

/-- A map is spelled between braces, if its keys are distinct. -/
theorem map {pairs : List (String × Value)} (hkeys : Entries.Distinct pairs)
    (h : Spells phrase.Entry.Items text pairs) :
    Spells phrase.Form ('\x7b' :: (text ++ ['\x7d'])) (.map pairs) := by
  obtain ⟨used, hused, hlex⟩ := h
  have hform := Phrase.Form.map hused
  rw [Entries.ofPairs_of_distinct hkeys] at hform
  exact ⟨_, hform, fun rest _ => tokens_enclosed .leftBrace .rightBrace hlex rest⟩

/-- The name of an operator is a word of its own, and no keyword. -/
theorem tokens_name (op : Operator) {rest : List Char} (hrest : Delimited rest) :
    tokens (op.name.toList ++ rest) = .identifier op.name :: tokens rest := by
  have hword : Lexer.isWord op.name.toList = true := by cases op <;> decide
  have htoken : Lexer.wordToken op.name.toList = .identifier op.name := by cases op <;> rfl
  rw [Lexer.tokens_word _ hword hrest, htoken]

/-- The name of an operator and arguments in parentheses. -/
theorem tokens_called {used : List Token} (op : Operator)
    (h : ∀ rest, Delimited rest → tokens (text ++ rest) = used ++ tokens rest) (rest : List Char) :
    tokens (op.name.toList ++ '(' :: (text ++ [')']) ++ rest)
      = .identifier op.name :: .mark .leftParen :: (used ++ [.mark .rightParen]) ++ tokens rest := by
  have hargs := tokens_enclosed .leftParen .rightParen h rest
  have hname := tokens_name op (Lexer.delimited_mark .leftParen (text ++ [')'] ++ rest))
  rw [List.append_assoc]
  exact hname.trans (congrArg (Token.identifier op.name :: ·) hargs)

/-- A call is spelled by the name of the operator and the arguments in parentheses. -/
theorem call {op : Operator} {args : List Value} {v : Value} (h : Spells phrase.Items text args)
    (hnode : Node.ofArguments op args = .ok v) :
    Spells phrase.Form (op.name.toList ++ '(' :: (text ++ [')'])) v := by
  obtain ⟨used, hused, hlex⟩ := h
  exact ⟨_, .call (Operator.ofName?_name op) hused hnode, fun rest _ => tokens_called op hlex rest⟩

end Spells

/-! ## Values -/

namespace Value

variable {phrase : Phrase Value} {v : Value}

/-- The text of a list spells its plain form, if those of the items do. -/
theorem spells_list {items : List Value} (h : ∀ w ∈ items, Spells phrase w.text w.plain) :
    Spells phrase.Form (list items).text (list items).plain := by
  rw [text_list, plain_list]
  exact (Spells.items h).list

/-- So does the text of a map. -/
theorem spells_map {entries : Entries Value} (hkeys : Entries.Distinct entries)
    (h : ∀ entry ∈ entries, Spells phrase entry.2.text entry.2.plain) :
    Spells phrase.Form (map entries).text (map entries).plain := by
  have hentries (entry : String × Value) (hentry : entry ∈ entries) :
      Spells phrase.Entry (Text.quoted entry.1.toList ++ ':' :: ' ' :: entry.2.text)
        (entry.1, entry.2.plain) := (h entry hentry).entry entry.1
  rw [text_map, plain_map]
  exact (Spells.items hentries).map (hkeys.map plain)

/-- So does the text of a node: its arguments are built into the same operands again. -/
theorem spells_node {op : Operator} {operands : List Value} (hsound : Node.IsSound op operands)
    (hordinary : ∀ w ∈ operands, w.all isOrdinary)
    (h : ∀ w ∈ arguments op operands, Spells phrase w.text w.plain) :
    Spells phrase.Form (node op operands).text (node op operands).plain := by
  -- the changed operands are sound, so the call makes them a node as they are
  have hcall : Node.ofArguments op ((arguments op operands).map plain)
      = .ok (node op (operands.map plain)) := by
    rw [← hsound.arguments_map plain_list]
    exact Node.ofArguments_arguments (hsound.map fun w hw => plain_standsFor (hordinary w hw))
  rw [text_node, plain_node]
  exact (Spells.items h).call hcall

/-- The canonical text of what is built spells its plain form, with as many levels as the value has. -/
theorem spells_text {levels : Nat} (b : Built isOrdinary) (hlevels : b.value.levels ≤ levels) :
    Spells (Phrase.value levels) b.value.text b.value.plain := by
  -- The induction is on the levels: the statements of `And` and `Or` are arguments but no operands,
  -- so induction over the parts of a value would not reach them.
  induction levels generalizing b with
  | zero => exact absurd (levels_pos b.value) (by omega)
  | succ levels ih =>
      induction b using Built.induction with
      | leaf v hleaf h =>
          cases v with
          | list _ | map _ | node _ _ => cases hleaf
          | _ => exact Spells.leaf rfl h
      | list items _ _ =>
          refine spells_list (List.forall_mem_map.2 fun b hb => ih b ?_)
          have hmem : b.value ∈ items.map Built.value := List.mem_map_of_mem hb
          exact Nat.le_of_lt_succ ((levels_item hmem).trans_le hlevels)
      | map entries hkeys _ _ =>
          refine spells_map (hkeys.map Built.value) (List.forall_mem_map.2 fun entry hentry => ih entry.2 ?_)
          have hmem : (entry.1, entry.2.value) ∈ entries.map fun entry => (entry.1, entry.2.value) :=
            List.mem_map.2 ⟨entry, hentry, rfl⟩
          exact Nat.le_of_lt_succ ((levels_entry hmem).trans_le hlevels)
      | node op operands hsound h _ =>
          let b := Built.node op operands hsound h
          refine spells_node hsound (List.forall_mem_map.2 fun b _ => b.all) fun w hw =>
            ih ⟨w, b.wellBuilt.arguments w hw, all_argument b.all w hw⟩ ?_
          exact Nat.le_of_lt_succ ((levels_argument hw).trans_le hlevels)

/-- A text is read as what it spells. -/
theorem read_of_spells {w : Value} (h : Spells (Phrase.value maxLevels) v.text w) :
    read v.print = .ok w := by
  obtain ⟨used, hused, hlex⟩ := h
  have htokens : tokenize v.print = used ++ [.eof] := by
    have hend := hlex [] Lexer.delimited_nil
    rw [List.append_nil, Lexer.tokens_nil] at hend
    rw [print, tokenize, String.toList_ofList]
    exact hend
  rw [read, htokens]
  exact Reader.ofTokens_of_phrase hused

/-- **Canonical text is read back.**  The result equals the value; it is the value with its numbers in
plain form. -/
theorem read_print (hbuilt : WellBuilt v) (h : v.all isOrdinary) (hlevels : v.levels ≤ maxLevels) :
    ∃ w, read v.print = .ok w ∧ w = v.plain ∧ w.same v = true :=
  ⟨v.plain, read_of_spells (spells_text ⟨v, hbuilt, h⟩ hlevels), rfl, plain_same ⟨v, hbuilt, h⟩⟩

/-- A key with a line break, a negative number that is not whole, and a duration, as statements. -/
theorem read_print_and :
    let half := float (Binary64.ofDecimal true ⟨5, -1⟩)
    let member := node .member [string "a\n\"b\"", map [("a\n\"b\"", half)]]
    let v := node .and [list [member, node .bool [node .timeDelta [integer (-1), half, integer 0]]]]
    (WellBuilt v ∧ v.all isOrdinary ∧ v.levels ≤ maxLevels) ∧
      ∃ w, read v.print = .ok w ∧ w = v.plain ∧ w.same v = true := by
  intro half member v
  have hmap : WellBuilt (map [("a\n\"b\"", half)]) :=
    .map _ (by decide) (List.forall_mem_cons.2 ⟨.leaf half rfl, by simp⟩)
  have hmember : WellBuilt member := by
    refine .node .member [string "a\n\"b\"", map [("a\n\"b\"", half)]] _ rfl ?_ rfl
    exact List.forall_mem_cons.2 ⟨.leaf _ rfl, List.forall_mem_cons.2 ⟨hmap, by simp⟩⟩
  have hdelta : WellBuilt (node .timeDelta [integer (-1), half, integer 0]) := by
    refine .node .timeDelta [integer (-1), half, integer 0] _ rfl ?_ rfl
    exact List.forall_mem_cons.2 ⟨.leaf _ rfl, List.forall_mem_cons.2 ⟨.leaf _ rfl,
      List.forall_mem_cons.2 ⟨.leaf _ rfl, by simp⟩⟩⟩
  have hbuilt : WellBuilt v := by
    refine .node .and [list [member, node .timeDelta [integer (-1), half, integer 0]]] _ rfl ?_ rfl
    refine List.forall_mem_cons.2 ⟨.list _ ?_, by simp⟩
    exact List.forall_mem_cons.2 ⟨hmember, List.forall_mem_cons.2 ⟨hdelta, by simp⟩⟩
  have hordinary : v.all isOrdinary := by decide +kernel
  have hlevels : v.levels ≤ maxLevels := by decide +kernel
  exact ⟨⟨hbuilt, hordinary, hlevels⟩, read_print hbuilt hordinary hlevels⟩

end Value

end Latent
