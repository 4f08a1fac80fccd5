import Latent.Proofs.Syntax.Canonical
import Latent.Proofs.Value.Equality
import Latent.Proofs.Wire.Nesting

/-!
# What was read is read again

A numeral may be too large for a binary64 number.  It is read as infinity, which has no numeral: it is
written as `null`.  Every other text that is read has a canonical text that is read as the same value.

For the converse, the tokens of a canonical text are looked at without the grammar: none of them is a
numeral that is too large (`spellsFinite_text`).  So whatever a canonical text is read as has finite
numbers only, and is the same as no value that has others.
-/

namespace Latent

open Lexer (Delimited tokens)

/-! ## Phrases of chosen tokens -/

namespace Phrase

variable {α : Type} {p : Token → Prop}

/-- The phrases that are made of these tokens only. -/
def only (p : Token → Prop) (phrase : Phrase α) : Phrase α := fun tokens a =>
  (∀ token ∈ tokens, p token) ∧ phrase tokens a

/-- Items of chosen tokens are made of chosen tokens each. -/
theorem Items.only {item : Phrase α} {tokens : List Token} {as : List α} (h : item.Items tokens as)
    (hp : ∀ token ∈ tokens, p token) : (item.only p).Items tokens as := by
  induction h with
  | empty => exact .empty
  | last h => exact .last ⟨hp, h⟩
  | more h _ ih =>
      obtain ⟨hfirst, hrest⟩ := List.forall_mem_append.1 hp
      exact .more ⟨hfirst, h⟩ (ih (List.forall_mem_cons.1 hrest).2)

/-- So is the value of an entry. -/
theorem Entry.only {value : Phrase Value} : Within (value.Entry.only p) (value.only p).Entry := by
  intro tokens pair ⟨hp, h⟩
  cases h with
  | string key h =>
      exact .string key ⟨(List.forall_mem_cons.1 (List.forall_mem_cons.1 hp).2).2, h⟩
  | number key h =>
      exact .number key ⟨(List.forall_mem_cons.1 (List.forall_mem_cons.1 hp).2).2, h⟩

/-- The parts of a form are made of its tokens. -/
theorem Form.only {value : Phrase Value} {tokens : List Token} {v : Value} (h : value.Form tokens v)
    (hp : ∀ token ∈ tokens, p token) : (value.only p).Form tokens v := by
  have hinner {first last : Token} {inner : List Token}
      (hp : ∀ token ∈ first :: (inner ++ [last]), p token) : ∀ token ∈ inner, p token :=
    (List.forall_mem_append.1 (List.forall_mem_cons.1 hp).2).1
  cases h with
  | truth b => exact .truth b
  | null => exact .null
  | number hread => exact .number hread
  | negative hread => exact .negative hread
  | string s => exact .string s
  | list hitems => exact .list (hitems.only (hinner hp))
  | map hpairs => exact .map (Items.within Entry.only (hpairs.only (hinner hp)))
  | call hname hargs hnode =>
      exact .call hname (hargs.only (hinner (List.forall_mem_cons.1 hp).2)) hnode

end Phrase

/-! ## Finite numerals -/

/-- A numeral that is not too large, with a minus sign or without. -/
def Token.IsFinite : Token → Prop
  | number text => ∀ negative v,
      Reader.numeral (signText negative ++ text.toList) = .ok v → v.isOrdinary
  | _ => True

/-- A numeral that is not too large with one sign is not too large with the other. -/
theorem isFinite_numeral {text : List Char} (h : IsNumeral text) {negative : Bool} {x : Binary64}
    (hread : Binary64.ofText? (signText negative ++ text) = some x) (hx : x.isFinite = true) :
    (Token.number (String.ofList text)).IsFinite := by
  intro other v hv
  obtain ⟨c, rest, htext, hc⟩ := h.exists_cons
  rw [Binary64.ofText?_signed htext hc] at hread
  obtain ⟨s, hs, rfl⟩ := Option.map_eq_some_iff.1 hread
  rw [String.toList_ofList] at hv
  obtain ⟨i, rfl⟩ | ⟨y, hy, rfl⟩ := Phrase.exists_of_numeral hv
  · rfl
  · rw [Binary64.ofText?_signed htext hc, hs] at hy
    cases hy
    exact (Binary64.isFinite_ofDecimal other negative s).trans hx

/-- The digits of a 64-bit whole number are not too large. -/
theorem isFinite_digits (i : Int64) :
    (Token.number (String.ofList (Nat.toDigits 10 i.toInt.natAbs))).IsFinite := by
  obtain ⟨c, rest, htext, hc⟩ := exists_cons_of_toDigits i.toInt.natAbs
  have hread : Binary64.ofText? (signText (decide (i.toInt < 0)) ++ Nat.toDigits 10 i.toInt.natAbs)
      = some (.ofInt i.toInt) := by
    rw [Binary64.ofText?_signed htext hc, Scientific.ofText?_toDigits, Option.map_some,
      Binary64.ofDecimal_natAbs]
  exact isFinite_numeral (isNumeral_toDigits _) hread (Binary64.isFinite_ofInt64 i)

/-! ## What finite numerals are read as -/

namespace Phrase

/-- Without numerals that are too large, every number is finite. -/
theorem isOrdinary_value (levels : Nat) :
    ((value levels).only Token.IsFinite).Denotes fun v => v.all Value.isOrdinary := by
  induction levels with
  | zero => exact fun _ _ h => h.2.elim
  | succ levels ih =>
      rintro tokens v ⟨hfinite, hform⟩
      have hform : (value levels).Form tokens v := hform
      exact all_form Value.keptByBuilding_isOrdinary (fun _ => rfl) ih (hform.only hfinite)
        fun text negative w hmem => hfinite _ hmem negative w

end Phrase

/-! ## The tokens of a canonical text -/

namespace Spells

/-- Tokens that are no numeral that is too large. -/
def finiteTokens : Phrase Unit := fun tokens _ => ∀ token ∈ tokens, token.IsFinite

/-- Separated by commas, tokens stay finite. -/
theorem finiteTokens_of_items {used : List Token} {units : List Unit} (h : finiteTokens.Items used units) :
    ∀ token ∈ used, token.IsFinite := by
  induction h with
  | empty => exact fun _ hmem => absurd hmem List.not_mem_nil
  | last h => exact h
  | more h _ ih => exact List.forall_mem_append.2 ⟨h, List.forall_mem_cons.2 ⟨trivial, ih⟩⟩

/-- Tokens between two marks. -/
theorem finiteTokens_enclosed {used : List Token} (h : ∀ token ∈ used, token.IsFinite)
    (opening close : Mark) : ∀ token ∈ .mark opening :: (used ++ [.mark close]), token.IsFinite :=
  List.forall_mem_cons.2 ⟨trivial, List.forall_mem_append.2 ⟨h, List.forall_mem_singleton.2 trivial⟩⟩

/-- `null` is no numeral. -/
theorem finite_null : Spells finiteTokens ['n', 'u', 'l', 'l'] () :=
  ⟨[.null], List.forall_mem_singleton.2 trivial, fun _ hrest => Lexer.tokens_word _ (by decide) hrest⟩

/-- A numeral that is not too large stands with its sign. -/
theorem finite_numeral {negative : Bool} {text : List Char} (h : IsNumeral text)
    (hfinite : (Token.number (String.ofList text)).IsFinite) :
    Spells finiteTokens (signText negative ++ text) () := by
  refine ⟨signTokens negative ++ [.number (String.ofList text)], ?_, fun _ => tokens_signed negative h⟩
  refine List.forall_mem_append.2 ⟨?_, List.forall_mem_singleton.2 hfinite⟩
  cases negative with
  | false => exact fun _ hmem => absurd hmem List.not_mem_nil
  | true => exact List.forall_mem_singleton.2 trivial

/-- The canonical text of a number is no numeral that is too large: those without a numeral are
`null`. -/
theorem finite_float (x : Binary64) : Spells finiteTokens x.canonicalText () := by
  match x with
  | .nan | .infinite _ => exact finite_null
  | .finite negative units fits =>
      obtain ⟨text, htext, hnumeral⟩ := Binary64.exists_canonicalText negative units fits
      have hread := Binary64.ofText?_canonicalText negative units fits
      rw [htext] at hread ⊢
      exact finite_numeral hnumeral (isFinite_numeral hnumeral hread rfl)

/-- A leaf is written without numerals that are too large. -/
theorem finite_leaf {v : Value} (hleaf : v.isLeaf) (hclear : v.isClear) :
    Spells finiteTokens v.text () := by
  cases v with
  | null => exact finite_null
  | boolean b => exact ⟨[.truth b], List.forall_mem_singleton.2 trivial, fun _ => tokens_boolean b⟩
  | integer i =>
      rw [Value.text, intText_eq]
      exact finite_numeral (isNumeral_toDigits _) (isFinite_digits i)
  | float x => exact finite_float x
  | string s =>
      exact ⟨[.string s], List.forall_mem_singleton.2 trivial, fun rest _ => tokens_string s rest⟩
  | list _ | map _ | node _ _ => cases hleaf
  | decimal _ | date _ | dateTime _ | time _ | duration _ => cases hclear

/-- So is a list, if its items are. -/
theorem finite_list {items : List Value} (h : ∀ w ∈ items, Spells finiteTokens w.text ()) :
    Spells finiteTokens (Value.list items).text () := by
  obtain ⟨used, hused, hlex⟩ := Spells.items h
  rw [Value.text_list]
  exact ⟨_, finiteTokens_enclosed (finiteTokens_of_items hused) .leftBracket .rightBracket,
    fun rest _ => tokens_enclosed .leftBracket .rightBracket hlex rest⟩

/-- So is an entry, if its value is. -/
theorem finite_entry (entry : String × Value) (h : Spells finiteTokens entry.2.text ()) :
    Spells finiteTokens (Text.quoted entry.1.toList ++ ':' :: ' ' :: entry.2.text) () := by
  obtain ⟨used, hused, hlex⟩ := h
  exact ⟨.string entry.1 :: .mark .colon :: used,
    List.forall_mem_cons.2 ⟨trivial, List.forall_mem_cons.2 ⟨trivial, hused⟩⟩,
    tokens_bound entry.1 hlex⟩

/-- So is a map. -/
theorem finite_map {entries : Entries Value}
    (h : ∀ entry ∈ entries, Spells finiteTokens entry.2.text ()) :
    Spells finiteTokens (Value.map entries).text () := by
  obtain ⟨used, hused, hlex⟩ := Spells.items fun entry hentry => finite_entry entry (h entry hentry)
  rw [Value.text_map]
  exact ⟨_, finiteTokens_enclosed (finiteTokens_of_items hused) .leftBrace .rightBrace,
    fun rest _ => tokens_enclosed .leftBrace .rightBrace hlex rest⟩

/-- So is a node, if its arguments are. -/
theorem finite_node {op : Operator} {operands : List Value}
    (h : ∀ w ∈ Value.arguments op operands, Spells finiteTokens w.text ()) :
    Spells finiteTokens (Value.node op operands).text () := by
  obtain ⟨used, hused, hlex⟩ := Spells.items h
  rw [Value.text_node]
  exact ⟨.identifier op.name :: .mark .leftParen :: (used ++ [.mark .rightParen]),
    List.forall_mem_cons.2 ⟨trivial,
      finiteTokens_enclosed (finiteTokens_of_items hused) .leftParen .rightParen⟩,
    fun rest _ => tokens_called op hlex rest⟩

end Spells

namespace Value

open Spells

variable {v w : Value} {text : String}

/-- No numeral of a canonical text is too large. -/
theorem spellsFinite_text {levels : Nat} (hclear : v.all isClear) (hlevels : v.levels ≤ levels) :
    Spells finiteTokens v.text () := by
  -- on the levels, as the statements of `And` and `Or` are arguments but no operands
  induction levels generalizing v with
  | zero => exact absurd (levels_pos v) (by omega)
  | succ levels ih =>
      cases v with
      | list items =>
          refine finite_list fun w hw => ih ((all_list.1 hclear).2 w hw) ?_
          exact Nat.le_of_lt_succ ((levels_item hw).trans_le hlevels)
      | map entries =>
          refine finite_map fun entry hentry => ih ((all_map.1 hclear).2 entry hentry) ?_
          exact Nat.le_of_lt_succ ((levels_entry hentry).trans_le hlevels)
      | node op operands =>
          refine finite_node fun w hw => ih (all_argument hclear w hw) ?_
          exact Nat.le_of_lt_succ ((levels_argument hw).trans_le hlevels)
      | _ => exact finite_leaf rfl (holds_of_all hclear)

/-- Whatever a canonical text is read as has finite numbers only. -/
theorem isOrdinary_of_read_print (hclear : v.all isClear) (hread : read v.print = .ok w) :
    w.all isOrdinary := by
  obtain ⟨whole, htokens, hphrase⟩ := phrase_of_read hread
  obtain ⟨used, hused, hlex⟩ := spellsFinite_text hclear le_rfl
  have hend := hlex [] Lexer.delimited_nil
  rw [List.append_nil, Lexer.tokens_nil] at hend
  rw [print, tokenize, String.toList_ofList] at htokens
  obtain rfl : whole = used := List.append_cancel_right (htokens.symm.trans hend)
  exact Phrase.isOrdinary_value _ _ _ ⟨hused, hphrase⟩

/-! ## Texts -/

/-- The number is not infinite and not `nan`, the parts of the value aside. -/
def isFiniteNumber : Value → Bool
  | float x => x.isFinite
  | _ => true

/-- What comes from a text is ordinary if its numbers are finite. -/
theorem isOrdinary_of_isFiniteNumber (hclear : v.all isClear) (hfinite : v.all isFiniteNumber) :
    v.all isOrdinary := by
  refine all_of_imp (fun v hv => ?_) (all_and hclear hfinite)
  obtain ⟨hclear, hfinite⟩ := Bool.and_eq_true_iff.1 hv
  cases v with
  | float x => exact hfinite
  | decimal _ | date _ | dateTime _ | time _ | duration _ => cases hclear
  | _ => rfl

theorem isFiniteNumber_of_isOrdinary (h : v.isOrdinary) : v.isFiniteNumber := by
  cases v with
  | float x => exact h
  | _ => rfl

/-- **What was read is read again exactly when its numbers are finite.**  Then the canonical text is read,
and as the same value. -/
theorem read_print_read_iff (hread : read text = .ok v) (hlevels : v.levels ≤ maxLevels) :
    (∃ w, read v.print = .ok w ∧ w.same v = true) ↔ v.all isFiniteNumber := by
  have hbuilt : WellBuilt v := wellBuilt_read hread
  have hclear : v.all isClear := (Built.ofRead hread).all
  constructor
  · rintro ⟨w, hw, hsame⟩
    have hordinary := isOrdinary_of_read_print hclear hw
    have hkeys := (wellBuilt_iff.1 (wellBuilt_read hw)).2
    refine all_of_imp (fun _ => isFiniteNumber_of_isOrdinary) ?_
    exact isOrdinary_of_same hkeys (wellBuilt_iff.1 hbuilt).2 hsame hordinary
  · intro hfinite
    have hordinary := isOrdinary_of_isFiniteNumber hclear hfinite
    exact ⟨v.plain, read_of_spells (spells_text ⟨v, hbuilt, hordinary⟩ hlevels),
      plain_same ⟨v, hbuilt, hordinary⟩⟩

/-- A key that is bound twice, a negative zero, a number beyond 64 bits and one with an exponent. -/
theorem read_print_read_iff_get :
    let text := "Get(\x7b'a': 1, 'a': -0.0\x7d, 'a', [18446744073709551616, 25e-1, None])"
    ∃ v, (read text = .ok v ∧ v.levels ≤ maxLevels) ∧
      ((∃ w, read v.print = .ok w ∧ w.same v = true) ↔ v.all isFiniteNumber) := by
  intro text
  have hcheck : (read text >>= fun v => if v.levels ≤ maxLevels then .ok () else .error .tooDeep)
      = .ok () := by decide +kernel
  obtain ⟨v, hread, hcheck⟩ := exists_of_bind_eq_ok hcheck
  split at hcheck
  · rename_i hlevels
    exact ⟨v, ⟨hread, hlevels⟩, read_print_read_iff hread hlevels⟩
  · cases hcheck

/-- Not all that is read is read again: a numeral that is too large is read as infinity, which is written
as `null`. -/
theorem not_read_print_read : ¬ ∀ (text : String) (v : Value), read text = .ok v →
    v.levels ≤ maxLevels → ∃ w, read v.print = .ok w ∧ w.same v = true := by
  intro h
  have hread : read "1e999" = .ok (float (.infinite false)) := rfl
  obtain ⟨w, hw, hsame⟩ := h "1e999" _ hread (by decide)
  have hnull : read (float (.infinite false)).print = .ok null := rfl
  rw [hnull] at hw
  cases hw
  cases hsame

end Value

end Latent
