import Latent.Proofs.Node.Construction
import Latent.Syntax.Reader

/-!
# The grammar of the call syntax

A *phrase* relates tokens to what they denote.  The values with one level more are made of those with
at most `levels` levels (`Form`), so the grammar goes down the levels in the way the reader does, and
the reader takes a phrase whatever follows it (`takes_value`).
-/

namespace Latent

/-- Tokens, and what they denote. -/
abbrev Phrase (α : Type) := List Token → α → Prop

namespace Phrase

variable {α : Type}

/-- Items with a comma between each two of them, and perhaps one behind the last. -/
inductive Items (item : Phrase α) : Phrase (List α) where
  | empty : Items item [] []
  | last {tokens : List Token} {a : α} (h : item tokens a) : Items item tokens [a]
  | more {tokens rest : List Token} {a : α} {as : List α} (h : item tokens a)
      (hrest : Items item rest as) : Items item (tokens ++ .mark .comma :: rest) (a :: as)

/-- A key, a colon and a value; a numeral is a key by its text. -/
inductive Entry (value : Phrase Value) : Phrase (String × Value) where
  | string (key : String) {tokens : List Token} {v : Value} (h : value tokens v) :
      Entry value (.string key :: .mark .colon :: tokens) (key, v)
  | number (key : String) {tokens : List Token} {v : Value} (h : value tokens v) :
      Entry value (.number key :: .mark .colon :: tokens) (key, v)

/-- A value, given the phrases of its parts. -/
inductive Form (value : Phrase Value) : Phrase Value where
  | truth (b : Bool) : Form value [.truth b] (.boolean b)
  | null : Form value [.null] .null
  | number {text : String} {v : Value} (h : Reader.numeral text.toList = .ok v) :
      Form value [.number text] v
  | negative {text : String} {v : Value} (h : Reader.numeral ('-' :: text.toList) = .ok v) :
      Form value [.mark .minus, .number text] v
  | string (s : String) : Form value [.string s] (.string s)
  | list {tokens : List Token} {items : List Value} (h : Items value tokens items) :
      Form value (.mark .leftBracket :: (tokens ++ [.mark .rightBracket])) (.list items)
  | map {tokens : List Token} {pairs : List (String × Value)} (h : Items (Entry value) tokens pairs) :
      Form value (.mark .leftBrace :: (tokens ++ [.mark .rightBrace])) (.map (Entries.ofPairs pairs))
  | call {name : String} {op : Operator} {tokens : List Token} {args : List Value} {v : Value}
      (hname : Operator.ofName? name = some op) (h : Items value tokens args)
      (hnode : Node.ofArguments op args = .ok v) :
      Form value (.identifier name :: .mark .leftParen :: (tokens ++ [.mark .rightParen])) v

/-- A value with at most so many levels. -/
def value : Nat → Phrase Value
  | 0 => fun _ _ => False
  | levels + 1 => Form (value levels)

/-! ## First tokens -/

/-- The marks that end items. -/
def closing : List Mark := [.rightParen, .rightBracket, .rightBrace]

/-- A phrase has a first token, and it is no mark that ends items. -/
def Opens (phrase : Phrase α) : Prop := ∀ {tokens : List Token} {a : α}, phrase tokens a →
  ∃ first following, tokens = first :: following ∧ ∀ m ∈ closing, first ≠ .mark m

/-- A form does not begin with a mark that closes or separates. -/
theorem opens_form (value : Phrase Value) : Opens (Form value) := by
  intro tokens v h
  cases h <;> exact ⟨_, _, rfl, by simp [closing]⟩

/-- Nor does an entry. -/
theorem opens_entry (value : Phrase Value) : Opens (Entry value) := by
  intro tokens v h
  cases h <;> exact ⟨_, _, rfl, by simp⟩

/-- Nor does a value, of any number of levels. -/
theorem opens_value (levels : Nat) : Opens (value levels) := by
  cases levels with
  | zero => exact fun h => h.elim
  | succ levels => exact opens_form _

end Phrase

namespace Reader

variable {α : Type} {item : Reads α} {phrase : Phrase α}

/-- The reader takes the phrase and leaves what follows. -/
def Takes (item : Reads α) (phrase : Phrase α) : Prop := ∀ {tokens : List Token} {a : α},
  phrase tokens a → ∀ rest, item (tokens ++ rest) = .ok (a, rest)

theorem expect_mark (m : Mark) (rest : List Token) : expect m (.mark m :: rest) = .ok rest :=
  if_pos rfl

section

variable {close : Mark} {fuel : Nat} {tokens others rest : List Token} {a : α} {as : List α}

/-- At the closing mark there are no more items. -/
theorem itemsUntil_close : itemsUntil close item (fuel + 1) (.mark close :: rest) = .ok ([], rest) :=
  if_pos rfl

/-- An item that fails ends the round. -/
theorem itemsUntil_of_error {e : ReadError} (hopen : current tokens ≠ .mark close)
    (hitem : item tokens = .error e) : itemsUntil close item (fuel + 1) tokens = .error e := by
  rw [itemsUntil, if_neg hopen, hitem]
  rfl

/-- Without a comma behind it an item is the last one. -/
theorem itemsUntil_of_last (hopen : current tokens ≠ .mark close) (hitem : item tokens = .ok (a, rest))
    (hcomma : current rest ≠ .mark .comma) : itemsUntil close item (fuel + 1) tokens
      = (expect close rest).map fun after => ([a], after) := by
  rw [itemsUntil, if_neg hopen, hitem]
  refine (if_neg hcomma).trans ?_
  cases expect close rest <;> rfl

/-- After a comma there is another round. -/
theorem itemsUntil_of_more (hopen : current tokens ≠ .mark close) (hitem : item tokens = .ok (a, rest))
    (hcomma : current rest = .mark .comma) : itemsUntil close item (fuel + 1) tokens
      = (itemsUntil close item fuel rest.tail).map fun found => (a :: found.1, found.2) := by
  rw [itemsUntil, if_neg hopen, hitem]
  refine (if_pos hcomma).trans ?_
  cases itemsUntil close item fuel rest.tail <;> rfl

/-- The last item is followed by the closing mark. -/
theorem itemsUntil_last (hne : close ≠ .comma) (hopen : current tokens ≠ .mark close)
    (hitem : item tokens = .ok (a, .mark close :: rest)) :
    itemsUntil close item (fuel + 1) tokens = .ok ([a], rest) := by
  have hend : current (.mark close :: rest) ≠ .mark .comma := fun heq => hne (Token.mark.inj heq)
  rw [itemsUntil_of_last hopen hitem hend, expect_mark]
  rfl

/-- The others are followed by a comma. -/
theorem itemsUntil_more (hopen : current tokens ≠ .mark close)
    (hitem : item tokens = .ok (a, .mark .comma :: others))
    (hothers : itemsUntil close item fuel others = .ok (as, rest)) :
    itemsUntil close item (fuel + 1) tokens = .ok (a :: as, rest) := by
  rw [itemsUntil_of_more hopen hitem rfl, List.tail_cons, hothers]
  rfl

/-- Items are taken up to the mark that ends them. -/
theorem itemsUntil_items (hclose : close ∈ Phrase.closing) (htakes : Takes item phrase)
    (hopens : phrase.Opens) (h : phrase.Items tokens as) (hfuel : tokens.length < fuel) :
    itemsUntil close item fuel (tokens ++ .mark close :: rest) = .ok (as, rest) := by
  -- Each item takes a token at least, so the fuel lasts as long as the tokens do.
  induction h generalizing fuel with
  | empty =>
      cases fuel with
      | zero => cases hfuel
      | succ fuel => exact itemsUntil_close
  | last h =>
      obtain ⟨first, following, rfl, hfirst⟩ := hopens h
      have hne : close ≠ .comma := by
        rintro rfl
        simp [Phrase.closing] at hclose
      cases fuel with
      | zero => cases hfuel
      | succ fuel => exact itemsUntil_last hne (hfirst close hclose) (htakes h _)
  | more h hrest ih =>
      obtain ⟨first, following, rfl, hfirst⟩ := hopens h
      simp only [List.length_append, List.length_cons] at hfuel
      rw [List.append_assoc]
      cases fuel with
      | zero => cases hfuel
      | succ fuel =>
          exact itemsUntil_more (hfirst close hclose) (htakes h _) (ih (by omega))

end

/-- **Items are taken up to the closing mark**, whatever follows. -/
theorem listUntil_items (close : Mark) (hclose : close ∈ Phrase.closing) (htakes : Takes item phrase)
    (hopens : phrase.Opens) {tokens : List Token} {as : List α} (h : phrase.Items tokens as)
    (rest : List Token) : listUntil close item (tokens ++ .mark close :: rest) = .ok (as, rest) := by
  refine itemsUntil_items hclose htakes hopens h ?_
  rw [List.length_append, List.length_cons]
  omega

/-- A reader that takes the values takes the entries. -/
theorem takes_entry {value : Reads Value} {phrase : Phrase Value} (h : Takes value phrase) :
    Takes (entry value) phrase.Entry := by
  intro tokens pair hentry rest
  cases hentry with
  | string key hv | number key hv =>
      rename_i tokens v
      show (expect .colon (.mark .colon :: (tokens ++ rest)) >>= fun tokens =>
        value tokens >>= fun found => .ok ((key, found.1), found.2)) = _
      rw [expect_mark]
      show (value (tokens ++ rest) >>= _) = _
      rw [h hv rest]
      rfl

section

variable {levels : Nat} {phrase : Phrase Value} (h : Takes (value levels) phrase)

include h

/-- A map is taken up to its brace. -/
theorem value_map {tokens : List Token} {pairs : List (String × Value)}
    (hpairs : phrase.Entry.Items tokens pairs) (rest : List Token) :
    value (levels + 1) (.mark .leftBrace :: (tokens ++ [.mark .rightBrace]) ++ rest)
      = .ok (.map (Entries.ofPairs pairs), rest) := by
  have hread := listUntil_items .rightBrace (by decide) (takes_entry h) (Phrase.opens_entry phrase)
    hpairs rest
  rw [List.cons_append, List.append_assoc, List.singleton_append]
  show (listUntil .rightBrace (entry (value levels)) (tokens ++ .mark .rightBrace :: rest) >>= _) = _
  rw [hread]
  rfl

variable (hopens : phrase.Opens)

include hopens

/-- A list is taken up to its bracket. -/
theorem value_list {tokens : List Token} {items : List Value} (hitems : phrase.Items tokens items)
    (rest : List Token) : value (levels + 1) (.mark .leftBracket :: (tokens ++ [.mark .rightBracket]) ++ rest)
      = .ok (.list items, rest) := by
  have hread := listUntil_items .rightBracket (by decide) h hopens hitems rest
  rw [List.cons_append, List.append_assoc, List.singleton_append]
  show (listUntil .rightBracket (value levels) (tokens ++ .mark .rightBracket :: rest) >>= _) = _
  rw [hread]
  rfl

/-- A call is taken up to its parenthesis, and its node built. -/
theorem value_call {name : String} {op : Operator} {tokens : List Token} {args : List Value} {v : Value}
    (hname : Operator.ofName? name = some op) (hargs : phrase.Items tokens args)
    (hnode : Node.ofArguments op args = .ok v) (rest : List Token) :
    value (levels + 1)
        (.identifier name :: .mark .leftParen :: (tokens ++ [.mark .rightParen]) ++ rest)
      = .ok (v, rest) := by
  have hread := listUntil_items .rightParen (by decide) h hopens hargs rest
  rw [List.cons_append, List.cons_append, List.append_assoc, List.singleton_append]
  show call (value levels) name (.mark .leftParen :: (tokens ++ .mark .rightParen :: rest)) = _
  simp only [call, hname, expect_mark]
  show (listUntil .rightParen (value levels) (tokens ++ .mark .rightParen :: rest) >>= _) = _
  rw [hread]
  show ((Node.ofArguments op args).mapError _ >>= _) = _
  rw [hnode]
  rfl

/-- The reader takes a form if it takes its parts. -/
theorem takes_form : Takes (value (levels + 1)) phrase.Form := by
  intro tokens v hform rest
  -- each form begins with another token, so the reader takes the branch of its constructor
  cases hform with
  | truth b => rfl
  | null => rfl
  | string s => rfl
  | number hv | negative hv =>
      show (numeral _ >>= _) = _
      rw [hv]
      rfl
  | list hitems => exact value_list h hopens hitems rest
  | map hpairs => exact value_map h hpairs rest
  | call hname hargs hnode => exact value_call h hopens hname hargs hnode rest

end

/-- **The reader takes every phrase of a value with at most so many levels.** -/
theorem takes_value (levels : Nat) : Takes (value levels) (Phrase.value levels) := by
  induction levels with
  | zero => exact fun h => h.elim
  | succ levels ih => exact takes_form ih (Phrase.opens_value levels)

/-- The tokens of a value are read as that value. -/
theorem ofTokens_of_phrase {tokens : List Token} {v : Value} (h : Phrase.value maxLevels tokens v) :
    ofTokens (tokens ++ [.eof]) = .ok v := by
  rw [ofTokens, takes_value maxLevels h [.eof]]
  rfl

end Reader

end Latent
