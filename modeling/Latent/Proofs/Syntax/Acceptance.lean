import Latent.Proofs.Syntax.Grammar
import Latent.Proofs.Syntax.Lexing

/-!
# The reader accepts the grammar and nothing else

What the reader takes from a list of tokens is a phrase of what it answers (`takesOnly_value`).  It also
takes every phrase, whatever follows, so a text is read exactly when its tokens are one phrase and `eof`.
Whatever cannot be in a phrase, or is left after one, makes the text no value.
-/

namespace Latent

/-- A token that can be part of a value: no mark of a malformed text, and not the end. -/
def Token.isProper : Token → Bool
  | invalid _ | eof => false
  | _ => true

/-! ## More levels -/

namespace Phrase

variable {α β : Type}

/-- Every phrase of the one is a phrase of the other. -/
def Within (narrow wide : Phrase α) : Prop := ∀ {tokens : List Token} {a : α},
  narrow tokens a → wide tokens a

variable {narrow wide : Phrase α}

/-- More items make more lists of items. -/
theorem Items.within (h : Within narrow wide) : Within narrow.Items wide.Items := by
  intro tokens as hitems
  induction hitems with
  | empty => exact .empty
  | last hitem => exact .last (h hitem)
  | more hitem _ ih => exact .more (h hitem) ih

/-- More values make more entries. -/
theorem Entry.within {narrow wide : Phrase Value} (h : Within narrow wide) :
    Within narrow.Entry wide.Entry := by
  intro tokens pair hentry
  cases hentry with
  | string key hv => exact .string key (h hv)
  | number key hv => exact .number key (h hv)

/-- More parts make more forms. -/
theorem Form.within {narrow wide : Phrase Value} (h : Within narrow wide) :
    Within narrow.Form wide.Form := by
  intro tokens v hform
  cases hform with
  | truth b => exact .truth b
  | null => exact .null
  | number hread => exact .number hread
  | negative hread => exact .negative hread
  | string s => exact .string s
  | list hitems => exact .list (Items.within h hitems)
  | map hpairs => exact .map (Items.within (Entry.within h) hpairs)
  | call hname hargs hnode => exact .call hname (Items.within h hargs) hnode

/-- A value with so many levels at most has at most one more. -/
theorem value_succ (levels : Nat) : Within (value levels) (value (levels + 1)) := by
  induction levels with
  | zero => exact fun h => h.elim
  | succ levels ih => exact Form.within ih

/-- What needs few levels is a phrase of more levels. -/
theorem value_mono {levels more : Nat} (h : levels ≤ more) : Within (value levels) (value more) := by
  induction h with
  | refl => exact id
  | step _ ih => exact fun hv => value_succ _ (ih hv)

/-! ## Tokens of a phrase -/

/-- A phrase is made of proper tokens. -/
def Proper (phrase : Phrase α) : Prop := ∀ {tokens : List Token} {a : α}, phrase tokens a →
  ∀ token ∈ tokens, token.isProper

/-- Items are made of proper tokens, if each of them is. -/
theorem proper_items {item : Phrase α} (h : item.Proper) : item.Items.Proper := by
  intro tokens as hitems
  induction hitems with
  | empty => exact fun _ hmem => absurd hmem List.not_mem_nil
  | last hitem => exact h hitem
  | more hitem _ ih => exact List.forall_mem_append.2 ⟨h hitem, List.forall_mem_cons.2 ⟨rfl, ih⟩⟩

/-- So is an entry, if its value is. -/
theorem proper_entry {value : Phrase Value} (h : value.Proper) : value.Entry.Proper := by
  intro tokens pair hentry
  cases hentry with
  | string key hv | number key hv =>
      exact List.forall_mem_cons.2 ⟨rfl, List.forall_mem_cons.2 ⟨rfl, h hv⟩⟩

/-- Tokens between two marks are proper when those inside are. -/
theorem proper_enclosed {tokens : List Token} (h : ∀ token ∈ tokens, token.isProper)
    (opening closing : Mark) :
    ∀ token ∈ .mark opening :: (tokens ++ [.mark closing]), token.isProper :=
  List.forall_mem_cons.2 ⟨rfl, List.forall_mem_append.2 ⟨h, List.forall_mem_singleton.2 rfl⟩⟩

/-- So is a form, if its parts are. -/
theorem proper_form {value : Phrase Value} (h : value.Proper) : value.Form.Proper := by
  intro tokens v hform
  cases hform with
  | truth | null | number | negative | string => simp [Token.isProper]
  | list hitems => exact proper_enclosed (proper_items h hitems) _ _
  | map hpairs => exact proper_enclosed (proper_items (proper_entry h) hpairs) _ _
  | call _ hargs =>
      exact List.forall_mem_cons.2 ⟨rfl, proper_enclosed (proper_items h hargs) _ _⟩

/-- No phrase holds the end of the text. -/
theorem proper_value (levels : Nat) : (value levels).Proper := by
  induction levels with
  | zero => exact fun h => h.elim
  | succ levels ih => exact proper_form ih

end Phrase

/-! ## What is taken is a phrase -/

namespace Reader

variable {α : Type} {item : Reads α} {phrase : Phrase α}

/-- What the reader takes from the tokens is a phrase, and what it leaves is the rest of them. -/
def TakesOnly (item : Reads α) (phrase : Phrase α) : Prop := ∀ {tokens rest : List Token} {a : α},
  item tokens = .ok (a, rest) → ∃ used, tokens = used ++ rest ∧ phrase used a

/-- The end goes on for ever, every other token is there once. -/
theorem eq_cons_of_current {tokens : List Token} {token : Token} (h : current tokens = token)
    (hend : token ≠ .eof) : tokens = token :: tokens.tail := by
  cases tokens with
  | nil => exact absurd h.symm hend
  | cons first rest => exact congrArg (· :: rest) h

/-- A mark that was expected was there. -/
theorem eq_cons_of_expect {m : Mark} {tokens rest : List Token} (h : expect m tokens = .ok rest) :
    tokens = .mark m :: rest := by
  unfold expect at h
  split at h
  · rename_i hcurrent
    cases h
    exact eq_cons_of_current hcurrent Token.noConfusion
  · cases h

/-- Up to the mark that ends them, items are taken. -/
theorem items_of_itemsUntil (hitem : TakesOnly item phrase) {close : Mark} {fuel : Nat}
    {tokens rest : List Token} {as : List α} (h : itemsUntil close item fuel tokens = .ok (as, rest)) :
    ∃ used, tokens = used ++ .mark close :: rest ∧ phrase.Items used as := by
  induction fuel generalizing tokens as with
  | zero => cases h
  | succ fuel ih =>
      -- a round sees the mark, or takes an item and then a comma or the mark
      rw [itemsUntil] at h
      split at h
      · rename_i hclose
        cases h
        exact ⟨[], eq_cons_of_current hclose Token.noConfusion, .empty⟩
      · obtain ⟨⟨first, others⟩, hfirst, hmore⟩ := exists_of_bind_eq_ok h
        obtain ⟨used, rfl, hphrase⟩ := hitem hfirst
        dsimp only at hmore
        split at hmore
        · rename_i hcomma
          obtain ⟨⟨as', rest'⟩, hothers, hmore⟩ := exists_of_bind_eq_ok hmore
          cases hmore
          obtain ⟨usedOthers, heq, hitems⟩ := ih hothers
          refine ⟨used ++ .mark .comma :: usedOthers, ?_, .more hphrase hitems⟩
          rw [eq_cons_of_current hcomma Token.noConfusion, heq, List.append_assoc, List.cons_append]
        · obtain ⟨rest', hexpect, hmore⟩ := exists_of_bind_eq_ok hmore
          cases hmore
          exact ⟨used, by rw [eq_cons_of_expect hexpect], .last hphrase⟩

/-- What is taken up to a closing mark is a list of items. -/
theorem items_of_listUntil (hitem : TakesOnly item phrase) {close : Mark} {tokens rest : List Token}
    {as : List α} (h : listUntil close item tokens = .ok (as, rest)) :
    ∃ used, tokens = used ++ .mark close :: rest ∧ phrase.Items used as :=
  items_of_itemsUntil hitem h

/-- Behind its key an entry has a colon and a value. -/
theorem takesOnly_bound {value : Reads Value} {phrase : Phrase Value} (h : TakesOnly value phrase)
    {key : String} {tokens rest : List Token} {pair : String × Value}
    (hbound : (do
      let tokens ← expect .colon tokens
      let (v, tokens) ← value tokens
      return ((key, v), tokens)) = .ok (pair, rest)) :
    ∃ used v, tokens = .mark .colon :: (used ++ rest) ∧ pair = (key, v) ∧ phrase used v := by
  obtain ⟨others, hcolon, hbound⟩ := exists_of_bind_eq_ok hbound
  obtain ⟨⟨v, rest'⟩, hvalue, hbound⟩ := exists_of_bind_eq_ok hbound
  cases hbound
  obtain ⟨used, rfl, hphrase⟩ := h hvalue
  exact ⟨used, v, eq_cons_of_expect hcolon, rfl, hphrase⟩

/-- A reader of values makes a reader of entries. -/
theorem takesOnly_entry {value : Reads Value} {phrase : Phrase Value} (h : TakesOnly value phrase) :
    TakesOnly (entry value) phrase.Entry := by
  intro tokens rest pair hentry
  rw [entry] at hentry
  split at hentry
  · rename_i key hkey
    obtain ⟨used, v, htail, rfl, hphrase⟩ := takesOnly_bound h hentry
    refine ⟨.string key :: .mark .colon :: used, ?_, .string key hphrase⟩
    rw [eq_cons_of_current hkey Token.noConfusion, htail]
    rfl
  · rename_i key hkey
    obtain ⟨used, v, htail, rfl, hphrase⟩ := takesOnly_bound h hentry
    refine ⟨.number key :: .mark .colon :: used, ?_, .number key hphrase⟩
    rw [eq_cons_of_current hkey Token.noConfusion, htail]
    rfl
  · cases hentry

/-- A call is the name of an operator, and arguments in parentheses that make a node. -/
theorem form_of_call {value : Reads Value} {phrase : Phrase Value} (h : TakesOnly value phrase)
    {name : String} {tokens rest : List Token} {v : Value}
    (hcall : call value name tokens = .ok (v, rest)) :
    ∃ used, .identifier name :: tokens = used ++ rest ∧ phrase.Form used v := by
  rw [call] at hcall
  split at hcall
  · cases hcall
  · rename_i op hname
    obtain ⟨others, hopen, hcall⟩ := exists_of_bind_eq_ok hcall
    obtain ⟨⟨args, rest'⟩, hargs, hcall⟩ := exists_of_bind_eq_ok hcall
    obtain ⟨node, hnode, hcall⟩ := exists_of_bind_eq_ok hcall
    cases hcall
    obtain ⟨used, rfl, hitems⟩ := items_of_listUntil h hargs
    refine ⟨_, ?_, .call hname hitems (eq_ok_of_mapError hnode)⟩
    rw [eq_cons_of_expect hopen]
    simp

/-- What follows a minus sign is a numeral. -/
theorem form_of_negative {phrase : Phrase Value} {tokens rest : List Token} {v : Value}
    (h : negative tokens = .ok (v, rest)) :
    ∃ used, .mark .minus :: tokens = used ++ rest ∧ phrase.Form used v := by
  unfold negative at h
  split at h
  · rename_i text others
    obtain ⟨w, hnumeral, h⟩ := exists_of_bind_eq_ok h
    cases h
    exact ⟨[.mark .minus, .number text], rfl, .negative hnumeral⟩
  · cases h

/-- With one level more, forms are all that is taken. -/
theorem takesOnly_form {levels : Nat} {phrase : Phrase Value} (h : TakesOnly (value levels) phrase) :
    TakesOnly (value (levels + 1)) phrase.Form := by
  intro tokens rest v hvalue
  -- the first token tells which form was taken
  rw [value] at hvalue
  split at hvalue
  all_goals rename_i hcurrent
  · cases hvalue
    exact ⟨[_], eq_cons_of_current hcurrent Token.noConfusion, .truth _⟩
  · cases hvalue
    exact ⟨[_], eq_cons_of_current hcurrent Token.noConfusion, .null⟩
  · obtain ⟨w, hnumeral, hvalue⟩ := exists_of_bind_eq_ok hvalue
    cases hvalue
    exact ⟨[_], eq_cons_of_current hcurrent Token.noConfusion, .number hnumeral⟩
  · cases hvalue
    exact ⟨[_], eq_cons_of_current hcurrent Token.noConfusion, .string _⟩
  · rw [eq_cons_of_current hcurrent Token.noConfusion]
    exact form_of_negative hvalue
  · obtain ⟨⟨items, rest'⟩, hitems, hvalue⟩ := exists_of_bind_eq_ok hvalue
    cases hvalue
    obtain ⟨used, htail, hitems⟩ := items_of_listUntil h hitems
    refine ⟨_, ?_, .list hitems⟩
    rw [eq_cons_of_current hcurrent Token.noConfusion, htail]
    simp
  · obtain ⟨⟨pairs, rest'⟩, hpairs, hvalue⟩ := exists_of_bind_eq_ok hvalue
    cases hvalue
    obtain ⟨used, htail, hpairs⟩ := items_of_listUntil (takesOnly_entry h) hpairs
    refine ⟨_, ?_, .map hpairs⟩
    rw [eq_cons_of_current hcurrent Token.noConfusion, htail]
    simp
  · rw [eq_cons_of_current hcurrent Token.noConfusion]
    exact form_of_call h hvalue
  · cases hvalue
  · cases hvalue

/-- **Only phrases are taken.** -/
theorem takesOnly_value (levels : Nat) : TakesOnly (value levels) (Phrase.value levels) := by
  induction levels with
  | zero =>
      intro tokens rest v h
      cases h
  | succ levels ih => exact takesOnly_form ih

end Reader

/-! ## Texts -/

namespace Reader

/-- The tokens that are read are those of one value, and end there. -/
theorem phrase_of_ofTokens {init : List Token} (hinit : .eof ∉ init) {v : Value}
    (h : ofTokens (init ++ [.eof]) = .ok v) : Phrase.value maxLevels init v := by
  obtain ⟨⟨w, rest⟩, hvalue, h⟩ := exists_of_bind_eq_ok h
  obtain ⟨used, hsplit, hphrase⟩ := takesOnly_value maxLevels hvalue
  have hproper := Phrase.proper_value maxLevels hphrase
  dsimp only at h
  split at h
  · rename_i hend
    cases h
    -- the phrase has no `eof` in it and what is left begins with one, so the two splits are one
    rcases List.append_eq_append_iff.1 hsplit with ⟨others, rfl, hothers⟩ | ⟨others, rfl, rfl⟩
    · cases others with
      | nil => rwa [List.append_nil] at hphrase
      | cons token _ =>
          have htoken : .eof = token := (List.cons.inj hothers).1
          have heof := hproper .eof (List.mem_append_right _ (htoken ▸ List.mem_cons_self))
          cases heof
    · cases others with
      | nil => rwa [List.append_nil]
      | cons token _ =>
          cases hend
          exact absurd (List.mem_append_right _ List.mem_cons_self) hinit
  · cases h

end Reader

namespace Value

variable {text : String}

/-- **What is read is denoted by the tokens of the text**, all of them. -/
theorem phrase_of_read {v : Value} (h : read text = .ok v) :
    ∃ tokens, tokenize text = tokens ++ [.eof] ∧ Phrase.value maxLevels tokens v := by
  obtain ⟨init, htokens, hinit⟩ := Lexer.exists_tokensWithin text.toList.length text.toList
  rw [read, tokenize, htokens] at h
  exact ⟨init, htokens, Reader.phrase_of_ofTokens hinit h⟩

/-- A text with a malformed token is not read. -/
theorem read_ne_ok_of_invalid {problem : Malformed} (h : .invalid problem ∈ tokenize text) (v : Value) :
    read text ≠ .ok v := by
  intro hread
  obtain ⟨tokens, htokens, hphrase⟩ := phrase_of_read hread
  rw [htokens, List.mem_append, List.mem_singleton] at h
  rcases h with hmem | heof
  · have hproper := Phrase.proper_value maxLevels hphrase _ hmem
    cases hproper
  · cases heof

/-- A text with tokens left after a value, of any levels, is not read. -/
theorem read_ne_ok_of_extra {levels : Nat} {tokens extra : List Token} {w : Value}
    (htokens : tokenize text = tokens ++ extra ++ [.eof]) (hextra : extra ≠ [])
    (hphrase : Phrase.value levels tokens w) (v : Value) : read text ≠ .ok v := by
  intro hread
  obtain ⟨whole, hwhole, hv⟩ := phrase_of_read hread
  -- with levels enough for both, the reader takes the value alone and the whole text
  have htakes := Reader.takes_value _
    (Phrase.value_mono (Nat.le_max_left levels maxLevels) hphrase) (extra ++ [.eof])
  have htakesWhole := Reader.takes_value _
    (Phrase.value_mono (Nat.le_max_right levels maxLevels) hv) [.eof]
  rw [← hwhole, htokens, List.append_assoc, htakes] at htakesWhole
  have hrest := congrArg Prod.snd (Except.ok.inj htakesWhole)
  exact hextra (List.append_left_eq_self.1 hrest)

/-- **A text is read as what its tokens are a phrase of.**  No text with a malformed token is read, and
none with tokens left after a value. -/
theorem read_eq_ok_iff (text : String) :
    (∀ v, read text = .ok v ↔
        ∃ tokens, tokenize text = tokens ++ [.eof] ∧ Phrase.value maxLevels tokens v) ∧
      (∀ problem, .invalid problem ∈ tokenize text → ∃ e, read text = .error e) ∧
      ∀ levels tokens extra v, tokenize text = tokens ++ extra ++ [.eof] → extra ≠ [] →
        Phrase.value levels tokens v → ∃ e, read text = .error e := by
  have hrejected (h : ∀ v, read text ≠ .ok v) : ∃ e, read text = .error e := by
    cases hread : read text with
    | error e => exact ⟨e, rfl⟩
    | ok v => exact absurd hread (h v)
  refine ⟨fun v => ⟨phrase_of_read, ?_⟩, ?_, ?_⟩
  · rintro ⟨tokens, htokens, hphrase⟩
    rw [read, htokens]
    exact Reader.ofTokens_of_phrase hphrase
  · intro problem hmem
    exact hrejected (read_ne_ok_of_invalid hmem)
  · intro levels tokens extra v htokens hextra hphrase
    exact hrejected (read_ne_ok_of_extra htokens hextra hphrase)

end Value

end Latent
