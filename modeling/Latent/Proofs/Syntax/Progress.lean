import Latent.Proofs.Syntax.Acceptance
import Mathlib.Data.List.TakeWhile

/-!
# Reading comes to an end

The lexer takes a character at least for each token but the last.  The reader is looked at as a cursor
that stays at the last token instead of moving on, and whose loops nothing bounds: an outcome is what
they come to after finitely many items (`Loop`), so that a loop that turns on the spot has none.  Since
a value takes a token at least, and never the end, each call has one outcome, and it is that of the
reader (`computes_value`).
-/

namespace Latent

/-! ## Tokens -/

namespace Lexer

variable {text rest : List Char} {token : Token} {tokens : List Token}

/-- The tokens of a text, one after another for as long as there are any. -/
inductive Lexes : List Char → List Token → Prop
  | stop {text : List Char} (h : next? text = none) : Lexes text [.eof]
  | step {text rest : List Char} {token : Token} {tokens : List Token}
      (h : next? text = some (token, rest)) (hrest : Lexes rest tokens) : Lexes text (token :: tokens)

/-- There is no token in blanks only. -/
theorem next?_eq_none_iff : next? text = none ↔ ∀ c ∈ text, Text.isBlank c = true := by
  rw [← List.dropWhile_eq_nil_iff, next?]
  split
  · rename_i heq
    exact iff_of_true rfl heq
  · rename_i c following heq
    refine iff_of_false (Option.some_ne_none _) ?_
    rw [heq]
    exact List.cons_ne_nil c following

/-- Where no token is left, the end is. -/
theorem tokens_of_none (h : next? text = none) : Lexer.tokens text = [.eof] := by
  cases text with
  | nil => rfl
  | cons c rest => rw [Lexer.tokens, List.length_cons, tokensWithin, h]

/-- The lexer comes to the end of every text. -/
theorem lexes_tokens (text : List Char) : Lexes text (Lexer.tokens text) := by
  -- by induction on the length, because a token leaves less text
  induction hlength : text.length using Nat.strong_induction_on generalizing text with
  | _ length ih =>
      cases hnext : next? text with
      | none =>
          rw [tokens_of_none hnext]
          exact .stop hnext
      | some first =>
          obtain ⟨token, rest⟩ := first
          rw [tokens_of_next? hnext]
          exact .step hnext (ih _ (hlength ▸ length_lt_of_next? hnext) rest rfl)

/-- The run without a bound finds the tokens that the lexer finds. -/
theorem eq_tokens_of_lexes (h : Lexes text tokens) : tokens = Lexer.tokens text := by
  induction h with
  | stop h => exact (tokens_of_none h).symm
  | step h _ ih => rw [tokens_of_next? h, ih]

/-- **Lexing ends, with the tokens of the text.** -/
theorem lexes_iff : Lexes text tokens ↔ tokens = Lexer.tokens text :=
  ⟨eq_tokens_of_lexes, fun h => h ▸ lexes_tokens text⟩

/-- Each token has a character of its own, but for the end. -/
theorem Lexes.length_le (h : Lexes text tokens) : tokens.length ≤ text.length + 1 := by
  induction h with
  | stop h => exact Nat.le_add_left _ _
  | step h _ ih =>
      have hrest := length_lt_of_next? h
      rw [List.length_cons]
      omega

end Lexer

/-! ## The cursor -/

namespace Reader

variable {α : Type} {tokens used rest : List Token}

/-- The tokens end with `eof`. -/
def Ends (tokens : List Token) : Prop := tokens.getLast? = some .eof

/-- The tokens from the next one on; at the last one the cursor stays. -/
def advance : List Token → List Token
  | _ :: next :: rest => next :: rest
  | tokens => tokens

/-- Before the end there is a token to move on to. -/
theorem advance_eq_tail (hend : Ends tokens) {token : Token} (h : current tokens = token)
    (hne : token ≠ .eof) : advance tokens = tokens.tail := by
  match tokens, hend with
  | [last], hend => exact absurd (h.symm.trans (Option.some.inj hend)) hne
  | _ :: _ :: _, _ => rfl

/-- What is left ends as before if the end was not taken. -/
theorem Ends.of_append (h : Ends (used ++ rest)) (hused : .eof ∉ used) : Ends rest := by
  cases hlast : rest.getLast? with
  | some token =>
      rw [Ends, List.getLast?_append, hlast] at h
      exact hlast.trans h
  | none =>
      rw [Ends, List.getLast?_append, hlast] at h
      exact absurd (List.mem_of_getLast? h) hused

/-- A token that is not the end leaves the end behind. -/
theorem Ends.tail (hend : Ends tokens) {token : Token} (h : current tokens = token)
    (hne : token ≠ .eof) : Ends tokens.tail := by
  match tokens, hend with
  | [last], hend => exact absurd (h.symm.trans (Option.some.inj hend)) hne
  | _ :: _ :: _, hend => rwa [Ends, List.getLast?_cons_cons] at hend

/-- Whoever succeeds takes a token at least, and not the end. -/
def Spends (item : Reads α) : Prop := ∀ ⦃tokens rest : List Token⦄ ⦃a : α⦄,
  item tokens = .ok (a, rest) → ∃ used, used ≠ [] ∧ .eof ∉ used ∧ tokens = used ++ rest

/-- Phrases have a first token, and all of their tokens are proper ones. -/
theorem spends_of_takesOnly {item : Reads α} {phrase : Phrase α} (h : TakesOnly item phrase)
    (hopens : phrase.Opens) (hproper : phrase.Proper) : Spends item := by
  intro tokens rest a hitem
  obtain ⟨used, hsplit, hphrase⟩ := h hitem
  obtain ⟨first, following, hused, _⟩ := hopens hphrase
  refine ⟨used, by simp [hused], fun hmem => ?_, hsplit⟩
  have heof := hproper hphrase _ hmem
  cases heof

/-- **A value takes a token at least, and never the end.** -/
theorem spends_value (levels : Nat) : Spends (value levels) :=
  spends_of_takesOnly (takesOnly_value levels) (Phrase.opens_value levels) (Phrase.proper_value levels)

/-- An entry takes at least a token. -/
theorem spends_entry (levels : Nat) : Spends (entry (value levels)) :=
  spends_of_takesOnly (takesOnly_entry (takesOnly_value levels)) (Phrase.opens_entry _)
    (Phrase.proper_entry (Phrase.proper_value levels))

/-! ## Runs of the cursor -/

/-- What a run comes to: a result and the tokens that are left, or an error. -/
abbrev Outcome (α : Type) := Except ReadError (α × List Token)

/-- A run from the given tokens on, and what it comes to. -/
abbrev Run (α : Type) := List Token → Outcome α → Prop

/-- The cursor goes on over a mark. -/
def pass (mark : Mark) (tokens : List Token) : Except ReadError (List Token) :=
  if current tokens = .mark mark then .ok (advance tokens)
  else .error (.expectedMark mark (current tokens))

/-- Items up to and including `close`, for as long as commas follow. -/
inductive Loop (close : Mark) (item : Run α) : Run (List α)
  | closed {tokens : List Token} (h : current tokens = .mark close) :
      Loop close item tokens (.ok ([], advance tokens))
  | failed {tokens : List Token} {e : ReadError} (hopen : current tokens ≠ .mark close)
      (hitem : item tokens (.error e)) : Loop close item tokens (.error e)
  | last {tokens rest : List Token} {a : α} (hopen : current tokens ≠ .mark close)
      (hitem : item tokens (.ok (a, rest))) (hcomma : current rest ≠ .mark .comma) :
      Loop close item tokens ((pass close rest).map fun after => ([a], after))
  | more {tokens rest : List Token} {a : α} {outcome : Outcome (List α)}
      (hopen : current tokens ≠ .mark close) (hitem : item tokens (.ok (a, rest)))
      (hcomma : current rest = .mark .comma) (hmore : Loop close item (advance rest) outcome) :
      Loop close item tokens (outcome.map fun found => (a :: found.1, found.2))

/-- A key, a colon and a value. -/
def EntryRun (value : Run Value) : Run (String × Value) := fun tokens outcome =>
  match current tokens with
  | .string key | .number key =>
    match pass .colon (advance tokens) with
    | .ok rest => ∃ found, value rest found ∧ outcome = found.map fun x => ((key, x.1), x.2)
    | .error e => outcome = .error e
  | found => outcome = .error (.expectedKey found)

/-- The name of an operator, and arguments in parentheses. -/
def NodeRun (value : Run Value) (name : String) : Run Value := fun tokens outcome =>
  match Operator.ofName? name with
  | some op =>
    match pass .leftParen (advance tokens) with
    | .ok rest => ∃ args, Loop .rightParen value rest args ∧
        outcome = args.bind fun found =>
          ((Node.ofArguments op found.1).mapError (.noNode op)).map fun node => (node, found.2)
    | .error e => outcome = .error e
  | none => outcome = .error (.unknownOperator name)

/-- A value with at most `levels` levels. -/
def ValueRun : Nat → Run Value
  | 0, _, outcome => outcome = .error .tooDeep
  | levels + 1, tokens, outcome =>
    match current tokens with
    | .truth b => outcome = .ok (.boolean b, advance tokens)
    | .null => outcome = .ok (.null, advance tokens)
    | .number text => outcome = (numeral text.toList).map fun v => (v, advance tokens)
    | .string s => outcome = .ok (.string s, advance tokens)
    | .mark .minus =>
      match current (advance tokens) with
      | .number text =>
        outcome = (numeral ('-' :: text.toList)).map fun v => (v, advance (advance tokens))
      | found => outcome = .error (.expectedNumber found)
    | .mark .leftBracket => ∃ items, Loop .rightBracket (ValueRun levels) (advance tokens) items ∧
        outcome = items.map fun found => (.list found.1, found.2)
    | .mark .leftBrace =>
      ∃ pairs, Loop .rightBrace (EntryRun (ValueRun levels)) (advance tokens) pairs ∧
        outcome = pairs.map fun found => (.map (Entries.ofPairs found.1), found.2)
    | .identifier name => NodeRun (ValueRun levels) name tokens outcome
    | .invalid problem => outcome = .error (.malformed problem)
    | found => outcome = .error (.expectedValue found)

/-- A value, and the end behind it. -/
def TextRun (tokens : List Token) (outcome : Except ReadError Value) : Prop :=
  ∃ found, ValueRun maxLevels tokens found ∧ outcome = found.bind fun x =>
    if current x.2 = .eof then .ok x.1 else .error (.trailing (current x.2))

/-! ## One outcome -/

variable {close : Mark} {run : Run α} {item : Reads α} {fuel : Nat} {a : α}

/-- Where the tokens end with `eof`, the run comes to what the reader answers, and to nothing else. -/
def Computes (run : Run α) (item : Reads α) : Prop :=
  ∀ ⦃tokens : List Token⦄, Ends tokens → ∀ outcome, run tokens outcome ↔ outcome = item tokens

/-- A mark is passed where it is expected. -/
theorem pass_eq_expect (hend : Ends tokens) (mark : Mark) : pass mark tokens = expect mark tokens := by
  unfold pass expect
  split
  · rename_i hmark
    rw [advance_eq_tail hend hmark Token.noConfusion]
  · rfl

/-- Behind an item and a comma there are fewer tokens. -/
theorem length_tail_lt (hne : used ≠ []) (hfuel : (used ++ rest).length < fuel + 1) :
    rest.tail.length < fuel := by
  have hpos := List.length_pos_iff.2 hne
  rw [List.length_append] at hfuel
  rw [List.length_tail]
  omega

/-- A loop over what is read comes to what the reader of items answers. -/
theorem loop_itemsUntil (hrun : Computes run item) (hspends : Spends item) (hend : Ends tokens)
    (hfuel : tokens.length < fuel) : Loop close run tokens (itemsUntil close item fuel tokens) := by
  -- each round takes a token at least, so the fuel outlasts the tokens
  induction fuel generalizing tokens with
  | zero => cases hfuel
  | succ fuel ih =>
      by_cases hclose : current tokens = .mark close
      · rw [itemsUntil, if_pos hclose, ← advance_eq_tail hend hclose Token.noConfusion]
        exact .closed hclose
      · cases hitem : item tokens with
        | error e =>
            rw [itemsUntil_of_error hclose hitem]
            exact .failed hclose ((hrun hend _).2 hitem.symm)
        | ok found =>
            obtain ⟨a, rest⟩ := found
            obtain ⟨used, hne, hused, rfl⟩ := hspends hitem
            have hrest : Ends rest := hend.of_append hused
            have hfirst := (hrun hend _).2 hitem.symm
            by_cases hcomma : current rest = .mark .comma
            · have hmore := ih (hrest.tail hcomma Token.noConfusion) (length_tail_lt hne hfuel)
              rw [itemsUntil_of_more hclose hitem hcomma]
              rw [← advance_eq_tail hrest hcomma Token.noConfusion] at hmore ⊢
              exact .more hclose hfirst hcomma hmore
            · rw [itemsUntil_of_last hclose hitem hcomma, ← pass_eq_expect hrest]
              exact .last hclose hfirst hcomma

/-- A loop comes to nothing else. -/
theorem Loop.eq_itemsUntil {outcome : Outcome (List α)} (h : Loop close run tokens outcome)
    (hrun : Computes run item) (hspends : Spends item) (hend : Ends tokens)
    (hfuel : tokens.length < fuel) : outcome = itemsUntil close item fuel tokens := by
  induction h generalizing fuel with
  | closed h =>
      obtain ⟨fuel, rfl⟩ := Nat.exists_eq_add_one_of_ne_zero (Nat.ne_zero_of_lt hfuel)
      rw [itemsUntil, if_pos h, advance_eq_tail hend h Token.noConfusion]
  | failed hopen hitem =>
      obtain ⟨fuel, rfl⟩ := Nat.exists_eq_add_one_of_ne_zero (Nat.ne_zero_of_lt hfuel)
      exact (itemsUntil_of_error hopen ((hrun hend _).1 hitem).symm).symm
  | last hopen hitem hcomma =>
      obtain ⟨fuel, rfl⟩ := Nat.exists_eq_add_one_of_ne_zero (Nat.ne_zero_of_lt hfuel)
      have hread := ((hrun hend _).1 hitem).symm
      obtain ⟨used, _, hused, rfl⟩ := hspends hread
      rw [itemsUntil_of_last hopen hread hcomma, pass_eq_expect (hend.of_append hused)]
  | @more tokens rest a outcome hopen hitem hcomma _ ih =>
      obtain ⟨fuel, rfl⟩ := Nat.exists_eq_add_one_of_ne_zero (Nat.ne_zero_of_lt hfuel)
      have hread := ((hrun hend _).1 hitem).symm
      obtain ⟨used, hne, hused, rfl⟩ := hspends hread
      have hrest : Ends rest := hend.of_append hused
      have hfewer := length_tail_lt hne hfuel
      rw [advance_eq_tail hrest hcomma Token.noConfusion] at ih
      rw [itemsUntil_of_more hopen hread hcomma, ih (hrest.tail hcomma Token.noConfusion) hfewer]

/-- **Every loop ends**, with what the reader of lists answers. -/
theorem computes_loop (hrun : Computes run item) (hspends : Spends item) (close : Mark) :
    Computes (Loop close run) (listUntil close item) := fun _ hend _ =>
  ⟨fun h => h.eq_itemsUntil hrun hspends hend (Nat.lt_succ_self _),
    fun h => h ▸ loop_itemsUntil hrun hspends hend (Nat.lt_succ_self _)⟩

/-- What is gone on with has one outcome if the run has. -/
theorem exists_and_eq_iff {β : Type} {first : Except ReadError α} {holds : Except ReadError α → Prop}
    (h : ∀ found, holds found ↔ found = first) (next : Except ReadError α → Except ReadError β)
    (outcome : Except ReadError β) : (∃ found, holds found ∧ outcome = next found) ↔ outcome = next first := by
  simp only [h, exists_eq_left]

/-- The run of an entry has the outcome of the reader, if that of its value has. -/
theorem computes_entry {value : Run Value} {item : Reads Value} (h : Computes value item) :
    Computes (EntryRun value) (entry item) := by
  intro tokens hend outcome
  have hbound (key : String) {token : Token} (hkey : current tokens = token) (hne : token ≠ .eof) :
      (match pass .colon (advance tokens) with
        | .ok rest => ∃ found, value rest found ∧ outcome = found.map fun x => ((key, x.1), x.2)
        | .error e => outcome = .error e) ↔
      outcome = (expect .colon tokens.tail).bind fun rest =>
        (item rest).map fun x => ((key, x.1), x.2) := by
    have htail := hend.tail hkey hne
    rw [advance_eq_tail hend hkey hne, pass_eq_expect htail]
    cases hcolon : expect .colon tokens.tail with
    | error e => exact Iff.rfl
    | ok rest =>
        have hsplit := eq_cons_of_expect hcolon
        rw [hsplit] at htail
        exact exists_and_eq_iff (h (htail.tail rfl Token.noConfusion)) _ _
  unfold EntryRun entry
  cases hcurrent : current tokens with
  | string key => exact hbound key hcurrent Token.noConfusion
  | number key => exact hbound key hcurrent Token.noConfusion
  | _ => exact Iff.rfl

/-- So has the run of a call. -/
theorem computes_node {value : Run Value} {item : Reads Value} (h : Computes value item)
    (hspends : Spends item) {name : String} (hend : Ends tokens)
    (hname : current tokens = .identifier name) (outcome : Outcome Value) :
    NodeRun value name tokens outcome ↔ outcome = call item name tokens.tail := by
  have htail := hend.tail hname Token.noConfusion
  unfold NodeRun call
  cases Operator.ofName? name with
  | none => exact Iff.rfl
  | some op =>
      dsimp only
      rw [advance_eq_tail hend hname Token.noConfusion, pass_eq_expect htail]
      cases hopen : expect .leftParen tokens.tail with
      | error e => exact Iff.rfl
      | ok rest =>
          rw [eq_cons_of_expect hopen] at htail
          have hargs := computes_loop h hspends .rightParen (htail.tail rfl Token.noConfusion)
          exact exists_and_eq_iff hargs _ _

/-- A numeral behind a minus sign, by its first token. -/
theorem negative_eq (tokens : List Token) : negative tokens = match current tokens with
    | .number text => (numeral ('-' :: text.toList)).map fun v => (v, tokens.tail)
    | found => .error (.expectedNumber found) := by
  cases tokens with
  | nil => rfl
  | cons token rest => cases token <;> rfl

/-- What a mark opens has one outcome, if the values inside have. -/
theorem computes_mark {levels : Nat} (h : Computes (ValueRun levels) (value levels))
    (hend : Ends tokens) {m : Mark} (hcurrent : current tokens = .mark m) (outcome : Outcome Value) :
    ValueRun (levels + 1) tokens outcome ↔ outcome = value (levels + 1) tokens := by
  have hadvance := advance_eq_tail hend hcurrent Token.noConfusion
  have htail := hend.tail hcurrent Token.noConfusion
  rw [ValueRun, value, hcurrent]
  cases m with
  | minus =>
      dsimp only
      rw [hadvance, negative_eq]
      cases hnumber : current tokens.tail with
      | number text => rw [advance_eq_tail htail hnumber Token.noConfusion]
      | _ => exact Iff.rfl
  | leftBracket =>
      dsimp only
      rw [hadvance]
      exact exists_and_eq_iff (computes_loop h (spends_value levels) _ htail) _ _
  | leftBrace =>
      dsimp only
      rw [hadvance]
      exact exists_and_eq_iff (computes_loop (computes_entry h) (spends_entry levels) _ htail) _ _
  | _ => exact Iff.rfl

/-- **Every value has one outcome**, and it is what the reader answers. -/
theorem computes_value (levels : Nat) : Computes (ValueRun levels) (value levels) := by
  induction levels with
  | zero => exact fun _ _ _ => Iff.rfl
  | succ levels ih =>
      intro tokens hend outcome
      cases hcurrent : current tokens with
      | mark m => exact computes_mark ih hend hcurrent outcome
      | identifier name =>
          rw [ValueRun, value, hcurrent]
          exact computes_node ih (spends_value levels) hend hcurrent outcome
      | number _ =>
          rw [ValueRun, value, hcurrent, advance_eq_tail hend hcurrent Token.noConfusion]
          exact Iff.rfl
      | truth _ | null | string _ =>
          rw [ValueRun, value, hcurrent, advance_eq_tail hend hcurrent Token.noConfusion]
      | invalid _ | eof => rw [ValueRun, value, hcurrent]

/-- Reading a text has one outcome. -/
theorem textRun_iff (hend : Ends tokens) (outcome : Except ReadError Value) :
    TextRun tokens outcome ↔ outcome = ofTokens tokens :=
  exists_and_eq_iff (computes_value maxLevels hend) _ _

/-! ## Places -/

/-- A run of the reader from each place in the tokens: if it succeeds, it stops at a later place, which is
the end at the furthest. -/
def MovesOn (item : Reads α) (tokens : List Token) : Prop :=
  ∀ p a rest, p < tokens.length → item (tokens.drop p) = .ok (a, rest) →
    ∃ q, p < q ∧ q < tokens.length ∧ rest = tokens.drop q

/-- Wherever the cursor stands, the tokens end with the end. -/
theorem Ends.drop (hend : Ends tokens) {p : Nat} (hp : p < tokens.length) : Ends (tokens.drop p) := by
  rw [Ends, List.getLast?_drop, if_neg (by omega)]
  exact hend

/-- A reader that takes a token moves the cursor on. -/
theorem Spends.movesOn (hspends : Spends item) (hend : Ends tokens) : MovesOn item tokens := by
  intro p a rest hp hitem
  obtain ⟨used, hne, hused, hsplit⟩ := hspends hitem
  have hrest : rest ≠ [] := by
    have hends := (hsplit ▸ hend.drop hp).of_append hused
    rintro rfl
    cases hends
  have hlength := congrArg List.length hsplit
  have hdrop : rest = tokens.drop (p + used.length) := by
    rw [← List.drop_drop, hsplit, List.drop_left]
  rw [List.length_drop, List.length_append] at hlength
  have husedPos := List.length_pos_iff.2 hne
  have hrestPos := List.length_pos_iff.2 hrest
  exact ⟨p + used.length, by omega, by omega, hdrop⟩

/-- From each place in the tokens the run comes to what the reader answers, and to nothing else. -/
def ComputesOn (run : Run α) (item : Reads α) (tokens : List Token) : Prop :=
  ∀ p < tokens.length, ∀ outcome, run (tokens.drop p) outcome ↔ outcome = item (tokens.drop p)

/-- What holds of all tokens holds from every place of the cursor. -/
theorem Computes.computesOn (hrun : Computes run item) (hend : Ends tokens) :
    ComputesOn run item tokens := fun _ hp => hrun (hend.drop hp)

/-- The tokens of a text end with the end. -/
theorem ends_tokenize (text : String) : Ends (tokenize text) := by
  obtain ⟨init, htokens, _⟩ := Lexer.exists_tokensWithin text.toList.length text.toList
  rw [Ends, tokenize, htokens, List.getLast?_concat]

/-- **Lexing and reading make progress, and come to an end.**  A token takes a character at least, until
there are blanks only; a text has one token more than characters at most, and of these the last alone is
the end.  A value that is read takes a token at least, and never the end.  The cursor, whose loops have
no bound, comes to one outcome from each place in the tokens, and it is that of the reader. -/
theorem progress (text : String) :
    (∀ rest, (Lexer.next? rest = none ∧ ∀ c ∈ rest, Text.isBlank c = true) ∨
      ∃ token taken left, Lexer.next? rest = some (token, left) ∧ token ≠ .eof ∧ taken ≠ [] ∧
        rest = taken ++ left) ∧
    (∀ tokens, Lexer.Lexes text.toList tokens ↔ tokens = tokenize text) ∧
    (tokenize text).length ≤ text.length + 1 ∧
    (∃ init, tokenize text = init ++ [.eof] ∧ .eof ∉ init) ∧
    (∀ outcome, TextRun (tokenize text) outcome ↔ outcome = Value.read text) ∧
    ∀ levels,
      MovesOn (value levels) (tokenize text) ∧
      ComputesOn (ValueRun levels) (value levels) (tokenize text) ∧
      (∀ close, ComputesOn (Loop close (ValueRun levels)) (listUntil close (value levels))
        (tokenize text)) ∧
      ComputesOn (Loop .rightBrace (EntryRun (ValueRun levels)))
        (listUntil .rightBrace (entry (value levels))) (tokenize text) := by
  have hend := ends_tokenize text
  have hlexes : Lexer.Lexes text.toList (tokenize text) := Lexer.lexes_tokens text.toList
  -- what is left to show of the lexer is a case split; the reader inherits it from its levels
  refine ⟨fun rest => ?_, fun _ => Lexer.lexes_iff, hlexes.length_le,
    Lexer.exists_tokensWithin _ _, textRun_iff hend, fun levels => ?_⟩
  · cases hnext : Lexer.next? rest with
    | none => exact .inl ⟨rfl, Lexer.next?_eq_none_iff.1 hnext⟩
    | some first =>
        obtain ⟨token, left⟩ := first
        obtain ⟨taken, hne, hsplit⟩ := Lexer.exists_of_next? hnext
        exact .inr ⟨token, taken, left, rfl, Lexer.ne_eof_of_next? hnext, hne, hsplit⟩
  · have hspends := spends_value levels
    have hvalue := computes_value levels
    have hentries := computes_loop (computes_entry hvalue) (spends_entry levels) .rightBrace
    exact ⟨hspends.movesOn hend, hvalue.computesOn hend,
      fun close => (computes_loop hvalue hspends close).computesOn hend, hentries.computesOn hend⟩

/-- A list that is closed behind a comma, in one that is not closed, with a wrong escape at its end. -/
theorem progress_unterminated :
    let tokens := tokenize "[[1, -2,], \x22\\u12"
    let v := Value.list [.integer 1, .integer (-2)]
    (1 < tokens.length ∧ value 127 (tokens.drop 1) = .ok (v, tokens.drop 8)) ∧
      (∃ q, 1 < q ∧ q < tokens.length ∧ tokens.drop 8 = tokens.drop q) ∧
      ValueRun 127 (tokens.drop 1) (.ok (v, tokens.drop 8)) ∧
      TextRun tokens (.error (.malformed .escape)) := by
  intro tokens v
  obtain ⟨_, _, _, _, htext, hvalue⟩ := progress "[[1, -2,], \x22\\u12"
  obtain ⟨hmoves, hruns, _⟩ := hvalue 127
  have hlength : 1 < tokens.length := by decide +kernel
  have hread : value 127 (tokens.drop 1) = .ok (v, tokens.drop 8) := rfl
  exact ⟨⟨hlength, hread⟩, hmoves 1 v _ hlength hread, (hruns 1 hlength _).2 hread.symm,
    (htext _).2 rfl⟩

end Reader

end Latent
