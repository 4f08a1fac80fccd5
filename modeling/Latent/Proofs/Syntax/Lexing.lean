import Latent.Proofs.Syntax.Numerals

/-!
# Lexing, a token at a time

A token leaves less text than it was taken from, so the number of characters is fuel enough and the
tokens of a text are its first token and those of the rest (`tokens_cons`).  A word or a numeral ends
where `Delimited` says; marks and strings end by themselves.
-/

namespace Latent

namespace Lexer

/-! ## Progress -/

/-- What follows a string is the end of its text. -/
theorem stringRun_suffix (quote : Char) (text : List Char) : (stringRun quote text).2 <:+ text := by
  fun_induction stringRun quote text with
  | case1 | case2 => exact List.nil_suffix
  | case3 a b c d rest char hchar ih =>
      have hescape : rest <:+ '\\' :: 'u' :: a :: b :: c :: d :: rest :=
        List.suffix_append ['\\', 'u', a, b, c, d] rest
      exact ih.trans hescape
  | case4 | case5 => exact (List.drop_suffix _ _).trans (List.suffix_cons _ _)
  | case6 c rest hne ih =>
      have hescape : rest <:+ '\\' :: c :: rest := List.suffix_append ['\\', c] rest
      exact ih.trans hescape
  | case7 => exact List.suffix_cons _ _
  | case8 c rest _ _ _ hne ih => exact ih.trans (List.suffix_cons _ _)

/-- A fraction is taken from the front. -/
theorem fractionRun_suffix (text : List Char) : (fractionRun text).2 <:+ text := by
  unfold fractionRun
  split
  · exact (List.dropWhile_suffix _).trans (List.suffix_cons _ _)
  · exact List.suffix_rfl

/-- So is a sign. -/
theorem signRun_suffix (text : List Char) : (signRun text).2 <:+ text := by
  unfold signRun
  split
  · exact List.suffix_cons _ _
  · exact List.suffix_cons _ _
  · exact List.suffix_rfl

/-- So is an exponent. -/
theorem exponentRun_suffix (text : List Char) : (exponentRun text).2 <:+ text := by
  cases text with
  | nil => exact List.suffix_rfl
  | cons c text =>
      rw [exponentRun]
      split
      · exact ((List.dropWhile_suffix _).trans (signRun_suffix text)).trans (List.suffix_cons _ _)
      · exact List.suffix_rfl

/-- A numeral takes its first digit at least. -/
theorem numberRun_suffix {c : Char} (hc : c.isDigit = true) (text : List Char) :
    (numberRun (c :: text)).2 <:+ text := by
  have hwhole : (digitRun (c :: text)).2 = text.dropWhile Char.isDigit :=
    List.dropWhile_cons_of_pos hc
  have hdigits : (digitRun (c :: text)).2 <:+ text := by
    rw [hwhole]
    exact List.dropWhile_suffix _
  exact ((exponentRun_suffix _).trans (fractionRun_suffix _)).trans hdigits

/-- A token takes its first character at least. -/
theorem tokenAt_suffix (c : Char) (rest : List Char) : (tokenAt c rest).2 <:+ rest := by
  unfold tokenAt
  split
  · exact List.suffix_rfl
  · split
    · exact stringRun_suffix c rest
    · split
      · exact List.dropWhile_suffix _
      · split
        · rename_i hdigit
          exact numberRun_suffix hdigit rest
        · exact List.suffix_rfl

/-- Less text is left than there was: its end, without the character that begins the token. -/
theorem exists_of_next? {text rest : List Char} {token : Token} (h : next? text = some (token, rest)) :
    ∃ taken, taken ≠ [] ∧ text = taken ++ rest := by
  have hblank := List.takeWhile_append_dropWhile (p := Text.isBlank) (l := text)
  unfold next? at h
  split at h
  · cases h
  · rename_i c following heq
    obtain ⟨taken, htaken⟩ := tokenAt_suffix c following
    rw [Option.some.inj h] at htaken
    refine ⟨text.takeWhile Text.isBlank ++ c :: taken, by simp, ?_⟩
    rw [List.append_assoc, List.cons_append, htaken, ← heq, hblank]

/-- A token takes at least a character. -/
theorem length_lt_of_next? {text rest : List Char} {token : Token}
    (h : next? text = some (token, rest)) : rest.length < text.length := by
  obtain ⟨taken, hne, rfl⟩ := exists_of_next? h
  have hpos := List.length_pos_iff.2 hne
  rw [List.length_append]
  omega

/-! ## The tokens of a text -/

/-- The tokens of a text, and `eof`. -/
def tokens (text : List Char) : List Token := tokensWithin text.length text

/-- As many tokens as there are characters are enough. -/
theorem tokensWithin_eq_tokensWithin {text : List Char} {m n : Nat} (hm : text.length ≤ m)
    (hn : text.length ≤ n) : tokensWithin m text = tokensWithin n text := by
  -- A token leaves a shorter text, so either fuel lasts until the text is empty.
  induction m generalizing n text with
  | zero =>
      rw [List.length_eq_zero_iff.1 (Nat.le_zero.1 hm)]
      cases n <;> rfl
  | succ m ih =>
      cases n with
      | zero =>
          rw [List.length_eq_zero_iff.1 (Nat.le_zero.1 hn)]
          rfl
      | succ n =>
          rw [tokensWithin, tokensWithin]
          cases hnext : next? text with
          | none => rfl
          | some first =>
              obtain ⟨token, rest⟩ := first
              have hrest := length_lt_of_next? hnext
              show token :: tokensWithin m rest = token :: tokensWithin n rest
              rw [ih (n := n) (by omega) (by omega)]

/-- The tokens are the first one and those of what follows it. -/
theorem tokens_of_next? {text rest : List Char} {token : Token}
    (h : next? text = some (token, rest)) : tokens text = token :: tokens rest := by
  have hrest := length_lt_of_next? h
  have hfuel : text.length = (text.length - 1) + 1 := by omega
  rw [tokens, hfuel, tokensWithin, h]
  show token :: tokensWithin (text.length - 1) rest = _
  rw [tokensWithin_eq_tokensWithin (n := rest.length) (by omega) le_rfl, tokens]

/-- Without text there is the end alone. -/
theorem tokens_nil : tokens [] = [.eof] := rfl

variable {c : Char} {text rest : List Char}

/-- Blanks are no tokens. -/
theorem tokens_blank (h : Text.isBlank c = true) : tokens (c :: rest) = tokens rest := by
  have hnext : next? (c :: rest) = next? rest := by
    rw [next?, next?, List.dropWhile_cons_of_pos h]
  rw [tokens, List.length_cons, tokensWithin, hnext]
  cases hrest : next? rest with
  | none =>
      cases rest with
      | nil => rfl
      | cons d rest => rw [tokens, List.length_cons, tokensWithin, hrest]
  | some first =>
      obtain ⟨token, following⟩ := first
      have hlength := length_lt_of_next? hrest
      rw [tokens_of_next? hrest]
      show token :: tokensWithin rest.length following = _
      rw [tokensWithin_eq_tokensWithin (n := following.length) (by omega) le_rfl, tokens]

theorem tokens_space (rest : List Char) : tokens (' ' :: rest) = tokens rest :=
  tokens_blank (by decide)

/-- **The first token of a text, and those of what it leaves.** -/
theorem tokens_cons (h : Text.isBlank c = false) :
    tokens (c :: rest) = (tokenAt c rest).1 :: tokens (tokenAt c rest).2 := by
  apply tokens_of_next?
  rw [next?, List.dropWhile_cons_of_neg (by simp [h])]

/-! ## The end of the tokens -/

/-- No word is the end of the text. -/
theorem wordToken_ne_eof (word : List Char) : wordToken word ≠ .eof := by
  unfold wordToken Token.ofKeyword?
  split
  · exact Token.noConfusion
  · split
    · exact Token.noConfusion
    · split <;> exact Token.noConfusion

/-- No character begins the end. -/
theorem tokenAt_ne_eof (c : Char) (rest : List Char) : (tokenAt c rest).1 ≠ .eof := by
  unfold tokenAt
  split
  · exact Token.noConfusion
  · split
    · show stringToken (stringRun c rest).1 ≠ .eof
      cases (stringRun c rest).1 <;> exact Token.noConfusion
    · split
      · exact wordToken_ne_eof _
      · split <;> exact Token.noConfusion

/-- No token that is taken is the end of the text. -/
theorem ne_eof_of_next? {text rest : List Char} {token : Token}
    (h : next? text = some (token, rest)) : token ≠ .eof := by
  unfold next? at h
  split at h
  · cases h
  · rename_i c following _
    have htoken := tokenAt_ne_eof c following
    rwa [Option.some.inj h] at htoken

/-- The tokens of a text end with `eof`, and only there. -/
theorem exists_tokensWithin (fuel : Nat) (text : List Char) :
    ∃ init, tokensWithin fuel text = init ++ [.eof] ∧ .eof ∉ init := by
  induction fuel generalizing text with
  | zero => exact ⟨[], rfl, List.not_mem_nil⟩
  | succ fuel ih =>
      rw [tokensWithin]
      cases hnext : next? text with
      | none => exact ⟨[], rfl, List.not_mem_nil⟩
      | some first =>
          obtain ⟨token, rest⟩ := first
          obtain ⟨init, hinit, hmem⟩ := ih rest
          refine ⟨token :: init, congrArg (token :: ·) hinit, ?_⟩
          rw [List.mem_cons, not_or]
          exact ⟨(ne_eof_of_next? hnext).symm, hmem⟩

/-! ## Marks -/

theorem ofChar?_char (m : Mark) : Mark.ofChar? m.char = some m := by
  cases m <;> rfl

/-- A mark is a token of its own, whatever follows. -/
theorem tokens_mark (m : Mark) (rest : List Char) :
    tokens (m.char :: rest) = .mark m :: tokens rest := by
  have hblank : Text.isBlank m.char = false := by cases m <;> decide
  rw [tokens_cons hblank, tokenAt, ofChar?_char]

/-! ## Words and numerals -/

/-- Here a word and a numeral end. -/
def Delimited (rest : List Char) : Prop := EndsRun (fun c => continuesWord c || c = '.') rest

theorem delimited_nil : Delimited [] := endsRun_nil _

/-- No mark goes on with a word or a numeral. -/
theorem delimited_mark (m : Mark) (rest : List Char) : Delimited (m.char :: rest) :=
  endsRun_cons (by cases m <;> decide)

/-- No run goes on where a word or a numeral does not. -/
theorem Delimited.endsRun {p : Char → Bool} (h : Delimited rest)
    (hp : ∀ c, p c = true → continuesWord c = true ∨ c = '.') : EndsRun p rest :=
  h.mono fun c hc => by
    rcases hp c hc with hword | hpoint
    · rw [hword, Bool.true_or]
    · rw [decide_eq_true hpoint, Bool.or_true]

/-- A character that begins a word, and others that go on with it. -/
def isWord : List Char → Bool
  | [] => false
  | c :: word => !Text.isBlank c && (beginsWord c && word.all continuesWord)

/-- A word begins with no mark. -/
theorem ofChar?_of_beginsWord (h : beginsWord c = true) : Mark.ofChar? c = none := by
  cases hmark : Mark.ofChar? c with
  | none => rfl
  | some m =>
      have hfind := List.find?_some (p := fun mark : Mark => decide (mark.char = c)) hmark
      have hc : m.char = c := of_decide_eq_true hfind
      rw [← hc] at h
      cases m <;> exact absurd h (by decide)

/-- A word begins with no quote. -/
theorem isQuote_of_beginsWord (h : beginsWord c = true) : isQuote c = false := by
  cases hquote : isQuote c with
  | false => rfl
  | true =>
      simp only [isQuote, Bool.or_eq_true, decide_eq_true_eq] at hquote
      rcases hquote with rfl | rfl <;> exact absurd h (by decide)

/-- A word is a token as far as it goes. -/
theorem tokens_word (word : List Char) (hword : isWord word = true) (hrest : Delimited rest) :
    tokens (word ++ rest) = wordToken word :: tokens rest := by
  cases word with
  | nil => cases hword
  | cons c word =>
      simp only [isWord, Bool.and_eq_true, Bool.not_eq_true', List.all_eq_true] at hword
      obtain ⟨hblank, hc, hword⟩ := hword
      have hends : EndsRun continuesWord rest := hrest.endsRun fun _ h => .inl h
      rw [List.cons_append, tokens_cons hblank, tokenAt, ofChar?_of_beginsWord hc]
      simp only [isQuote_of_beginsWord hc, hc, takeWhile_append hword hends,
        dropWhile_append hword hends]
      rfl

/-- A digit continues a word. -/
theorem continuesWord_digit {d : Char} (h : d.isDigit = true) : continuesWord d = true :=
  forall_digit (fun d => continuesWord d = true) (by decide) h

/-- A run of digits is taken up to its end. -/
theorem digitRun_append {run : List Char} (h : AllDigits run) (hrest : EndsRun Char.isDigit rest) :
    digitRun (run ++ rest) = (run, rest) :=
  Prod.ext (takeWhile_append h hrest) (dropWhile_append h hrest)

/-- Without a point there is no fraction. -/
theorem fractionRun_none (h : EndsRun (· = '.') rest) : fractionRun rest = ([], rest) := by
  unfold fractionRun
  split
  · have hfalse := h '.' rfl
    cases hfalse
  · rfl

/-- Where a numeral ends there is no fraction. -/
theorem fractionRun_delimited (h : Delimited rest) : fractionRun rest = ([], rest) :=
  fractionRun_none (h.endsRun fun _ hc => .inr (of_decide_eq_true hc))

/-- Nor is there an exponent. -/
theorem exponentRun_delimited (h : Delimited rest) : exponentRun rest = ([], rest) := by
  have hmark := h.endsRun (p := fun c => c = 'e' ∨ c = 'E') fun c hc => by
    rcases of_decide_eq_true hc with rfl | rfl <;> exact .inl (by decide)
  cases rest with
  | nil => rfl
  | cons c rest => rw [exponentRun, if_neg (of_decide_eq_false (hmark c rfl))]

/-- A numeral is taken as far as it goes. -/
theorem numberRun_append (h : IsNumeral text) (hrest : Delimited rest) :
    numberRun (text ++ rest) = (text, rest) := by
  have hends : EndsRun Char.isDigit rest := hrest.endsRun fun _ h => .inl (continuesWord_digit h)
  -- behind the digits there is neither a point nor an exponent to go on with
  cases h with
  | whole text h _ =>
      simp only [numberRun, digitRun_append h hends, fractionRun_delimited hrest,
        exponentRun_delimited hrest, List.append_nil]
  | point whole fraction h _ hfraction =>
      have hpoint : EndsRun Char.isDigit ('.' :: (fraction ++ rest)) := endsRun_cons (by decide)
      have hplaces : fractionRun ('.' :: (fraction ++ rest)) = ('.' :: fraction, rest) := by
        rw [fractionRun, digitRun_append hfraction hends]
      rw [List.append_assoc, List.cons_append]
      simp only [numberRun, digitRun_append h hpoint, hplaces, exponentRun_delimited hrest,
        List.append_nil]

/-- A digit begins a number, and the number is one token. -/
theorem tokens_number {run : List Char} (hc : c.isDigit = true) (hrun : numberRun (c :: text) = (run, rest)) :
    tokens (c :: text) = .number (String.ofList run) :: tokens rest := by
  have hblank : Text.isBlank c = false :=
    forall_digit (fun c => Text.isBlank c = false) (by decide) hc
  have hmark : Mark.ofChar? c = none :=
    forall_digit (fun c => Mark.ofChar? c = none) (by decide) hc
  have hquote : isQuote c = false := forall_digit (fun c => isQuote c = false) (by decide) hc
  have hword : beginsWord c = false := forall_digit (fun c => beginsWord c = false) (by decide) hc
  rw [tokens_cons hblank, tokenAt, hmark]
  simp only [hquote, hword, hc, hrun]
  rfl

/-- A numeral is one token. -/
theorem tokens_numeral (h : IsNumeral text) (hrest : Delimited rest) :
    tokens (text ++ rest) = .number (String.ofList text) :: tokens rest := by
  obtain ⟨c, following, rfl, hc⟩ := h.exists_cons
  exact tokens_number hc (numberRun_append h hrest)

/-! ## Strings -/

/-- An escaped character is read as that character. -/
theorem stringRun_escaped (c : Char) (rest : List Char) :
    stringRun '"' (Text.escaped c ++ rest) = (stringRun '"' rest).prepend c := by
  unfold Text.escaped
  -- seven letters of their own, the digits of a code point, and the character itself
  split_ifs with hquote hslash hback hfeed hline hreturn htab hcontrol
  · rw [hquote]; rfl
  · rw [hslash]; rfl
  · rw [hback]; rfl
  · rw [hfeed]; rfl
  · rw [hline]; rfl
  · rw [hreturn]; rfl
  · rw [htab]; rfl
  · have hcode := Text.hex4?_control c.toNat hcontrol
    show stringRun '"' ('\\' :: 'u' :: '0' :: '0' :: Nat.digitChar (c.toNat / 16) ::
      Nat.digitChar (c.toNat % 16) :: rest) = _
    simp only [stringRun, hcode, Option.bind_some, Text.charOfCode?_toNat]
  · show stringRun '"' (c :: rest) = _
    rw [stringRun]
    · exact if_neg hquote
    · simp [hslash]
    · simp [hslash]
    · simp [hslash]

/-- An escaped text is taken up to its closing quote, as the text itself. -/
theorem stringRun_quoted (content rest : List Char) :
    stringRun '"' (content.flatMap Text.escaped ++ '"' :: rest) = (.ok content, rest) := by
  induction content with
  | nil => rfl
  | cons c content ih =>
      rw [List.flatMap_cons, List.append_assoc, stringRun_escaped, ih]
      rfl

/-- Quoted text is one token. -/
theorem tokens_quoted (content rest : List Char) :
    tokens (Text.quoted content ++ rest) = .string (String.ofList content) :: tokens rest := by
  have hrun := stringRun_quoted content rest
  have htext : Text.quoted content ++ rest
      = '"' :: (content.flatMap Text.escaped ++ '"' :: rest) := by
    rw [Text.quoted, List.cons_append, List.append_assoc, List.singleton_append]
  rw [htext, tokens_cons (by decide)]
  show stringToken (stringRun '"' _).1 :: tokens (stringRun '"' _).2 = _
  rw [hrun]
  rfl

end Lexer

end Latent
