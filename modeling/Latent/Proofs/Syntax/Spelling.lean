import Latent.Proofs.Syntax.Lexing

/-!
# Spelling and lexing

How tokens are written is said here without a lexer: `IsSpelling` for one token, `IsSpelledOut` for a list of
them with blanks between each two.  The lexer inverts both.  A word and a number go on as long as they
can, but never into a blank (`forall_blank`); marks and strings end by themselves, so that any text at
all may follow a string.
-/

namespace Latent

namespace Text

/-! ## Blanks -/

/-- The code points of a set whose changes come in pairs. -/
def codesOf : List Nat → List Nat
  | first :: past :: changes => List.range' first (past - first) ++ codesOf changes
  | _ => []

/-- The members of a bounded set are listed. -/
theorem mem_codesOf {changes : List Nat} {c : Char} (heven : changes.length % 2 = 0)
    (h : memberOf changes c = true) : c.toNat ∈ codesOf changes := by
  fun_induction codesOf changes with
  | case1 first past changes ih =>
      rw [List.mem_append, List.mem_range'_1]
      unfold memberOf at h
      by_cases hfirst : first ≤ c.toNat
      · by_cases hpast : past ≤ c.toNat
        · -- both changes have happened, which is as if none had
          refine .inr (ih (by simp only [List.length_cons] at heven; omega) ?_)
          simpa only [memberOf, List.takeWhile_cons, hfirst, hpast, decide_true, if_true, List.length_cons,
            Nat.add_assoc, Nat.add_mod_right] using h
        · exact .inl ⟨hfirst, by omega⟩
      · rw [List.takeWhile_cons_of_neg (by simpa using hfirst)] at h
        cases h
  | case2 changes hpair =>
      match changes with
      | [] => cases h
      | [_] => cases heven
      | first :: past :: changes => exact absurd rfl (hpair first past changes)

/-- What holds of twenty-five characters holds of every blank. -/
theorem forall_blank (p : Char → Bool) (h : ((codesOf blankChanges).map Char.ofNat).all p = true)
    {c : Char} (hc : isBlank c = true) : p c = true := by
  have hmem : c.toNat ∈ codesOf blankChanges := mem_codesOf (by decide) hc
  have hp := List.all_eq_true.1 h (Char.ofNat c.toNat) (List.mem_map_of_mem hmem)
  rwa [Char.ofNat_toNat] at hp

end Text

namespace Lexer

/-- Blanks alone. -/
abbrev AllBlank (text : List Char) : Prop := ∀ c ∈ text, Text.isBlank c = true

/-- The end of the text, or a blank. -/
def Separates (rest : List Char) : Prop := EndsRun (fun c => !Text.isBlank c) rest

variable {c : Char} {text rest : List Char} {token : Token} {tokens : List Token}

theorem separates_nil : Separates [] := endsRun_nil _

/-- Blanks separate. -/
theorem separates_append {gap : List Char} (h : AllBlank gap) (hne : gap ≠ []) :
    Separates (gap ++ rest) := by
  obtain ⟨c, gap, rfl⟩ := List.exists_cons_of_ne_nil hne
  exact endsRun_cons (congrArg (!·) (h c List.mem_cons_self))

/-- No blank goes on with a word or a number. -/
theorem ends_of_isBlank (h : Text.isBlank c = true) : (continuesWord c || c = '.') = false := by
  have hends := Text.forall_blank (fun c => !(continuesWord c || c = '.')) (by decide +kernel) h
  rwa [Bool.not_eq_true'] at hends

theorem Separates.delimited (h : Separates rest) : Delimited rest :=
  h.mono fun c hc => by
    cases hblank : Text.isBlank c with
    | false => rfl
    | true =>
        rw [ends_of_isBlank hblank] at hc
        cases hc

/-- What begins a word continues one. -/
theorem continuesWord_of_beginsWord (h : beginsWord c = true) : continuesWord c = true := by
  rcases Bool.or_eq_true_iff.1 h with hletter | hunderscore
  · rw [continuesWord, hletter]
    rfl
  · rw [continuesWord, hunderscore, Bool.or_true]

/-- No blank begins a word. -/
theorem isBlank_of_beginsWord (h : beginsWord c = true) : Text.isBlank c = false := by
  cases hblank : Text.isBlank c with
  | false => rfl
  | true =>
      have hends := ends_of_isBlank hblank
      rw [continuesWord_of_beginsWord h] at hends
      cases hends

/-- Blanks are skipped, however many there are. -/
theorem tokens_blanks {gap : List Char} (h : AllBlank gap) :
    Lexer.tokens (gap ++ rest) = Lexer.tokens rest := by
  induction gap with
  | nil => rfl
  | cons c gap ih =>
      obtain ⟨hc, hgap⟩ := List.forall_mem_cons.1 h
      rw [List.cons_append, tokens_blank hc, ih hgap]

/-! ## Numbers -/

/-- Nothing, or a point and digits. -/
inductive IsFraction : List Char → Prop
  | none : IsFraction []
  | point (digits : List Char) (h : AllDigits digits) : IsFraction ('.' :: digits)

/-- Nothing, or a mark, at most one sign, and digits. -/
inductive IsExponent : List Char → Prop
  | none : IsExponent []
  | power (mark : Char) (sign digits : List Char) (hmark : mark = 'e' ∨ mark = 'E')
      (hsign : sign ∈ [[], ['+'], ['-']]) (h : AllDigits digits) : IsExponent (mark :: (sign ++ digits))

variable {whole fraction exponent : List Char}

/-- An exponent begins with no digit and no point. -/
theorem IsExponent.endsRun (h : IsExponent exponent) (hrest : Separates rest) (p : Char → Bool)
    (hp : ∀ c, p c = true → c.isDigit = true ∨ c = '.') : EndsRun p (exponent ++ rest) := by
  cases h with
  | none =>
      refine hrest.delimited.endsRun fun c hc => ?_
      exact (hp c hc).imp_left continuesWord_digit
  | power mark sign digits hmark _ _ =>
      apply endsRun_cons
      cases hpmark : p mark with
      | false => rfl
      | true =>
          have hcases := hp mark hpmark
          rcases hmark with rfl | rfl <;> exact absurd hcases (by decide)

/-- A fraction is taken up to the exponent or the separator. -/
theorem fractionRun_append (h : IsFraction fraction) (hexponent : IsExponent exponent)
    (hrest : Separates rest) :
    fractionRun (fraction ++ (exponent ++ rest)) = (fraction, exponent ++ rest) := by
  cases h with
  | none => exact fractionRun_none (hexponent.endsRun hrest _ fun _ hc => .inr (of_decide_eq_true hc))
  | point digits h =>
      have hends := hexponent.endsRun hrest Char.isDigit fun _ hc => .inl hc
      rw [List.cons_append, fractionRun, digitRun_append h hends]

/-- Without a sign none is taken. -/
theorem signRun_none (h : EndsRun (fun c => c = '+' ∨ c = '-') text) : signRun text = ([], text) := by
  unfold signRun
  split
  · have hfalse := h '+' rfl
    cases hfalse
  · have hfalse := h '-' rfl
    cases hfalse
  · rfl

/-- A sign is taken, and digits begin with none. -/
theorem signRun_append {sign digits : List Char} (hsign : sign ∈ [[], ['+'], ['-']])
    (h : AllDigits digits) (hrest : Separates rest) : signRun (sign ++ (digits ++ rest)) = (sign, digits ++ rest) := by
  have hplain : EndsRun (fun c => c = '+' ∨ c = '-') (digits ++ rest) := by
    cases digits with
    | nil =>
        refine hrest.mono fun c hc => ?_
        rcases of_decide_eq_true hc with rfl | rfl <;> decide
    | cons d digits =>
        have hd : d.isDigit = true := h d List.mem_cons_self
        exact endsRun_cons (forall_digit (fun d => decide (d = '+' ∨ d = '-') = false) (by decide) hd)
  simp only [List.mem_cons, List.not_mem_nil, or_false] at hsign
  rcases hsign with rfl | rfl | rfl
  · exact signRun_none hplain
  · rfl
  · rfl

/-- An exponent is taken up to the separator. -/
theorem exponentRun_append (h : IsExponent exponent) (hrest : Separates rest) :
    exponentRun (exponent ++ rest) = (exponent, rest) := by
  cases h with
  | none => exact exponentRun_delimited hrest.delimited
  | power mark sign digits hmark hsign h =>
      have hends : EndsRun Char.isDigit rest :=
        hrest.delimited.endsRun fun _ hc => .inl (continuesWord_digit hc)
      rw [List.cons_append, List.append_assoc, exponentRun, if_pos hmark]
      simp only [signRun_append hsign h hrest, digitRun_append h hends]

/-- A number is taken as far as it goes. -/
theorem numberRun_spelled (hwhole : AllDigits whole) (hfraction : IsFraction fraction)
    (hexponent : IsExponent exponent) (hrest : Separates rest) :
    numberRun (whole ++ (fraction ++ (exponent ++ rest))) = (whole ++ (fraction ++ exponent), rest) := by
  have hends : EndsRun Char.isDigit (fraction ++ (exponent ++ rest)) := by
    cases hfraction with
    | none => exact hexponent.endsRun hrest _ fun _ hc => .inl hc
    | point digits _ => exact endsRun_cons (by decide)
  simp only [numberRun, digitRun_append hwhole hends, fractionRun_append hfraction hexponent hrest,
    exponentRun_append hexponent hrest]

/-! ## Tokens -/

/-- The keywords, in both of their spellings. -/
def keywords : List (String × Token) :=
  [("True", .truth true), ("true", .truth true), ("False", .truth false), ("false", .truth false),
   ("None", .null), ("null", .null)]

/-- The keywords are those of the table. -/
theorem ofKeyword?_eq_some_iff {word : String} :
    Token.ofKeyword? word = some token ↔ (word, token) ∈ keywords := by
  unfold Token.ofKeyword? keywords
  split_ifs with htrue hfalse hnull
  · rcases htrue with rfl | rfl <;> simp [eq_comm]
  · rcases hfalse with rfl | rfl <;> simp [eq_comm]
  · rcases hnull with rfl | rfl <;> simp [eq_comm]
  · rw [not_or] at htrue hfalse hnull
    simp [htrue, hfalse, hnull]

/-- The text is a spelling of the token. -/
inductive IsSpelling : Token → List Char → Prop
  | mark (m : Mark) : IsSpelling (.mark m) [m.char]
  | keyword (word : List Char) (token : Token) (h : (String.ofList word, token) ∈ keywords) :
      IsSpelling token word
  | identifier (c : Char) (word : List Char) (hc : Text.isAlphabetic c ∨ c = '_')
      (hword : ∀ d ∈ word, Text.isAlphabetic d ∨ Text.isNumeric d ∨ d = '_')
      (hkey : ∀ token, (String.ofList (c :: word), token) ∉ keywords) :
      IsSpelling (.identifier (String.ofList (c :: word))) (c :: word)
  | number (whole fraction exponent : List Char) (hwhole : AllDigits whole) (hne : whole ≠ [])
      (hfraction : IsFraction fraction) (hexponent : IsExponent exponent) :
      IsSpelling (.number (String.ofList (whole ++ (fraction ++ exponent))))
        (whole ++ (fraction ++ exponent))
  | string (content : List Char) : IsSpelling (.string (String.ofList content)) (Text.quoted content)

/-- A keyword is a word. -/
theorem isWord_of_keyword {word : List Char} (h : (String.ofList word, token) ∈ keywords) :
    isWord word = true := by
  have hall : ∀ keyword ∈ keywords, isWord keyword.1.toList = true := by decide +kernel
  have hword := hall _ h
  rwa [String.toList_ofList] at hword

/-- Letters, digits and underscores that do not begin with a digit are a word. -/
theorem isWord_of_identifier {word : List Char} (hc : Text.isAlphabetic c ∨ c = '_')
    (hword : ∀ d ∈ word, Text.isAlphabetic d ∨ Text.isNumeric d ∨ d = '_') :
    isWord (c :: word) = true := by
  have hbegins : beginsWord c = true := by
    simpa only [beginsWord, Bool.or_eq_true, decide_eq_true_eq] using hc
  have hcontinues : word.all continuesWord = true := List.all_eq_true.2 fun d hd => by
    simpa only [continuesWord, Bool.or_eq_true, decide_eq_true_eq, or_assoc] using hword d hd
  rw [isWord, isBlank_of_beginsWord hbegins, hbegins, hcontinues]
  rfl

/-- **A token is read from its spelling, up to a blank.** -/
theorem tokens_spelled (h : IsSpelling token text) (hrest : Separates rest) :
    Lexer.tokens (text ++ rest) = token :: Lexer.tokens rest := by
  cases h with
  | mark m => exact tokens_mark m rest
  | keyword word token h =>
      rw [tokens_word text (isWord_of_keyword h) hrest.delimited, wordToken, ofKeyword?_eq_some_iff.2 h]
      rfl
  | identifier c word hc hword hkey =>
      have hnone : Token.ofKeyword? (String.ofList (c :: word)) = none :=
        Option.eq_none_iff_forall_ne_some.2 fun token heq => hkey token (ofKeyword?_eq_some_iff.1 heq)
      rw [tokens_word _ (isWord_of_identifier hc hword) hrest.delimited, wordToken, hnone]
      rfl
  | number whole fraction exponent hwhole hne hfraction hexponent =>
      have hrun := numberRun_spelled hwhole hfraction hexponent hrest
      obtain ⟨c, whole, rfl⟩ := List.exists_cons_of_ne_nil hne
      rw [List.append_assoc, List.append_assoc]
      exact tokens_number (hwhole c List.mem_cons_self) hrun
  | string content => exact tokens_quoted content rest

/-! ## Texts -/

/-- Spellings of tokens, with blanks between each two, and perhaps behind the last. -/
inductive IsSpelledOut : List Token → List Char → Prop
  | nil : IsSpelledOut [] []
  | last {token : Token} {text : List Char} (h : IsSpelling token text) : IsSpelledOut [token] text
  | cons {token : Token} {text gap : List Char} {tokens : List Token} {rest : List Char}
      (h : IsSpelling token text) (hgap : AllBlank gap) (hne : gap ≠ []) (hrest : IsSpelledOut tokens rest) :
      IsSpelledOut (token :: tokens) (text ++ (gap ++ rest))

/-- Tokens are read from their spellings. -/
theorem tokens_spelledAll (h : IsSpelledOut tokens text) : Lexer.tokens text = tokens ++ [.eof] := by
  induction h with
  | nil => exact tokens_nil
  | @last token text h =>
      have hread := tokens_spelled h separates_nil
      rwa [List.append_nil] at hread
  | cons h hgap hne _ ih =>
      rw [tokens_spelled h (separates_append hgap hne), tokens_blanks hgap, ih, List.cons_append]

/-- **The lexer inverts spelling.**  Tokens that are written out with blanks between them, and perhaps at
both ends, are read back, with `eof` behind them.  A quoted string is read back whatever follows it. -/
theorem tokenize_spelled {lead : List Char} (hlead : AllBlank lead) (h : IsSpelledOut tokens text) :
    tokenize (String.ofList (lead ++ text)) = tokens ++ [.eof] ∧
    ∀ content rest : List Char, tokenize (String.ofList (Text.quoted content ++ rest))
      = .string (String.ofList content) :: tokenize (String.ofList rest) := by
  refine ⟨?_, fun content rest => ?_⟩
  · rw [tokenize, String.toList_ofList]
    exact (tokens_blanks hlead).trans (tokens_spelledAll h)
  · rw [tokenize, tokenize, String.toList_ofList, String.toList_ofList]
    exact tokens_quoted content rest

/-- One token of each class, with a tab, a line end and an ideographic space among the blanks. -/
theorem tokenize_spelled_classes :
    let lead := [' ', '\t']
    let tokens : List Token := [.identifier "Über_9", .mark .minus, .number "1.50E+3", .truth true,
      .null, .string "'\x22\x01"]
    let text := ("Über_9".toList ++ (['\n'] ++ (['-'] ++ ([' '] ++ ("1.50E+3".toList ++ (['\u3000', ' '] ++
      ("true".toList ++ ([' '] ++ ("None".toList ++ ([' '] ++
        (Text.quoted "'\x22\x01".toList ++ (['\r', '\n'] ++ []))))))))))))
    AllBlank lead ∧ IsSpelledOut tokens text ∧
    tokenize (String.ofList (lead ++ text)) = tokens ++ [.eof] ∧
    ∀ content rest : List Char, tokenize (String.ofList (Text.quoted content ++ rest))
      = .string (String.ofList content) :: tokenize (String.ofList rest) := by
  intro lead tokens text
  have hblank {gap : List Char} (h : gap.all Text.isBlank = true) : AllBlank gap := List.all_eq_true.1 h
  have hdigits {run : List Char} (h : run.all Char.isDigit = true) : AllDigits run := List.all_eq_true.1 h
  have hword : ∀ d ∈ "ber_9".toList, Text.isAlphabetic d ∨ Text.isNumeric d ∨ d = '_' := by
    have hcontinues : "ber_9".toList.all continuesWord = true := by decide +kernel
    intro d hd
    have hd := List.all_eq_true.1 hcontinues d hd
    simpa only [continuesWord, Bool.or_eq_true, decide_eq_true_eq, or_assoc] using hd
  have hlead : AllBlank lead := hblank (by decide)
  have hspelled : IsSpelledOut tokens text := by
    refine .cons (.identifier 'Ü' "ber_9".toList (by decide +kernel) hword ?_)
      (hblank (by decide)) (by decide) ?_
    · intro token h
      simp [keywords] at h
    refine .cons (.mark .minus) (hblank (by decide)) (by decide) ?_
    refine .cons (.number ['1'] ".50".toList "E+3".toList (hdigits (by decide)) (by decide)
      (.point "50".toList (hdigits (by decide)))
      (.power 'E' ['+'] ['3'] (.inr rfl) (by decide) (hdigits (by decide))))
      (hblank (by decide)) (by decide) ?_
    refine .cons (.keyword "true".toList (.truth true) (by decide)) (hblank (by decide)) (by decide) ?_
    refine .cons (.keyword "None".toList .null (by decide)) (hblank (by decide)) (by decide) ?_
    exact .cons (.string "'\x22\x01".toList) (hblank (by decide)) (by decide) .nil
  exact ⟨hlead, hspelled, tokenize_spelled hlead hspelled⟩

end Lexer

end Latent
