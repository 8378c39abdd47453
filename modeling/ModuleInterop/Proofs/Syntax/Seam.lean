import ModuleInterop.Proofs.Syntax.Lexer

/-!
# Where tokens part

Two tokens of a text without problems never run together: where one ends or the next one begins, no
letter follows a word character (`Parted`).  A name or a number goes on as long as it can, other tokens
end with a mark, and so do blanks and comments.  A word is read to its end, too, and the word characters
that no name can have are refused where they stand.  So in a text without problems no word character
touches a word on either side (`Span.Alone`).
-/

set_option autoImplicit false

namespace ModuleInterop.Syntax

open ModuleInterop.Text

variable {source : List Char} {pos : Nat} {text rest before after : List Char}

/-! ## Characters -/

/-- What may continue a name ahead of what begins one, and letters ahead of both. -/
theorem isIdentifierPart_of_start {c : Char} (start : isIdentifierStart c = true) :
    isIdentifierPart c = true := by
  unfold isIdentifierPart
  split
  · rename_i ascii
    simp only [isIdentifierStart, ascii, ↓reduceIte] at start
    simp [isAsciiIdentifierPart, start]
  · simp [start]

theorem isAlpha_of_noStart {c : Char} (no : isIdentifierStart c = false) : c.isAlpha = false := by
  cases letter : c.isAlpha with
  | false => rfl
  | true =>
    have ascii : c.toNat < 0x80 := lt_of_isAlpha letter
    simp [isIdentifierStart, isAsciiIdentifierStart, ascii, letter] at no

theorem isAlpha_of_noPart {c : Char} (no : isIdentifierPart c = false) : c.isAlpha = false := by
  apply isAlpha_of_noStart
  cases start : isIdentifierStart c with
  | false => rfl
  | true =>
    rw [isIdentifierPart_of_start start] at no
    contradiction

theorem isAlpha_of_noAsciiPart {c : Char} (no : isAsciiIdentifierPart c = false) :
    c.isAlpha = false := by
  simp [isAsciiIdentifierPart, isAsciiIdentifierStart] at no
  exact no.1.1.1

/-- Neither blanks nor line ends are part of a word. -/
theorem isWordChar_of_blank {c : Char} (blank : (isLineEnd c || isSpace c) = true) :
    isWordChar c = false := by
  have code : c.toNat ∈ [0xA, 0xD, 0x2028, 0x2029, 0x20, 9, 0xB, 0xC, 0xA0, 0xFEFF, 0x85, 0x1680, 0x2000,
      0x2001, 0x2002, 0x2003, 0x2004, 0x2005, 0x2006, 0x2007, 0x2008, 0x2009, 0x200A, 0x200B, 0x202F,
      0x205F, 0x3000] := by
    simp only [isLineEnd, isSpace, Bool.or_eq_true, beq_iff_eq, Bool.and_eq_true,
      decide_eq_true_eq] at blank
    simp only [List.mem_cons, List.not_mem_nil, or_false]
    rcases blank with (((rfl | rfl) | is) | is) | is
    · exact .inl rfl
    · exact .inr (.inl rfl)
    all_goals omega
  have none : ∀ n ∈ [0xA, 0xD, 0x2028, 0x2029, 0x20, 9, 0xB, 0xC, 0xA0, 0xFEFF, 0x85, 0x1680, 0x2000,
      0x2001, 0x2002, 0x2003, 0x2004, 0x2005, 0x2006, 0x2007, 0x2008, 0x2009, 0x200A, 0x200B, 0x202F,
      0x205F, 0x3000], isWordChar (Char.ofNat n) = false := by decide +kernel
  have known := none _ code
  rwa [Char.ofNat_toNat] at known

/-! ## Two texts side by side -/

/-- No letter follows a word character between two texts. -/
def Parted (before after : List Char) : Prop :=
  ∀ c ∈ before.getLast?, ∀ d ∈ after.head?, isWordChar c = true → d.isAlpha = false

theorem parted_of_head (other : ∀ d ∈ after.head?, d.isAlpha = false) : Parted before after :=
  fun _ _ d mem _ => other d mem

theorem parted_concat {c : Char} (other : isWordChar c = false) : Parted (before ++ [c]) after := by
  intro d mem _ _ inWord
  have same : c = d := by simpa using mem
  rw [← same, other] at inWord
  contradiction

/-- What is left of a text at a position does not go on a word there. -/
def PartedAt (source : List Char) (n : Nat) (rest : List Char) : Prop :=
  rest = [] ∨ ∃ before, source = before ++ rest ∧ byteLength before = n ∧ Parted before rest

theorem PartedAt.of_head (h : LeftAt source pos rest) (other : ∀ d ∈ rest.head?, d.isAlpha = false) :
    PartedAt source pos rest := by
  rcases h with ⟨rfl, -⟩ | ⟨before, whole, length⟩
  · exact .inl rfl
  · exact .inr ⟨before, whole, length, parted_of_head other⟩

theorem PartedAt.of_last {c : Char} (h : LeftAt source pos (c :: rest)) (other : isWordChar c = false) :
    PartedAt source (pos + c.utf8Size) rest := by
  rcases h with ⟨none, -⟩ | ⟨before, whole, length⟩
  · contradiction
  · refine .inr ⟨before ++ [c], by simp [whole], ?_, parted_concat other⟩
    simp [byteLength_append, byteLength, length]

/-- A mark of one byte ends what stands before it. -/
theorem PartedAt.of_mark {c : Char} (h : LeftAt source pos (c :: rest)) (ascii : c.toNat < 128)
    (other : isWordChar c = false) : PartedAt source (pos + 1) rest := by
  have parted := PartedAt.of_last h other
  rwa [utf8Size_of_lt ascii] at parted

theorem PartedAt.whole (source : List Char) : PartedAt source 0 source :=
  .inr ⟨[], rfl, rfl, fun _ mem => absurd mem (by simp)⟩

/-! ## What ends a token -/

/-- Blanks and comments end where no word can go on. -/
theorem parted_skipTrivia {mode : TriviaMode} {newline : Bool} (h : LeftAt source pos text)
    (begins : mode = .blank → PartedAt source pos text) :
    PartedAt source (skipTrivia mode newline pos text).pos
      (skipTrivia mode newline pos text).rest := by
  fun_induction skipTrivia mode newline pos text with
  | case1 | case2 | case3 => exact .inl rfl
  | case4 newline pos text ih | case5 newline pos text ih =>
    exact ih ((Ahead.here h).tail_two (by decide) (by decide)).stands fun other => by cases other
  | case6 newline pos c text _ _ ends ih =>
    exact ih h.tail fun _ => .of_last h (isWordChar_of_blank (by simp [ends]))
  | case7 newline pos c text _ _ _ blank ih =>
    exact ih h.tail fun _ => .of_last h (isWordChar_of_blank (by simp [blank]))
  | case8 => exact begins rfl
  | case9 newline pos c text ends ih =>
    exact ih h.tail fun _ => .of_last h (isWordChar_of_blank (by simp [ends]))
  | case10 newline pos c text _ ih => exact ih h.tail fun other => by cases other
  | case11 start newline pos text ih =>
    have slash := (Ahead.here h).tail_one (by decide)
    exact ih (slash.tail_one (by decide)).stands fun _ =>
      PartedAt.of_mark slash.stands (by decide) (by decide)
  | case12 start newline pos c text _ ih => exact ih h.tail fun other => by cases other

/-- A name is read as far as it goes. -/
theorem scanName_ends {mode : NameMode} {read : List Char} {escaped : Bool}
    (fine : (scanName mode read escaped pos text).problem = none)
    (some : (scanName mode read escaped pos text).name ≠ []) :
    ∀ d ∈ (scanName mode read escaped pos text).rest.head?, isIdentifierPart d = false := by
  fun_induction scanName mode read escaped pos text <;> simp_all [fitsName]

/-- A text has been read up to a position. -/
def Taken (text : List Char) (pos : Nat) (rest : List Char) (stop : Nat) : Prop :=
  ∃ inside, text = inside ++ rest ∧ pos + byteLength inside = stop

theorem Taken.here : Taken text pos text pos := ⟨[], rfl, rfl⟩

theorem Taken.cons {c : Char} {stop : Nat} (h : Taken text (pos + c.utf8Size) rest stop) :
    Taken (c :: text) pos rest stop := by
  obtain ⟨inside, rfl, rfl⟩ := h
  exact ⟨c :: inside, rfl, by simp [byteLength, Nat.add_assoc]⟩

theorem Taken.cons_one {c : Char} {stop : Nat} (h : Taken text (pos + 1) rest stop)
    (ascii : c.toNat < 128) : Taken (c :: text) pos rest stop :=
  .cons (by rwa [utf8Size_of_lt ascii])

theorem taken_scanName (mode : NameMode) (read : List Char) (escaped : Bool) :
    Taken text pos (scanName mode read escaped pos text).rest
      (scanName mode read escaped pos text).pos := by
  fun_induction scanName mode read escaped pos text <;>
    grind [Taken.here, Taken.cons, Taken.cons_one, lt_of_isHexDigit]

section Numbers

/-- Behind a numeral without problems no name begins. -/
def NumberScan.Ends (scan : NumberScan) : Prop :=
  scan.problems = [] → ∀ d ∈ scan.rest.head?, isIdentifierStart d = false

theorem endNumber_ends (kind : TokenKind) (problems : List Problem) :
    (endNumber kind problems pos text).Ends := by
  unfold NumberScan.Ends
  fun_cases endNumber kind problems pos text <;> simp_all

theorem scanExponent_ends (described : String) (whole fraction : List Char)
    (problems : List Problem) : (scanExponent described whole fraction problems pos text).Ends := by
  unfold scanExponent
  dsimp only
  split <;> exact endNumber_ends _ _

theorem scanFraction_ends (whole : List Char) (problems : List Problem) :
    (scanFraction whole problems pos text).Ends := by
  unfold scanFraction
  dsimp only
  repeat' split
  all_goals exact scanExponent_ends _ _ _ _

theorem scanAfterDigits_ends (whole : List Char) (problems : List Problem) :
    (scanAfterDigits whole problems pos text).Ends := by
  unfold scanAfterDigits
  split
  · exact scanFraction_ends _ _
  · exact endNumber_ends _ _
  · exact scanExponent_ends _ _ _ _

theorem scanBased_ends (base : Nat) (described : String) (isDigit : Char → Bool) :
    (scanBased base described isDigit pos text).Ends := by
  unfold scanBased
  dsimp only
  split
  · exact fun fine => nomatch fine
  · split <;> exact endNumber_ends _ _

theorem scanOldOctal_ends : (scanOldOctal pos text).Ends := by
  unfold scanOldOctal
  dsimp only
  split
  · exact endNumber_ends _ _
  · split
    · exact scanFraction_ends _ _
    · exact scanExponent_ends _ _ _ _
    · exact endNumber_ends _ _

theorem scanNumber_ends : (scanNumber pos text).Ends := by
  unfold scanNumber
  dsimp only
  split
  · exact scanExponent_ends _ _ _ _
  · repeat' split
    · exact scanBased_ends _ _ _
    · exact scanBased_ends _ _ _
    · exact scanBased_ends _ _ _
    · exact scanOldOctal_ends
    · exact scanAfterDigits_ends _ _
  · exact scanAfterDigits_ends _ _

end Numbers

/-- A text that has been read to its end stops with a mark. -/
theorem scanText_ends {style : TextStyle} {state : TextState} (h : LeftAt source pos text)
    (marks : ∀ quote, style = .quoted quote → quote.toNat < 128 ∧ isWordChar quote = false)
    (ended : (scanText style state pos text).ending ≠ .broken) :
    PartedAt source (scanText style state pos text).pos (scanText style state pos text).rest := by
  fun_induction scanText style state pos text with
  | case1 => contradiction
  | case2 state pos c text state' step ih => exact ih h.tail ended
  | case3 state pos c text state' step =>
    have mark : c.toNat < 128 ∧ isWordChar c = false := by
      rcases closes_with step with quoted | backtick
      · exact marks c quoted
      · obtain rfl : c = Char.ofNat 0x60 := Char.toNat_inj.mp backtick
        exact ⟨by decide, by decide⟩
    exact .of_mark h mark.1 mark.2
  | case4 state pos c text state' step =>
    obtain ⟨rfl, after, rfl⟩ := begins_with step
    exact .of_mark ((Ahead.here h).tail_one (by decide)).stands (by decide) (by decide)
  | case5 => contradiction

theorem scanRegexFlags_ends (seen : List Char) :
    ∀ d ∈ (scanRegexFlags seen pos text).1.head?, isAsciiIdentifierPart d = false := by
  fun_induction scanRegexFlags seen pos text <;> simp_all

theorem Punct.text_ends (p : Punct) :
    ∃ before c, p.text.toList = before ++ [c] ∧ isWordChar c = false := by
  cases p <;> first
    | exact ⟨[], _, rfl, by decide⟩
    | exact ⟨[_], _, rfl, by decide⟩
    | exact ⟨[_, _], _, rfl, by decide⟩
    | exact ⟨[_, _, _], _, rfl, by decide⟩

theorem Punct.text_ascii (p : Punct) : ∀ c ∈ p.text.toList, c.toNat < 128 := by
  cases p <;> simp [Punct.text]

/-! ## Tokens -/

theorem pushCodePoint?_ne_nil {read read' : List Char} {value : Nat}
    (pushed : pushCodePoint? read value = some read') : read' ≠ [] := by
  unfold pushCodePoint? at pushed
  split at pushed
  · exact Option.some.inj pushed ▸ List.cons_ne_nil _ _
  · contradiction

/-- A name of which a part has been read, or an escape has begun, is not empty. -/
theorem scanName_name_ne_nil {mode : NameMode} {read : List Char} {escaped : Bool}
    (begun : mode = .plain → read ≠ [])
    (fine : (scanName mode read escaped pos text).problem = none) :
    (scanName mode read escaped pos text).name ≠ [] := by
  fun_induction scanName mode read escaped pos text <;>
    grind [pushCodePoint?_ne_nil, List.reverse_eq_nil_iff]

/-- A word is not empty. -/
theorem scanName_word_ne_nil {c : Char} (begins : (isIdentifierStart c || c = '\\') = true)
    (fine : (scanName .plain [] false pos (c :: text)).problem = none) :
    (scanName .plain [] false pos (c :: text)).name ≠ [] := by
  by_cases slash : c = '\\'
  · rw [scanName, if_pos slash] at fine ⊢
    exact scanName_name_ne_nil (by simp) fine
  · have fits : fitsName [] c = true := by simpa [fitsName, slash] using begins
    rw [scanName, if_neg slash, if_pos fits] at fine ⊢
    exact scanName_name_ne_nil (by simp) fine

/-- A punctuator ends with a mark. -/
theorem parted_punct {p : Punct} (h : LeftAt source pos text) (read : Punct.read? text = some p)
    (stands : LeftAt source (pos + p.text.length) (text.drop p.text.length)) :
    PartedAt source (pos + p.text.length) (text.drop p.text.length) := by
  obtain ⟨rest, rfl⟩ := Punct.read?_eq_some read
  obtain ⟨front, last, spelled, other⟩ := p.text_ends
  rcases h with ⟨none, -⟩ | ⟨before, whole, length⟩
  · simp [spelled] at none
  · have dropped : (p.text.toList ++ rest).drop p.text.length = rest := by
      rw [← String.length_toList, List.drop_left]
    rw [dropped]
    refine .inr ⟨before ++ p.text.toList, by simp [whole], ?_, ?_⟩
    · rw [byteLength_append, length, p.byteLength_text, String.length_toList]
    · rw [spelled, ← List.append_assoc]
      exact parted_concat other

/-- **A token without problems ends** where no word can go on. -/
theorem parted_lexToken (newline : Bool) (h : LeftAt source pos text)
    (fine : (lexToken newline pos text).problems = []) :
    PartedAt source (lexToken newline pos text).pos (lexToken newline pos text).rest := by
  have stands := (placed_lexToken newline h).stands
  revert stands fine
  cases text with
  | nil => exact fun _ _ => .inl rfl
  | cons c after =>
    unfold lexToken
    dsimp only
    split
    · -- A word.
      rename_i begins
      split
      · exact fun fine => nomatch fine
      · rename_i whole
        intro _ stands
        have some := scanName_word_ne_nil begins whole
        exact .of_head stands fun d mem => isAlpha_of_noPart (scanName_ends whole some d mem)
    split
    · -- A number.
      intro fine stands
      exact .of_head stands fun d mem => isAlpha_of_noStart (scanNumber_ends fine d mem)
    split
    · -- A string.
      rename_i quote
      have mark : c.toNat < 128 ∧ isWordChar c = false := by
        simp only [Bool.or_eq_true, decide_eq_true_eq] at quote
        rcases quote with rfl | rfl <;> decide
      split
      · simp
      · rename_i ended
        intro _ _
        exact scanText_ends ((Ahead.here h).tail_one mark.1).stands (by simpa using mark) ended
    split
    · -- A template.
      split
      · simp
      · rename_i ended
        intro _ _
        exact scanText_ends ((Ahead.here h).tail_one (by omega)).stands (by simp) ended
    split
    · -- A private name.
      split
      · exact fun fine => nomatch fine
      · exact fun fine => nomatch fine
      · rename_i whole some
        intro _ stands
        exact .of_head stands fun d mem => isAlpha_of_noPart (scanName_ends whole some d mem)
    · -- A punctuator.
      split
      · rename_i p read
        intro _ stands
        exact parted_punct h read stands
      · exact fun fine => nomatch fine

/-- Where a word has been read up to: no name goes on there. -/
def WordEnd (source : List Char) (stop : Nat) (rest : List Char) : Prop :=
  ∃ before, source = before ++ rest ∧ byteLength before = stop ∧
    ∀ d ∈ rest.head?, isIdentifierPart d = false

/-- A word is read as far as it goes. -/
theorem wordEnd_lexToken {newline : Bool} (h : LeftAt source pos text)
    (word : (lexToken newline pos text).token.kind.isWord = true) :
    WordEnd source (lexToken newline pos text).pos (lexToken newline pos text).rest := by
  obtain ⟨name, keyword, word⟩ : ∃ name keyword,
      (lexToken newline pos text).token.kind = .word name keyword := by
    cases kind : (lexToken newline pos text).token.kind with
    | word name keyword => exact ⟨name, keyword, rfl⟩
    | _ =>
      rw [kind] at word
      contradiction
  obtain ⟨c, after, rfl, begins, whole, -, -, read⟩ := lexToken_word h word
  have taken : Taken (c :: after) pos _ _ := taken_scanName .plain [] false
  obtain ⟨inside, split, stop⟩ := taken
  rw [read]
  rcases h with ⟨none, -⟩ | ⟨before, source_eq, length⟩
  · contradiction
  · refine ⟨before ++ inside, ?_, ?_, scanName_ends whole (scanName_word_ne_nil begins whole)⟩
    · rw [source_eq, List.append_assoc, ← split]
    · rw [byteLength_append, length, stop]

/-- No letter follows a word character at a position. -/
def Seam (source : List Char) (n : Nat) : Prop :=
  ∃ before after, source = before ++ after ∧ byteLength before = n ∧ Parted before after

section Trivia

variable {mode : TriviaMode} (h : LeftAt source pos text) (begun : ∀ start, mode ≠ .block start)

include h begun

theorem parted_tokenAfter (fine : (tokenAfter mode pos text).problems = []) :
    PartedAt source (tokenAfter mode pos text).pos (tokenAfter mode pos text).rest := by
  have ahead := (ahead_skipTrivia mode false (Ahead.here h) fun start same =>
    absurd same (begun start)).1
  unfold tokenAfter at fine ⊢
  dsimp only at fine ⊢
  split at fine
  · contradiction
  · exact parted_lexToken _ ahead.stands fine

theorem wordEnd_tokenAfter (word : (tokenAfter mode pos text).token.kind.isWord = true) :
    WordEnd source (tokenAfter mode pos text).pos (tokenAfter mode pos text).rest := by
  have ahead := (ahead_skipTrivia mode false (Ahead.here h) fun start same =>
    absurd same (begun start)).1
  unfold tokenAfter at word ⊢
  dsimp only at word ⊢
  split at word
  · contradiction
  · exact wordEnd_lexToken ahead.stands word

end Trivia

/-- A word begins where nothing goes on. -/
theorem seam_tokenAfter {mode : TriviaMode} (h : LeftAt source pos text)
    (parted : mode = .blank → PartedAt source pos text)
    (word : (tokenAfter mode pos text).token.kind.isWord = true) :
    Seam source (tokenAfter mode pos text).token.span.start := by
  have after : PartedAt source (skipTrivia mode false pos text).pos
      (skipTrivia mode false pos text).rest := parted_skipTrivia h parted
  unfold tokenAfter at word ⊢
  dsimp only at word ⊢
  split at word
  · contradiction
  · rw [lexToken_start]
    rcases after with none | ⟨before, whole, length, parted⟩
    · rw [none] at word
      contradiction
    · exact ⟨before, _, whole, length, parted⟩

theorem parted_regexToken {slash : Token} (h : LeftAt source slash.span.stop text)
    (fine : (regexToken slash text).problems = []) :
    PartedAt source (regexToken slash text).pos (regexToken slash text).rest := by
  unfold regexToken at fine ⊢
  split at fine
  · contradiction
  · rename_i read
    have flags := ahead_scanRegexFlags [] (ahead_scanRegexBody (Ahead.here h) read)
    exact .of_head flags.stands fun d mem => isAlpha_of_noAsciiPart (scanRegexFlags_ends _ d mem)

theorem parted_templateToken {brace : Token} (h : LeftAt source brace.span.stop text)
    (fine : (templateToken brace text).problems = []) :
    PartedAt source (templateToken brace text).pos (templateToken brace text).rest := by
  unfold templateToken at fine ⊢
  dsimp only at fine ⊢
  split at fine
  · contradiction
  · rename_i ended
    rw [if_neg ended]
    exact scanText_ends h (by simp) ended

/-- What comes before the first token ends where nothing goes on. -/
theorem firstToken_parted (source : List Char) :
    ∃ mode pos text, (∀ start, mode ≠ TriviaMode.block start) ∧ LeftAt source pos text ∧
      (mode = .blank → PartedAt source pos text) ∧ firstToken source = tokenAfter mode pos text := by
  obtain ⟨mode, pos, text, begun, left, blank, same⟩ := firstToken_eq source
  refine ⟨mode, pos, text, begun, left, fun isBlank => ?_, same⟩
  obtain ⟨before, whole, length, mark⟩ := blank isBlank
  refine .inr ⟨before, whole, length, fun c mem d _ word => ?_⟩
  have code := mark c (List.mem_of_getLast? mem)
  rw [isWordChar_of_blank (by simp [isSpace, code])] at word
  contradiction

/-- A character of a word that no name can have is refused where it stands. -/
theorem notWord_of_nextToken (other : ∀ d ∈ rest.head?, isIdentifierPart d = false)
    (fine : (nextToken pos rest).problems = []) : ∀ d ∈ rest.head?, isWordChar d = false := by
  intro d mem
  obtain ⟨after, rfl⟩ := List.head?_eq_some_iff.mp mem
  have noPart := other d rfl
  cases word : isWordChar d with
  | false => rfl
  | true =>
    have notBlank : (isLineEnd d || isSpace d) = false := by
      cases blank : (isLineEnd d || isSpace d) with
      | false => rfl
      | true =>
        rw [isWordChar_of_blank blank] at word
        contradiction
    have far : ¬d.toNat < 0x80 := by
      intro ascii
      simp [isWordChar, isIdentifierPart, ascii, isAsciiWordChar, isAsciiIdentifierPart,
        isAsciiIdentifierStart, Char.isAlphanum] at word noPart
      simp_all
    have ne (k : Char) (ascii : k.toNat < 128) : d ≠ k := fun same => far (same ▸ ascii)
    have skipped : skipTrivia .blank false pos (d :: after) = ⟨d :: after, pos, false, none⟩ := by
      have notSlash := ne '/' (by decide)
      simp_all [skipTrivia]
    have noStart : isIdentifierStart d = false := by
      cases start : isIdentifierStart d with
      | false => rfl
      | true =>
        rw [isIdentifierPart_of_start start] at noPart
        contradiction
    have noDigit : d.isDigit = false := by
      cases digit : d.isDigit with
      | false => rfl
      | true => exact absurd (lt_of_isDigit digit) far
    have noMark : Punct.read? (d :: after) = none := by
      cases read : Punct.read? (d :: after) with
      | none => rfl
      | some p =>
        obtain ⟨rest, whole⟩ := Punct.read?_eq_some read
        have some := p.length_text_pos
        rw [← String.length_toList] at some
        obtain ⟨k, others, spelled⟩ := List.exists_cons_of_length_pos some
        rw [spelled] at whole
        obtain rfl : d = k := (List.cons.inj whole).1
        exact absurd (p.text_ascii d (by simp [spelled])) far
    have backtick : d.toNat ≠ 0x60 := by omega
    simp [nextToken, tokenAfter, skipped, lexToken, noStart, noDigit, ne '\\' (by decide),
      ne '.' (by decide), ne '"' (by decide), ne '\'' (by decide), ne '#' (by decide), backtick,
      noMark] at fine

/-- A text stands in the source at a position, and no word goes on at either of its ends. -/
def StandsAlone (source : List Char) (n : Nat) (text : List Char) : Prop :=
  ∃ before after, source = before ++ (text ++ after) ∧ byteLength before = n ∧
    Parted before (text ++ after) ∧ ∀ d ∈ after.head?, isWordChar d = false

/-- What stands in a span stands alone. -/
def Span.Alone (source : List Char) (span : Span) : Prop :=
  ∃ text, StandsAlone source span.start text ∧ span.start + byteLength text = span.stop

theorem alone_of_seam {span : Span} (seam : Seam source span.start) (le : span.start ≤ span.stop)
    (ended : WordEnd source span.stop rest) (fine : (nextToken span.stop rest).problems = []) :
    span.Alone source := by
  obtain ⟨before, later, whole, length, parted⟩ := seam
  obtain ⟨before', whole', length', other⟩ := ended
  have stands : Boundary source span.start := ⟨before, later, whole, length⟩
  have stops : Boundary source span.stop := ⟨before', rest, whole', length'⟩
  obtain ⟨a, b, c, split, first, second⟩ := stands.exists_split stops le
  rw [List.append_assoc] at split
  obtain ⟨rfl, rfl⟩ := append_inj_of_byteLength (whole.symm.trans split) (length.trans first.symm)
  have ends : before' = before ++ b ∧ rest = c := by
    apply append_inj_of_byteLength
    · rw [← whole', whole, List.append_assoc]
    · rw [length', byteLength_append, length, second]
  obtain ⟨-, rfl⟩ := ends
  exact ⟨b, ⟨before, rest, whole, length, parted, notWord_of_nextToken other fine⟩, second⟩

/-- A span in which a text stands alone, and where that text is known. -/
theorem Span.Alone.standsAlone {span : Span} (alone : span.Alone source)
    (shows_ : span.Shows source text) : StandsAlone source span.start text := by
  obtain ⟨inside, ⟨before, after, whole, length, parted, other⟩, stop⟩ := alone
  obtain ⟨⟨before', after', whole', length'⟩, stop'⟩ := shows_
  rw [List.append_assoc] at whole'
  obtain ⟨rfl, same⟩ := append_inj_of_byteLength (whole.symm.trans whole') (length.trans length'.symm)
  have width : byteLength inside = byteLength text := by omega
  obtain ⟨rfl, rfl⟩ := append_inj_of_byteLength same width
  exact ⟨before, after, whole, length, parted, other⟩

/-! ## Words that are looked for -/

theorem startsWithWord_of_append {word : List Char}
    (other : ∀ d ∈ after.head?, isWordChar d = false) : startsWithWord word (word ++ after) = true := by
  have dropped : dropLeading? word (word ++ after) = some after := dropLeading?_eq_some_iff.mpr rfl
  unfold startsWithWord
  rw [dropped]
  cases after with
  | nil => rfl
  | cons d after => simp [other d rfl]

theorem containsWordFrom_append {words : List (List Char)} {word : List Char} {inside : Bool}
    (mem : word ∈ words) (some : word ≠ []) (first : before = [] → inside = false)
    (last : ∀ c ∈ before.getLast?, isWordChar c = false)
    (other : ∀ d ∈ after.head?, isWordChar d = false) :
    containsWordFrom words inside (before ++ (word ++ after)) = true := by
  induction before generalizing inside with
  | nil =>
    obtain ⟨w, ws, rfl⟩ := List.exists_cons_of_ne_nil some
    have here : words.any (startsWithWord · (w :: ws ++ after)) = true :=
      List.any_eq_true.mpr ⟨_, mem, startsWithWord_of_append other⟩
    rw [List.cons_append] at here
    simp [containsWordFrom, first rfl, here]
  | cons c before ih =>
    have later : containsWordFrom words (isWordChar c) (before ++ (word ++ after)) = true := by
      apply ih
      · rintro rfl
        exact last c rfl
      · intro d mem
        obtain ⟨front, rfl⟩ := List.getLast?_eq_some_iff.mp mem
        exact last d (by simp [List.getLast?_cons])
    simp [containsWordFrom, later]

/-- **A word that stands alone is found.** -/
theorem containsWord_of_standsAlone {words : List (List Char)} {word : List Char} {n : Nat}
    (mem : word ∈ words) (letter : ∃ c rest, word = c :: rest ∧ c.isAlpha = true)
    (alone : StandsAlone source n word) : containsWord words source = true := by
  obtain ⟨before, after, rfl, -, parted, other⟩ := alone
  obtain ⟨c, rest, rfl, letter⟩ := letter
  apply containsWordFrom_append mem (List.cons_ne_nil _ _) (fun _ => rfl) ?_ other
  intro d last
  cases word : isWordChar d with
  | false => rfl
  | true =>
    rw [parted d last c rfl word] at letter
    contradiction

end ModuleInterop.Syntax
