import ModuleInterop.Proofs.Text.Position
import ModuleInterop.Syntax.Lexer

/-!
# Where tokens stand

Reading goes forward: what is left after a token stands in the source at the position that is given
for it, and the token ends there (`Lexed.Placed`).  So the ends of a token are positions between
characters.  A word has text, and so has a punctuator.  A token that is a word is what reading gives
where it begins (`Token.Spelled`).
-/

set_option autoImplicit false

namespace ModuleInterop.Syntax

open ModuleInterop.Text

variable {source : List Char}

theorem utf8Size_of_lt {c : Char} (ascii : c.toNat < 128) : c.utf8Size = 1 := by
  rw [Char.utf8Size_eq_one_iff, UInt32.le_iff_toNat_le]
  exact Nat.le_of_lt_succ ascii

/-- From one position on, reading has come to another one where a text stands. -/
structure Ahead (source : List Char) (first pos : Nat) (rest : List Char) : Prop where
  stands : LeftAt source pos rest
  le : first ≤ pos

namespace Ahead

variable {first pos : Nat} {text : List Char}

theorem here (stands : LeftAt source pos text) : Ahead source pos pos text :=
  ⟨stands, Nat.le_refl _⟩

theorem boundary (h : Ahead source first pos text) : Boundary source pos := h.stands.boundary

theorem later {lower : Nat} (h : Ahead source first pos text) (le : lower ≤ first) :
    Ahead source lower pos text :=
  ⟨h.stands, Nat.le_trans le h.le⟩

theorem nil (h : Ahead source first pos text) : Ahead source first pos [] := ⟨h.stands.nil, h.le⟩

theorem tail {c : Char} (h : Ahead source first pos (c :: text)) :
    Ahead source first (pos + c.utf8Size) text :=
  ⟨h.stands.tail, Nat.le_add_right_of_le h.le⟩

/-- One byte further, past a character of one byte. -/
theorem tail_one {c : Char} (h : Ahead source first pos (c :: text)) (ascii : c.toNat < 128) :
    Ahead source first (pos + 1) text := by
  simpa [utf8Size_of_lt ascii] using h.tail

/-- Two bytes further, past two characters of one byte. -/
theorem tail_two {c d : Char} (h : Ahead source first pos (c :: d :: text)) (c1 : c.toNat < 128)
    (d1 : d.toNat < 128) : Ahead source first (pos + 2) text :=
  (h.tail_one c1).tail_one d1

end Ahead

/-! ## Characters of one byte -/

theorem lt_of_isDigit {c : Char} (h : c.isDigit = true) : c.toNat < 128 := by
  simp only [Char.isDigit, ge_iff_le, Bool.and_eq_true, decide_eq_true_eq,
    UInt32.le_iff_toNat_le] at h
  exact Nat.lt_of_le_of_lt h.2 (by decide)

theorem lt_of_isHexDigit {c : Char} (h : isHexDigit c = true) : c.toNat < 128 := by
  simp only [isHexDigit, Bool.or_eq_true, Bool.and_eq_true, decide_eq_true_eq] at h
  rcases h with (digit | ⟨-, le⟩) | ⟨-, le⟩
  · exact lt_of_isDigit digit
  · exact Nat.lt_of_le_of_lt (show c.toNat ≤ 'f'.toNat from le) (by decide)
  · exact Nat.lt_of_le_of_lt (show c.toNat ≤ 'F'.toNat from le) (by decide)

theorem lt_of_isAlpha {c : Char} (h : c.isAlpha = true) : c.toNat < 128 := by
  have either : c.isUpper = true ∨ c.isLower = true := (Bool.or_eq_true _ _).mp h
  rcases either with upper | lower
  · exact Nat.lt_of_le_of_lt (show c.toNat ≤ 'Z'.toNat from (of_decide_eq_true upper).2) (by decide)
  · exact Nat.lt_of_le_of_lt (show c.toNat ≤ 'z'.toNat from of_decide_eq_true
      ((Bool.and_eq_true _ _).mp lower).2) (by decide)

theorem lt_of_isAsciiIdentifierPart {c : Char} (h : isAsciiIdentifierPart c = true) :
    c.toNat < 128 := by
  simp only [isAsciiIdentifierPart, isAsciiIdentifierStart, Bool.or_eq_true, beq_iff_eq] at h
  rcases h with ((letter | rfl) | rfl) | digit
  · exact lt_of_isAlpha letter
  · decide
  · decide
  · exact lt_of_isDigit digit

/-! ## Scanners -/

section Scanners

variable {first pos : Nat} {text : List Char}

theorem ahead_scanName (mode : NameMode) (read : List Char) (escaped : Bool)
    (h : Ahead source first pos text) :
    Ahead source first (scanName mode read escaped pos text).pos
      (scanName mode read escaped pos text).rest := by
  fun_induction scanName mode read escaped pos text <;>
    grind [Ahead.tail, Ahead.tail_one, lt_of_isHexDigit]

theorem ahead_skipTrivia (mode : TriviaMode) (newline : Bool) (h : Ahead source first pos text)
    (begun : ∀ start, mode = .block start →
      first ≤ start ∧ start ≤ pos ∧ Boundary source start) :
    Ahead source first (skipTrivia mode newline pos text).pos
        (skipTrivia mode newline pos text).rest ∧
      ∀ start ∈ (skipTrivia mode newline pos text).openComment,
        first ≤ start ∧ start ≤ (skipTrivia mode newline pos text).pos ∧ Boundary source start := by
  fun_induction skipTrivia mode newline pos text <;>
    grind [Ahead.tail, Ahead.tail_two, Ahead.le, Ahead.boundary]

theorem ahead_scanDigits {isDigit : Char → Bool} (ascii : ∀ c, isDigit c = true → c.toNat < 128)
    (h : Ahead source first pos text) :
    Ahead source first (scanDigits isDigit pos text).pos (scanDigits isDigit pos text).rest := by
  fun_induction scanDigits isDigit pos text <;> grind [Ahead.tail_one, Ahead.tail_two]

theorem ahead_scanSomeDigits {isDigit : Char → Bool}
    (ascii : ∀ c, isDigit c = true → c.toNat < 128) (h : Ahead source first pos text) :
    Ahead source first (scanSomeDigits isDigit pos text).pos
      (scanSomeDigits isDigit pos text).rest := by
  fun_cases scanSomeDigits isDigit pos text <;> grind [Ahead.tail_one, ahead_scanDigits]

theorem ahead_skipNameStarts (h : Ahead source first pos text) :
    Ahead source first (skipNameStarts pos text).2 (skipNameStarts pos text).1 := by
  fun_induction skipNameStarts pos text <;> grind [Ahead.tail]

/-- Whether a token of this kind cannot be empty. -/
def TokenKind.hasText : TokenKind → Bool
  | .word _ _ | .punct _ | .literal (.string _) _ => true
  | _ => false

/-- A numeral that has been read from a position on. -/
structure NumberScan.Placed (source : List Char) (first : Nat) (scan : NumberScan) : Prop where
  ahead : Ahead source first scan.pos scan.rest
  other : scan.kind.hasText = false

theorem placed_endNumber {kind : TokenKind} (problems : List Problem) (other : kind.hasText = false)
    (h : Ahead source first pos text) : (endNumber kind problems pos text).Placed source first := by
  constructor
  · fun_cases endNumber kind problems pos text <;> grind [Ahead.tail, ahead_skipNameStarts]
  · fun_cases endNumber kind problems pos text <;> grind [TokenKind.hasText]

theorem placed_scanExponent (described : String) (whole fraction : List Char)
    (problems : List Problem) (h : Ahead source first pos text) :
    (scanExponent described whole fraction problems pos text).Placed source first := by
  fun_cases scanExponent described whole fraction problems pos text <;>
    grind [Ahead.tail_one, Ahead.tail_two, ahead_scanSomeDigits, placed_endNumber, lt_of_isDigit,
      TokenKind.hasText]

theorem placed_scanFraction (whole : List Char) (problems : List Problem)
    (h : Ahead source first pos text) :
    (scanFraction whole problems pos text).Placed source first := by
  fun_cases scanFraction whole problems pos text <;>
    grind [placed_scanExponent, ahead_scanDigits, lt_of_isDigit]

theorem placed_scanAfterDigits (whole : List Char) (problems : List Problem)
    (h : Ahead source first pos text) :
    (scanAfterDigits whole problems pos text).Placed source first := by
  fun_cases scanAfterDigits whole problems pos text <;>
    grind [Ahead.tail_one, placed_scanExponent, placed_scanFraction, placed_endNumber,
      TokenKind.hasText]

theorem placed_scanBased (base : Nat) (described : String) {isDigit : Char → Bool}
    (ascii : ∀ c, isDigit c = true → c.toNat < 128) (h : Ahead source first pos text) :
    (scanBased base described isDigit pos text).Placed source first := by
  have digits := ahead_scanSomeDigits ascii h
  fun_cases scanBased base described isDigit pos text <;>
    grind [Ahead.tail_one, placed_endNumber, NumberScan.Placed, TokenKind.hasText]

theorem byteLength_of_ascii {text : List Char} (ascii : ∀ c ∈ text, c.toNat < 128) :
    byteLength text = text.length := by
  induction text with
  | nil => rfl
  | cons c text ih =>
    have one := utf8Size_of_lt (ascii c List.mem_cons_self)
    rw [byteLength, one, ih fun d mem => ascii d (List.mem_cons_of_mem _ mem), List.length_cons,
      Nat.add_comm]

theorem placed_scanOldOctal (h : Ahead source first pos text) :
    (scanOldOctal pos text).Placed source first := by
  have digits : Ahead source first (pos + (text.takeWhile Char.isDigit).length)
      (text.dropWhile Char.isDigit) := by
    have ascii : ∀ c ∈ text.takeWhile Char.isDigit, c.toNat < 128 := fun c mem =>
      lt_of_isDigit (List.all_eq_true.mp List.all_takeWhile c mem)
    rw [← byteLength_of_ascii ascii]
    rw [← List.takeWhile_append_dropWhile (p := Char.isDigit) (l := text)] at h
    exact ⟨h.stands.drop, Nat.le_add_right_of_le h.le⟩
  fun_cases scanOldOctal pos text <;>
    grind [Ahead.tail_one, placed_endNumber, placed_scanFraction, placed_scanExponent,
      TokenKind.hasText]

theorem placed_scanNumber (h : Ahead source first pos text) :
    (scanNumber pos text).Placed source first := by
  have binary : ∀ d, (d == '0' || d == '1') = true → d.toNat < 128 := by
    intro d isDigit
    simp only [Bool.or_eq_true, beq_iff_eq] at isDigit
    rcases isDigit with rfl | rfl <;> decide
  have octal : ∀ d, (d.isDigit && d < '8') = true → d.toNat < 128 := by
    intro d isDigit
    exact lt_of_isDigit (Bool.and_eq_true_iff.mp isDigit).1
  have hexadecimal : ∀ d, (d.isDigit || ('a' ≤ d && d ≤ 'f') || ('A' ≤ d && d ≤ 'F')) = true →
      d.toNat < 128 := fun d isDigit => lt_of_isHexDigit isDigit
  have either {c lower upper : Char} (is : (c = lower || c = upper) = true)
      (ascii : lower.toNat < 128 ∧ upper.toNat < 128) : c.toNat < 128 := by
    simp only [Bool.or_eq_true, decide_eq_true_eq] at is
    rcases is with rfl | rfl
    · exact ascii.1
    · exact ascii.2
  fun_cases scanNumber pos text with
  | case1 text scan =>
    have after := h.tail_one (by decide)
    exact placed_scanExponent _ _ _ _ (ahead_scanSomeDigits (fun _ => lt_of_isDigit) after)
  | case2 c text is =>
    exact placed_scanBased _ _ binary (h.tail_two (by decide) (either is (by decide)))
  | case3 c text _ is =>
    exact placed_scanBased _ _ octal (h.tail_two (by decide) (either is (by decide)))
  | case4 c text _ _ is =>
    exact placed_scanBased _ _ hexadecimal (h.tail_two (by decide) (either is (by decide)))
  | case5 c text => exact placed_scanOldOctal (h.tail_one (by decide))
  | case6 c text => exact placed_scanAfterDigits _ _ (h.tail_one (by decide))
  | case7 => exact placed_scanAfterDigits _ _ (ahead_scanDigits (fun _ => lt_of_isDigit) h)

/-- What closes a text is its quote, or a backtick. -/
theorem closes_with {style : TextStyle} {next : Option Char} {state state' : TextState} {c : Char}
    (closes : state.step style pos next c = .close state') : style = .quoted c ∨ c.toNat = 0x60 := by
  have plain {state : TextState} (closes : state.plainStep style pos next c = .close state') :
      style = .quoted c ∨ c.toNat = 0x60 := by
    unfold TextState.plainStep at closes
    grind
  unfold TextState.step at closes
  grind

/-- What begins a value in a text is a dollar sign, and a brace after it. -/
theorem begins_with {style : TextStyle} {text : List Char} {state state' : TextState} {c : Char}
    (begins : state.step style pos text.head? c = .value state') :
    c = '$' ∧ ∃ after, text = '{' :: after := by
  have plain {state : TextState} (begins : state.plainStep style pos text.head? c = .value state') :
      c = '$' ∧ text.head? = some '{' := by
    unfold TextState.plainStep at begins
    grind
  have both : c = '$' ∧ text.head? = some '{' := by
    unfold TextState.step at begins
    grind
  exact ⟨both.1, List.head?_eq_some_iff.mp both.2⟩

theorem ahead_scanText (style : TextStyle)
    (ascii : ∀ quote, style = .quoted quote → quote.toNat < 128) (state : TextState)
    (h : Ahead source first pos text) :
    Ahead source first (scanText style state pos text).pos (scanText style state pos text).rest := by
  fun_induction scanText style state pos text with
  | case1 => exact h
  | case2 state pos c text state' step ih => exact ih h.tail
  | case3 state pos c text state' step =>
    apply h.tail_one
    rcases closes_with step with quoted | backtick
    · exact ascii c quoted
    · omega
  | case4 state pos c text state' step =>
    obtain ⟨rfl, after, rfl⟩ := begins_with step
    exact h.tail_two (by decide) (by decide)
  | case5 => exact h

theorem ahead_scanRegexBody {mode : RegexMode} {rest : List Char} {stop : Nat}
    (h : Ahead source first pos text) (read : scanRegexBody mode pos text = some (rest, stop)) :
    Ahead source first stop rest := by
  fun_induction scanRegexBody mode pos text with
  | case4 mode pos c text _ _ closes =>
    obtain ⟨rfl, rfl⟩ := Prod.mk.inj (Option.some.inj read)
    obtain rfl : c = '/' := by simpa using (Bool.and_eq_true_iff.mp closes).1
    exact h.tail_one (by decide)
  | _ => grind [Ahead.tail, Ahead.tail_one]

theorem ahead_scanRegexFlags (seen : List Char) (h : Ahead source first pos text) :
    Ahead source first (scanRegexFlags seen pos text).2.1 (scanRegexFlags seen pos text).1 := by
  fun_induction scanRegexFlags seen pos text <;>
    grind [Ahead.tail_one, lt_of_isAsciiIdentifierPart]

end Scanners

/-! ## Tokens -/

/-- A token that has been read from a position on: it ends where what is left stands, and a word,
a string or a punctuator has text. -/
structure Lexed.Placed (source : List Char) (first : Nat) (lexed : Lexed) : Prop where
  stands : LeftAt source lexed.pos lexed.rest
  start : Boundary source lexed.token.span.start
  first_le : first ≤ lexed.token.span.start
  start_le : lexed.token.span.start ≤ lexed.token.span.stop
  stop : lexed.token.span.stop = lexed.pos
  text : lexed.token.kind.hasText = true → lexed.token.span.start < lexed.token.span.stop

/-- Reading the source gives a word, where a span begins and up to its end. -/
def Span.Spells (source : List Char) (span : Span) (text : String) : Prop :=
  ∃ newline rest, LeftAt source span.start rest ∧
    (lexToken newline span.start rest).token.kind = .word text (Keyword.ofText? text) ∧
    (lexToken newline span.start rest).token.span = span

/-- A text stands in the source from where a span begins up to its end. -/
def Span.Shows (source : List Char) (span : Span) (text : List Char) : Prop :=
  StandsAt source span.start text ∧ span.start + byteLength text = span.stop

/-- A token that is a word is read off the source where it begins.  Without escapes it stands there as
it is. -/
def Token.Spelled (source : List Char) (token : Token) : Prop :=
  ∀ name keyword, token.kind = .word name keyword →
    keyword = Keyword.ofText? name ∧ token.span.Spells source name ∧
      (token.escaped = false → token.span.Shows source name.toList)

/-- A name that begins with a character of a name, or with an escape, has text. -/
theorem lt_scanName {pos : Nat} {c : Char} {text : List Char}
    (begins : (isIdentifierStart c || c = '\\') = true) (h : LeftAt source pos (c :: text)) :
    pos < (scanName .plain [] false pos (c :: text)).pos := by
  have size := c.utf8Size_pos
  rw [scanName]
  split
  · rename_i slash
    have after := ahead_scanName (.slash pos) [] true ((Ahead.here h).tail_one (slash ▸ by decide)
      |>.stands |> Ahead.here)
    have := after.le
    omega
  · rename_i noSlash
    have fits : fitsName [] c = true := by simpa [fitsName, noSlash] using begins
    rw [if_pos fits]
    have := (ahead_scanName .plain [c] false (Ahead.here h.tail)).le
    omega

theorem Punct.byteLength_text (p : Punct) : byteLength p.text.toList = p.text.toList.length := by
  cases p <;> decide

theorem Punct.length_text_pos (p : Punct) : 0 < p.text.length := by
  cases p <;> decide

/-- A punctuator is read off the head of a text. -/
theorem Punct.read?_eq_some {text : List Char} {p : Punct} (read : Punct.read? text = some p) :
    ∃ rest, text = p.text.toList ++ rest := by
  unfold Punct.read? at read
  split at read
  · rename_i c rest
    split at read
    · obtain rfl := Option.some.inj read
      exact ⟨'.' :: c :: rest, rfl⟩
    · obtain rfl := Option.some.inj read
      exact ⟨c :: rest, rfl⟩
  · have leads : (dropLeading? p.text.toList text).isSome = true := by
      simpa using
      List.find?_some (p := fun p : Punct => (dropLeading? p.text.toList text).isSome) read
    obtain ⟨rest, drops⟩ := Option.isSome_iff_exists.mp leads
    exact ⟨rest, dropLeading?_eq_some_iff.mp drops⟩

section Lexing

variable {pos stop : Nat} {text rest : List Char}

theorem placed_of_ahead {kind : TokenKind} {newline escaped : Bool} {problems : List Problem}
    (h : LeftAt source pos text) (ahead : Ahead source pos stop rest)
    (width : kind.hasText = true → pos < stop) :
    Lexed.Placed source pos ⟨⟨kind, ⟨pos, stop⟩, newline, escaped⟩, rest, stop, problems⟩ :=
  ⟨ahead.stands, h.boundary, Nat.le_refl _, ahead.le, rfl, width⟩

theorem placed_lexToken (newline : Bool) (h : LeftAt source pos text) :
    (lexToken newline pos text).Placed source pos := by
  have noWidth {kind : TokenKind} {stop : Nat} (other : kind.hasText = false) :
      kind.hasText = true → pos < stop := fun width => absurd width (by simp [other])
  have here := Ahead.here h
  cases text with
  | nil => exact placed_of_ahead h here (noWidth rfl)
  | cons c after =>
    unfold lexToken
    dsimp only
    split
    · -- A word.
      rename_i begins
      have ahead := ahead_scanName .plain [] false here
      split
      · exact placed_of_ahead h ahead (noWidth rfl)
      · exact placed_of_ahead h ahead fun _ => lt_scanName begins h
    split
    · -- A number.
      have placed := placed_scanNumber here
      exact placed_of_ahead h placed.ahead (noWidth placed.other)
    split
    · -- A string.
      rename_i quote
      have ascii : c.toNat < 128 := by
        simp only [Bool.or_eq_true, decide_eq_true_eq] at quote
        rcases quote with rfl | rfl <;> decide
      have after := here.tail_one ascii
      have text := ahead_scanText (.quoted c) (by simpa using ascii) .start (Ahead.here after.stands)
      have ahead : Ahead source pos _ _ := ⟨text.stands, Nat.le_of_succ_le text.le⟩
      split <;> exact placed_of_ahead h ahead fun _ => text.le
    split
    · -- A template.
      rename_i quote
      have ahead := ahead_scanText .template (by simp) .start
        (here.tail_one (by omega))
      split <;> exact placed_of_ahead h ahead (noWidth rfl)
    split
    · -- A private name.
      rename_i mark
      have after := here.tail_one (mark ▸ by decide)
      have ahead := ahead_scanName .plain [] false after
      split
      · exact placed_of_ahead h ahead (noWidth rfl)
      · exact placed_of_ahead h after (noWidth rfl)
      · exact placed_of_ahead h ahead (noWidth rfl)
    · -- A punctuator.
      split
      · rename_i p read
        obtain ⟨rest, whole⟩ := Punct.read?_eq_some read
        have ahead : Ahead source pos (pos + p.text.length) ((c :: after).drop p.text.length) := by
          rw [whole] at h ⊢
          have drops := h.drop
          rw [p.byteLength_text, String.length_toList] at drops
          refine ⟨?_, Nat.le_add_right _ _⟩
          rwa [← String.length_toList, List.drop_left, String.length_toList]
        exact placed_of_ahead h ahead fun _ => Nat.lt_add_of_pos_right p.length_text_pos
      · exact placed_of_ahead h here.tail (noWidth rfl)

theorem lexToken_start (newline : Bool) : (lexToken newline pos text).token.span.start = pos := by
  unfold lexToken
  dsimp only
  repeat' split
  all_goals rfl

/-- What a token is that is a word: the name at the head of the text. -/
theorem lexToken_word {newline : Bool} {name : String} {keyword : Option Keyword}
    (h : LeftAt source pos text)
    (word : (lexToken newline pos text).token.kind = .word name keyword) :
    ∃ c after, text = c :: after ∧ (isIdentifierStart c || c = '\\') = true ∧
      (scanName .plain [] false pos text).problem = none ∧
      name = String.ofList (scanName .plain [] false pos text).name ∧
      keyword = Keyword.ofText? name ∧
      lexToken newline pos text =
        ⟨⟨.word name keyword, ⟨pos, (scanName .plain [] false pos text).pos⟩, newline,
            (scanName .plain [] false pos text).escaped⟩,
          (scanName .plain [] false pos text).rest, (scanName .plain [] false pos text).pos, []⟩ := by
  have number := (placed_scanNumber (Ahead.here h)).other
  cases text with
  | nil => contradiction
  | cons c after =>
    refine ⟨c, after, rfl, ?_⟩
    unfold lexToken at word ⊢
    dsimp only at word ⊢
    split at word
    · rename_i begins
      split at word
      · contradiction
      · rename_i whole
        obtain ⟨rfl, rfl⟩ := TokenKind.word.inj word
        refine ⟨begins, whole, rfl, rfl, ?_⟩
        simp [begins]
    split at word
    · dsimp only at word
      rw [word] at number
      contradiction
    all_goals
      repeat' split at word
      all_goals contradiction

/-- A name without escapes stands in the text as it is. -/
theorem scanName_written {mode : NameMode} {read : List Char} {escaped : Bool}
    (plain : (scanName mode read escaped pos text).escaped = false) :
    escaped = false ∧ (mode = .plain → ∃ inside,
      text = inside ++ (scanName mode read escaped pos text).rest ∧
      pos + byteLength inside = (scanName mode read escaped pos text).pos ∧
      (scanName mode read escaped pos text).name = read.reverse ++ inside) := by
  fun_induction scanName mode read escaped pos text
  case case2 read escaped pos c text noSlash fits ih =>
    obtain ⟨first, written⟩ := ih plain
    obtain ⟨inside, split, stop, name⟩ := written rfl
    refine ⟨first, fun _ => ⟨c :: inside, ?_, ?_, ?_⟩⟩
    · rw [List.cons_append, ← split]
    · rw [← stop, byteLength, Nat.add_assoc]
    · rw [name, List.reverse_cons, List.append_assoc, List.singleton_append]
  all_goals simp_all [byteLength]

theorem spelled_lexToken (newline : Bool) (h : LeftAt source pos text) :
    (lexToken newline pos text).token.Spelled source := by
  intro name keyword word
  obtain ⟨c, after, rfl, -, -, named, rfl, read⟩ := lexToken_word h word
  have start : (lexToken newline pos (c :: after)).token.span.start = pos := lexToken_start newline
  refine ⟨rfl, ⟨newline, c :: after, start.symm ▸ h, ?_, ?_⟩, fun plain => ?_⟩
  · rw [start]
    exact word
  · rw [start]
  · rw [read] at plain ⊢
    obtain ⟨inside, split, stop, written⟩ := (scanName_written plain).2 rfl
    rcases h with ⟨none, -⟩ | ⟨before, whole, length⟩
    · contradiction
    · have text : name.toList = inside := by simp [named, written]
      rw [text]
      exact ⟨⟨before, _, by rw [whole, List.append_assoc, ← split], length⟩, stop⟩

theorem placed_tokenAfter {mode : TriviaMode} (h : LeftAt source pos text)
    (begun : ∀ start, mode ≠ .block start) : (tokenAfter mode pos text).Placed source pos := by
  obtain ⟨ahead, comment⟩ := ahead_skipTrivia mode false (Ahead.here h) fun start same =>
    absurd same (begun start)
  unfold tokenAfter
  dsimp only
  split
  · rename_i start unclosed
    obtain ⟨le, before, inside⟩ := comment start unclosed
    exact ⟨ahead.stands.nil, inside, le, before, rfl, by simp [TokenKind.hasText]⟩
  · have placed := placed_lexToken (skipTrivia mode false pos text).newline ahead.stands
    exact { placed with first_le := Nat.le_trans ahead.le placed.first_le }

theorem placed_nextToken (h : LeftAt source pos text) :
    (nextToken pos text).Placed source pos :=
  placed_tokenAfter h (by simp)

theorem spelled_tokenAfter {mode : TriviaMode} (h : LeftAt source pos text)
    (begun : ∀ start, mode ≠ .block start) : (tokenAfter mode pos text).token.Spelled source := by
  obtain ⟨ahead, -⟩ := ahead_skipTrivia mode false (Ahead.here h) fun start same =>
    absurd same (begun start)
  unfold tokenAfter
  dsimp only
  split
  · exact fun _ _ word => nomatch word
  · exact spelled_lexToken _ ahead.stands

theorem spelled_nextToken (h : LeftAt source pos text) :
    (nextToken pos text).token.Spelled source :=
  spelled_tokenAfter h (by simp)

/-- What the first token is read from: a text that is left after a byte order mark and a line that
begins with its mark. -/
theorem firstToken_eq (source : List Char) :
    ∃ mode pos text, (∀ start, mode ≠ TriviaMode.block start) ∧ LeftAt source pos text ∧
      (mode = .blank → ∃ before, source = before ++ text ∧ byteLength before = pos ∧
        ∀ c ∈ before, c.toNat = 0xFEFF) ∧
      firstToken source = tokenAfter mode pos text := by
  have whole := LeftAt.whole source
  have marked {pos : Nat} {rest : List Char} (h : LeftAt source pos ('#' :: '!' :: rest)) :
      LeftAt source (pos + 2) rest := ((Ahead.here h).tail_two (by decide) (by decide)).stands
  cases source with
  | nil => exact ⟨.blank, 0, [], nofun, whole, fun _ => ⟨[], rfl, rfl, nofun⟩, rfl⟩
  | cons c rest =>
    by_cases mark : c.toNat = 0xFEFF
    · have after := whole.tail
      rw [Nat.zero_add] at after
      simp only [firstToken, if_pos mark]
      split
      · exact ⟨.line, _, _, nofun, marked after, nofun, rfl⟩
      · exact ⟨.blank, _, _, nofun, after, fun _ => ⟨[c], rfl, rfl, by simpa using mark⟩, rfl⟩
    · simp only [firstToken, if_neg mark]
      split
      · rename_i begins
        exact ⟨.line, _, _, nofun, marked (begins ▸ whole), nofun, rfl⟩
      · exact ⟨.blank, _, _, nofun, whole, fun _ => ⟨[], rfl, rfl, nofun⟩, rfl⟩

theorem placed_firstToken (source : List Char) : (firstToken source).Placed source 0 := by
  obtain ⟨mode, pos, text, begun, left, -, same⟩ := firstToken_eq source
  rw [same]
  exact { placed_tokenAfter left begun with first_le := Nat.zero_le _ }

theorem spelled_firstToken (source : List Char) : (firstToken source).token.Spelled source := by
  obtain ⟨mode, pos, text, begun, left, -, same⟩ := firstToken_eq source
  rw [same]
  exact spelled_tokenAfter left begun

theorem placed_regexToken {slash : Token} (h : LeftAt source slash.span.stop text)
    (start : Boundary source slash.span.start) (le : slash.span.start ≤ slash.span.stop) :
    (regexToken slash text).Placed source slash.span.start := by
  unfold regexToken
  split
  · exact ⟨h.nil, start, Nat.le_refl _, le, rfl, by simp [TokenKind.hasText]⟩
  · rename_i rest pos read
    have flags := ahead_scanRegexFlags [] (ahead_scanRegexBody (Ahead.here h) read)
    exact ⟨flags.stands, start, Nat.le_refl _, Nat.le_trans le flags.le, rfl,
      by simp [TokenKind.hasText]⟩

theorem placed_templateToken {brace : Token} (h : LeftAt source brace.span.stop text)
    (start : Boundary source brace.span.start) (le : brace.span.start ≤ brace.span.stop) :
    (templateToken brace text).Placed source brace.span.start := by
  have ahead := ahead_scanText .template (by simp) .start (Ahead.here h)
  unfold templateToken
  dsimp only
  split <;> exact ⟨ahead.stands, start, Nat.le_refl _, Nat.le_trans le ahead.le, rfl,
    by simp [TokenKind.hasText]⟩

theorem isWord_regexToken (slash : Token) (text : List Char) :
    (regexToken slash text).token.kind.isWord = false := by
  unfold regexToken
  split <;> rfl

theorem isWord_templateToken (brace : Token) (text : List Char) :
    (templateToken brace text).token.kind.isWord = false := by
  unfold templateToken
  dsimp only
  split <;> rfl

end Lexing

end ModuleInterop.Syntax
