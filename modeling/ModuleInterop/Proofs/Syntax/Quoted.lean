import ModuleInterop.Proofs.Syntax.StringValue
import ModuleInterop.Syntax.Lexer

/-!
# Quoted text reads back

A text that has been quoted is a string literal: wherever it stands, reading takes exactly the quoted
text as one token without problems, and what it denotes is the text (`lexToken_quote`).  Each character
is read back from the way it is written (`scanText_escapeChar`), which takes six characters for a control
character without a letter of its own.
-/

set_option autoImplicit false

namespace ModuleInterop.Syntax

open ModuleInterop.Text

/-- Reading stands between escapes, without problems so far. -/
def TextState.read (units : List TextUnit) (escapeAt : Nat) : TextState := ⟨units, [], .plain, escapeAt⟩

theorem digit_hexDigit {n : Nat} (small : n < 16) :
    isHexDigit (hexDigit n) = true ∧ digitValue (hexDigit n) = n ∧ (hexDigit n).utf8Size = 1 ∧
      hexDigit n ≠ '\x7b' := by
  have all : ∀ n < 16, isHexDigit (hexDigit n) = true ∧ digitValue (hexDigit n) = n ∧
      (hexDigit n).utf8Size = 1 ∧ hexDigit n ≠ '\x7b' := by decide
  exact all n small

section Scanning

variable {style : TextStyle} {state state' : TextState} {units : List TextUnit} {first pos : Nat}
  {c : Char} {rest : List Char}

theorem scanText_next (step : state.step style pos rest.head? c = .next state') :
    scanText style state pos (c :: rest) = scanText style state' (pos + c.utf8Size) rest := by
  rw [scanText, step]

/-- A digit of an escape, when more are to come. -/
theorem scanText_digit {left value d : Nat} (small : d < 16) :
    scanText style ⟨units, [], .digits (left + 2) value, first⟩ pos (hexDigit d :: rest) =
      scanText style ⟨units, [], .digits (left + 1) (value * 16 + d), first⟩ (pos + 1) rest := by
  obtain ⟨hex, number, size, -⟩ := digit_hexDigit small
  rw [scanText_next, size]
  simp [TextState.step, hex, number]

/-- The last digit of an escape. -/
theorem scanText_lastDigit {value d : Nat} (small : d < 16) :
    scanText style ⟨units, [], .digits 1 value, first⟩ pos (hexDigit d :: rest) =
      scanText style ((TextState.read units first).pushCode (value * 16 + d) true) (pos + 1) rest := by
  obtain ⟨hex, number, size, -⟩ := digit_hexDigit small
  rw [scanText_next, size]
  simp [TextState.step, hex, number, TextState.pushCode, TextState.push, TextState.read]

/-- Four digits of an escape are read as the code point that they are made of. -/
theorem scanText_hex4 {n : Nat} (bound : n < 0x10000) :
    scanText style ⟨units, [], .mark, first⟩ pos (hex4 n ++ rest) =
      scanText style ((TextState.read units first).pushCode n true) (pos + 4) rest := by
  obtain ⟨hex, number, size, noBrace⟩ := digit_hexDigit (n := n / 4096 % 16) (by omega)
  have begins : scanText style ⟨units, [], .mark, first⟩ pos (hex4 n ++ rest) =
      scanText style ⟨units, [], .digits 3 (n / 4096 % 16), first⟩ (pos + 1)
        (hexDigit (n / 256 % 16) :: hexDigit (n / 16 % 16) :: hexDigit (n % 16) :: rest) := by
    rw [hex4, List.cons_append, scanText_next, size]
    · rfl
    · simp [TextState.step, hex, number, noBrace]
  have whole : ((n / 4096 % 16 * 16 + n / 256 % 16) * 16 + n / 16 % 16) * 16 + n % 16 = n := by omega
  rw [begins, scanText_digit (by omega), scanText_digit (by omega), scanText_lastDigit (by omega),
    whole]

/-- A backslash and the character that says what it means. -/
theorem scanText_escape {d : Char} (ascii : d.utf8Size = 1)
    (means : ∀ next, TextState.slashStep style next ⟨units, [], .slash, pos⟩ d = state) :
    scanText style (.read units first) pos ('\\' :: d :: rest) = scanText style state (pos + 2) rest := by
  have slash : TextState.step style pos (d :: rest).head? (.read units first) '\\' =
      .next ⟨units, [], .slash, pos⟩ := by
    simp [TextState.step, TextState.read, TextState.plainStep]
  have meant : TextState.step style (pos + 1) rest.head? ⟨units, [], .slash, pos⟩ d = .next state := by
    simp [TextState.step, means]
  have one : '\\'.utf8Size = 1 := by decide
  rw [scanText_next slash, one, scanText_next meant, ascii]

/-- A code point that is a character is read as this character. -/
theorem pushCode_toNat (c : Char) :
    (TextState.read units first).pushCode c.toNat true = .read (.scalar c :: units) first := by
  have valid : c.toNat.isValidChar := c.valid
  simp [TextState.pushCode, valid, TextState.push, TextState.read]

/-- **A character is read back** from the way it is written. -/
theorem scanText_escapeChar (c : Char) :
    ∃ later, scanText (.quoted '"') (.read units first) pos (escapeChar c ++ rest) =
      scanText (.quoted '"') (.read (.scalar c :: units) later) (pos + byteLength (escapeChar c))
        rest := by
  have escaped {d : Char} (ascii : d.utf8Size = 1) (written : escapeChar c = ['\\', d])
      (means : ∀ next, TextState.slashStep (.quoted '"') next ⟨units, [], .slash, pos⟩ d =
        .read (.scalar c :: units) pos) :
      ∃ later, scanText (.quoted '"') (.read units first) pos (escapeChar c ++ rest) =
        scanText (.quoted '"') (.read (.scalar c :: units) later) (pos + byteLength (escapeChar c))
          rest := by
    have one : '\\'.utf8Size = 1 := rfl
    have two : byteLength ['\\', d] = 2 := by simp [byteLength, ascii, one]
    use pos
    rw [written, two]
    exact scanText_escape ascii means
  by_cases quote : c = '"'
  · subst quote
    exact escaped (d := '"') rfl rfl fun _ => rfl
  by_cases slash : c = '\\'
  · subst slash
    exact escaped (d := '\\') rfl rfl fun _ => rfl
  by_cases lineFeed : c = '\n'
  · subst lineFeed
    exact escaped (d := 'n') rfl rfl fun _ => rfl
  by_cases carriage : c = '\r'
  · subst carriage
    exact escaped (d := 'r') rfl rfl fun _ => rfl
  by_cases tab : c = '\t'
  · subst tab
    exact escaped (d := 't') rfl rfl fun _ => rfl
  by_cases backspace : c.toNat = 8
  · obtain rfl : c = Char.ofNat 8 := Char.toNat_inj.mp backspace
    exact escaped (d := 'b') rfl rfl fun _ => rfl
  by_cases formFeed : c.toNat = 12
  · obtain rfl : c = Char.ofNat 12 := Char.toNat_inj.mp formFeed
    exact escaped (d := 'f') rfl rfl fun _ => rfl
  by_cases control : c.toNat < 0x20
  · -- Another control character is written with four digits.
    have written : escapeChar c = '\\' :: 'u' :: hex4 c.toNat := by
      simp [escapeChar, quote, slash, lineFeed, carriage, tab, backspace, formFeed, control]
    have length : byteLength (escapeChar c) = 6 := by
      obtain ⟨-, -, size₁, -⟩ := digit_hexDigit (n := c.toNat / 4096 % 16) (by omega)
      obtain ⟨-, -, size₂, -⟩ := digit_hexDigit (n := c.toNat / 256 % 16) (by omega)
      obtain ⟨-, -, size₃, -⟩ := digit_hexDigit (n := c.toNat / 16 % 16) (by omega)
      obtain ⟨-, -, size₄, -⟩ := digit_hexDigit (n := c.toNat % 16) (by omega)
      have one : '\\'.utf8Size = 1 := rfl
      have one' : 'u'.utf8Size = 1 := rfl
      simp [written, byteLength, hex4, size₁, size₂, size₃, size₄, one, one']
    have marked : scanText (.quoted '"') (.read units first) pos
        ('\\' :: 'u' :: (hex4 c.toNat ++ rest)) =
        scanText (.quoted '"') ⟨units, [], .mark, pos⟩ (pos + 2) (hex4 c.toNat ++ rest) :=
      scanText_escape rfl fun _ => rfl
    use pos
    rw [length, written, List.cons_append, List.cons_append, marked, scanText_hex4 (by omega),
      pushCode_toNat]
  · have written : escapeChar c = [c] := by
      simp [escapeChar, quote, slash, lineFeed, carriage, tab, backspace, formFeed, control]
    have plain : TextState.step (.quoted '"') pos rest.head? (.read units first) c =
        .next (.read (.scalar c :: units) first) := by
      simp [TextState.step, TextState.read, TextState.plainStep, TextState.push, slash, quote,
        lineFeed, carriage]
    use first
    rw [written, List.singleton_append, scanText_next plain]
    simp [byteLength]

/-- **A quoted text is read back** up to the quote that closes it. -/
theorem scanText_quoted (text rest : List Char) :
    scanText (.quoted '"') (.read units first) pos (text.flatMap escapeChar ++ '"' :: rest) =
      ⟨units.reverse ++ text.map .scalar, [], .closed, rest,
        pos + byteLength (text.flatMap escapeChar) + 1⟩ := by
  induction text generalizing units first pos with
  | nil => simp [scanText, TextState.step, TextState.read, TextState.plainStep, byteLength]
  | cons c text ih =>
    rw [List.flatMap_cons, List.append_assoc]
    obtain ⟨later, read⟩ := scanText_escapeChar c
    rw [read, ih]
    simp [Nat.add_assoc]

end Scanning

/-- **A quoted text is a string literal**: wherever it stands, reading takes just it, and what it
denotes is the text. -/
theorem lexToken_quote (newline : Bool) (pos : Nat) (text : String) (rest : List Char) :
    lexToken newline pos ((quote text).toList ++ rest) =
      ⟨⟨.literal (.string text) "string", ⟨pos, pos + byteLength (quote text).toList⟩, newline, false⟩,
        rest, pos + byteLength (quote text).toList, []⟩ := by
  have one : '"'.utf8Size = 1 := rfl
  have width : pos + 1 + byteLength (text.toList.flatMap escapeChar) + 1 =
      pos + byteLength (quote text).toList := by
    simp [quote, quoteChars, byteLength, one]
    omega
  have written : (quote text).toList ++ rest =
      '"' :: (text.toList.flatMap escapeChar ++ '"' :: rest) := by
    simp [quote, quoteChars]
  have read : scanText (.quoted '"') .start (pos + 1)
      (text.toList.flatMap escapeChar ++ '"' :: rest) =
      ⟨text.toList.map .scalar, [], .closed, rest, pos + byteLength (quote text).toList⟩ := by
    rw [← width]
    exact scanText_quoted text.toList rest
  have noName : isIdentifierStart '"' = false := by decide
  have noDigit : '"'.isDigit = false := by decide
  rw [written, lexToken.eq_def]
  simp [noName, noDigit, read, unitsValue_scalars]

end ModuleInterop.Syntax
