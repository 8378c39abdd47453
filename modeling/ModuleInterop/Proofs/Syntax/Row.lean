import ModuleInterop.Proofs.Naming
import ModuleInterop.Proofs.Syntax.Lexer
import ModuleInterop.Proofs.Syntax.Quoted

/-!
# Texts as rows of tokens

What kinds of tokens a text is read as, when it stands on one line, its words are written without
escapes and nothing is wrong with it (`Spells`).  Such a text is put together from pieces: a space, an
identifier that the text after it does not go on with, a punctuator of one character, and a quoted text.
-/

set_option autoImplicit false

namespace ModuleInterop.Syntax

open ModuleInterop.Text

variable {pos : Nat} {text rest : List Char} {kind : TokenKind} {kinds : List TokenKind}

/-- A token of a kind has been read: no line ended before it, it has no escape, and nothing was wrong. -/
structure Lexed.Plain (lexed : Lexed) (kind : TokenKind) : Prop where
  kind : lexed.token.kind = kind
  onLine : lexed.token.newlineBefore = false
  unescaped : lexed.token.escaped = false
  fine : lexed.problems = []

/-- A text that stands at `pos` begins with plain tokens of these kinds. -/
def Spells : Nat → List Char → List TokenKind → Prop
  | _, _, [] => True
  | pos, text, kind :: kinds =>
    (nextToken pos text).Plain kind ∧ Spells (nextToken pos text).pos (nextToken pos text).rest kinds

/-- A token that is read up to `rest` is the first one of a row. -/
theorem Spells.cons {stop : Nat} {span : Span}
    (read : nextToken pos text = ⟨⟨kind, span, false, false⟩, rest, stop, []⟩)
    (h : Spells stop rest kinds) : Spells pos text (kind :: kinds) := by
  rw [Spells, read]
  exact ⟨⟨rfl, rfl, rfl, rfl⟩, h⟩

/-- A space before a row. -/
theorem Spells.space (h : Spells (pos + 1) text kinds) : Spells pos (' ' :: text) kinds := by
  cases kinds with
  | nil => trivial
  | cons kind kinds =>
    have same : nextToken pos (' ' :: text) = nextToken (pos + 1) text := by
      simp [nextToken, tokenAfter, skipTrivia, isLineEnd, isSpace, Char.utf8Size]
    rwa [Spells, same]

/-- The text ends. -/
theorem Spells.endOfInput : Spells pos [] [.endOfInput] :=
  .cons (show nextToken pos [] = ⟨⟨.endOfInput, ⟨pos, pos⟩, false, false⟩, [], pos, []⟩ from rfl) trivial

/-- Nothing is skipped before a character that begins no trivia. -/
theorem nextToken_eq {c : Char} (solid : isLineEnd c = false ∧ isSpace c = false)
    (other : c ≠ '/') : nextToken pos (c :: text) = lexToken false pos (c :: text) := by
  have stays : skipTrivia .blank false pos (c :: text) = ⟨c :: text, pos, false, none⟩ := by
    rw [skipTrivia]
    · simp [solid]
    · rintro - rfl
      contradiction
    · rintro - rfl
      contradiction
  rw [nextToken, tokenAfter, stays]

/-! ## Words -/

theorem isIdentifierStart_of_ascii {c : Char} (h : isAsciiIdentifierStart c = true) :
    isIdentifierStart c = true := by
  have part : isAsciiIdentifierPart c = true := by rw [isAsciiIdentifierPart, h, Bool.true_or]
  rw [isIdentifierStart, if_pos (lt_of_isAsciiIdentifierPart part), h]

theorem isIdentifierPart_of_ascii {c : Char} (h : isAsciiIdentifierPart c = true) :
    isIdentifierPart c = true := by
  rw [isIdentifierPart, if_pos (lt_of_isAsciiIdentifierPart h), h]

/-- A text does not go on with a name that stands before it. -/
def EndsName (text : List Char) : Prop := ∀ c ∈ text.head?, isIdentifierPart c = false ∧ c ≠ '\\'

theorem endsName_cons {c : Char} (h : isIdentifierPart c = false ∧ c ≠ '\\') :
    EndsName (c :: text) := by
  intro d mem
  obtain rfl : c = d := by simpa using mem
  exact h

/-- A name that has been begun is read to its end. -/
theorem scanName_append {first : Char} {read name : List Char}
    (parts : ∀ c ∈ name, isAsciiIdentifierPart c = true) (ends : EndsName rest) :
    scanName .plain (first :: read) false pos (name ++ rest) =
      ⟨(first :: read).reverse ++ name, false, rest, pos + name.length, none⟩ := by
  induction name generalizing first read pos with
  | nil =>
    cases rest with
    | nil => simp [scanName]
    | cons c rest =>
      obtain ⟨part, slash⟩ := ends c rfl
      simp [scanName, fitsName, part, slash]
  | cons c name ih =>
    have part := parts c List.mem_cons_self
    have fits := isIdentifierPart_of_ascii part
    have slash : c ≠ '\\' := by
      rintro rfl
      revert part
      decide
    have size : c.utf8Size = 1 := utf8Size_of_lt (lt_of_isAsciiIdentifierPart part)
    rw [List.cons_append, scanName, if_neg slash, if_pos (by simpa [fitsName] using fits), size,
      ih fun d mem => parts d (List.mem_cons_of_mem _ mem)]
    simp [Nat.add_comm, Nat.add_left_comm]

/-- **An identifier is one word**, if the text after it does not go on with it. -/
theorem Spells.word {name : List Char} (identifier : AsciiIdentifier name) (ends : EndsName rest)
    (h : Spells (pos + name.length) rest kinds) :
    Spells pos (name ++ rest)
      (.word (String.ofList name) (Keyword.ofText? (String.ofList name)) :: kinds) := by
  obtain ⟨⟨c, first, start⟩, parts⟩ := identifier
  cases name with
  | nil => cases first
  | cons d name =>
    obtain rfl : d = c := by simpa using first
    have begins := isIdentifierStart_of_ascii start
    have part := parts d List.mem_cons_self
    have solid : isLineEnd d = false ∧ isSpace d = false ∧ d ≠ '/' ∧ d ≠ '\\' := by
      have all : ∀ n < 128, isAsciiIdentifierPart (Char.ofNat n) = true →
          isLineEnd (Char.ofNat n) = false ∧ isSpace (Char.ofNat n) = false ∧
            Char.ofNat n ≠ '/' ∧ Char.ofNat n ≠ '\\' := by decide
      have here := all d.toNat (lt_of_isAsciiIdentifierPart part)
      rw [Char.ofNat_toNat] at here
      exact here part
    have size : d.utf8Size = 1 := utf8Size_of_lt (lt_of_isAsciiIdentifierPart part)
    have scanned : scanName .plain [] false pos (d :: (name ++ rest)) =
        ⟨d :: name, false, rest, pos + (d :: name).length, none⟩ := by
      have rest_parts : ∀ c ∈ name, isAsciiIdentifierPart c = true := fun c mem =>
        parts c (List.mem_cons_of_mem _ mem)
      rw [scanName, if_neg solid.2.2.2, if_pos (by simpa [fitsName] using begins), size,
        scanName_append rest_parts ends]
      simp [Nat.add_comm, Nat.add_left_comm]
    have read : nextToken pos (d :: name ++ rest) =
        ⟨⟨.word (String.ofList (d :: name)) (Keyword.ofText? (String.ofList (d :: name))),
          ⟨pos, pos + (d :: name).length⟩, false, false⟩, rest, pos + (d :: name).length, []⟩ := by
      rw [List.cons_append, nextToken_eq ⟨solid.1, solid.2.1⟩ solid.2.2.1, lexToken.eq_def]
      simp only [begins, Bool.true_or, ↓reduceIte, scanned]
    exact .cons read h

/-- A word that is given by its spelling. -/
theorem Spells.spelled {word : String} {keyword : Option Keyword}
    (identifier : AsciiIdentifier word.toList) (known : Keyword.ofText? word = keyword)
    (ends : EndsName rest) (h : Spells (pos + word.toList.length) rest kinds) :
    Spells pos (word.toList ++ rest) (.word word keyword :: kinds) := by
  have read := Spells.word identifier ends h
  rwa [String.ofList_toList, known] at read

/-! ## Punctuators and texts -/

/-- A character begins a punctuator: no trivia, word, number or text begins with it. -/
def beginsMark (c : Char) : Bool :=
  !isLineEnd c && !isSpace c && !isIdentifierStart c && !c.isDigit && c.toNat != 0x60 &&
    !List.contains ['/', '.', '\\', '"', '\'', '#'] c

/-- A punctuator of one character. -/
theorem Spells.mark {c : Char} {p : Punct} (begins : beginsMark c = true) (single : p.text.length = 1)
    (read : Punct.read? (c :: text) = some p) (h : Spells (pos + 1) text kinds) :
    Spells pos (c :: text) (.punct p :: kinds) := by
  simp only [beginsMark, Bool.and_eq_true, Bool.not_eq_true', bne_iff_ne, List.contains_eq_mem,
    List.mem_cons, List.not_mem_nil, or_false, decide_eq_false_iff_not, not_or] at begins
  obtain ⟨⟨⟨⟨⟨noEnd, noSpace⟩, noStart⟩, noDigit⟩, noTemplate⟩, slash, dot, escape, quote, single', hash⟩ :=
    begins
  have token : nextToken pos (c :: text) =
      ⟨⟨.punct p, ⟨pos, pos + 1⟩, false, false⟩, text, pos + 1, []⟩ := by
    rw [nextToken_eq ⟨noEnd, noSpace⟩ slash, lexToken.eq_def]
    simp [noStart, noDigit, noTemplate, dot, escape, quote, single', hash, read, single]
  exact .cons token h

/-- **A quoted text is one string**, which denotes it. -/
theorem Spells.quote {target : String}
    (h : Spells (pos + byteLength (quote target).toList) rest kinds) :
    Spells pos ((quote target).toList ++ rest) (.literal (.string target) "string" :: kinds) := by
  have begins : (Text.quote target).toList ++ rest =
      '"' :: (target.toList.flatMap escapeChar ++ '"' :: rest) := by simp [Text.quote, quoteChars]
  have read : nextToken pos ((Text.quote target).toList ++ rest) =
      ⟨⟨.literal (.string target) "string", ⟨pos, pos + byteLength (Text.quote target).toList⟩, false,
        false⟩, rest, pos + byteLength (Text.quote target).toList, []⟩ := by
    rw [begins, nextToken_eq ⟨by decide, by decide⟩ (by decide), ← begins, lexToken_quote]
  exact .cons read h

end ModuleInterop.Syntax
