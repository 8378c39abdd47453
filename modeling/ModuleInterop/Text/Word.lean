import ModuleInterop.Text.Letter

/-!
# Words in running text

A word character is an alphabetic character, a mark, a decimal digit, a connector such as `_`, or a
joiner; the dollar sign is none.  A keyword stands in a text *as a word* when no word character
touches it on either side (`containsWord`), so `日module` and `modules` do not contain `module`,
while `$module` does.
-/

set_option autoImplicit false

namespace ModuleInterop.Text

/-- Whether an ASCII character is a letter, a digit or `_`. -/
def isAsciiWordChar (c : Char) : Bool :=
  c.isAlphanum || c == '_'

/-- Alphabetic symbols (circled and squared letters), enclosing marks and joiners: the word
characters that are neither letters nor of an extending category. -/
def wordExtraRanges : List (Nat × Nat) := [
  (0x0488, 0x0489), (0x1ABE, 0x1ABE), (0x200C, 0x200D), (0x20DD, 0x20E0), (0x20E2, 0x20E4),
  (0x24B6, 0x24E9), (0xA670, 0xA672), (0x1F130, 0x1F149), (0x1F150, 0x1F169), (0x1F170, 0x1F189)]

/-- Whether a character can be part of a word. -/
def isWordChar (c : Char) : Bool :=
  if c.toNat < 0x80 then isAsciiWordChar c
  else isLetter c || isExtending c || inRanges wordExtraRanges c.toNat

/-- What follows `word` at the head of a text, if the text begins with it. -/
def dropLeading? : List Char → List Char → Option (List Char)
  | [], text => some text
  | _ :: _, [] => none
  | w :: word, c :: text => if w = c then dropLeading? word text else none

/-- Whether `word` begins the text and no word character follows it. -/
def startsWithWord (word text : List Char) : Bool :=
  match dropLeading? word text with
  | some (c :: _) => !isWordChar c
  | some [] => true
  | none => false

/-- Whether one of the words occurs in the text with no word character on either side; `inside`
tells whether a word character stands just before the text. -/
def containsWordFrom (words : List (List Char)) : Bool → List Char → Bool
  | inside, [] => !inside && words.any (startsWithWord · [])
  | inside, c :: text =>
    (!inside && words.any (startsWithWord · (c :: text))) ||
      containsWordFrom words (isWordChar c) text

/-- Whether one of the words occurs in the text as a word. -/
def containsWord (words : List (List Char)) (text : List Char) : Bool :=
  containsWordFrom words false text

/-- Whether `needle` occurs in the text, as a word or inside one. -/
def containsText (needle : List Char) : List Char → Bool
  | [] => needle.isEmpty
  | c :: text => (dropLeading? needle (c :: text)).isSome || containsText needle text

theorem dropLeading?_eq_some_iff {word text rest : List Char} :
    dropLeading? word text = some rest ↔ text = word ++ rest := by
  induction word generalizing text with
  | nil => simp [dropLeading?, eq_comm]
  | cons w word ih =>
    cases text with
    | nil => simp [dropLeading?]
    | cons c text =>
      by_cases h : w = c
      · simp [dropLeading?, h, ih]
      · simp [dropLeading?, h, Ne.symm h]

end ModuleInterop.Text
