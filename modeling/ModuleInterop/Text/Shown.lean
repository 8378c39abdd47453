import ModuleInterop.Text.Quoted
import ModuleInterop.Text.Visible

/-!
# Text shown in messages

A text as a message shows it: between double quotes, with an escape for everything that would not
show by itself.  The null character and the three common blanks have an escape of their own; other
characters are given by their number.
-/

set_option autoImplicit false

namespace ModuleInterop.Text

/-- The lowercase hexadecimal digits of a number. -/
def hexDigits (n : Nat) : List Char := Nat.toDigits 16 n

/-- How a character is shown. -/
def showChar (c : Char) : List Char :=
  if c = '"' then ['\\', '"']
  else if c = '\\' then ['\\', '\\']
  else if c = '\n' then ['\\', 'n']
  else if c = '\r' then ['\\', 'r']
  else if c = '\t' then ['\\', 't']
  else if c.toNat = 0 then ['\\', '0']
  else if isVisible c then [c]
  else '\\' :: 'u' :: '{' :: (hexDigits c.toNat ++ ['}'])

/-- A text as a message shows it. -/
def shown (text : String) : String :=
  String.ofList ('"' :: (text.toList.flatMap showChar ++ ['"']))

end ModuleInterop.Text
