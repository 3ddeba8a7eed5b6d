import TexTree.Text.Printable

/-!
# Quoted text

A quoted text stands between double quotes.  Quotes and backslashes are preceded
by a backslash, tabulators, line ends and the null character have short names,
and characters that are not printable are spelt by their code point.
-/

namespace TexTree.Text

/-- The digits of a number in base sixteen, with small letters. -/
def hexDigits (number : Nat) : List Char :=
  Nat.toDigits 16 number

/-- The form of one character inside a quoted text. -/
def quotedChar (character : Char) : List Char :=
  if character = '"' then ['\\', '"']
  else if character = '\\' then ['\\', '\\']
  else if character = '\n' then ['\\', 'n']
  else if character = '\r' then ['\\', 'r']
  else if character = '\t' then ['\\', 't']
  else if character.toNat = 0 then ['\\', '0']
  else if isPrintable character then [character]
  else ['\\', 'u', '\x7b'] ++ hexDigits character.toNat ++ ['\x7d']

/-- The text between double quotes. -/
def quoted (text : String) : String :=
  String.ofList (['"'] ++ text.toList.flatMap quotedChar ++ ['"'])

end TexTree.Text
