/-
  Text in double quotes, for messages: nothing in it can end the quotes, break the line or hide.
-/
import Caret.Text.Unprintable

namespace Caret.Text

/-- A character inside quotes: a name for the usual controls, a backslash before quote and
    backslash, the code point in hexadecimal for what cannot be printed. -/
def quotedChar (c : Char) : List Char :=
  if c = '\x00' then ['\\', '0']
  else if c = '\t' then ['\\', 't']
  else if c = '\r' then ['\\', 'r']
  else if c = '\n' then ['\\', 'n']
  else if c = '"' || c = '\\' then ['\\', c]
  else if isUnprintable c then ['\\', 'u', '\x7b'] ++ Nat.toDigits 16 c.toNat ++ ['\x7d']
  else [c]

/-- A text in double quotes. -/
def quoted (s : String) : String :=
  String.ofList ('"' :: s.toList.flatMap quotedChar ++ ['"'])

end Caret.Text
