/-
  Tokens of caret notation.

  Six structural characters, operator keywords, and operands: every other run of word characters.
  A token carries its text and the offset in bytes where that text starts.
-/
import Caret.Operator

namespace Caret

namespace Token

inductive Kind where
  | openParen
  | closeParen
  | openBracket
  | closeBracket
  | separator
  | delimiter
  | operator
  | operand
  deriving DecidableEq

namespace Kind

/-- The kind of a structural character. -/
def ofChar? : Char → Option Kind
  | '(' => some openParen
  | ')' => some closeParen
  | '[' => some openBracket
  | ']' => some closeBracket
  | '^' => some separator
  | ',' => some delimiter
  | _ => none

/-- A kind in messages. -/
def display : Kind → String
  | openParen => "'('"
  | closeParen => "')'"
  | openBracket => "'['"
  | closeBracket => "']'"
  | separator => "'^'"
  | delimiter => "','"
  | operator => "operator"
  | operand => "operand"

/-- Does a message name the token's text beside its kind? -/
def hasText : Kind → Bool
  | operator => true
  | operand => true
  | _ => false

end Kind

end Token

structure Token where
  kind : Token.Kind
  text : String
  /-- Where the text starts in the source, in bytes. -/
  offset : Nat
  deriving DecidableEq

/-- A token in messages. -/
def Token.display (t : Token) : String :=
  if t.kind.hasText then t.kind.display ++ " '" ++ t.text ++ "'" else t.kind.display

end Caret
