/-
  Why tokens do not form a condition.

  Every error but the end of the input names the offset of the first token that cannot stand where
  it stands; most also say what could have stood there.
-/
import Caret.Token.Basic
import Caret.Condition.Build

namespace Caret

/-- What could have stood in the place of an error. -/
inductive Expected where
  | kind (k : Token.Kind)
  /-- A property name, or one of `AND`, `OR` and `NOT`. -/
  | nodeStart
  /-- The keyword of a test. -/
  | leafOperator
  /-- `,` or `]`. -/
  | delimiterOrClose
  deriving DecidableEq

def Expected.display : Expected → String
  | kind k => k.display
  | nodeStart => "property or AND/OR/NOT"
  | leafOperator => "comparison operator"
  | delimiterOrClose => "',' or ']'"

inductive ParseError where
  | unexpectedToken (expected : Expected) (found : String) (offset : Nat)
  | unexpectedEnd (expected : Expected)
  | unknownOperator (keyword : String) (expected : Expected) (offset : Nat)
  | emptyGroup (op : Connective) (expected : Expected) (offset : Nat)
  | invalidOperand (offset : Nat) (cause : ConstructionError)
  | trailingInput (found : String) (offset : Nat)
  | tooDeep (limit : Nat) (offset : Nat)
  deriving DecidableEq

namespace ParseError

/-- The offset of the offending token, if there was one. -/
def offset? : ParseError → Option Nat
  | unexpectedToken _ _ offset => some offset
  | unexpectedEnd _ => none
  | unknownOperator _ _ offset => some offset
  | emptyGroup _ _ offset => some offset
  | invalidOperand offset _ => some offset
  | trailingInput _ offset => some offset
  | tooDeep _ offset => some offset

/-- What could have stood there, where the error says so. -/
def expected? : ParseError → Option Expected
  | unexpectedToken expected _ _ => some expected
  | unexpectedEnd expected => some expected
  | unknownOperator _ expected _ => some expected
  | emptyGroup _ expected _ => some expected
  | _ => none

/-- The construction error behind an invalid operand. -/
def cause? : ParseError → Option ConstructionError
  | invalidOperand _ cause => some cause
  | _ => none

def message : ParseError → String
  | unexpectedToken expected found offset =>
    "parse error at offset " ++ toString offset ++ ": expected " ++ expected.display ++
      ", found " ++ found
  | unexpectedEnd expected =>
    "parse error: expected " ++ expected.display ++ ", found end of input"
  | unknownOperator keyword expected offset =>
    "parse error at offset " ++ toString offset ++ ": operator '" ++ keyword ++
      "' is not valid here, expected " ++ expected.display
  | emptyGroup op expected offset =>
    "parse error at offset " ++ toString offset ++ ": " ++ op.keyword ++
      " requires at least one child condition, expected " ++ expected.display
  | invalidOperand offset cause =>
    "parse error at offset " ++ toString offset ++ ": " ++ cause.message
  | trailingInput found offset =>
    "parse error at offset " ++ toString offset ++ ": trailing " ++ found ++
      " after a complete condition"
  | tooDeep limit offset =>
    "parse error at offset " ++ toString offset ++ ": nesting deeper than " ++ toString limit

end ParseError

end Caret
