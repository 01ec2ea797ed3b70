/-
  The failures of building, parsing and evaluating under one type, for programs that do all three
  in a row: each stage's error goes into it as it is, and its message stays the same.
-/
import Caret.Condition.Evaluation
import Caret.Parse

namespace Caret

inductive Failure where
  | construction (cause : ConstructionError)
  | parse (cause : ParseError)
  | evaluation (cause : TypeMismatch)
  deriving DecidableEq

namespace Failure

def message : Failure → String
  | construction cause => cause.message
  | parse cause => cause.message
  | evaluation cause => cause.message

/-- The error behind the failure, where it has one: a parse can fail for an operand that does not
    make a condition. -/
def source? : Failure → Option ConstructionError
  | construction _ => none
  | parse cause => cause.cause?
  | evaluation _ => none

end Failure

/-- Evaluate a condition that is still to be built or parsed. -/
def evaluateBuilt (built : Except Failure Condition) (look : Lookup) : Except Failure Bool :=
  match built with
  | .ok c => (c.evaluate look).mapError .evaluation
  | .error e => .error e

end Caret
