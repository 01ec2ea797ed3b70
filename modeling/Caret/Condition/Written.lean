/-
  Conditions in caret notation.

      (property^OP^comparand)      equality, ordering and text tests
      (property^OP)                presence tests
      (AND[child,child,...])       groups
      (NOT(child))                 negations

  Names and comparands are written bare.  So only texts made of word characters are sure to read
  back; `Condition.exactText?` in `Caret.Parse` tells whether a given tree does.
-/
import Caret.Condition.Basic

namespace Caret

/-- A test as it follows the name of its property. -/
def Test.spelling (test : Test) : List Char :=
  '^' :: test.operator.keyword.toList ++
    match test.comparand? with
    | some s => '^' :: s.toList
    | none => []

namespace Condition

mutual

/-- The characters of the written form. -/
def spelling : Condition → List Char
  | leaf property test => '(' :: property.toList ++ test.spelling ++ [')']
  | group op children =>
    '(' :: op.keyword.toList ++ '[' :: spellingOfChildren children ++ [']', ')']
  | negation child => '(' :: Operator.not.keyword.toList ++ child.spelling ++ [')']

/-- Children are parted by commas. -/
def spellingOfChildren : List Condition → List Char
  | [] => []
  | c :: cs => c.spelling ++ spellingOfFurther cs

/-- The children after the first, each after its comma. -/
def spellingOfFurther : List Condition → List Char
  | [] => []
  | c :: cs => ',' :: c.spelling ++ spellingOfFurther cs

end

/-- The written form of a condition. -/
def written (c : Condition) : String := String.ofList c.spelling

end Condition

end Caret
