/-
  Values: what a record holds and what an equality test compares with.

  1. **Display** — the bare text of a value: no quotes, no type mark.
  2. **Coercion to a number** — for the ordering tests: finite numbers, and text that reads as one.
  3. **Loose equality** — each side is first READ the way its text would read (`Value.reading`),
     then the readings are compared; so `5`, `"5"` and `" 5.0 "` are one comparand.
-/
import Caret.Number.Text
import Caret.Text

namespace Caret

inductive Value where
  | null
  | bool (b : Bool)
  | number (x : Number)
  | string (s : String)
  deriving DecidableEq

namespace Value

/-! ## Kinds and display -/

/-- Which of the four sorts of value it is. -/
inductive Kind where
  | null
  | bool
  | number
  | string
  deriving DecidableEq

/-- The kind's name in messages. -/
def Kind.name : Kind → String
  | null => "null"
  | bool => "bool"
  | number => "number"
  | string => "string"

def kind : Value → Kind
  | null => .null
  | bool _ => .bool
  | number _ => .number
  | string _ => .string

/-- The bare text of a value. -/
def display : Value → String
  | null => "null"
  | bool true => "true"
  | bool false => "false"
  | number x => x.display
  | string s => s

/-! ## Coercion to a number -/

/-- The number that a text stands for once the blanks around it are gone. -/
def numberOfText? (s : String) : Option Number := Number.ofChars? (Text.trim s.toList)

/-- Coerce to a finite number: `null`, truth values and everything infinite or `nan` do not. -/
def asNumber? : Value → Option Number
  | number x => if x.isFinite then some x else none
  | string s => (numberOfText? s).filter Number.isFinite
  | _ => none

/-! ## Loose equality -/

/-- A value as loose equality sees it. -/
inductive Reading where
  | null
  | bool (b : Bool)
  | number (x : Number)
  | text (s : String)
  deriving DecidableEq

/-- The texts `null`, `true` and `false` stand for those values, exactly as they are; numeric text,
    trimmed, for its number; any other text for itself. -/
def readingOfText (s : String) : Reading :=
  if s = "null" then .null
  else if s = "true" then .bool true
  else if s = "false" then .bool false
  else match numberOfText? s with
    | some x => .number x
    | none => .text s

def reading : Value → Reading
  | null => .null
  | bool b => .bool b
  | number x => .number x
  | string s => readingOfText s

/-- A truth value as a number. -/
def truthNumber (b : Bool) : Number := if b then .one else .zero

/-- Numbers agree if they are numerically equal or both `nan`; a truth value agrees with the number
    `1` or `0` that it counts for. -/
def Reading.agrees : Reading → Reading → Bool
  | .null, .null => true
  | .bool a, .bool b => a == b
  | .number x, .number y => x.equal y || (x = .nan && y = .nan)
  | .text s, .text t => s == t
  | .bool b, .number x => (truthNumber b).equal x
  | .number x, .bool b => (truthNumber b).equal x
  | _, _ => false

/-- Loose equality, the relation behind `EQ` and `NE`. -/
def looseEq (v w : Value) : Bool := v.reading.agrees w.reading

/-! ## Sameness -/

/-- Equality of values as data: of one kind, and numbers numerically equal.  So `0` is the same as
    `-0`, and `nan` is not the same as itself. -/
def same : Value → Value → Bool
  | null, null => true
  | bool a, bool b => a == b
  | number x, number y => x.equal y
  | string s, string t => s == t
  | _, _ => false

end Value

end Caret
