/-
  Building conditions.

  Equality, text and presence tests can always be built.  An ordering test coerces its comparand to
  a number and a group needs a child, so these two can fail; with that, every condition built here
  is well-formed.
-/
import Caret.Condition.Basic

namespace Caret

/-- Why a condition could not be built. -/
inductive ConstructionError where
  | notNumeric (received : String)
  | noChildren (op : Connective)
  deriving DecidableEq

def ConstructionError.message : ConstructionError → String
  | notNumeric received =>
    "value must be a number or a numeric string, received '" ++ received ++ "'"
  | noChildren op => op.keyword ++ " condition requires at least one child"

namespace Condition

/-! ## Leaves -/

def equality (property : String) (op : EqualityOp) (comparand : Value) : Condition :=
  leaf property (.equality op comparand)

/-- An ordering test; the comparand has to be a finite number or text that reads as one. -/
def order (property : String) (op : OrderOp) (comparand : Value) :
    Except ConstructionError Condition :=
  match comparand.asNumber? with
  | some x => .ok (leaf property (.order op x))
  | none => .error (.notNumeric comparand.display)

def text (property : String) (op : TextOp) (pattern : String) : Condition :=
  leaf property (.text op pattern)

def presence (property : String) (op : PresenceOp) : Condition := leaf property (.presence op)

/-! ## Groups and negations -/

/-- Combine conditions under one connective. -/
def combine (op : Connective) (children : List Condition) : Except ConstructionError Condition :=
  if children.isEmpty then .error (.noChildren op) else .ok (group op children)

/-- The conjunction of some conditions. -/
def all : List Condition → Except ConstructionError Condition := combine .and

/-- The disjunction of some conditions. -/
def any : List Condition → Except ConstructionError Condition := combine .or

/-- Join two conditions: the second becomes the last child of the first if that is a group of the
    same connective, and otherwise they become a group of two. -/
def join (op : Connective) (c d : Condition) : Condition :=
  match c with
  | group op' children => if op' = op then group op (children ++ [d]) else group op [c, d]
  | _ => group op [c, d]

def and (c d : Condition) : Condition := join .and c d

def or (c d : Condition) : Condition := join .or c d

end Condition

/-! ## Tests by the name of a property -/

/-- A property by name, to start a test from: `(Property.mk "age").atLeast (.string "18")`. -/
structure Property where
  name : String

namespace Property

def equals (p : Property) (v : Value) : Condition := .equality p.name .eq v

def differs (p : Property) (v : Value) : Condition := .equality p.name .ne v

def below (p : Property) (v : Value) : Except ConstructionError Condition :=
  Condition.order p.name .lt v

def atMost (p : Property) (v : Value) : Except ConstructionError Condition :=
  Condition.order p.name .lte v

def above (p : Property) (v : Value) : Except ConstructionError Condition :=
  Condition.order p.name .gt v

def atLeast (p : Property) (v : Value) : Except ConstructionError Condition :=
  Condition.order p.name .gte v

def startsWith (p : Property) (s : String) : Condition := .text p.name .startsWith s

def contains (p : Property) (s : String) : Condition := .text p.name .contains s

def endsWith (p : Property) (s : String) : Condition := .text p.name .endsWith s

def isNull (p : Property) : Condition := .presence p.name .null

def isBlank (p : Property) : Condition := .presence p.name .blank

def isEmpty (p : Property) : Condition := .presence p.name .empty

end Property

end Caret
