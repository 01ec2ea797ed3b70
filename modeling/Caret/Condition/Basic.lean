/-
  Conditions: trees of tests on the properties of a record.

  A LEAF tests one property, a GROUP combines an ordered list of conditions by `AND` or `OR`, and a
  NEGATION turns one round.  What a leaf asks of its property is a value of its own, `Test`, so
  that everything about leaves is said once and not per sort of test.

  This module holds the trees and what can be asked of them without a record: operator, property,
  depth, the nodes in order, sameness, and well-formedness.
-/
import Caret.Operator
import Caret.Value

namespace Caret

/-! ## Tests and trees -/

/-- What a leaf asks of the value of its property. -/
inductive Test where
  | equality (op : EqualityOp) (comparand : Value)
  | order (op : OrderOp) (threshold : Number)
  | text (op : TextOp) (pattern : String)
  | presence (op : PresenceOp)

inductive Condition where
  | leaf (property : String) (test : Test)
  | group (op : Connective) (children : List Condition)
  | negation (child : Condition)

namespace Test

def operator : Test → Operator
  | equality op _ => .equality op
  | order op _ => .order op
  | text op _ => .text op
  | presence op => .presence op

/-- The text that the value of the property is compared with; presence tests have none. -/
def comparand? : Test → Option String
  | equality _ v => some v.display
  | order _ x => some x.display
  | text _ s => some s
  | presence _ => none

/-- Equality of tests as data, numbers compared numerically. -/
def same : Test → Test → Bool
  | equality op v, equality op' w => op = op' && v.same w
  | order op x, order op' y => op = op' && x.equal y
  | text op s, text op' t => op = op' && s == t
  | presence op, presence op' => op = op'
  | _, _ => false

end Test

namespace Condition

/-! ## The shape of a tree -/

/-- The operator of the root. -/
def operator : Condition → Operator
  | leaf _ test => test.operator
  | group op _ => .connective op
  | negation _ => .not

/-- The property that a leaf tests. -/
def property? : Condition → Option String
  | leaf property _ => some property
  | group _ _ => none
  | negation _ => none

mutual

/-- Levels of nesting; a leaf has one. -/
def depth : Condition → Nat
  | leaf _ _ => 1
  | group _ children => 1 + greatestDepth children
  | negation child => 1 + child.depth

/-- The depth of the deepest of some conditions. -/
def greatestDepth : List Condition → Nat
  | [] => 0
  | c :: cs => max c.depth (greatestDepth cs)

end

mutual

/-- The condition and everything below it, each before what is below it, from left to right. -/
def nodes : Condition → List Condition
  | leaf property test => [leaf property test]
  | group op children => group op children :: nodesOfAll children
  | negation child => negation child :: child.nodes

def nodesOfAll : List Condition → List Condition
  | [] => []
  | c :: cs => c.nodes ++ nodesOfAll cs

end

mutual

/-- Equality of trees as data, numbers compared numerically: so a tree that compares with `nan` is
    not the same as itself. -/
def same : Condition → Condition → Bool
  | leaf p t, leaf q u => p == q && t.same u
  | group op cs, group op' ds => op = op' && sameAll cs ds
  | negation c, negation d => c.same d
  | _, _ => false

def sameAll : List Condition → List Condition → Bool
  | [], [] => true
  | c :: cs, d :: ds => c.same d && sameAll cs ds
  | _, _ => false

end

/-! ## Well-formed trees -/

mutual

/-- Every threshold is finite and every group has a child.  All ways to build a condition
    (`Caret.Condition.Build`, `Caret.Parse`) keep to this. -/
def WellFormed : Condition → Prop
  | leaf _ (.order _ threshold) => threshold.isFinite = true
  | leaf _ _ => True
  | group _ children => children ≠ [] ∧ AllWellFormed children
  | negation child => child.WellFormed

def AllWellFormed : List Condition → Prop
  | [] => True
  | c :: cs => c.WellFormed ∧ AllWellFormed cs

end

/-- A list of trees is well-formed if each of them is. -/
theorem allWellFormed_iff {cs : List Condition} :
    AllWellFormed cs ↔ ∀ c ∈ cs, c.WellFormed := by
  induction cs with
  | nil => exact iff_of_true trivial fun _ hc => nomatch hc
  | cons c cs ih => rw [AllWellFormed, ih, List.forall_mem_cons]

/-! ## Induction on trees -/

/-- To show a fact of all conditions, show it of leaves, of groups whose children all have it, and
    of negations whose child has it. -/
@[elab_as_elim, induction_eliminator]
theorem induction {motive : Condition → Prop}
    (leaf : ∀ property test, motive (leaf property test))
    (group : ∀ op children, (∀ c ∈ children, motive c) → motive (group op children))
    (negation : ∀ child, motive child → motive (negation child)) (c : Condition) : motive c :=
  Condition.rec (motive_1 := motive) (motive_2 := fun cs => ∀ c ∈ cs, motive c)
    leaf group negation (fun _ h => nomatch h)
    (fun _ _ hc hcs _ h => by
      rcases List.mem_cons.1 h with rfl | h
      · exact hc
      · exact hcs _ h) c

end Condition

end Caret
