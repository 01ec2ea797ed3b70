/-
  Evaluating a condition against a record.

  1. **Leaves** (`Test.check`): an absent property counts as `null`.  Ordering and text tests are
     false of `null`, and end in a TYPE MISMATCH where they meet a value they cannot compare.
  2. **Groups** go from left to right and stop at the first child that DECIDES them: a false one
     under `AND`, a true one under `OR`.  A mismatch stops them as well.
  3. **Reads**: which properties were looked up, in order, is part of the outcome, since a group
     that is decided early leaves the rest of its properties alone.
-/
import Caret.Condition.Basic
import Caret.Record

namespace Caret

/-! ## Type mismatches -/

/-- What a test can compare with. -/
inductive Expectation where
  | number
  | text
  deriving DecidableEq

def Expectation.phrase : Expectation → String
  | number => "a numeric value"
  | text => "a string or number"

/-- A test met a value that it cannot compare with. -/
structure TypeMismatch where
  property : String
  expected : Expectation
  found : Value.Kind
  deriving DecidableEq

def TypeMismatch.message (e : TypeMismatch) : String :=
  "property '" ++ e.property ++ "' holds a " ++ e.found.name ++ ", expected " ++ e.expected.phrase

/-! ## Leaves -/

def EqualityOp.holds (op : EqualityOp) (v w : Value) : Bool :=
  match op with
  | eq => v.looseEq w
  | ne => !v.looseEq w

def OrderOp.holds (op : OrderOp) (x threshold : Number) : Bool :=
  match op with
  | lt => x.less threshold
  | lte => x.lessOrEqual threshold
  | gt => threshold.less x
  | gte => threshold.lessOrEqual x

def TextOp.holds (op : TextOp) (whole part : String) : Bool :=
  match op with
  | startsWith => part.toList.isPrefixOf whole.toList
  | contains => Text.occursIn part.toList whole.toList
  | endsWith => part.toList.isSuffixOf whole.toList

def PresenceOp.holds (op : PresenceOp) (v : Value) : Bool :=
  match op with
  | null => v = .null
  | blank => v = .string ""
  | empty => v = .null || v = .string ""

namespace Test

/-- Put a test to the value of a property, `null` if the property is absent.  Text tests see a
    number as its text. -/
def check (test : Test) (property : String) (actual : Value) : Except TypeMismatch Bool :=
  match test with
  | equality op comparand => .ok (op.holds actual comparand)
  | order op threshold =>
    if actual = .null then .ok false
    else match actual.asNumber? with
      | some x => .ok (op.holds x threshold)
      | none => .error ⟨property, .number, actual.kind⟩
  | text op pattern =>
    match actual with
    | .null => .ok false
    | .bool _ => .error ⟨property, .text, actual.kind⟩
    | _ => .ok (op.holds actual.display pattern)
  | presence op => .ok (op.holds actual)

end Test

/-! ## Trees -/

/-- The result of an evaluation and the properties that it looked up, in order. -/
structure Outcome where
  result : Except TypeMismatch Bool
  reads : List String

namespace Outcome

/-- The opposite result; a mismatch stays. -/
def negate (o : Outcome) : Outcome := ⟨o.result.map not, o.reads⟩

/-- The same result after some earlier reads. -/
def after (earlier : List String) (o : Outcome) : Outcome := ⟨o.result, earlier ++ o.reads⟩

end Outcome

/-- The result of a child that decides a group. -/
def Connective.decisive : Connective → Bool
  | and => false
  | or => true

namespace Condition

mutual

/-- Evaluate a condition, keeping account of the reads. -/
def outcome (look : Lookup) : Condition → Outcome
  | leaf property test => ⟨test.check property ((look property).getD .null), [property]⟩
  | group op children => outcomeOfAll look op.decisive children
  | negation child => (outcome look child).negate

/-- Evaluate children up to the first one with the decisive result. -/
def outcomeOfAll (look : Lookup) (decisive : Bool) : List Condition → Outcome
  | [] => ⟨.ok (!decisive), []⟩
  | c :: cs =>
    match outcome look c with
    | ⟨.ok b, reads⟩ =>
      if b = decisive then ⟨.ok b, reads⟩ else (outcomeOfAll look decisive cs).after reads
    | ⟨.error e, reads⟩ => ⟨.error e, reads⟩

end

/-- The truth of a condition, or the mismatch that stopped its evaluation. -/
def evaluate (c : Condition) (look : Lookup) : Except TypeMismatch Bool := (c.outcome look).result

/-- The properties that evaluation looks up, in order and with repeats. -/
def reads (c : Condition) (look : Lookup) : List String := (c.outcome look).reads

/-- Does the condition hold?  A mismatch counts as no. -/
def holds (c : Condition) (look : Lookup) : Bool :=
  match c.evaluate look with
  | .ok b => b
  | .error _ => false

/-! ## Results and reads of groups and negations

  Proofs about evaluation cite these and leave `outcome` and `outcomeOfAll` closed. -/

section Results

variable {look : Lookup} {c : Condition} {cs : List Condition} {decisive b : Bool}
  {e : TypeMismatch}

theorem evaluate_negation_eq_ok_iff :
    (negation c).evaluate look = .ok b ↔ c.evaluate look = .ok (!b) := by
  show (c.evaluate look).map not = .ok b ↔ _
  cases c.evaluate look with
  | error e => simp [Except.map]
  | ok b' => cases b' <;> cases b <;> simp [Except.map]

theorem evaluate_negation_eq_error_iff :
    (negation c).evaluate look = .error e ↔ c.evaluate look = .error e := by
  show (c.evaluate look).map not = .error e ↔ _
  cases c.evaluate look <;> simp [Except.map]

/-- A first child that does not decide is passed over; its reads stay. -/
theorem outcomeOfAll_cons_of_passes (h : c.evaluate look = .ok (!decisive)) :
    outcomeOfAll look decisive (c :: cs) =
      (outcomeOfAll look decisive cs).after (c.reads look) := by
  rw [evaluate] at h
  rw [outcomeOfAll, reads]
  rcases hc : outcome look c with ⟨result, reads⟩
  rw [hc] at h
  obtain rfl : result = .ok (!decisive) := h
  have hne : (!decisive) ≠ decisive := by cases decisive <;> decide
  simp only [if_neg hne]

/-- A first child that decides, or ends in a mismatch, is all that is evaluated. -/
theorem outcomeOfAll_cons_of_stops (h : c.evaluate look ≠ .ok (!decisive)) :
    outcomeOfAll look decisive (c :: cs) = c.outcome look := by
  rw [evaluate] at h
  rw [outcomeOfAll]
  rcases hc : outcome look c with ⟨_ | b, reads⟩
  · rfl
  · rw [hc] at h
    by_cases hb : b = decisive
    · simp only [if_pos hb]
    · exact absurd (congrArg Except.ok (Bool.eq_not.2 hb)) h

/-- Children have a truth value if the first one decides it, or else leaves it to the others. -/
theorem result_outcomeOfAll_cons_eq_ok_iff :
    (outcomeOfAll look decisive (c :: cs)).result = .ok b ↔
      c.evaluate look = .ok decisive ∧ decisive = b ∨
        c.evaluate look = .ok (!decisive) ∧ (outcomeOfAll look decisive cs).result = .ok b := by
  by_cases hpasses : c.evaluate look = .ok (!decisive)
  · rw [outcomeOfAll_cons_of_passes hpasses, hpasses]
    show (outcomeOfAll look decisive cs).result = .ok b ↔ _
    simp
  · rw [outcomeOfAll_cons_of_stops hpasses]
    show c.evaluate look = .ok b ↔ _
    revert hpasses
    cases c.evaluate look with
    | error e => simp
    | ok b' => cases b' <;> cases decisive <;> simp

/-- Children end in a mismatch if the first one does, or if it leaves them to the others. -/
theorem result_outcomeOfAll_cons_eq_error_iff :
    (outcomeOfAll look decisive (c :: cs)).result = .error e ↔
      c.evaluate look = .error e ∨
        c.evaluate look = .ok (!decisive) ∧ (outcomeOfAll look decisive cs).result = .error e := by
  by_cases hpasses : c.evaluate look = .ok (!decisive)
  · rw [outcomeOfAll_cons_of_passes hpasses, hpasses]
    show (outcomeOfAll look decisive cs).result = .error e ↔ _
    simp
  · rw [outcomeOfAll_cons_of_stops hpasses]
    show c.evaluate look = .error e ↔ _
    simp [hpasses]

end Results

end Condition

end Caret
