/-
  One order behind `EQ` and `NE` and behind the four ordering tests.

  The two kinds of test come to their numbers in different ways.  An equality test reads both sides
  at evaluation, and reads `null`, truth values, `nan` and the infinities too.  An ordering test
  coerces its comparand when it is built and the record's value when it is evaluated, and takes
  finite numbers only.  Where both sides coerce, the two ways lead to the same place:

  1. **Positions** — between finite numbers every relation is the one between their positions
     (`OrderOp.holds_eq`), and positions are integers.

  2. **Answers** — an ordering test can be built and has a truth value (`answers_order_iff`), and
     an equality test asks whether the positions are the same (`evaluate_equality`).

  3. **One order** — so the six tests against one comparand are the six relations to one integer,
     and a greater comparand has more values below it (`order_agrees`).
-/
import Caret.Condition.Evaluation
import Caret.Proofs.LooseEquality

namespace Caret

/-! ## Positions -/

namespace Number

theorem ne_nan_of_isFinite {x : Number} (h : x.isFinite = true) : x ≠ .nan := by
  rintro rfl
  cases h

/-- A finite number has a position, as only `nan` has none. -/
theorem exists_position_of_isFinite {x : Number} (h : x.isFinite = true) :
    ∃ i, x.position? = some i :=
  Option.ne_none_iff_exists'.1 fun hnone => ne_nan_of_isFinite h (position?_eq_none_iff.1 hnone)

/-- A relation between numbers is the relation between their positions. -/
theorem compareBy_eq {relation : Int → Int → Bool} {x y : Number} {i j : Int}
    (hx : x.position? = some i) (hy : y.position? = some j) :
    compareBy relation x y = relation i j := by
  rw [compareBy, hx, hy]

end Number

namespace OrderOp

/-- How an ordering test relates the position of a value to the position of its threshold. -/
def relates : OrderOp → Int → Int → Bool
  | lt, i, j => i < j
  | lte, i, j => i ≤ j
  | gt, i, j => j < i
  | gte, i, j => j ≤ i

/-- Of two integers one is less, or else they are equal; so each loose relation is its strict one
    or equality, and the opposite of the other strict one. -/
theorem relates_trichotomy (i j : Int) :
    [lt.relates i j, decide (i = j), gt.relates i j].count true = 1 ∧
      (lte.relates i j = (lt.relates i j || decide (i = j)) ∧ lte.relates i j = !gt.relates i j) ∧
      gte.relates i j = (gt.relates i j || decide (i = j)) ∧ gte.relates i j = !lt.relates i j := by
  rcases Int.lt_trichotomy i j with h | rfl | h
  · simp [relates, h, Int.ne_of_lt h, Int.le_of_lt h, Int.not_le.2 h]
  · simp [relates]
  · simp [relates, h, Int.ne_of_gt h, Int.le_of_lt h, Int.not_le.2 h]

/-- **An ordering test compares positions.** -/
theorem holds_eq {op : OrderOp} {x threshold : Number} {i j : Int}
    (hx : x.position? = some i) (hthreshold : threshold.position? = some j) :
    op.holds x threshold = op.relates i j := by
  cases op with
  | lt => exact Number.compareBy_eq hx hthreshold
  | lte => exact Number.compareBy_eq hx hthreshold
  | gt => exact Number.compareBy_eq hthreshold hx
  | gte => exact Number.compareBy_eq hthreshold hx

end OrderOp

namespace Value

/-- Coercion finds the number that loose equality reads, and its position. -/
theorem exists_position_of_asNumber? {v : Value} {x : Number} (h : v.asNumber? = some x) :
    v.reading = .number x ∧ ∃ i, x.position? = some i := by
  obtain ⟨hreads, hfinite⟩ := asNumber?_eq_some_iff.1 h
  exact ⟨hreads, Number.exists_position_of_isFinite hfinite⟩

theorem ne_null_of_asNumber? {v : Value} {x : Number} (h : v.asNumber? = some x) : v ≠ .null := by
  rintro rfl
  cases h

end Value

/-! ## Answers -/

namespace Condition

/-- The condition can be built, and on the record it has this truth value. -/
def Answers (built : Except ConstructionError Condition) (look : Lookup) (b : Bool) : Prop :=
  ∃ c, built = .ok c ∧ c.evaluate look = .ok b

/-- Negating what was built turns its answer round. -/
theorem answers_map_negation_iff {built : Except ConstructionError Condition} {look : Lookup}
    {b : Bool} : Answers (built.map negation) look b ↔ Answers built look (!b) := by
  cases built with
  | error e => exact iff_of_false (fun ⟨c, h, _⟩ => nomatch h) fun ⟨c, h, _⟩ => nomatch h
  | ok c =>
    constructor
    · rintro ⟨d, hd, h⟩
      obtain rfl : negation c = d := Except.ok.inj hd
      exact ⟨c, rfl, evaluate_negation_eq_ok_iff.1 h⟩
    · rintro ⟨d, hd, h⟩
      obtain rfl : c = d := Except.ok.inj hd
      exact ⟨negation c, rfl, evaluate_negation_eq_ok_iff.2 h⟩

section Numeric

variable {property : String} {v comparand : Value} {n x : Number} {i j : Int} {look : Lookup}

/-- **An ordering test answers**, where the value that is found and the comparand both coerce, by
    the positions of the two numbers. -/
theorem answers_order_iff (op : OrderOp) {b : Bool} (hlook : look property = some v)
    (hv : v.asNumber? = some n) (hi : n.position? = some i) (hc : comparand.asNumber? = some x)
    (hj : x.position? = some j) :
    Answers (Condition.order property op comparand) look b ↔ op.relates i j = b := by
  have hbuilt : Condition.order property op comparand = .ok (leaf property (.order op x)) := by
    rw [Condition.order, hc]
  have hanswer : (leaf property (.order op x)).evaluate look = .ok (op.relates i j) := by
    show (Test.order op x).check property ((look property).getD .null) = _
    rw [hlook, Option.getD_some, Test.check, if_neg (Value.ne_null_of_asNumber? hv), hv,
      ← OrderOp.holds_eq hi hj]
  constructor
  · rintro ⟨c, hbuilt', h⟩
    cases hbuilt.symm.trans hbuilt'
    exact Except.ok.inj (hanswer.symm.trans h)
  · rintro rfl
    exact ⟨_, hbuilt, hanswer⟩

/-- **An equality test answers** by the same positions. -/
theorem evaluate_equality (op : EqualityOp) (hlook : look property = some v)
    (hv : v.reading = .number n) (hi : n.position? = some i) (hc : comparand.reading = .number x)
    (hj : x.position? = some j) :
    (Condition.equality property op comparand).evaluate look =
      .ok (match op with
        | .eq => decide (i = j)
        | .ne => !decide (i = j)) := by
  have hequal : v.looseEq comparand = decide (i = j) := by
    rw [Bool.eq_iff_iff, Value.looseEq_iff, hv, hc, Value.Reading.key, Value.Reading.key, hi, hj,
      Value.Key.number.injEq, Option.some.injEq, decide_eq_true_eq]
  show Except.ok (op.holds ((look property).getD .null) comparand) = _
  rw [hlook, Option.getD_some]
  cases op with
  | eq => rw [EqualityOp.holds, hequal]
  | ne => rw [EqualityOp.holds, hequal]

end Numeric

/-! ## One order -/

/-- **The six tests agree on one order.**  Where the value of a property and a comparand both
    coerce to numbers, all six tests answer.  Just one of `LT`, `EQ` and `GT` is true; `NE`, `LTE`
    and `GTE` are made of them as their names say, and so are the negations of `LT` and `GT`.  What
    is below a comparand is below every one that is no less, and what is above the greater of two
    is above the other. -/
theorem order_agrees (p : Property) {comparand v : Value} {x n : Number} {look : Lookup}
    (hlook : look p.name = some v) (hv : v.asNumber? = some n)
    (hcomparand : comparand.asNumber? = some x) :
    (∃ lt eq gt : Bool, [lt, eq, gt].count true = 1 ∧
        (p.equals comparand).evaluate look = .ok eq ∧
        (p.differs comparand).evaluate look = .ok (!eq) ∧
        Answers (p.below comparand) look lt ∧
        Answers (p.atMost comparand) look (lt || eq) ∧
        Answers (p.above comparand) look gt ∧
        Answers (p.atLeast comparand) look (gt || eq) ∧
        Answers ((p.below comparand).map negation) look (gt || eq) ∧
        Answers ((p.above comparand).map negation) look (lt || eq)) ∧
      ∀ greater y, greater.asNumber? = some y → x.lessOrEqual y = true →
        (Answers (p.below comparand) look true → Answers (p.below greater) look true) ∧
          (Answers (p.atMost comparand) look true → Answers (p.atMost greater) look true) ∧
          (Answers (p.above greater) look true → Answers (p.above comparand) look true) ∧
          (Answers (p.atLeast greater) look true → Answers (p.atLeast comparand) look true) := by
  obtain ⟨hreads, i, hi⟩ := Value.exists_position_of_asNumber? hv
  obtain ⟨hreads', j, hj⟩ := Value.exists_position_of_asNumber? hcomparand
  have hequality (op : EqualityOp) := evaluate_equality op hlook hreads hi hreads' hj
  have horder (op : OrderOp) {b : Bool} :=
    answers_order_iff op (b := b) hlook hv hi hcomparand hj
  obtain ⟨hcount, ⟨hlte, hlte'⟩, hgte, hgte'⟩ := OrderOp.relates_trichotomy i j
  refine ⟨⟨OrderOp.lt.relates i j, decide (i = j), OrderOp.gt.relates i j, hcount,
    hequality .eq, hequality .ne, (horder .lt).2 rfl, (horder .lte).2 hlte, (horder .gt).2 rfl,
    (horder .gte).2 hgte, ?_, ?_⟩, fun greater y hgreater hxy => ?_⟩
  · rw [answers_map_negation_iff, ← hgte, hgte', Bool.not_not]
    exact (horder .lt).2 rfl
  · rw [answers_map_negation_iff, ← hlte, hlte', Bool.not_not]
    exact (horder .gt).2 rfl
  · obtain ⟨-, k, hk⟩ := Value.exists_position_of_asNumber? hgreater
    have horder' (op : OrderOp) {b : Bool} :=
      answers_order_iff op (b := b) hlook hv hi hgreater hk
    have hjk : j ≤ k := of_decide_eq_true ((Number.compareBy_eq hj hk).symm.trans hxy)
    simp only [Property.below, Property.atMost, Property.above, Property.atLeast, horder, horder',
      OrderOp.relates, decide_eq_true_eq]
    omega

/-- A positive zero with blanks around it against a negative one with a power of ten: they are
    equal, so the value is not below this comparand, and it is at most `1`. -/
theorem order_agrees_zeros :
    let balance : Property := ⟨"balance"⟩
    let record := Record.ofList [("balance", .string " +0.00 ")]
    let comparand : Value := .string "-0e7"
    record.get? balance.name = some (.string " +0.00 ") ∧
      (Value.string " +0.00 ").asNumber? = some .zero ∧
      comparand.asNumber? = some (.signed true .zero) ∧
      (Value.number .one).asNumber? = some .one ∧
      (Number.signed true .zero).lessOrEqual .one = true ∧
      (balance.equals comparand).evaluate record.get? = .ok true ∧
      Answers (balance.below comparand) record.get? false ∧
      Answers ((balance.below comparand).map negation) record.get? true ∧
      Answers (balance.atMost comparand) record.get? true ∧
      Answers (balance.atMost (.number .one)) record.get? true := by
  intro balance record comparand
  have hlook : record.get? balance.name = some (.string " +0.00 ") := rfl
  have hvalue : (Value.string " +0.00 ").asNumber? = some .zero := by decide
  have hcomparand : comparand.asNumber? = some (.signed true .zero) := by decide
  have hone : (Value.number .one).asNumber? = some .one := by decide
  have hle : (Number.signed true .zero).lessOrEqual .one = true := by decide
  obtain ⟨⟨lt, eq, gt, hcount, hequals, -, hbelow, hatMost, -, -, hnotBelow, -⟩, hgreater⟩ :=
    order_agrees balance hlook hvalue hcomparand
  have hequal : (balance.equals comparand).evaluate record.get? = .ok true := rfl
  obtain rfl : eq = true := Except.ok.inj (hequals.symm.trans hequal)
  obtain rfl : lt = false := by
    cases lt with
    | false => rfl
    | true => cases gt <;> cases hcount
  rw [Bool.or_true] at hatMost hnotBelow
  exact ⟨hlook, hvalue, hcomparand, hone, hle, hequal, hbelow, hnotBelow, hatMost,
    (hgreater _ _ hone hle).2.1 hatMost⟩

end Condition

end Caret
