/-
  The laws of truth that evaluation keeps.

  Evaluation has an order and a third outcome, so `AND` and `OR` do not commute, and do not
  distribute from the right.  What stays are the laws that leave every child in its place.

  1. **Sequence** — `o.followedBy decisive p` puts two outcomes in a row, the second one only where
     the first neither decides nor is a mismatch.  This is associative, and the outcome of nothing
     is its unit; so the children of a group can be cut anywhere (`outcomeOfAll_append`).

  2. **Negation** takes a row under one connective to a row under the other one
     (`negate_followedBy`), with the same reads.

  3. **Distribution** — a first condition can be put in front of each of some others.  It is then
     looked at again and again, so this is a law of results only.

  4. **Chains** — joining conditions one after another extends a group where it can, and makes a new
     one where it cannot.  Each step means the same as a group of two (`join_interchangeable`), and
     by induction so does the chain.
-/
import Caret.Condition.Build
import Caret.Condition.Evaluation

namespace Caret

/-! ## Sequence -/

namespace Outcome

/-- Two outcomes in a row: the first one if it decides or is a mismatch, otherwise the second one
    after the reads of the first. -/
def followedBy (decisive : Bool) (o p : Outcome) : Outcome :=
  match o.result with
  | .ok b => if b = decisive then o else p.after o.reads
  | .error _ => o

/-- The outcome of no conditions at all. -/
def passed (decisive : Bool) : Outcome := ⟨.ok (!decisive), []⟩

variable {decisive : Bool} {o p q : Outcome}

theorem followedBy_of_passes (h : o.result = .ok (!decisive)) :
    o.followedBy decisive p = p.after o.reads := by
  have hne : (!decisive) ≠ decisive := by cases decisive <;> decide
  rw [followedBy, h]
  exact if_neg hne

/-- A mismatch stops a row, and so does the value that decides it. -/
theorem followedBy_of_stops (h : o.result ≠ .ok (!decisive)) : o.followedBy decisive p = o := by
  rw [followedBy]
  split
  · rename_i b hb
    rw [hb] at h
    by_cases hdecides : b = decisive
    · exact if_pos hdecides
    · exact absurd (congrArg Except.ok (Bool.eq_not.2 hdecides)) h
  · rfl

theorem followedBy_passed : o.followedBy decisive (passed decisive) = o := by
  by_cases h : o.result = .ok (!decisive)
  · rw [followedBy_of_passes h, after, passed, List.append_nil, ← h]
  · exact followedBy_of_stops h

theorem passed_followedBy : (passed decisive).followedBy decisive p = p :=
  followedBy_of_passes rfl

/-- **Rows can be bracketed as one likes.** -/
theorem followedBy_assoc : (o.followedBy decisive p).followedBy decisive q =
    o.followedBy decisive (p.followedBy decisive q) := by
  by_cases ho : o.result = .ok (!decisive)
  · rw [followedBy_of_passes ho, followedBy_of_passes ho]
    by_cases hp : p.result = .ok (!decisive)
    · rw [followedBy_of_passes hp, followedBy_of_passes (o := p.after o.reads) hp]
      show (⟨q.result, (o.reads ++ p.reads) ++ q.reads⟩ : Outcome) = _
      rw [List.append_assoc]
      rfl
    · rw [followedBy_of_stops hp, followedBy_of_stops (o := p.after o.reads) hp]
  · rw [followedBy_of_stops ho, followedBy_of_stops ho, followedBy_of_stops ho]

/-! ## Negation -/

/-- Negating twice gives the outcome back, a mismatch included. -/
theorem negate_negate (o : Outcome) : o.negate.negate = o := by
  obtain ⟨result, reads⟩ := o
  cases result with
  | error e => rfl
  | ok b => simp [negate, Except.map]

theorem result_negate_eq_ok_iff {b : Bool} : o.negate.result = .ok (!b) ↔ o.result = .ok b := by
  obtain ⟨result, reads⟩ := o
  cases result with
  | error e => simp [negate, Except.map]
  | ok b' => cases b' <;> cases b <;> simp [negate, Except.map]

/-- **The opposite of a row** is the row of the opposites, under the other connective. -/
theorem negate_followedBy : (o.followedBy decisive p).negate =
    o.negate.followedBy (!decisive) p.negate := by
  by_cases h : o.result = .ok (!decisive)
  · rw [followedBy_of_passes h, followedBy_of_passes (result_negate_eq_ok_iff.2 h)]
    rfl
  · rw [followedBy_of_stops h, followedBy_of_stops fun h' => h (result_negate_eq_ok_iff.1 h')]

end Outcome

/-- The other connective. -/
def Connective.dual : Connective → Connective
  | and => or
  | or => and

theorem Connective.decisive_dual (op : Connective) : op.dual.decisive = !op.decisive := by
  cases op <;> rfl

namespace Condition

open Outcome (passed)

/-- On every record the two conditions give the same result, a truth value or a mismatch, after
    the same reads. -/
def Interchangeable (c d : Condition) : Prop :=
  ∀ look, c.evaluate look = d.evaluate look ∧ c.reads look = d.reads look

/-- Result and reads are all that there is to an outcome. -/
theorem interchangeable_iff {c d : Condition} :
    c.Interchangeable d ↔ ∀ look, c.outcome look = d.outcome look := by
  refine ⟨fun h look => ?_, fun h look => ?_⟩
  · obtain ⟨hresult, hreads⟩ := h look
    show (⟨c.evaluate look, c.reads look⟩ : Outcome) = ⟨d.evaluate look, d.reads look⟩
    rw [hresult, hreads]
  · rw [evaluate, evaluate, reads, reads, h look]
    exact ⟨rfl, rfl⟩

/-! ## Children in a row -/

section Rows

variable (look : Lookup) (decisive : Bool)

/-- **Children are evaluated in a row.** -/
theorem outcomeOfAll_cons (c : Condition) (cs : List Condition) :
    outcomeOfAll look decisive (c :: cs) =
      (c.outcome look).followedBy decisive (outcomeOfAll look decisive cs) := by
  by_cases h : c.evaluate look = .ok (!decisive)
  · rw [outcomeOfAll_cons_of_passes h, Outcome.followedBy_of_passes h]
    rfl
  · rw [outcomeOfAll_cons_of_stops h, Outcome.followedBy_of_stops h]

theorem outcomeOfAll_singleton (c : Condition) :
    outcomeOfAll look decisive [c] = c.outcome look := by
  rw [outcomeOfAll_cons]
  exact Outcome.followedBy_passed

/-- **Children can be cut anywhere.** -/
theorem outcomeOfAll_append (cs ds : List Condition) :
    outcomeOfAll look decisive (cs ++ ds) =
      (outcomeOfAll look decisive cs).followedBy decisive (outcomeOfAll look decisive ds) := by
  induction cs with
  | nil => exact Outcome.passed_followedBy.symm
  | cons c cs ih =>
    rw [List.cons_append, outcomeOfAll_cons, outcomeOfAll_cons, ih, Outcome.followedBy_assoc]

/-- **Negating all children** negates the row of them, read with the other decisive value. -/
theorem outcomeOfAll_map_negation (cs : List Condition) :
    outcomeOfAll look (!decisive) (cs.map negation) = (outcomeOfAll look decisive cs).negate := by
  induction cs with
  | nil =>
    rw [List.map_nil, outcomeOfAll, outcomeOfAll]
    rfl
  | cons c cs ih =>
    rw [List.map_cons, outcomeOfAll_cons, outcomeOfAll_cons, ih, Outcome.negate_followedBy]
    rfl

end Rows

/-! ## Laws with the same reads -/

/-- **A group inside a group of its own connective** can be dissolved. -/
theorem splice_interchangeable (op : Connective) (xs ys zs : List Condition) :
    (group op (xs ++ [group op ys] ++ zs)).Interchangeable (group op (xs ++ ys ++ zs)) := by
  refine interchangeable_iff.2 fun look => ?_
  show outcomeOfAll look op.decisive _ = outcomeOfAll look op.decisive _
  rw [outcomeOfAll_append, outcomeOfAll_append, outcomeOfAll_append, outcomeOfAll_append,
    outcomeOfAll_singleton]
  rfl

/-- **Negation of a group** goes to its children. -/
theorem negation_group_interchangeable (op : Connective) (cs : List Condition) :
    (negation (group op cs)).Interchangeable (group op.dual (cs.map negation)) := by
  refine interchangeable_iff.2 fun look => ?_
  show (outcomeOfAll look op.decisive cs).negate = outcomeOfAll look op.dual.decisive _
  rw [op.decisive_dual, outcomeOfAll_map_negation]

theorem negation_negation_interchangeable (c : Condition) :
    (negation (negation c)).Interchangeable c :=
  interchangeable_iff.2 fun look => Outcome.negate_negate (c.outcome look)

theorem singleton_interchangeable (op : Connective) (c : Condition) :
    (group op [c]).Interchangeable c :=
  interchangeable_iff.2 fun look => outcomeOfAll_singleton look op.decisive c

/-! ## Distribution -/

section Distribution

variable {look : Lookup} {op : Connective} {a : Condition}

/-- A first child that passes leaves the result to the second. -/
theorem evaluate_pair_of_passes (h : a.evaluate look = .ok (!op.decisive)) (c : Condition) :
    (group op [a, c]).evaluate look = c.evaluate look := by
  show (outcomeOfAll look op.decisive [a, c]).result = _
  rw [outcomeOfAll_cons_of_passes h, outcomeOfAll_singleton]
  rfl

theorem evaluate_pair_of_stops (h : a.evaluate look ≠ .ok (!op.decisive)) (c : Condition) :
    (group op [a, c]).evaluate look = a.evaluate look := by
  show (outcomeOfAll look op.decisive [a, c]).result = _
  rw [outcomeOfAll_cons_of_stops h]
  rfl

/-- Children whose results are kept make a group whose result is kept. -/
theorem result_outcomeOfAll_map (decisive : Bool) {f : Condition → Condition}
    (h : ∀ c, (f c).evaluate look = c.evaluate look) (cs : List Condition) :
    (outcomeOfAll look decisive (cs.map f)).result = (outcomeOfAll look decisive cs).result := by
  induction cs with
  | nil => rfl
  | cons c cs ih =>
    rw [List.map_cons]
    by_cases hpasses : c.evaluate look = .ok (!decisive)
    · rw [outcomeOfAll_cons_of_passes hpasses, outcomeOfAll_cons_of_passes ((h c).trans hpasses)]
      exact ih
    · rw [outcomeOfAll_cons_of_stops hpasses, outcomeOfAll_cons_of_stops (h c ▸ hpasses)]
      exact h c

/-- Children that all evaluate alike make a group that evaluates like each of them. -/
theorem result_outcomeOfAll_const (decisive : Bool) {cs : List Condition} (hne : cs ≠ [])
    (h : ∀ c ∈ cs, c.evaluate look = a.evaluate look) :
    (outcomeOfAll look decisive cs).result = a.evaluate look := by
  induction cs with
  | nil => exact absurd rfl hne
  | cons c cs ih =>
    obtain ⟨hc, hcs⟩ := List.forall_mem_cons.1 h
    by_cases hpasses : c.evaluate look = .ok (!decisive)
    · rw [outcomeOfAll_cons_of_passes hpasses]
      cases cs with
      | nil =>
        show Except.ok (!decisive) = _
        rw [← hc, hpasses]
      | cons d ds => exact ih (List.cons_ne_nil d ds) hcs
    · rw [outcomeOfAll_cons_of_stops hpasses]
      exact hc

/-- **A first condition distributes** over the others, as far as results go. -/
theorem evaluate_distributes (op : Connective) (a : Condition) {ys : List Condition} (hne : ys ≠ [])
    (look : Lookup) : (group op [a, group op.dual ys]).evaluate look =
      (group op.dual (ys.map fun y => group op [a, y])).evaluate look := by
  by_cases h : a.evaluate look = .ok (!op.decisive)
  · -- the first condition passes, so it might as well not be there
    rw [evaluate_pair_of_passes h]
    exact (result_outcomeOfAll_map op.dual.decisive (evaluate_pair_of_passes h) ys).symm
  · rw [evaluate_pair_of_stops h]
    refine (result_outcomeOfAll_const op.dual.decisive ?_ fun c hc => ?_).symm
    · exact fun hnil => hne (List.map_eq_nil_iff.1 hnil)
    · obtain ⟨y, -, rfl⟩ := List.mem_map.1 hc
      exact evaluate_pair_of_stops h y

end Distribution

/-- **The laws of evaluation.**  A group inside a group of its own connective can be dissolved, a
    negation goes from a group to its children and two of them cancel, and a group of one child is
    that child: always with the same result, a mismatch included, and the same reads in the same
    order.  And a first condition distributes over the children of a group of the other connective,
    with the same result. -/
theorem evaluation_laws :
    (∀ op xs ys zs,
        (group op (xs ++ [group op ys] ++ zs)).Interchangeable (group op (xs ++ ys ++ zs))) ∧
      (∀ op ys, (negation (group op ys)).Interchangeable (group op.dual (ys.map negation))) ∧
      (∀ c, (negation (negation c)).Interchangeable c) ∧
      (∀ op c, (group op [c]).Interchangeable c) ∧
      ∀ op a ys, ys ≠ [] → ∀ look, (group op [a, group op.dual ys]).evaluate look =
        (group op.dual (ys.map fun y => group op [a, y])).evaluate look :=
  ⟨splice_interchangeable, negation_group_interchangeable, negation_negation_interchangeable,
    singleton_interchangeable, fun op a _ hne look => evaluate_distributes op a hne look⟩

/-- A name is given, and it is `Bob` or above `1`, which ends in a mismatch; distributed, the same
    mismatch comes after one more look at whether there is a name. -/
theorem evaluation_laws_mismatch :
    let record := Record.ofList [("name", .string "Ann")]
    let given := negation (leaf "name" (.presence .null))
    let isBob := leaf "name" (.equality .eq (.string "Bob"))
    let above := leaf "name" (.order .gt .one)
    let plain := group .and [given, group .or [isBob, above]]
    let distributed := group .or [group .and [given, isBob], group .and [given, above]]
    [isBob, above] ≠ [] ∧ plain.evaluate record.get? = .error ⟨"name", .number, .string⟩ ∧
      distributed.evaluate record.get? = .error ⟨"name", .number, .string⟩ ∧
      (plain.reads record.get?).length = 3 ∧ (distributed.reads record.get?).length = 4 := by
  intro record given isBob above plain distributed
  have hne : [isBob, above] ≠ [] := List.cons_ne_nil _ _
  have hplain : plain.evaluate record.get? = .error ⟨"name", .number, .string⟩ := rfl
  obtain ⟨-, -, -, -, hdistributes⟩ := evaluation_laws
  exact ⟨hne, hplain, (hdistributes .and given [isBob, above] hne record.get?).symm.trans hplain,
    rfl, rfl⟩

/-! ## Chains -/

/-- Conditions joined to a first one by `and` or `or`, one after another. -/
def chain (c : Condition) : List (Connective × Condition) → Condition
  | [] => c
  | (.and, d) :: steps => (c.and d).chain steps
  | (.or, d) :: steps => (c.or d).chain steps

/-- The same with a group of two for each step, whatever the conditions are. -/
def nest (c : Condition) : List (Connective × Condition) → Condition
  | [] => c
  | (op, d) :: steps => (group op [c, d]).nest steps

theorem chain_cons (c : Condition) (op : Connective) (d : Condition)
    (steps : List (Connective × Condition)) :
    c.chain ((op, d) :: steps) = (join op c d).chain steps := by
  cases op <;> rfl

theorem join_group (op : Connective) (cs : List Condition) (d : Condition) :
    join op (group op cs) d = group op (cs ++ [d]) :=
  if_pos rfl

/-- What is no group of the connective becomes the first child of one. -/
theorem join_of_ne {op : Connective} {c : Condition} (h : c.operator ≠ .connective op)
    (d : Condition) : join op c d = group op [c, d] := by
  cases c with
  | leaf property test => rfl
  | negation child => rfl
  | group op' cs => exact if_neg fun heq => h (congrArg Operator.connective heq)

/-- **Joining two conditions** means the same as a group of the two. -/
theorem join_interchangeable (op : Connective) (c d : Condition) :
    (join op c d).Interchangeable (group op [c, d]) := by
  by_cases h : c.operator = .connective op
  · cases c with
    | leaf property test => cases test <;> cases h
    | negation child => cases h
    | group op' cs =>
      obtain rfl : op' = op := Operator.connective.inj h
      rw [join_group]
      -- the group that was extended, dissolved in the group of two
      exact fun look => (splice_interchangeable op' [] cs [d] look).imp Eq.symm Eq.symm
  · rw [join_of_ne h]
    exact fun look => ⟨rfl, rfl⟩

/-- Only what the first condition of a chain means counts. -/
theorem chain_interchangeable {c c' : Condition} (h : c.Interchangeable c')
    (steps : List (Connective × Condition)) :
    (c.chain steps).Interchangeable (c'.nest steps) := by
  induction steps generalizing c c' with
  | nil => exact h
  | cons step steps ih =>
    obtain ⟨op, d⟩ := step
    rw [chain_cons]
    refine ih (interchangeable_iff.2 fun look => ?_)
    have hjoin := interchangeable_iff.1 (join_interchangeable op c d) look
    have hfirst := interchangeable_iff.1 h look
    rw [hjoin]
    show outcomeOfAll look op.decisive _ = outcomeOfAll look op.decisive _
    rw [outcomeOfAll_cons look _ c, outcomeOfAll_cons look _ c', hfirst]

/-- A group takes all conditions that are joined to it by its own connective. -/
theorem chain_group (op : Connective) (cs ds : List Condition) :
    (group op cs).chain (ds.map fun d => (op, d)) = group op (cs ++ ds) := by
  induction ds generalizing cs with
  | nil =>
    rw [List.append_nil]
    rfl
  | cons d ds ih =>
    rw [List.map_cons, chain_cons, join_group, ih, List.append_assoc]
    rfl

/-- **Chaining keeps the meaning.**  Whatever is joined by whichever connectives, the condition that
    results can take the place of the groups of two, nested from the left.  And conditions joined by
    one connective to one that is no group of it are the children of a single group, each as it is,
    in their order. -/
theorem chain_meaning (c : Condition) :
    (∀ steps, (c.chain steps).Interchangeable (c.nest steps)) ∧
      ∀ op d ds, c.operator ≠ .connective op →
        c.chain ((d :: ds).map fun e => (op, e)) = group op (c :: d :: ds) := by
  refine ⟨fun steps => chain_interchangeable (fun look => ⟨rfl, rfl⟩) steps, fun op d ds h => ?_⟩
  rw [List.map_cons, chain_cons, join_of_ne h, chain_group]
  rfl

/-- A disjunction joined to a disjunction stays a child of its own; the one that comes first would
    have been extended. -/
theorem chain_meaning_unspliced :
    let a := leaf "a" (.presence .null)
    let b := group .or [leaf "b" (.presence .null), leaf "c" (.presence .null)]
    a.operator ≠ .connective .or ∧ (a.or b).or b = group .or [a, b, b] ∧
      b.or a = group .or [leaf "b" (.presence .null), leaf "c" (.presence .null), a] := by
  intro a b
  have hleaf : a.operator ≠ .connective .or := nofun
  exact ⟨hleaf, (chain_meaning a).2 .or b [b] hleaf, rfl⟩

end Condition

end Caret
