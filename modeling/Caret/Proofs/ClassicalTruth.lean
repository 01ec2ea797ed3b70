/-
  Evaluation and classical truth.

  Evaluation has three outcomes, and a mismatch stops it, so the order of children matters and the
  laws of truth values fail.  Still a truth value that it returns is right, whatever the leaves that
  it left out or could not decide might have said.

  1. **Clashes** — a test clashes with a value that it cannot compare with (`Test.clashes`), and
     then the leaf alone ends in a mismatch (`Test.check_eq_error_iff`).

  2. **Truth** — `Condition.truth look fill` reads `AND` as all, `OR` as some and `NOT` as not.  A
     leaf that clashes is as true as the assignment `fill` makes it, any other as it evaluates.  An
     assignment tells leaves apart by their PLACE in the tree, not by what they ask.

  3. **Soundness** — a truth value that evaluation returns is the truth under every assignment, and
     a mismatch comes from a leaf that clashes.  By recursion on the tree.

  4. **Rearranging** the children of groups, at any depth, keeps the truth under an assignment that
     does not look at places.  So evaluation never turns from one truth value to the other
     (`evaluate_classical`).
-/
import Caret.Condition.Evaluation

namespace Caret

/-! ## Clashes -/

/-- A test that finds a value which it cannot compare with: an ordering test finds something else
    than a number, and not nothing, or a text test finds a truth value. -/
def Test.clashes : Test → Option Value → Bool
  | order _ _, some v => v ≠ .null && v.asNumber?.isNone
  | text _ _, some (.bool _) => true
  | _, _ => false

/-- **A test ends in a mismatch just where it clashes.** -/
theorem Test.check_eq_error_iff {test : Test} {property : String} {found : Option Value} :
    (∃ e, test.check property (found.getD .null) = .error e) ↔ test.clashes found = true := by
  cases test with
  | equality op comparand => simp [check, clashes]
  | presence op => simp [check, clashes]
  | order op threshold =>
    cases found with
    | none => simp [check, clashes]
    | some v =>
      by_cases hnull : v = .null
      · simp [check, clashes, hnull]
      · cases hv : v.asNumber? <;> simp [check, clashes, hnull, hv]
  | text op pattern =>
    cases found with
    | none => simp [check, clashes]
    | some v => cases v <;> simp [check, clashes]

namespace Condition

/-- Some leaf of the tree clashes with the record. -/
def Clashes (look : Lookup) (c : Condition) : Prop :=
  ∃ property test, leaf property test ∈ c.nodes ∧ test.clashes (look property) = true

end Condition

/-! ## Truth -/

/-- The truth of a group, given the truth of its children. -/
def Connective.over : Connective → List Bool → Bool
  | and, bs => bs.all id
  | or, bs => bs.any id

namespace Connective

theorem over_nil (op : Connective) : op.over [] = !op.decisive := by
  cases op <;> rfl

/-- A group is decided by its first child or left to the others. -/
theorem over_cons (op : Connective) (b : Bool) (bs : List Bool) :
    op.over (b :: bs) = if b = op.decisive then b else op.over bs := by
  cases op <;> cases b <;> rfl

/-- Truth knows no order. -/
theorem over_perm (op : Connective) {bs bs' : List Bool} (h : bs.Perm bs') :
    op.over bs = op.over bs' := by
  cases op with
  | and => exact h.all_eq
  | or => exact h.any_eq

end Connective

/-- A truth value for each place in a tree.  A place is where to go at each group on the way from
    the root, as the number of a child. -/
abbrev Assignment := List Nat → Bool

/-- The assignment as it looks from inside a child. -/
def Assignment.below (fill : Assignment) (i : Nat) : Assignment := fun place => fill (i :: place)

namespace Condition

mutual

/-- Classical truth on a record, where leaves that clash are true or false as assigned. -/
def truth (look : Lookup) (fill : Assignment) : Condition → Bool
  | leaf property test =>
    if test.clashes (look property) then fill [] else (leaf property test).holds look
  | group op children => op.over (truths look fill 0 children)
  | negation child => !truth look fill child

/-- The truth of children, numbered from `i` on. -/
def truths (look : Lookup) (fill : Assignment) (i : Nat) : List Condition → List Bool
  | [] => []
  | c :: cs => truth look (fill.below i) c :: truths look fill (i + 1) cs

end

/-! ## Soundness -/

mutual

/-- **A truth value that evaluation returns is the truth**, however the clashes are filled in. -/
theorem truth_of_evaluate (look : Lookup) : ∀ (c : Condition) (fill : Assignment) {b : Bool},
    c.evaluate look = .ok b → c.truth look fill = b
  | leaf property test, fill, b, h => by
    by_cases hclash : test.clashes (look property) = true
    · obtain ⟨e, he⟩ := Test.check_eq_error_iff.2 hclash
      cases h.symm.trans he
    · rw [truth, if_neg hclash, holds, h]
  | group op cs, fill, b, h => by
    rw [truth]
    exact over_truths_of_result look op cs fill 0 h
  | negation c, fill, b, h => by
    rw [truth, truth_of_evaluate look c fill (evaluate_negation_eq_ok_iff.1 h), Bool.not_not]

theorem over_truths_of_result (look : Lookup) (op : Connective) : ∀ (cs : List Condition)
    (fill : Assignment) (i : Nat) {b : Bool},
    (outcomeOfAll look op.decisive cs).result = .ok b → op.over (truths look fill i cs) = b
  | [], fill, i, b, h => by
    rw [truths, op.over_nil]
    exact Except.ok.inj h
  | c :: cs, fill, i, b, h => by
    rw [truths, op.over_cons]
    rcases result_outcomeOfAll_cons_eq_ok_iff.1 h with ⟨hc, rfl⟩ | ⟨hc, hcs⟩
    · rw [truth_of_evaluate look c (fill.below i) hc, if_pos rfl]
    · rw [truth_of_evaluate look c (fill.below i) hc, if_neg (Bool.not_eq_self _).1]
      exact over_truths_of_result look op cs fill (i + 1) hcs

end

mutual

/-- **A mismatch comes from a leaf that clashes.** -/
theorem clashes_of_error (look : Lookup) : ∀ (c : Condition) {e : TypeMismatch},
    c.evaluate look = .error e → c.Clashes look
  | leaf property test, e, h =>
    ⟨property, test, List.mem_singleton_self _, Test.check_eq_error_iff.1 ⟨e, h⟩⟩
  | group op cs, e, h => by
    obtain ⟨property, test, hmem, hclash⟩ := clash_of_result look op.decisive cs h
    exact ⟨property, test, List.mem_cons_of_mem _ hmem, hclash⟩
  | negation c, e, h => by
    obtain ⟨property, test, hmem, hclash⟩ :=
      clashes_of_error look c (evaluate_negation_eq_error_iff.1 h)
    exact ⟨property, test, List.mem_cons_of_mem _ hmem, hclash⟩

theorem clash_of_result (look : Lookup) (decisive : Bool) : ∀ (cs : List Condition)
    {e : TypeMismatch}, (outcomeOfAll look decisive cs).result = .error e →
    ∃ property test, leaf property test ∈ nodesOfAll cs ∧ test.clashes (look property) = true
  | [], e, h => nomatch h
  | c :: cs, e, h => by
    rcases result_outcomeOfAll_cons_eq_error_iff.1 h with hc | ⟨-, hcs⟩
    · obtain ⟨property, test, hmem, hclash⟩ := clashes_of_error look c hc
      exact ⟨property, test, List.mem_append_left _ hmem, hclash⟩
    · obtain ⟨property, test, hmem, hclash⟩ := clash_of_result look decisive cs hcs
      exact ⟨property, test, List.mem_append_right _ hmem, hclash⟩

end

/-! ## Rearranging -/

mutual

/-- The second tree is the first one with the children of its groups in another order, at any
    depth. -/
inductive Rearranged : Condition → Condition → Prop where
  | leaf (property : String) (test : Test) : Rearranged (leaf property test) (leaf property test)
  | group (op : Connective) {cs ds es : List Condition} (order : cs.Perm ds)
      (children : AllRearranged ds es) : Rearranged (group op cs) (group op es)
  | negation {c d : Condition} (child : Rearranged c d) : Rearranged (negation c) (negation d)

/-- Trees in the same order, each rearranged. -/
inductive AllRearranged : List Condition → List Condition → Prop where
  | nil : AllRearranged [] []
  | cons {c d : Condition} {cs ds : List Condition} (first : Rearranged c d)
      (further : AllRearranged cs ds) : AllRearranged (c :: cs) (d :: ds)

end

/-- The assignment that makes every clash false, whatever its place. -/
def allFalse : Assignment := fun _ => false

theorem truths_allFalse (look : Lookup) (cs : List Condition) :
    ∀ i, truths look allFalse i cs = cs.map (truth look allFalse) := by
  induction cs with
  | nil => exact fun i => rfl
  | cons c cs ih =>
    intro i
    rw [truths, ih (i + 1), List.map_cons]
    rfl

mutual

/-- Rearranging keeps the truth, as far as places do not matter. -/
theorem Rearranged.truth_eq (look : Lookup) {c d : Condition} :
    c.Rearranged d → c.truth look allFalse = d.truth look allFalse
  | .leaf property test => rfl
  | @Rearranged.group op cs ds es order children => by
    rw [truth, truth, truths_allFalse, truths_allFalse, ← children.map_truth_eq look]
    exact op.over_perm (order.map _)
  | .negation child => by
    rw [truth, truth, child.truth_eq look]

theorem AllRearranged.map_truth_eq (look : Lookup) {cs ds : List Condition} :
    AllRearranged cs ds → cs.map (truth look allFalse) = ds.map (truth look allFalse)
  | .nil => rfl
  | .cons first further => by
    rw [List.map_cons, List.map_cons, first.truth_eq look, further.map_truth_eq look]

end

/-- **Evaluation is sound for classical truth.**  A truth value that it returns is the truth under
    every assignment to the leaves that clash, and where it ends in a mismatch some leaf clashes.
    So without clashes it returns the truth.  And a tree whose groups are rearranged never
    evaluates to the other truth value. -/
theorem evaluate_classical (c : Condition) (look : Lookup) :
    (∀ b, c.evaluate look = .ok b → ∀ fill, c.truth look fill = b) ∧
      (∀ e, c.evaluate look = .error e → c.Clashes look) ∧
      (¬ c.Clashes look → ∀ fill, c.evaluate look = .ok (c.truth look fill)) ∧
      ∀ d, c.Rearranged d → ∀ b b', c.evaluate look = .ok b → d.evaluate look = .ok b' →
        b = b' := by
  refine ⟨fun b h fill => truth_of_evaluate look c fill h, fun e h => clashes_of_error look c h,
    fun hclash fill => ?_, fun d hd b b' hb hb' => ?_⟩
  · cases h : c.evaluate look with
    | error e => exact absurd (clashes_of_error look c h) hclash
    | ok b => rw [truth_of_evaluate look c fill h]
  · rw [← truth_of_evaluate look c allFalse hb, ← truth_of_evaluate look d allFalse hb']
    exact hd.truth_eq look

/-- A clash behind the child that decides a group is never met, so the group is true however the
    clash is filled in; rearranged, the group meets the clash first. -/
theorem evaluate_classical_decided :
    let record := Record.ofList [("name", .string "Ann"), ("open", .bool true)]
    let isOpen := leaf "open" (.equality .eq (.bool true))
    let above := leaf "name" (.order .gt .one)
    let c := group .or [isOpen, above]
    let d := group .or [above, isOpen]
    c.evaluate record.get? = .ok true ∧ (∀ fill, c.truth record.get? fill = true) ∧
      c.Rearranged d ∧ d.evaluate record.get? = .error ⟨"name", .number, .string⟩ ∧
      d.Clashes record.get? := by
  intro record isOpen above c d
  have hc : c.evaluate record.get? = .ok true := rfl
  have hd : d.evaluate record.get? = .error ⟨"name", .number, .string⟩ := rfl
  have hrearranged : c.Rearranged d :=
    .group .or (List.Perm.swap above isOpen []) (.cons (.leaf _ _) (.cons (.leaf _ _) .nil))
  exact ⟨hc, (evaluate_classical c record.get?).1 true hc, hrearranged, hd,
    (evaluate_classical d record.get?).2.1 _ hd⟩

end Condition

end Caret
