/-
  Evaluation leaf by leaf, and loose equality inside a tree.

  Groups and negations only pass on what their leaves say.  So two trees of one shape have the same
  outcome as soon as their leaves answer alike, each to the one in its place, on the same record or
  on two.

  1. **Leafwise relations** — `c.Leafwise R d` lifts a relation between tests to trees of one shape
     over the same properties.  A tree is related to itself if all its leaves are
     (`leafwise_self_iff`).

  2. **Congruence** — leaves that answer alike make outcomes that are alike
     (`outcome_eq_of_leafwise`): one induction for everything that is put in the place of something
     else.

  3. **Replacement** — loosely equal comparands answer alike to any value, and loosely equal values
     answer alike to any equality test (`looseEq_replaceable`).

  Every proof over trees is a pair, one half for a condition and one for the children of a group.
-/
import Caret.Proofs.Laws
import Caret.Proofs.LooseEquality

namespace Caret

namespace Condition

variable {R : String → Test → Test → Prop} {look look' : Lookup}

/-! ## Leafwise relations -/

mutual

/-- Trees of one shape over the same properties, whose tests are related place by place. -/
def Leafwise (R : String → Test → Test → Prop) : Condition → Condition → Prop
  | leaf p t, leaf q u => p = q ∧ R p t u
  | group op cs, group op' ds => op = op' ∧ AllLeafwise R cs ds
  | negation c, negation d => Leafwise R c d
  | _, _ => False

def AllLeafwise (R : String → Test → Test → Prop) : List Condition → List Condition → Prop
  | [], [] => True
  | c :: cs, d :: ds => Leafwise R c d ∧ AllLeafwise R cs ds
  | _, _ => False

end

mutual

/-- **A tree is related to itself if its leaves are.** -/
theorem leafwise_self_iff : ∀ {c : Condition},
    Leafwise R c c ↔ ∀ p t, leaf p t ∈ c.nodes → R p t t
  | leaf p t => by
    rw [Leafwise, nodes, and_iff_right rfl]
    constructor
    · intro h q u hu
      cases List.mem_singleton.1 hu
      exact h
    · exact fun h => h p t (List.mem_singleton_self _)
  | group op cs => by
    rw [Leafwise, and_iff_right rfl, allLeafwise_self_iff, nodes]
    simp only [List.mem_cons, reduceCtorEq, false_or]
  | negation c => by
    rw [Leafwise, leafwise_self_iff, nodes]
    simp only [List.mem_cons, reduceCtorEq, false_or]

theorem allLeafwise_self_iff : ∀ {cs : List Condition},
    AllLeafwise R cs cs ↔ ∀ p t, leaf p t ∈ nodesOfAll cs → R p t t
  | [] => iff_of_true trivial fun _ _ h => nomatch h
  | c :: cs => by
    rw [AllLeafwise, leafwise_self_iff, allLeafwise_self_iff, nodesOfAll]
    simp only [List.mem_append, or_imp, forall_and]

end

/-! ## Congruence -/

/-- Related tests answer alike, the first one on one record and the second one on another. -/
def Congruent (R : String → Test → Test → Prop) (look look' : Lookup) : Prop :=
  ∀ p t u, R p t u → t.check p ((look p).getD .null) = u.check p ((look' p).getD .null)

mutual

/-- **Trees whose leaves answer alike have the same outcome.** -/
theorem outcome_eq_of_leafwise (hR : Congruent R look look') : ∀ {c d : Condition},
    Leafwise R c d → c.outcome look = d.outcome look'
  | leaf p t, leaf q u, h => by
    obtain ⟨rfl, htests⟩ := h
    rw [outcome, outcome, hR p t u htests]
  | group op cs, group op' ds, h => by
    obtain ⟨rfl, hchildren⟩ := h
    rw [outcome, outcome, outcomeOfAll_eq_of_leafwise hR op.decisive hchildren]
  | negation c, negation d, h => by
    rw [outcome, outcome, outcome_eq_of_leafwise hR (c := c) (d := d) h]

theorem outcomeOfAll_eq_of_leafwise (hR : Congruent R look look') (decisive : Bool) :
    ∀ {cs ds : List Condition},
      AllLeafwise R cs ds → outcomeOfAll look decisive cs = outcomeOfAll look' decisive ds
  | [], [], _ => rfl
  | c :: cs, d :: ds, h => by
    rw [outcomeOfAll_cons, outcomeOfAll_cons, outcome_eq_of_leafwise hR h.1,
      outcomeOfAll_eq_of_leafwise hR decisive h.2]

end

/-- Tests that answer alike to everything make trees that are interchangeable. -/
theorem interchangeable_of_leafwise {c d : Condition} (hR : ∀ look, Congruent R look look)
    (h : Leafwise R c d) : c.Interchangeable d :=
  interchangeable_iff.2 fun look => outcome_eq_of_leafwise (hR look) h

end Condition

/-! ## Replacement -/

/-- Equality tests with loosely equal comparands; any other test only with itself. -/
def Test.LooselyEqual : Test → Test → Prop
  | equality op v, equality op' w => op = op' ∧ v.looseEq w = true
  | t, u => t = u

/-- An equality test answers alike for loosely equal comparands and values. -/
theorem EqualityOp.holds_congr {op : EqualityOp} {v v' w w' : Value} (hv : v.looseEq v' = true)
    (hw : w.looseEq w' = true) : op.holds v w = op.holds v' w' := by
  cases op with
  | eq => exact Value.looseEq_congr hv hw
  | ne => exact congrArg not (Value.looseEq_congr hv hw)

namespace Condition

theorem congruent_looselyEqual (look : Lookup) :
    Congruent (fun _ => Test.LooselyEqual) look look := by
  intro p t u h
  cases t with
  | equality op v =>
    cases u with
    | equality op' w =>
      obtain ⟨rfl, hvw⟩ := h
      exact congrArg Except.ok (EqualityOp.holds_congr (Value.looseEq_equivalence.refl _) hvw)
    | _ => cases h
  | _ =>
    obtain rfl := h
    rfl

/-- Every leaf over the property is an equality test. -/
def OnlyEquality (c : Condition) (property : String) : Prop :=
  ∀ test, leaf property test ∈ c.nodes → ∃ op v, test = .equality op v

/-- The second record holds what the first one holds, or, under properties that the tree tests for
    equality only, a loosely equal value; there an absent property counts as `null`. -/
def LooseReplacement (c : Condition) (look look' : Lookup) : Prop :=
  ∀ p, look' p = look p ∨
    c.OnlyEquality p ∧ ((look p).getD .null).looseEq ((look' p).getD .null) = true

/-- **Loosely equal values in a record** are the same to equality tests. -/
theorem outcome_eq_of_looseReplacement {c : Condition} (h : c.LooseReplacement look look') :
    c.outcome look = c.outcome look' := by
  -- each leaf is related to itself by how it answers on the two records
  have hself : Leafwise (fun p t u =>
      t.check p ((look p).getD .null) = u.check p ((look' p).getD .null)) c c := by
    refine leafwise_self_iff.2 fun p t hmem => ?_
    rcases h p with hsame | ⟨honly, hloose⟩
    · rw [hsame]
    · obtain ⟨op, v, rfl⟩ := honly t hmem
      exact congrArg Except.ok (EqualityOp.holds_congr hloose (Value.looseEq_equivalence.refl v))
  exact outcome_eq_of_leafwise (fun _ _ _ hcheck => hcheck) hself

/-- **Loosely equal values can replace each other.**  Loose equality is an equivalence relation.  In
    the comparands of a tree, loosely equal values give the same results after the same reads, on
    every record.  So do loosely equal values in a record, under properties that the tree tests for
    equality only. -/
theorem looseEq_replaceable :
    (Equivalence fun v w : Value => v.looseEq w = true) ∧
      (∀ c d, Leafwise (fun _ => Test.LooselyEqual) c d → c.Interchangeable d) ∧
      ∀ c look look', LooseReplacement c look look' →
        c.evaluate look = c.evaluate look' ∧ c.reads look = c.reads look' := by
  refine ⟨Value.looseEq_equivalence,
    fun c d h => interchangeable_of_leafwise congruent_looselyEqual h, fun c look look' h => ?_⟩
  have houtcome := outcome_eq_of_looseReplacement h
  exact ⟨congrArg Outcome.result houtcome, congrArg Outcome.reads houtcome⟩

/-- `open` is tested for equality only, so there `true`, its text and `1` can replace each other; `age`
    is left as it is. -/
theorem looseEq_replaceable_open :
    let test (v : Value) := group .and [leaf "open" (.equality .eq v), leaf "age" (.order .gt .zero)]
    let record := Record.ofList [("age", .number .one), ("open", .bool true)]
    let replaced : Lookup := fun p => if p = "open" then some (.number .one) else record.get? p
    Leafwise (fun _ => Test.LooselyEqual) (test (.string "true")) (test (.number .one)) ∧
      (test (.string "true")).LooseReplacement record.get? replaced ∧
      (test (.string "true")).evaluate record.get? = .ok true ∧
      (test (.number .one)).evaluate record.get? = .ok true ∧
      (test (.string "true")).evaluate replaced = .ok true := by
  intro test record replaced
  have hresult : (test (.string "true")).evaluate record.get? = .ok true := rfl
  have hleafwise : Leafwise (fun _ => Test.LooselyEqual) (test (.string "true"))
      (test (.number .one)) :=
    ⟨rfl, ⟨rfl, rfl, by decide⟩, ⟨rfl, rfl⟩, trivial⟩
  have hreplaced : (test (.string "true")).LooseReplacement record.get? replaced := by
    intro p
    by_cases hp : p = "open"
    · refine Or.inr ⟨fun t ht => ?_, ?_⟩
      · rcases List.mem_cons.1 ht with hgroup | ht
        · cases hgroup
        rcases List.mem_cons.1 ht with hopen | ht
        · exact ⟨.eq, .string "true", (leaf.inj hopen).2⟩
        · have hage : p = "age" := (leaf.inj (List.mem_singleton.1 ht)).1
          exact absurd (hp.symm.trans hage) (by decide)
      · rw [hp]
        decide
    · exact Or.inl (if_neg hp)
  obtain ⟨-, hcomparands, hvalues⟩ := looseEq_replaceable
  exact ⟨hleafwise, hreplaced, hresult,
    ((hcomparands _ _ hleafwise record.get?).1).symm.trans hresult,
    (hvalues _ _ _ hreplaced).1.symm.trans hresult⟩

end Condition

end Caret
