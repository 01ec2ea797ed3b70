/-
  Conditions that are the same as data mean the same.

  Sameness compares numbers numerically, so it is neither equality nor an equivalence: `0` is the
  same as `-0` though the two are written differently, and `nan` is not the same as itself.

  1. **Tests** — the same test, or the same value, answers alike: numbers that are the same stand at
     one position, and neither loose equality nor an ordering test sees more of them than that
     (`Test.check_eq_of_same`).

  2. **Trees** are the same if they have one shape and the same tests (`same_iff_leafwise`); so trees
     that are the same are interchangeable, by the congruence of evaluation.

  3. **Itself** — what fails to be the same as itself holds `nan`, and among what can be built only
     an equality test can hold that (`same_interchangeable`).
-/
import Caret.Condition.Written
import Caret.Proofs.Construction
import Caret.Proofs.Leafwise

namespace Caret

/-! ## Values and tests -/

theorem Number.equal_self_iff {x : Number} : x.equal x = true ↔ x ≠ .nan := by
  rw [equal_iff, and_iff_right rfl]

/-- An ordering test sees no more of its threshold than the position. -/
theorem OrderOp.holds_congr {op : OrderOp} {n x y : Number} (h : x.position? = y.position?) :
    op.holds n x = op.holds n y := by
  have hleft (relation : Int → Int → Bool) :
      Number.compareBy relation n x = Number.compareBy relation n y := by
    rw [Number.compareBy, Number.compareBy, h]
  have hright (relation : Int → Int → Bool) :
      Number.compareBy relation x n = Number.compareBy relation y n := by
    rw [Number.compareBy, Number.compareBy, h]
  cases op with
  | lt => exact hleft _
  | lte => exact hleft _
  | gt => exact hright _
  | gte => exact hright _

namespace Value

/-- Values that are the same are loosely equal. -/
theorem looseEq_of_same {v w : Value} (h : v.same w = true) : v.looseEq w = true := by
  rw [looseEq_iff]
  cases v with
  | null =>
    cases w with
    | null => rfl
    | _ => cases h
  | bool a =>
    cases w with
    | bool b => rw [eq_of_beq h]
    | _ => cases h
  | number x =>
    cases w with
    | number y => exact congrArg Key.number (Number.equal_iff.1 h).1
    | _ => cases h
  | string s =>
    cases w with
    | string t => rw [eq_of_beq h]
    | _ => cases h

theorem same_self_iff {v : Value} : v.same v = true ↔ v ≠ .number .nan := by
  cases v with
  | number x => rw [same, Number.equal_self_iff, ne_eq, ne_eq, number.injEq]
  | null => exact iff_of_true rfl nofun
  | bool b => exact iff_of_true (beq_self_eq_true b) nofun
  | string s => exact iff_of_true (beq_self_eq_true s) nofun

end Value

namespace Test

/-- **Tests that are the same answer alike**, to any value. -/
theorem check_eq_of_same {t u : Test} (h : t.same u = true) (property : String) (actual : Value) :
    t.check property actual = u.check property actual := by
  cases t with
  | equality op v =>
    cases u with
    | equality op' w =>
      obtain ⟨hop, hvw⟩ := (Bool.and_eq_true ..).mp h
      obtain rfl : op = op' := of_decide_eq_true hop
      exact congrArg Except.ok
        (EqualityOp.holds_congr (Value.looseEq_equivalence.refl actual) (Value.looseEq_of_same hvw))
    | _ => cases h
  | order op x =>
    cases u with
    | order op' y =>
      obtain ⟨hop, hxy⟩ := (Bool.and_eq_true ..).mp h
      obtain rfl : op = op' := of_decide_eq_true hop
      have hholds (n : Number) : op.holds n x = op.holds n y :=
        OrderOp.holds_congr (Number.equal_iff.1 hxy).1
      simp only [check, hholds]
    | _ => cases h
  | text op s =>
    cases u with
    | text op' s' =>
      obtain ⟨hop, hs⟩ := (Bool.and_eq_true ..).mp h
      rw [of_decide_eq_true hop, eq_of_beq hs]
    | _ => cases h
  | presence op =>
    cases u with
    | presence op' => rw [of_decide_eq_true h]
    | _ => cases h

/-- A test is the same as itself unless it holds `nan`. -/
theorem same_self_iff {t : Test} :
    t.same t = true ↔ (∀ op, t ≠ equality op (.number .nan)) ∧ ∀ op, t ≠ order op .nan := by
  cases t with
  | equality op v => simp [same, Value.same_self_iff]
  | order op x => simp [same, Number.equal_self_iff]
  | text op s => simp [same]
  | presence op => simp [same]

end Test

/-! ## Trees -/

namespace Condition

mutual

/-- **Trees are the same if they have one shape and the same tests.** -/
theorem same_iff_leafwise : ∀ {c d : Condition},
    c.same d = true ↔ Leafwise (fun _ t u => t.same u = true) c d
  | leaf p t, leaf q u => by
    rw [same, Leafwise, Bool.and_eq_true, beq_iff_eq]
  | group op cs, group op' ds => by
    rw [same, Leafwise, Bool.and_eq_true, decide_eq_true_eq, sameAll_iff_leafwise]
  | negation c, negation d => by
    rw [same, Leafwise, same_iff_leafwise]
  | leaf _ _, group _ _ | leaf _ _, negation _ | group _ _, leaf _ _ | group _ _, negation _
  | negation _, leaf _ _ | negation _, group _ _ => iff_of_false nofun id

theorem sameAll_iff_leafwise : ∀ {cs ds : List Condition},
    sameAll cs ds = true ↔ AllLeafwise (fun _ t u => t.same u = true) cs ds
  | [], [] => iff_of_true rfl trivial
  | c :: cs, d :: ds => by
    rw [sameAll, AllLeafwise, Bool.and_eq_true, same_iff_leafwise, sameAll_iff_leafwise]
  | [], _ :: _ | _ :: _, [] => iff_of_false nofun id

end

/-- **Trees that are the same are interchangeable.** -/
theorem interchangeable_of_same {c d : Condition} (h : c.same d = true) : c.Interchangeable d :=
  interchangeable_of_leafwise (fun _ p _ _ htest => Test.check_eq_of_same htest p _)
    (same_iff_leafwise.1 h)

/-- A tree that can be built is the same as itself unless it compares with `nan`. -/
theorem same_self_iff {c : Condition} (h : c.WellFormed) :
    c.same c = true ↔ ¬ ∃ p op, leaf p (.equality op (.number .nan)) ∈ c.nodes := by
  rw [same_iff_leafwise, leafwise_self_iff]
  constructor
  · rintro hself ⟨p, op, hmem⟩
    exact (Test.same_self_iff.1 (hself p _ hmem)).1 op rfl
  · intro hnan p t hmem
    refine Test.same_self_iff.2 ⟨fun op ht => hnan ⟨p, op, ht ▸ hmem⟩, fun op ht => ?_⟩
    -- a threshold is finite in a well-formed tree
    have hintact := (wellFormed_iff_nodes c).1 h _ hmem
    rw [ht] at hintact
    cases hintact

/-- The two zeros are the same comparand and are written differently. -/
theorem same_zeros (property : String) (op : EqualityOp) :
    (leaf property (.equality op (.number .zero))).same
        (leaf property (.equality op (.number (.signed true .zero)))) = true ∧
      (leaf property (.equality op (.number .zero))).written ≠
        (leaf property (.equality op (.number (.signed true .zero)))).written := by
  constructor
  · have hzero : Number.zero.equal (.signed true .zero) = true := by decide
    simp [same, Test.same, Value.same, hzero]
  · intro h
    have hspelling := String.ofList_injective h
    -- the sign makes the second text longer
    have hlength := congrArg List.length hspelling
    have hplus : (Number.display .zero).toList.length = 1 := by decide
    have hminus : (Number.display (.signed true .zero)).toList.length = 2 := by decide
    simp [spelling, Test.spelling, Test.comparand?, Test.operator, Value.display, hplus, hminus]
      at hlength

/-- **Conditions that are the same mean the same.**  They give the same result after the same reads
    on every record, even where they are written differently, as with the two zeros.  And a
    condition that can be built fails to be the same as itself just if one of its equality tests
    compares with the number `nan`. -/
theorem same_interchangeable :
    (∀ c d : Condition, c.same d = true → c.Interchangeable d) ∧
      (∀ property op, (leaf property (.equality op (.number .zero))).same
            (leaf property (.equality op (.number (.signed true .zero)))) = true ∧
          (leaf property (.equality op (.number .zero))).written ≠
            (leaf property (.equality op (.number (.signed true .zero)))).written) ∧
      ∀ c : Condition, c.WellFormed →
        (c.same c = false ↔ ∃ p op, leaf p (.equality op (.number .nan)) ∈ c.nodes) := by
  refine ⟨fun c d h => interchangeable_of_same h, same_zeros, fun c h => ?_⟩
  rw [Bool.eq_false_iff, ne_eq, same_self_iff h, Classical.not_not]

/-- The two zeros are interchangeable as comparands and as thresholds, under a negation as well; and
    a group with `nan` in it is not the same as itself. -/
theorem same_interchangeable_zeros :
    let test (x : Number) := group .or [leaf "balance" (.equality .ne (.number x)),
      negation (leaf "debt" (.order .gt x))]
    let endless := group .and [leaf "debt" (.presence .null),
      leaf "balance" (.equality .eq (.number .nan))]
    (test .zero).same (test (.signed true .zero)) = true ∧
      (test .zero).Interchangeable (test (.signed true .zero)) ∧
      endless.WellFormed ∧ endless.same endless = false := by
  intro test endless
  have hsame : (test .zero).same (test (.signed true .zero)) = true := rfl
  have hendless : endless.WellFormed := ⟨List.cons_ne_nil _ _, trivial, trivial, trivial⟩
  obtain ⟨hmeaning, -, hself⟩ := same_interchangeable
  refine ⟨hsame, hmeaning _ _ hsame, hendless, (hself endless hendless).2 ⟨"balance", .eq, ?_⟩⟩
  exact List.mem_cons_of_mem _ (List.mem_cons_of_mem _ (List.mem_singleton_self _))

end Condition

end Caret
