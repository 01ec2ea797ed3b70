/-
  Conditions that are written alike, and the one among them that notation can denote.

  Notation has no quotes, so an equality test against the number `18` and one against the text `18`
  are written alike.  Nothing depends on the difference: loose equality sees a value and its text as
  one.

  1. **Texts** — what a tree writes bare: the names of its properties and its comparands.
  2. **As written** — `asWritten` puts the text of every comparand of an equality test in place of
     the comparand.  It keeps the written form, the depth, the texts, well-formedness and the whole
     outcome of an evaluation, mismatches and reads included (`outcome_asWritten`).
  3. **Alike** — two trees of one shape with the same operators, names and displayed comparands;
     that is, two trees that are the same as written (`alike_iff`).

  Every proof over trees here is a pair: one half for a condition, one for a list of them.
-/
import Caret.Condition.Evaluation
import Caret.Condition.Written
import Caret.Proofs.Comparand
import Caret.Token.Basic

namespace Caret

/-! ## Texts -/

namespace Condition

mutual

/-- The names of properties and the displayed comparands of a tree, from left to right. -/
def texts : Condition → List String
  | leaf property test => property :: test.comparand?.toList
  | group _ children => textsOfAll children
  | negation child => child.texts

def textsOfAll : List Condition → List String
  | [] => []
  | c :: cs => c.texts ++ textsOfAll cs

end

/-- No name and no comparand has a structural character in it. -/
def Unstructured (c : Condition) : Prop :=
  ∀ w ∈ c.texts, ∀ x ∈ w.toList, Token.Kind.ofChar? x = none

instance (c : Condition) : Decidable c.Unstructured :=
  decidable_of_iff (c.texts.all fun w => w.toList.all fun x => (Token.Kind.ofChar? x).isNone)
    (by simp only [Unstructured, List.all_eq_true, Option.isNone_iff_eq_none])

end Condition

/-! ## Trees as written -/

/-- An equality test against the text of its comparand; any other test as it is. -/
def Test.asWritten : Test → Test
  | equality op v => equality op (.string v.display)
  | test => test

namespace Condition

mutual

/-- The tree in which every equality test compares with the text of its comparand. -/
def asWritten : Condition → Condition
  | leaf property test => leaf property test.asWritten
  | group op children => group op (allAsWritten children)
  | negation child => negation child.asWritten

def allAsWritten : List Condition → List Condition
  | [] => []
  | c :: cs => c.asWritten :: allAsWritten cs

end

end Condition

namespace Test

@[simp]
theorem operator_asWritten (test : Test) : test.asWritten.operator = test.operator := by
  cases test <;> rfl

/-- The text of a comparand is displayed as itself. -/
@[simp]
theorem comparand?_asWritten (test : Test) : test.asWritten.comparand? = test.comparand? := by
  cases test <;> rfl

@[simp]
theorem spelling_asWritten (test : Test) : test.asWritten.spelling = test.spelling := by
  rw [spelling, spelling, operator_asWritten, comparand?_asWritten]

/-- No value tells the two tests apart: loose equality sees a comparand and its text as one. -/
@[simp]
theorem check_asWritten (test : Test) (property : String) (actual : Value) :
    test.asWritten.check property actual = test.check property actual := by
  cases test with
  | equality op v =>
    have hv : actual.looseEq (.string v.display) = actual.looseEq v :=
      Value.looseEq_of_display_eq (v := .string v.display) (w := v) rfl actual
    show Except.ok (op.holds actual (.string v.display)) = Except.ok (op.holds actual v)
    cases op with
    | eq => rw [EqualityOp.holds, EqualityOp.holds, hv]
    | ne => rw [EqualityOp.holds, EqualityOp.holds, hv]
  | order op x => rfl
  | text op s => rfl
  | presence op => rfl

end Test

namespace Condition

mutual

/-- Only leaves change, and a leaf has one depth whatever it tests. -/
@[simp]
theorem depth_asWritten : ∀ c : Condition, c.asWritten.depth = c.depth
  | leaf property test => rfl
  | group op cs => by rw [asWritten, depth, depth, greatestDepth_allAsWritten cs]
  | negation c => by rw [asWritten, depth, depth, depth_asWritten c]

theorem greatestDepth_allAsWritten : ∀ cs, greatestDepth (allAsWritten cs) = greatestDepth cs
  | [] => rfl
  | c :: cs => by
    rw [allAsWritten, greatestDepth, greatestDepth, depth_asWritten c,
      greatestDepth_allAsWritten cs]

end

mutual

/-- Operators and displayed comparands are all that the characters of a tree are made of, apart from
    names. -/
@[simp]
theorem spelling_asWritten : ∀ c : Condition, c.asWritten.spelling = c.spelling
  | leaf property test => by rw [asWritten, spelling, spelling, Test.spelling_asWritten]
  | group op cs => by rw [asWritten, spelling, spelling, spellingOfChildren_allAsWritten cs]
  | negation c => by rw [asWritten, spelling, spelling, spelling_asWritten c]

theorem spellingOfChildren_allAsWritten :
    ∀ cs, spellingOfChildren (allAsWritten cs) = spellingOfChildren cs
  | [] => rfl
  | c :: cs => by
    rw [allAsWritten, spellingOfChildren, spellingOfChildren, spelling_asWritten c,
      spellingOfFurther_allAsWritten cs]

theorem spellingOfFurther_allAsWritten :
    ∀ cs, spellingOfFurther (allAsWritten cs) = spellingOfFurther cs
  | [] => rfl
  | c :: cs => by
    rw [allAsWritten, spellingOfFurther, spellingOfFurther, spelling_asWritten c,
      spellingOfFurther_allAsWritten cs]

end

/-- **The tree as written is written like the tree itself.** -/
theorem written_asWritten (c : Condition) : c.asWritten.written = c.written := by
  rw [written, written, spelling_asWritten]

mutual

/-- Names stay, and so does the text of every comparand. -/
@[simp]
theorem texts_asWritten : ∀ c : Condition, c.asWritten.texts = c.texts
  | leaf property test => by rw [asWritten, texts, texts, Test.comparand?_asWritten]
  | group op cs => by rw [asWritten, texts, texts, textsOfAll_allAsWritten cs]
  | negation c => by rw [asWritten, texts, texts, texts_asWritten c]

theorem textsOfAll_allAsWritten : ∀ cs, textsOfAll (allAsWritten cs) = textsOfAll cs
  | [] => rfl
  | c :: cs => by
    rw [allAsWritten, textsOfAll, textsOfAll, texts_asWritten c, textsOfAll_allAsWritten cs]

end

mutual

/-- An equality test is well-formed whatever it compares with. -/
theorem wellFormed_asWritten : ∀ c : Condition, c.asWritten.WellFormed ↔ c.WellFormed
  | leaf property test => by cases test <;> exact Iff.rfl
  | group op cs => by
    rw [asWritten, WellFormed, WellFormed, allWellFormed_allAsWritten cs]
    cases cs <;> simp [allAsWritten]
  | negation c => by
    rw [asWritten, WellFormed, WellFormed]
    exact wellFormed_asWritten c

theorem allWellFormed_allAsWritten : ∀ cs, AllWellFormed (allAsWritten cs) ↔ AllWellFormed cs
  | [] => Iff.rfl
  | c :: cs => by
    rw [allAsWritten, AllWellFormed, AllWellFormed, wellFormed_asWritten c,
      allWellFormed_allAsWritten cs]

end

mutual

/-- **A tree as written has the same outcome**: the same truth value or the same mismatch, after
    the same reads. -/
@[simp]
theorem outcome_asWritten (look : Lookup) :
    ∀ c : Condition, c.asWritten.outcome look = c.outcome look
  | leaf property test => by rw [asWritten, outcome, outcome, Test.check_asWritten]
  | group op cs => by rw [asWritten, outcome, outcome, outcomeOfAll_allAsWritten look _ cs]
  | negation c => by rw [asWritten, outcome, outcome, outcome_asWritten look c]

theorem outcomeOfAll_allAsWritten (look : Lookup) (decisive : Bool) :
    ∀ cs, outcomeOfAll look decisive (allAsWritten cs) = outcomeOfAll look decisive cs
  | [] => rfl
  | c :: cs => by
    rw [allAsWritten, outcomeOfAll, outcomeOfAll, outcome_asWritten look c,
      outcomeOfAll_allAsWritten look decisive cs]

end

/-! ## Trees that are written alike -/

mutual

/-- Trees of one shape with the same operators and names, whose comparands have the same text. -/
def Alike : Condition → Condition → Prop
  | leaf p t, leaf q u => p = q ∧ t.operator = u.operator ∧ t.comparand? = u.comparand?
  | group op cs, group op' ds => op = op' ∧ AllAlike cs ds
  | negation c, negation d => c.Alike d
  | _, _ => False

def AllAlike : List Condition → List Condition → Prop
  | [], [] => True
  | c :: cs, d :: ds => c.Alike d ∧ AllAlike cs ds
  | _, _ => False

end

end Condition

/-- Operator and displayed comparand make up a test as written: a number is determined by its
    text. -/
theorem Test.asWritten_eq_iff {t u : Test} :
    t.asWritten = u.asWritten ↔ t.operator = u.operator ∧ t.comparand? = u.comparand? := by
  constructor
  · intro h
    rw [← t.operator_asWritten, ← t.comparand?_asWritten, h]
    exact ⟨u.operator_asWritten, u.comparand?_asWritten⟩
  · rintro ⟨hop, hcomparand⟩
    -- tests of two sorts have different operators, so one case for each sort is left
    cases t <;> cases u <;> cases hop
    · obtain hv := Option.some.inj hcomparand
      rw [asWritten, asWritten, hv]
    · rw [Number.display_injective (Option.some.inj hcomparand)]
    · rw [Option.some.inj hcomparand]
    · rfl

namespace Condition

mutual

/-- **Alike is: the same as written.** -/
theorem alike_iff : ∀ {c d : Condition}, c.Alike d ↔ c.asWritten = d.asWritten
  | leaf p t, leaf q u => by
    rw [Alike, asWritten, asWritten, leaf.injEq, Test.asWritten_eq_iff]
  | group op cs, group op' ds => by
    rw [Alike, asWritten, asWritten, group.injEq, allAlike_iff]
  | negation c, negation d => by
    rw [Alike, asWritten, asWritten, negation.injEq, alike_iff]
  | leaf _ _, group _ _ | leaf _ _, negation _ | group _ _, leaf _ _ | group _ _, negation _
  | negation _, leaf _ _ | negation _, group _ _ => by
    simp only [Alike, asWritten, reduceCtorEq]

theorem allAlike_iff : ∀ {cs ds : List Condition},
    AllAlike cs ds ↔ allAsWritten cs = allAsWritten ds
  | [], [] => by rw [AllAlike, allAsWritten, eq_self_iff_true]
  | c :: cs, d :: ds => by
    rw [AllAlike, allAsWritten, allAsWritten, List.cons.injEq, alike_iff, allAlike_iff]
  | [], _ :: _ | _ :: _, [] => by simp only [AllAlike, allAsWritten, reduceCtorEq]

end

/-- Trees that are alike write the same texts bare, in the same order. -/
theorem Alike.texts_eq {c d : Condition} (h : c.Alike d) : c.texts = d.texts := by
  rw [← texts_asWritten, alike_iff.1 h, texts_asWritten]

/-- Trees that are alike have one shape, hence one depth. -/
theorem Alike.depth_eq {c d : Condition} (h : c.Alike d) : c.depth = d.depth := by
  rw [← depth_asWritten, alike_iff.1 h, depth_asWritten]

/-- Of trees that are alike both are well-formed or neither is. -/
theorem Alike.wellFormed_iff {c d : Condition} (h : c.Alike d) : c.WellFormed ↔ d.WellFormed := by
  rw [← wellFormed_asWritten, alike_iff.1 h, wellFormed_asWritten]

/-- Trees that are alike have the same truth value or the same mismatch, after the same reads. -/
theorem Alike.outcome_eq {c d : Condition} (h : c.Alike d) (look : Lookup) :
    c.outcome look = d.outcome look := by
  rw [← outcome_asWritten, alike_iff.1 h, outcome_asWritten]

/-- Trees that are written alike cannot be told apart by any record. -/
theorem Alike.evaluate_eq {c d : Condition} (h : c.Alike d) (look : Lookup) :
    c.evaluate look = d.evaluate look :=
  congrArg Outcome.result (h.outcome_eq look)

/-- Nor does it show in the properties that are read. -/
theorem Alike.reads_eq {c d : Condition} (h : c.Alike d) (look : Lookup) :
    c.reads look = d.reads look :=
  congrArg Outcome.reads (h.outcome_eq look)

end Condition

end Caret
