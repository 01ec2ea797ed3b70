/-
  Loose equality is equality of keys.

  Four sorts of readings can meet on either side, each pair under a rule of its own: truth values
  count as `1` and `0`, the two zeros are one number, `nan` equals itself, text is compared as it
  stands.  That these rules fit together is not to be seen from any one of them.  A KEY for each
  reading shows it:

  1. **Keys** — a number is known by its position in the numeric order, `nan` by having none, and a
     truth value by the position of the number that it counts for.  Other text is known by itself.

  2. **Loose equality** holds between values with one key (`Value.looseEq_iff`).  So it is an
     equivalence relation, and loosely equal values are the same to any third one.

  3. **A value and its text** have one reading, and with it one key and one number.  Whatever
     coerces a value can be given the text instead (`Value.display_interchangeable`).
-/
import Caret.Condition.Build
import Caret.Proofs.Comparand

namespace Caret

/-! ## Numeric equality by position -/

namespace Number

theorem position?_eq_none_iff {x : Number} : x.position? = none ↔ x = .nan := by
  cases x with
  | nan => exact iff_of_true rfl rfl
  | signed negative m => exact iff_of_false nofun nofun

/-- Numbers are equal if they stand at one position, and there is one. -/
theorem equal_iff {x y : Number} : x.equal y = true ↔ x.position? = y.position? ∧ x ≠ .nan := by
  rw [equal, compareBy]
  cases hx : x.position? with
  | none => exact iff_of_false nofun fun h => h.2 (position?_eq_none_iff.1 hx)
  | some i =>
    have hne : x ≠ .nan := fun h => nomatch hx.symm.trans (position?_eq_none_iff.2 h)
    rw [and_iff_left hne]
    cases y.position? with
    | none => exact iff_of_false nofun nofun
    | some j => rw [beq_iff_eq, Option.some.injEq]

end Number

namespace Value

/-- Each truth value counts for another number. -/
theorem position?_truthNumber_inj {a b : Bool} :
    (truthNumber a).position? = (truthNumber b).position? ↔ a = b := by
  cases a <;> cases b <;> decide

theorem equal_truthNumber_iff {b : Bool} {x : Number} :
    (truthNumber b).equal x = true ↔ (truthNumber b).position? = x.position? := by
  have hne : truthNumber b ≠ .nan := by cases b <;> decide
  rw [Number.equal_iff, and_iff_left hne]

/-! ## Keys -/

/-- What loose equality can know of a reading. -/
inductive Key where
  | null
  | number (position? : Option Int)
  | text (s : String)

/-- The key of a reading. -/
def Reading.key : Reading → Key
  | null => .null
  | bool b => .number (truthNumber b).position?
  | number x => .number x.position?
  | text s => .text s

/-- Numbers agree just if they have the same position or none. -/
theorem Reading.agrees_number_iff {x y : Number} :
    (number x).agrees (number y) = true ↔ x.position? = y.position? := by
  rw [agrees, Bool.or_eq_true, Number.equal_iff, Bool.and_eq_true, decide_eq_true_eq,
    decide_eq_true_eq]
  constructor
  · rintro (⟨h, -⟩ | ⟨rfl, rfl⟩)
    · exact h
    · rfl
  · intro h
    by_cases hx : x = .nan
    · rw [hx] at h
      exact Or.inr ⟨hx, Number.position?_eq_none_iff.1 h.symm⟩
    · exact Or.inl ⟨h, hx⟩

/-- **Readings agree if they have one key.** -/
theorem Reading.agrees_iff {r r' : Reading} : r.agrees r' = true ↔ r.key = r'.key := by
  cases r with
  | null => cases r' <;> simp [agrees, key]
  | text s => cases r' <;> simp [agrees, key]
  | bool a =>
    cases r' with
    | bool b => rw [agrees, key, key, beq_iff_eq, Key.number.injEq, position?_truthNumber_inj]
    | number y => rw [agrees, key, key, Key.number.injEq, equal_truthNumber_iff]
    | null | text t => exact iff_of_false nofun nofun
  | number x =>
    cases r' with
    | bool b => rw [agrees, key, key, Key.number.injEq, equal_truthNumber_iff, eq_comm]
    | number y => rw [agrees_number_iff, key, key, Key.number.injEq]
    | null | text t => exact iff_of_false nofun nofun

/-! ## The equivalence relation -/

theorem looseEq_iff {v w : Value} : v.looseEq w = true ↔ v.reading.key = w.reading.key :=
  Reading.agrees_iff

/-- **Loose equality is an equivalence relation.** -/
theorem looseEq_equivalence : Equivalence fun v w : Value => v.looseEq w = true where
  refl _ := looseEq_iff.2 rfl
  symm h := looseEq_iff.2 (looseEq_iff.1 h).symm
  trans h h' := looseEq_iff.2 ((looseEq_iff.1 h).trans (looseEq_iff.1 h'))

/-- Loosely equal values are loosely equal to the same values. -/
theorem looseEq_congr {v v' w w' : Value} (hv : v.looseEq v' = true) (hw : w.looseEq w' = true) :
    v.looseEq w = v'.looseEq w' := by
  rw [Bool.eq_iff_iff, looseEq_iff, looseEq_iff, looseEq_iff.1 hv, looseEq_iff.1 hw]

/-! ## A value and its text -/

/-- Only the reading of a value counts for its coercion to a number. -/
theorem asNumber?_eq_of_reading_eq {v w : Value} (h : v.reading = w.reading) :
    v.asNumber? = w.asNumber? :=
  Option.ext fun x => by rw [asNumber?_eq_some_iff, asNumber?_eq_some_iff, h]

/-- **A value and its text are interchangeable.**  Loose equality sees no difference between them,
    on either side; they coerce to the same number or neither does; and as the comparand of an
    ordering test they make the same condition, or are refused with the same error. -/
theorem display_interchangeable (v : Value) :
    (∀ a : Value, a.looseEq v = a.looseEq (.string v.display) ∧
        v.looseEq a = (string v.display).looseEq a) ∧
      v.asNumber? = (string v.display).asNumber? ∧
      ∀ property op,
        Condition.order property op v = Condition.order property op (.string v.display) := by
  have hnumber : v.asNumber? = (string v.display).asNumber? :=
    asNumber?_eq_of_reading_eq (reading_display v).symm
  refine ⟨fun a => ⟨?_, ?_⟩, hnumber, fun property op => ?_⟩
  · exact looseEq_of_display_eq (v := v) (w := .string v.display) rfl a
  · rw [looseEq, looseEq, reading_display]
  · rw [Condition.order, Condition.order, ← hnumber]
    rfl

end Value

end Caret
