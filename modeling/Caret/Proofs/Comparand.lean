/-
  A value and its text: what is displayed is read as the value that it displays.

  1. **Characters** — a number is written with digits, a point, a sign and the letters of `NaN` and
     `inf` (`isNumeral_of_mem_spelling`), hence without blanks.
  2. **Coercion** — so trimming leaves the text of a number alone, and it reads back
     (`Value.numberOfText?_display`).
  3. **Loose equality** sees a value and its text as one (`Value.reading_display`), and with that it
     sees no difference between values of one text (`Value.looseEq_of_display_eq`).
-/
import Caret.Number.ReadBack
import Caret.Value

namespace Caret

/-! ## Trimming -/

/-- Text without blanks is left as it is. -/
theorem Text.trim_of_no_blank {cs : List Char} (h : ∀ c ∈ cs, isBlank c = false) :
    trim cs = cs := by
  have hdrop : ∀ {ds : List Char}, (∀ c ∈ ds, isBlank c = false) → ds.dropWhile isBlank = ds := by
    intro ds hds
    cases ds with
    | nil => rfl
    | cons d ds =>
      rw [List.dropWhile_cons_of_neg]
      rw [hds d (List.mem_cons_self ..)]
      decide
  have hrev : ∀ c ∈ cs.reverse, isBlank c = false := fun c hc => h c (List.mem_reverse.1 hc)
  rw [trim, hdrop h, hdrop hrev, List.reverse_reverse]

/-! ## The characters of a written number -/

/-- A character that numbers are written with. -/
def isNumeral (c : Char) : Bool :=
  c.isDigit || c = '-' || c = '.' || c = 'N' || c = 'a' || c = 'i' || c = 'n' || c = 'f'

theorem isNumeral_of_isDigit {c : Char} (h : c.isDigit = true) : isNumeral c = true := by
  rw [isNumeral, h]
  rfl

theorem isDigit_iff {c : Char} : c.isDigit = true ↔ 48 ≤ c.toNat ∧ c.toNat ≤ 57 := by
  rw [Char.isDigit, Bool.and_eq_true, decide_eq_true_eq, decide_eq_true_eq]
  exact Iff.rfl

theorem cases_of_isNumeral {c : Char} (h : isNumeral c = true) :
    c.isDigit = true ∨ c = '-' ∨ c = '.' ∨ c = 'N' ∨ c = 'a' ∨ c = 'i' ∨ c = 'n' ∨ c = 'f' := by
  simpa only [isNumeral, Bool.or_eq_true, decide_eq_true_eq, or_assoc] using h

/-- Numbers are written without blanks. -/
theorem isBlank_of_isNumeral {c : Char} (h : isNumeral c = true) : Text.isBlank c = false := by
  rcases cases_of_isNumeral h with h | rfl | rfl | rfl | rfl | rfl | rfl | rfl
  · obtain ⟨hlo, hhi⟩ := isDigit_iff.1 h
    simp only [Text.isBlank, Bool.or_eq_false_iff, Bool.and_eq_false_iff, decide_eq_false_iff_not]
    omega
  all_goals decide

/-- A decimal is written with digits, and with a point if its exponent is negative. -/
theorem Decimal.isNumeral_of_mem_spelling (d : Decimal) :
    ∀ c ∈ d.spelling, isNumeral c = true := by
  obtain ⟨n, e⟩ := d
  cases e with
  | ofNat e =>
    intro c hc
    exact isNumeral_of_isDigit (isDigit_toDigits c hc)
  | negSucc e =>
    intro c hc
    have hc : c ∈ (paddedDigits n (e + 1)).take ((paddedDigits n (e + 1)).length - (e + 1)) ++
        '.' :: (paddedDigits n (e + 1)).drop ((paddedDigits n (e + 1)).length - (e + 1)) := hc
    rcases List.mem_append.1 hc with hc | hc
    · exact isNumeral_of_isDigit (isDigit_paddedDigits c (List.mem_of_mem_take hc))
    · rcases List.mem_cons.1 hc with rfl | hc
      · decide
      · exact isNumeral_of_isDigit (isDigit_paddedDigits c (List.mem_of_mem_drop hc))

theorem Magnitude.isNumeral_of_mem_spelling (m : Magnitude) :
    ∀ c ∈ m.spelling, isNumeral c = true := by
  rw [spelling]
  split
  · exact Decimal.isNumeral_of_mem_spelling _
  · exact List.all_eq_true.1 (by decide)

namespace Number

/-- **A number is written with numerals only**, its sign and the names of `nan` and the infinities
    included. -/
theorem isNumeral_of_mem_spelling (x : Number) : ∀ c ∈ x.spelling, isNumeral c = true := by
  cases x with
  | nan => exact List.all_eq_true.1 (by decide)
  | signed negative m =>
    rw [spelling]
    split
    · exact List.forall_mem_cons.2 ⟨by decide, m.isNumeral_of_mem_spelling⟩
    · exact m.isNumeral_of_mem_spelling

theorem toList_display (x : Number) : x.display.toList = x.spelling := String.toList_ofList

/-- Different numbers have different texts. -/
theorem display_injective {x y : Number} (h : x.display = y.display) : x = y := by
  have hx := ofText?_display x
  rw [h, ofText?_display y] at hx
  exact (Option.some.inj hx).symm

end Number

/-! ## Reading what is displayed -/

namespace Value

/-- **What is displayed reads back.**  Trimming has nothing to drop. -/
theorem numberOfText?_display (x : Number) : numberOfText? x.display = some x := by
  have hblank : ∀ c ∈ x.display.toList, Text.isBlank c = false := by
    rw [x.toList_display]
    exact fun c hc => isBlank_of_isNumeral (x.isNumeral_of_mem_spelling c hc)
  rw [numberOfText?, Text.trim_of_no_blank hblank]
  exact Number.ofText?_display x

/-- No number has the text of another kind of value. -/
theorem display_ne_of_numberOfText? {x : Number} {s : String} (h : numberOfText? s = none) :
    x.display ≠ s := by
  rintro rfl
  rw [numberOfText?_display] at h
  cases h

/-- The words for the values of other kinds are not numeric. -/
theorem numberOfText?_of_mem : ∀ s ∈ ["null", "true", "false"], numberOfText? s = none := by
  decide

/-- **Loose equality sees a value and its text as one.** -/
theorem reading_display (v : Value) : (string v.display).reading = v.reading := by
  cases v with
  | null => rfl
  | bool b => cases b <;> rfl
  | number x =>
    have hne : ∀ s ∈ ["null", "true", "false"], x.display ≠ s := fun s hs =>
      display_ne_of_numberOfText? (numberOfText?_of_mem s hs)
    show readingOfText x.display = .number x
    rw [readingOfText, if_neg (hne _ (by simp)), if_neg (hne _ (by simp)),
      if_neg (hne _ (by simp)), numberOfText?_display]
  | string s => rfl

/-- Text reads as a number where it is numeric: `null`, `true` and `false` are not. -/
theorem readingOfText_eq_number_iff {s : String} {x : Number} :
    readingOfText s = .number x ↔ numberOfText? s = some x := by
  have hword (hs : s ∈ ["null", "true", "false"]) : ¬ numberOfText? s = some x := by
    rw [numberOfText?_of_mem s hs]
    nofun
  rw [readingOfText]
  split
  · rename_i hs
    exact iff_of_false nofun (hword (by simp [hs]))
  split
  · rename_i hs
    exact iff_of_false nofun (hword (by simp [hs]))
  split
  · rename_i hs
    exact iff_of_false nofun (hword (by simp [hs]))
  cases numberOfText? s with
  | none => exact iff_of_false nofun nofun
  | some y => exact ⟨fun h => by cases h; rfl, fun h => by cases h; rfl⟩

/-- **Coercion**: the values that read as numbers become those numbers, if they are finite. -/
theorem asNumber?_eq_some_iff {v : Value} {x : Number} :
    v.asNumber? = some x ↔ v.reading = .number x ∧ x.isFinite = true := by
  cases v with
  | null => exact iff_of_false nofun fun h => nomatch h.1
  | bool b => exact iff_of_false nofun fun h => nomatch h.1
  | number y =>
    rw [asNumber?, reading, Reading.number.injEq, Option.ite_none_right_eq_some, Option.some.injEq]
    exact ⟨fun ⟨hy, h⟩ => ⟨h, h ▸ hy⟩, fun ⟨h, hx⟩ => ⟨h ▸ hx, h⟩⟩
  | string s => rw [asNumber?, reading, Option.filter_eq_some_iff, readingOfText_eq_number_iff]

/-- Values of one text are loosely equal to the same values. -/
theorem looseEq_of_display_eq {v w : Value} (h : v.display = w.display) (a : Value) :
    a.looseEq v = a.looseEq w := by
  rw [looseEq, looseEq, ← reading_display v, h, reading_display w]

end Value

end Caret
