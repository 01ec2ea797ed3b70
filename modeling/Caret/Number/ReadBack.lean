/-
  What is written reads back: `Number.ofText? x.display = some x`.

  1. **Ranks** — `rankBelow (units r) = r`, and `units` is strictly increasing; so an exact ratio
     rounds to the magnitude it equals (`Magnitude.nearest_units`).
  2. **The search ends in a hit** — every decimal it returns was tested by the reader's rounding,
     except the one at place `0`, which is exact (`Magnitude.ofDecimal_shortest`).
  3. **Digits** — a decimal that is written out is read as the same decimal, or, where its exponent
     was positive, as the whole number with the zeros (`Decimal.ofChars?_spelling`).
-/
import Caret.Number.Text
import Caret.Text

namespace Caret

/-! ## Ranks -/

theorem units_eq {r k : Nat} (h : r / runLength - 1 = k) :
    units r = (r - k * runLength) <<< k := by
  subst h; rfl

/-- In the first two runs, the ranks are the units. -/
theorem units_eq_self {r : Nat} (h : r < 2 * runLength) : units r = r := by
  have hk : r / runLength - 1 = 0 := by rw [runLength] at h ⊢; omega
  rw [units_eq hk, Nat.zero_mul, Nat.sub_zero, Nat.shiftLeft_zero]

theorem rankBelow_eq {u k : Nat} (h : u.log2 - 52 = k) : rankBelow u = k * runLength + u >>> k := by
  subst h; rfl

/-- **Ranks are read off the units again**: the leading 53 binary digits and the number of doublings
    are both kept. -/
theorem rankBelow_units (r : Nat) : rankBelow (units r) = r := by
  rcases Nat.lt_or_ge r (2 * runLength) with h | h
  · have hl : r.log2 - 52 = 0 := by
      rcases Nat.eq_zero_or_pos r with h0 | h0
      · subst h0; decide
      · have := (Nat.log2_lt (Nat.pos_iff_ne_zero.1 h0)).2 (show r < 2 ^ 53 by
          rw [runLength] at h; omega)
        omega
    rw [units_eq_self h, rankBelow_eq hl, Nat.zero_mul, Nat.zero_add, Nat.shiftRight_zero]
  · obtain ⟨k, hk⟩ : ∃ k, r / runLength - 1 = k := ⟨_, rfl⟩
    have hlo : runLength ≤ r - k * runLength := by rw [runLength] at *; omega
    have hhi : r - k * runLength < 2 * runLength := by rw [runLength] at *; omega
    rw [units_eq hk]
    have hback : (r - k * runLength) <<< k >>> k = r - k * runLength := by
      rw [Nat.shiftLeft_shiftRight]
    have hlog : ((r - k * runLength) <<< k).log2 = 52 + k := by
      have hpos : 0 < 2 ^ k := Nat.two_pow_pos k
      have hrun : runLength = 2 ^ 52 := rfl
      rw [Nat.shiftLeft_eq, Nat.log2_eq_iff (Nat.mul_ne_zero (by rw [runLength] at *; omega)
        (Nat.pos_iff_ne_zero.1 hpos))]
      constructor
      · rw [Nat.pow_add, ← hrun]; exact Nat.mul_le_mul_right _ hlo
      · rw [show 52 + k + 1 = 1 + 52 + k by omega, Nat.pow_add, Nat.pow_add, ← hrun]
        exact Nat.mul_lt_mul_of_pos_right hhi hpos
    have hruns : ((r - k * runLength) <<< k).log2 - 52 = k := by
      rw [hlog, Nat.add_sub_cancel_left]
    rw [rankBelow_eq hruns, hback]
    rw [runLength] at *
    omega

theorem units_pos {r : Nat} (h : 0 < r) : 0 < units r := by
  rw [units_eq rfl, Nat.shiftLeft_eq]
  exact Nat.mul_pos (by rw [runLength]; omega) (Nat.two_pow_pos _)

/-- **Ranks order the magnitudes.** -/
theorem units_lt_units_succ (r : Nat) : units r < units (r + 1) := by
  rcases Nat.lt_or_ge (r + 1) (2 * runLength) with h | h
  · rw [units_eq_self (Nat.lt_of_succ_lt h), units_eq_self h]
    exact Nat.lt_succ_self r
  · obtain ⟨k, hk⟩ : ∃ k, r / runLength - 1 = k := ⟨_, rfl⟩
    have hpos : 0 < 2 ^ k := Nat.two_pow_pos k
    by_cases hs : (r + 1) / runLength - 1 = k
    · rw [units_eq hk, units_eq hs, Nat.shiftLeft_eq, Nat.shiftLeft_eq]
      exact Nat.mul_lt_mul_of_pos_right (by rw [runLength] at *; omega) hpos
    · have hs' : (r + 1) / runLength - 1 = k + 1 := by rw [runLength] at *; omega
      have hp : 2 ^ (k + 1) = 2 * 2 ^ k := Nat.pow_succ'
      rw [units_eq hk, units_eq hs', Nat.shiftLeft_eq, Nat.shiftLeft_eq, hp, ← Nat.mul_assoc]
      exact Nat.mul_lt_mul_of_pos_right (by rw [runLength] at *; omega) hpos

/-! ## Rounding and the search -/

namespace Magnitude

theorem ofRank_rank (m : Magnitude) : ofRank m.rank = m := by
  cases m with
  | mk r h =>
    have hmin : min r infiniteRank = r := Nat.min_eq_left h
    simp only [ofRank, hmin]

/-- What equals a magnitude rounds to it. -/
theorem nearest_units (m : Magnitude) {d : Nat} (hd : 0 < d) :
    nearest (units m.rank * d) d = m := by
  have hq : units m.rank * d / d = units m.rank := Nat.mul_div_cancel _ hd
  have hlt : 2 * (units m.rank * d) < d * (units m.rank + units (m.rank + 1)) := by
    have h := Nat.mul_lt_mul_of_pos_left (units_lt_units_succ m.rank) hd
    rw [Nat.mul_add, Nat.mul_comm (units m.rank) d]
    omega
  simp only [nearest, hq, rankBelow_units, if_pos hlt, ofRank_rank]

/-- Place `0` of the search is exact. -/
theorem ofDecimal_scaled {m : Magnitude} (h : 0 < m.rank) :
    ofDecimal ⟨m.scaled, -(unitExponent : Int)⟩ = m := by
  have h5 : 0 < Nat.pow 5 unitExponent := Nat.pow_pos (by decide)
  have hs : m.scaled ≠ 0 := Nat.mul_ne_zero (Nat.pos_iff_ne_zero.1 (units_pos h)) (by omega)
  have hlarge : 2 ^ (2 * unitExponent) ≤ m.scaled := by
    rw [Nat.pow_mul]
    calc (2 ^ 2) ^ unitExponent ≤ 5 ^ unitExponent := Nat.pow_le_pow_left (by decide) _
      _ ≤ m.scaled := Nat.le_mul_of_pos_left _ (units_pos h)
  have hlog := (Nat.le_log2 hs).2 hlarge
  obtain ⟨e, he⟩ : ∃ e, unitExponent = e + 1 := ⟨1073, by rw [unitExponent]⟩
  have hexp : -(unitExponent : Int) = Int.negSucc e := by rw [he]; rfl
  have hclose : ¬ m.scaled.log2 + unitExponent + 3 < 3 * (e + 1) := by omega
  have hten : Nat.pow 10 (e + 1) = Nat.pow 5 unitExponent * 2 ^ unitExponent := by
    rw [he]; exact Nat.mul_pow 5 2 (e + 1)
  rw [ofDecimal, if_neg hs, hexp]
  show (if m.scaled.log2 + unitExponent + 3 < 3 * (e + 1) then _ else _) = _
  rw [if_neg hclose, hten]
  show nearest (m.scaled <<< unitExponent) _ = m
  rw [Nat.shiftLeft_eq, scaled, Nat.mul_assoc]
  exact nearest_units m (Nat.mul_pos h5 (Nat.two_pow_pos _))

/-- A candidate is taken only if it reads back. -/
theorem ofDecimal_of_readingBack? {m : Magnitude} {lower upper d : Decimal} {preferUpper : Bool}
    (h : m.readingBack? lower upper preferUpper = some d) : ofDecimal d = m := by
  rw [readingBack?] at h
  split at h
  · rename_i hl
    split at h
    · rename_i hu; exact Option.some.inj h ▸ hu.1
    · exact Option.some.inj h ▸ hl
  · split at h
    · rename_i hu; exact Option.some.inj h ▸ hu
    · cases h

/-- From whatever place the search starts, its decimal rounds to the magnitude. -/
theorem ofDecimal_shortestFrom {m : Magnitude} (h : 0 < m.rank) (tie : Tie) (j : Nat) :
    ofDecimal (m.shortestFrom tie j) = m := by
  induction j with
  | zero => exact ofDecimal_scaled h
  | succ j ih =>
    rw [shortestFrom]
    cases hr : m.roundedAt? tie (j + 1) with
    | some d => exact ofDecimal_of_readingBack? hr
    | none => exact ih

/-- **The shortest decimal of a magnitude rounds to it.** -/
theorem ofDecimal_shortest (m : Magnitude) (tie : Tie) : ofDecimal (m.shortest tie) = m := by
  rw [shortest]
  split
  · rename_i h
    cases m with
    | mk r hr => simp only at h; subst h; rfl
  · rename_i h
    exact ofDecimal_shortestFrom (Nat.pos_iff_ne_zero.2 h) tie _

theorem ofDecimal_ofNat {c : Nat} (hc : c ≠ 0) (e : Nat) : ofDecimal ⟨c, .ofNat e⟩ =
    if 309 < e then infinite else nearest ((c * Nat.pow 10 e) <<< unitExponent) 1 := by
  rw [ofDecimal, if_neg hc]

/-- Writing out the zeros of a positive exponent changes nothing for a finite magnitude. -/
theorem ofDecimal_whole {c e : Nat} (h : (ofDecimal ⟨c, .ofNat e⟩).rank < infiniteRank) :
    ofDecimal ⟨c * Nat.pow 10 e, .ofNat 0⟩ = ofDecimal ⟨c, .ofNat e⟩ := by
  by_cases hc : c = 0
  · subst hc; rw [Nat.zero_mul, ofDecimal, ofDecimal, if_pos rfl, if_pos rfl]
  · have hce : c * Nat.pow 10 e ≠ 0 :=
      Nat.mul_ne_zero hc (Nat.pos_iff_ne_zero.1 (Nat.pow_pos (by decide)))
    have hone : c * Nat.pow 10 e * Nat.pow 10 0 = c * Nat.pow 10 e := Nat.mul_one _
    rw [ofDecimal_ofNat hc] at h ⊢
    rw [ofDecimal_ofNat hce, if_neg (Nat.not_lt_zero 309), hone]
    by_cases he : 309 < e
    · rw [if_pos he] at h
      exact absurd h (Nat.lt_irrefl _)
    · rw [if_neg he]

end Magnitude

/-! ## Digits -/

namespace Decimal

/-- A run of digits is read as a whole number. -/
theorem ofChars?_digits {ds : List Char} (hd : ∀ c ∈ ds, c.isDigit = true) (hne : ds ≠ []) :
    ofChars? ds = some ⟨Nat.ofDigitChars 10 ds 0, 0⟩ := by
  have ht := List.takeWhile_append_of_all [] hd (by simp)
  have hr := List.dropWhile_append_of_all [] hd (by simp)
  rw [List.append_nil] at ht hr
  simp [ofChars?, ht, hr, fraction, exponent?, hne]

/-- Each digit behind the point lowers the exponent by one. -/
theorem ofChars?_point {ds es : List Char} (hd : ∀ c ∈ ds, c.isDigit = true)
    (he : ∀ c ∈ es, c.isDigit = true) (hne : ds ≠ []) :
    ofChars? (ds ++ '.' :: es) = some ⟨Nat.ofDigitChars 10 (ds ++ es) 0, -(es.length : Int)⟩ := by
  have ht := List.takeWhile_append_of_all ('.' :: es) hd (by simp)
  have hr := List.dropWhile_append_of_all ('.' :: es) hd (by simp)
  have ht' := List.takeWhile_append_of_all [] he (by simp)
  have hr' := List.dropWhile_append_of_all [] he (by simp)
  rw [List.append_nil] at ht' hr'
  simp [ofChars?, ht, hr, fraction, ht', hr', exponent?, hne]

theorem isDigit_toDigits {n : Nat} : ∀ c ∈ Nat.toDigits 10 n, c.isDigit = true :=
  fun _ h => Nat.isDigit_of_mem_toDigits (by decide) (by decide) h

theorem isDigit_paddedDigits {n p : Nat} : ∀ c ∈ paddedDigits n p, c.isDigit = true := by
  intro c h
  rcases List.mem_append.1 h with h | h
  · rw [(List.mem_replicate.1 h).2]; decide
  · exact isDigit_toDigits c h

/-- Enough zeros are put in front to leave a digit before the point. -/
theorem lt_length_paddedDigits (n p : Nat) : p < (paddedDigits n p).length := by
  simp only [paddedDigits, List.length_append, List.length_replicate]
  omega

/-- The zeros put in front do not change the value. -/
theorem ofDigitChars_paddedDigits (n p : Nat) : Nat.ofDigitChars 10 (paddedDigits n p) 0 = n := by
  rw [paddedDigits, Nat.ofDigitChars_append, Nat.ofDigitChars_replicate_zero, Nat.mul_zero,
    Nat.ofDigitChars_ten_toDigits]

/-- Reading a decimal that is written out gives the decimal, a positive exponent having become
    zeros. -/
theorem ofChars?_spelling (d : Decimal) : ofChars? d.spelling =
    some (match d.exponent with
      | .ofNat e => ⟨d.coefficient * Nat.pow 10 e, 0⟩
      | .negSucc _ => d) := by
  obtain ⟨c, e⟩ := d
  cases e with
  | ofNat e =>
    show ofChars? (Nat.toDigits 10 (c * Nat.pow 10 e)) = _
    rw [ofChars?_digits isDigit_toDigits Nat.toDigits_ne_nil, Nat.ofDigitChars_ten_toDigits]
  | negSucc e =>
    have hlen := lt_length_paddedDigits c (e + 1)
    have hmem := isDigit_paddedDigits (n := c) (p := e + 1)
    have hv := ofDigitChars_paddedDigits c (e + 1)
    show ofChars? ((paddedDigits c (e + 1)).take ((paddedDigits c (e + 1)).length - (e + 1)) ++
      '.' :: (paddedDigits c (e + 1)).drop ((paddedDigits c (e + 1)).length - (e + 1))) = _
    generalize paddedDigits c (e + 1) = ds at hlen hmem hv ⊢
    rw [ofChars?_point (fun x hx => hmem x (List.mem_of_mem_take hx))
      (fun x hx => hmem x (List.mem_of_mem_drop hx))
      (by intro h; have := congrArg List.length h; simp at this; omega)]
    rw [List.take_append_drop, hv, List.length_drop,
      show ds.length - (ds.length - (e + 1)) = e + 1 by omega]
    rfl

/-- A decimal that is written out starts with a digit. -/
theorem exists_spelling_eq_cons (d : Decimal) :
    ∃ c cs, d.spelling = c :: cs ∧ c.isDigit = true := by
  obtain ⟨c, e⟩ := d
  cases e with
  | ofNat e =>
    obtain ⟨x, xs, hx⟩ :=
      List.exists_cons_of_ne_nil (Nat.toDigits_ne_nil (n := c * Nat.pow 10 e) (b := 10))
    exact ⟨x, xs, hx, isDigit_toDigits x (hx ▸ List.mem_cons_self ..)⟩
  | negSucc e =>
    have hlen := lt_length_paddedDigits c (e + 1)
    have hmem := isDigit_paddedDigits (n := c) (p := e + 1)
    show ∃ x xs, (paddedDigits c (e + 1)).take ((paddedDigits c (e + 1)).length - (e + 1)) ++
      '.' :: (paddedDigits c (e + 1)).drop ((paddedDigits c (e + 1)).length - (e + 1)) = x :: xs ∧ _
    generalize paddedDigits c (e + 1) = ds at hlen hmem ⊢
    cases ds with
    | nil => exact absurd hlen (Nat.not_lt_zero _)
    | cons x xs =>
      obtain ⟨k, hk⟩ : ∃ k, (x :: xs).length - (e + 1) = k + 1 :=
        ⟨(x :: xs).length - (e + 1) - 1, by omega⟩
      rw [hk]
      exact ⟨x, _, rfl, hmem x (List.mem_cons_self ..)⟩

end Decimal

/-! ## Numbers -/

namespace Number

theorem ofDecimal_spelling {d : Decimal} {m : Magnitude} (h : Magnitude.ofDecimal d = m)
    (hm : m.rank < infiniteRank) (negative : Bool) :
    (Decimal.ofChars? d.spelling).map (ofDecimal negative) = some (signed negative m) := by
  rw [Decimal.ofChars?_spelling, Option.map_some]
  obtain ⟨c, e⟩ := d
  cases e with
  | ofNat e =>
    show some (signed negative (Magnitude.ofDecimal ⟨c * Nat.pow 10 e, .ofNat 0⟩)) = _
    rw [Magnitude.ofDecimal_whole (h ▸ hm), h]
  | negSucc e => exact congrArg (fun m => some (signed negative m)) h

/-- Text that starts with a digit is no name. -/
theorem ofUnsigned?_of_digit {c : Char} {cs : List Char} (h : c.isDigit = true) (negative : Bool) :
    ofUnsigned? negative (c :: cs) = (Decimal.ofChars? (c :: cs)).map (ofDecimal negative) := by
  have hsame : c.toLower = c := by
    have h9 : c.toNat ≤ 57 := by
      simp only [Char.isDigit, Bool.and_eq_true, decide_eq_true_eq] at h
      exact h.2
    have hu : ¬ (65 ≤ c.toNat ∧ c.toNat ≤ 90) := by omega
    exact dif_neg hu
  have hn : c ≠ 'n' := fun hc => absurd (hc ▸ h) (by decide)
  have hi : c ≠ 'i' := fun hc => absurd (hc ▸ h) (by decide)
  simp [ofUnsigned?, hsame, hn, hi]

/-- **A written magnitude reads back**, the infinite one by its name. -/
theorem ofUnsigned?_spelling (m : Magnitude) (negative : Bool) :
    ofUnsigned? negative m.spelling = some (signed negative m) := by
  rw [Magnitude.spelling]
  by_cases hm : m.rank < infiniteRank
  · rw [if_pos hm]
    obtain ⟨c, cs, hs, hc⟩ := Decimal.exists_spelling_eq_cons (m.shortest .upper)
    rw [hs, ofUnsigned?_of_digit hc, ← hs]
    exact ofDecimal_spelling (m.ofDecimal_shortest .upper) hm negative
  · rw [if_neg hm]
    have hrank : m.rank = infiniteRank := Nat.le_antisymm m.rank_le (Nat.not_lt.1 hm)
    have hinf : m = .infinite := by
      cases m with
      | mk r hr => simp only at hrank; subst hrank; rfl
    rw [hinf]
    rfl

/-- A written magnitude starts with a digit or a letter, not with a sign. -/
theorem head?_spelling_ne_sign (m : Magnitude) (c : Char) (h : m.spelling.head? = some c) :
    c ≠ '-' ∧ c ≠ '+' := by
  rw [Magnitude.spelling] at h
  split at h
  · obtain ⟨x, xs, hs, hx⟩ := Decimal.exists_spelling_eq_cons (m.shortest .upper)
    rw [hs] at h
    obtain rfl := Option.some.inj h
    exact ⟨fun hc => absurd (hc ▸ hx) (by decide), fun hc => absurd (hc ▸ hx) (by decide)⟩
  · obtain rfl := Option.some.inj h
    decide

/-- **What is written reads back.** -/
theorem ofText?_display (x : Number) : ofText? x.display = some x := by
  rw [ofText?, display, String.toList_ofList]
  cases x with
  | nan => rfl
  | signed negative m =>
    have hread := ofUnsigned?_spelling m
    have hsign := head?_spelling_ne_sign m
    cases negative with
    | true => exact hread true
    | false =>
      show ofChars? m.spelling = _
      rw [← hread false]
      generalize m.spelling = cs at hsign
      rw [ofChars?.eq_def]
      split
      · exact absurd rfl (hsign _ rfl).1
      · exact absurd rfl (hsign _ rfl).2
      · rfl

end Number

end Caret
