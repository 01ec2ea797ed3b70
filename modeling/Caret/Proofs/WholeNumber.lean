/-
  A number read from a word is whole, and a whole number is written with digits only.

  A word has no sign and no point, so what it reads as is a digit string times a power of ten that
  is not negative; `1e22` is such a word, and is written `10000000000000000000000`.

  1. **Whole magnitudes** — multiples of `2 ^ unitExponent` units, that is, of one.  Rounding a
     whole value gives a whole magnitude (`whole_nearest`): where the spacing of the magnitudes
     is finer than one nothing is lost, and where it is not, every magnitude is whole.

  2. **Writing** — the search for the shortest decimal starts above the place of the ones, and there
     it has a hit at the latest, as the value itself lies on that grid (`exponent_shortest`).

  3. **Words** — what is read from the characters of a word is plain, that is, whole and with no
     sign (`Number.plain_of_ofChars?` and `Value.plain_of_numberOfText?`).  On the way back, a plain
     number is written as a word again (`Number.isWord_display`).
-/
import Caret.Proofs.Comparand
import Caret.Proofs.Scanning

namespace Caret

/-! ## The spacing of the magnitudes -/

/-- The leading binary digits of `u`: at most 53, and as many as that if others follow them. -/
theorem leading_bounds {u k : Nat} (hk : u.log2 - 52 = k) :
    u >>> k < 2 * runLength ∧ (0 < k → runLength ≤ u >>> k) := by
  have hrun : runLength = 2 ^ 52 := rfl
  rcases Nat.eq_zero_or_pos u with rfl | hu
  · rw [Nat.zero_shiftRight]
    rw [Nat.log2_zero] at hk
    exact ⟨by decide, fun hpos => by omega⟩
  · have hu := Nat.pos_iff_ne_zero.1 hu
    have hhi : u < 2 ^ (53 + k) := (Nat.log2_lt hu).1 (by omega)
    rw [Nat.shiftRight_eq_div_pow, hrun, Nat.le_div_iff_mul_le (Nat.two_pow_pos k),
      Nat.div_lt_iff_lt_mul (Nat.two_pow_pos k), ← Nat.pow_succ', ← Nat.pow_add, ← Nat.pow_add]
    exact ⟨hhi, fun hpos => (Nat.le_log2 hu).1 (by omega)⟩

/-- Behind the 53 leading digits of `u` come as many digits as its magnitude has doublings. -/
theorem doublings_rankBelow {u k : Nat} (hk : u.log2 - 52 = k) :
    rankBelow u / runLength - 1 = k := by
  obtain ⟨hhi, hlo⟩ := leading_bounds hk
  rw [rankBelow_eq hk]
  rw [runLength] at *
  omega

/-- The magnitude below `u` units is `u` with all but its 53 leading binary digits cleared. -/
theorem units_rankBelow {u k : Nat} (hk : u.log2 - 52 = k) :
    units (rankBelow u) = (u >>> k) <<< k := by
  rw [units_eq (doublings_rankBelow hk), rankBelow_eq hk, Nat.add_sub_cancel_left]

theorem one_shiftLeft_dvd {k l : Nat} (h : k ≤ l) : 1 <<< k ∣ 1 <<< l := by
  rw [Nat.shiftLeft_eq, Nat.shiftLeft_eq, Nat.one_mul, Nat.one_mul]
  exact Nat.pow_dvd_pow 2 h

/-- The magnitude below `u` units is a multiple of its spacing. -/
theorem dvd_units_rankBelow {u k : Nat} (hk : u.log2 - 52 = k) :
    1 <<< k ∣ units (rankBelow u) := by
  rw [units_rankBelow hk, Nat.shiftLeft_eq, Nat.shiftLeft_eq, Nat.one_mul]
  exact Nat.dvd_mul_left ..

/-- If `u` is a multiple of the spacing, the cleared digits were zero. -/
theorem units_rankBelow_of_dvd {u k : Nat} (hk : u.log2 - 52 = k) (h : 1 <<< k ∣ u) :
    units (rankBelow u) = u := by
  rw [Nat.shiftLeft_eq, Nat.one_mul] at h
  rw [units_rankBelow hk, Nat.shiftRight_eq_div_pow, Nat.shiftLeft_eq, Nat.div_mul_cancel h]

/-- Above the magnitude of rank `r` the next one follows at the spacing of its run. -/
theorem units_succ {r k : Nat} (h : r / runLength - 1 = k) :
    units (r + 1) = units r + 1 <<< k := by
  by_cases hs : (r + 1) / runLength - 1 = k
  · rw [units_eq h, units_eq hs, Nat.shiftLeft_eq, Nat.shiftLeft_eq, Nat.shiftLeft_eq,
      ← Nat.add_mul]
    congr 1
    rw [runLength] at *
    omega
  · -- the first magnitude of a run lies two spacings of the run before above its last but one
    have hs' : (r + 1) / runLength - 1 = k + 1 := by rw [runLength] at *; omega
    have hp : 2 ^ (k + 1) = 2 * 2 ^ k := Nat.pow_succ'
    rw [units_eq h, units_eq hs', Nat.shiftLeft_eq, Nat.shiftLeft_eq, Nat.shiftLeft_eq, hp,
      ← Nat.mul_assoc, ← Nat.add_mul]
    congr 1
    rw [runLength] at *
    omega

/-! ## Whole magnitudes -/

namespace Magnitude

/-- A multiple of one, which is `1 <<< unitExponent` units. -/
def IsWhole (m : Magnitude) : Prop := 1 <<< unitExponent ∣ units m.rank

/-- Rounding gives one of the two neighbours. -/
theorem nearest_eq_or {numerator denominator r : Nat}
    (h : rankBelow (numerator / denominator) = r) :
    nearest numerator denominator = ofRank r ∨ nearest numerator denominator = ofRank (r + 1) := by
  subst h
  simp only [nearest]
  split
  · exact .inl rfl
  · split
    · exact .inr rfl
    · rcases Nat.mod_two_eq_zero_or_one (rankBelow (numerator / denominator)) with h | h
      · exact .inl (by rw [h, Nat.add_zero])
      · exact .inr (by rw [h])

theorem rank_ofRank {r : Nat} (h : (ofRank r).rank < infiniteRank) : (ofRank r).rank = r := by
  have h : min r infiniteRank < infiniteRank := h
  show min r infiniteRank = r
  omega

/-- Where the value lies on the grid of the magnitudes it is kept. -/
theorem nearest_of_units {u : Nat} (h : units (rankBelow u) = u) :
    nearest u 1 = ofRank (rankBelow u) := by
  have hlt : 2 * u < 1 * (units (rankBelow u) + units (rankBelow u + 1)) := by
    have := units_lt_units_succ (rankBelow u)
    omega
  simp only [nearest, Nat.div_one, if_pos hlt]

/-- **Rounding a whole value gives a whole magnitude.** -/
theorem whole_nearest {v : Nat} (h : (nearest (v <<< unitExponent) 1).rank < infiniteRank) :
    (nearest (v <<< unitExponent) 1).IsWhole := by
  obtain ⟨u, hu⟩ : ∃ u, v <<< unitExponent = u := ⟨_, rfl⟩
  have hdvd : 1 <<< unitExponent ∣ u := by
    rw [← hu, Nat.shiftLeft_eq, Nat.shiftLeft_eq, Nat.one_mul]
    exact Nat.dvd_mul_left ..
  rw [hu] at h ⊢
  obtain ⟨k, hk⟩ : ∃ k, u.log2 - 52 = k := ⟨_, rfl⟩
  rcases Nat.lt_or_ge k unitExponent with hfine | hcoarse
  · -- a spacing below one: nothing is rounded
    have hexact : units (rankBelow u) = u :=
      units_rankBelow_of_dvd hk (Nat.dvd_trans (one_shiftLeft_dvd (Nat.le_of_lt hfine)) hdvd)
    rw [nearest_of_units hexact] at h ⊢
    rw [IsWhole, rank_ofRank h, hexact]
    exact hdvd
  · -- a spacing of one or more: both neighbours are whole
    have hone := one_shiftLeft_dvd hcoarse
    have hlow : 1 <<< unitExponent ∣ units (rankBelow u) :=
      Nat.dvd_trans hone (dvd_units_rankBelow hk)
    have hup : 1 <<< unitExponent ∣ units (rankBelow u + 1) := by
      rw [units_succ (doublings_rankBelow hk)]
      exact Nat.dvd_add hlow hone
    rcases nearest_eq_or (show rankBelow (u / 1) = rankBelow u by rw [Nat.div_one]) with hn | hn
    · rw [hn] at h ⊢
      rw [IsWhole, rank_ofRank h]
      exact hlow
    · rw [hn] at h ⊢
      rw [IsWhole, rank_ofRank h]
      exact hup

theorem whole_zero : zero.IsWhole := Nat.dvd_zero _

/-! ## Writing a whole magnitude -/

theorem exponent_of_readingBack? {m : Magnitude} {lower upper d : Decimal} {preferUpper : Bool}
    (h : m.readingBack? lower upper preferUpper = some d)
    (he : lower.exponent = upper.exponent) : d.exponent = lower.exponent := by
  rw [readingBack?] at h
  split at h
  · split at h
    · exact Option.some.inj h ▸ he.symm
    · exact Option.some.inj h ▸ rfl
  · split at h
    · exact Option.some.inj h ▸ he.symm
    · cases h

/-- The exponent of a decimal is the place that it was found at, counted from the ones. -/
theorem exponent_of_roundedAt? {m : Magnitude} {tie : Tie} {j : Nat} {d : Decimal}
    (h : m.roundedAt? tie j = some d) : d.exponent = (j : Int) - unitExponent := by
  rw [roundedAt?] at h
  exact exponent_of_readingBack? h rfl

theorem readingBack?_of_lower {m : Magnitude} {lower upper : Decimal} {preferUpper : Bool}
    (h : ofDecimal lower = m) : m.readingBack? lower upper preferUpper ≠ none := by
  rw [readingBack?, if_pos h]
  split <;> exact Option.some_ne_none _

theorem exists_units_of_whole {m : Magnitude} (hm : m.IsWhole) (hpos : 0 < m.rank) :
    ∃ v, v ≠ 0 ∧ units m.rank = (1 <<< unitExponent) * v := by
  obtain ⟨v, hv⟩ := hm
  refine ⟨v, ?_, hv⟩
  rintro rfl
  have := units_pos hpos
  omega

/-- Scaled up, a whole value ends in as many zeros as there are places. -/
theorem scaled_of_whole {m : Magnitude} {v : Nat} (h : units m.rank = (1 <<< unitExponent) * v) :
    m.scaled = v * Nat.pow 10 unitExponent := by
  have hten : Nat.pow 10 unitExponent = 2 ^ unitExponent * 5 ^ unitExponent :=
    Nat.mul_pow 2 5 unitExponent
  rw [scaled, h, hten, Nat.shiftLeft_eq, Nat.one_mul, Nat.mul_comm _ v, Nat.mul_assoc]
  rfl

/-- **At the place of the ones a whole magnitude is hit**, by itself. -/
theorem roundedAt?_ones {m : Magnitude} (hm : m.IsWhole) (hpos : 0 < m.rank) (tie : Tie) :
    m.roundedAt? tie unitExponent ≠ none := by
  obtain ⟨v, hv0, hv⟩ := exists_units_of_whole hm hpos
  have hten : 0 < Nat.pow 10 unitExponent := Nat.pow_pos (by decide)
  have hbelow : m.scaled / Nat.pow 10 unitExponent = v := by
    rw [scaled_of_whole hv, Nat.mul_div_cancel _ hten]
  have hback : ofDecimal ⟨v, .ofNat 0⟩ = m := by
    have hvalue : (v * Nat.pow 10 0) <<< unitExponent = units m.rank * 1 := by
      rw [hv, Nat.shiftLeft_eq, Nat.shiftLeft_eq, Nat.one_mul, Nat.mul_comm (2 ^ unitExponent)]
      show v * 1 * _ = _
      rw [Nat.mul_one, Nat.mul_one]
    rw [ofDecimal_ofNat hv0, if_neg (Nat.not_lt_zero 309), hvalue]
    exact nearest_units m Nat.one_pos
  rw [roundedAt?, hbelow, Int.sub_self]
  exact readingBack?_of_lower hback

/-- A search that starts at the place of the ones or above it gets no further than that place. -/
theorem exponent_shortestFrom {m : Magnitude} (hm : m.IsWhole) (hpos : 0 < m.rank) (tie : Tie) :
    ∀ {j : Nat}, unitExponent ≤ j → 0 ≤ (m.shortestFrom tie j).exponent := by
  intro j
  induction j with
  | zero =>
    intro hj
    rw [unitExponent] at hj
    omega
  | succ j ih =>
    intro hj
    rw [shortestFrom]
    cases hr : m.roundedAt? tie (j + 1) with
    | some d =>
      have := exponent_of_roundedAt? hr
      show 0 ≤ d.exponent
      omega
    | none =>
      rcases Nat.lt_or_eq_of_le hj with hlt | heq
      · exact ih (Nat.le_of_lt_succ hlt)
      · rw [← heq] at hr
        exact absurd hr (roundedAt?_ones hm hpos tie)

/-- `10 ^ 28` is just above `2 ^ 93`. -/
theorem two_pow_le_ten_pow (b : Nat) : Nat.pow 2 (93 * b + 33) ≤ Nat.pow 10 (28 * b + 10) := by
  rw [Nat.pow_eq, Nat.pow_eq, Nat.pow_add, Nat.pow_add, Nat.pow_mul, Nat.pow_mul]
  exact Nat.mul_le_mul (Nat.pow_le_pow_left (by decide) b) (by decide)

/-- The search for a whole magnitude starts above the place of the ones. -/
theorem ones_le_start {m : Magnitude} (hm : m.IsWhole) (hpos : 0 < m.rank) :
    unitExponent ≤ m.scaled.log2 * 30103 / 100000 + 2 := by
  obtain ⟨v, hv0, hv⟩ := exists_units_of_whole hm hpos
  -- `38` stays a variable, so that no step forms the powers
  obtain ⟨b, hb⟩ : ∃ b, b = 38 := ⟨_, rfl⟩
  have hplaces : unitExponent = 28 * b + 10 := by rw [hb, unitExponent]
  have hscaled : 2 ^ (93 * b + 33) ≤ m.scaled := by
    rw [scaled_of_whole hv, hplaces, ← Nat.pow_eq]
    exact Nat.le_trans (two_pow_le_ten_pow b) (Nat.le_mul_of_pos_left _ (Nat.pos_of_ne_zero hv0))
  have hne : m.scaled ≠ 0 := by
    have := Nat.two_pow_pos (93 * b + 33)
    omega
  have hlog := (Nat.le_log2 hne).2 hscaled
  omega

/-- **A whole magnitude is written without a point.** -/
theorem exponent_shortest {m : Magnitude} (hm : m.IsWhole) (tie : Tie) :
    0 ≤ (m.shortest tie).exponent := by
  rw [shortest]
  split
  · exact Int.le_refl 0
  · rename_i h
    have hpos := Nat.pos_iff_ne_zero.2 h
    exact exponent_shortestFrom hm hpos tie (ones_le_start hm hpos)

/-- **A whole magnitude is written with digits only.** -/
theorem spelling_of_whole {m : Magnitude} (hm : m.IsWhole) (hfinite : m.rank < infiniteRank) :
    ∃ n, m.spelling = Nat.toDigits 10 n := by
  have he := exponent_shortest hm .upper
  rw [spelling, if_pos hfinite]
  generalize m.shortest .upper = d at he
  obtain ⟨n, e⟩ := d
  cases e with
  | ofNat e => exact ⟨n * Nat.pow 10 e, rfl⟩
  | negSucc e => exact absurd he (Int.not_le.2 (Int.negSucc_lt_zero e))

end Magnitude

/-! ## Reading a word -/

theorem isUpper_iff {c : Char} : c.isUpper = true ↔ 65 ≤ c.toNat ∧ c.toNat ≤ 90 := by
  show decide (c.val ≥ 'A'.val ∧ c.val ≤ 'Z'.val) = true ↔ _
  rw [decide_eq_true_eq]
  exact Iff.rfl

theorem isLower_iff {c : Char} : c.isLower = true ↔ 97 ≤ c.toNat ∧ c.toNat ≤ 122 := by
  show (decide (c.val ≥ 'a'.val) && decide (c.val ≤ 'z'.val)) = true ↔ _
  rw [Bool.and_eq_true, decide_eq_true_eq, decide_eq_true_eq]
  exact Iff.rfl

namespace Token

/-- Word characters lie between `0` and `z`. -/
theorem bounds_of_isWordChar {c : Char} (h : isWordChar c = true) :
    48 ≤ c.toNat ∧ c.toNat ≤ 122 := by
  have hclasses : (((c.isUpper || c.isLower) || c.isDigit) || decide (c = '_')) = true := h
  simp only [Bool.or_eq_true, decide_eq_true_eq, isUpper_iff, isLower_iff, isDigit_iff] at hclasses
  rcases hclasses with ((_ | _) | _) | rfl
  · omega
  · omega
  · omega
  · decide

theorem isBlank_of_isWordChar {c : Char} (h : isWordChar c = true) : Text.isBlank c = false := by
  have hbounds := bounds_of_isWordChar h
  simp only [Text.isBlank, Bool.or_eq_false_iff, Bool.and_eq_false_iff, decide_eq_false_iff_not]
  omega

theorem isWordChar_of_isDigit {c : Char} (h : c.isDigit = true) : isWordChar c = true := by
  rw [isWordChar, Char.isAlphanum, h, Bool.or_true, Bool.true_or]

end Token

namespace Decimal

/-- An exponent without a sign is not negative. -/
theorem exponent?_nonneg {cs : List Char} (hsign : '-' ∉ cs) {e : Int}
    (h : exponent? cs = some e) : 0 ≤ e := by
  have hnat : ∀ {ds : List Char},
      (do let n ← exponentDigits? ds; pure (n : Int) : Option Int).map (fun e => e) = some e →
      0 ≤ e := by
    intro ds hds
    obtain ⟨_, hbind, rfl⟩ := Option.map_eq_some_iff.1 hds
    obtain ⟨n, -, hn⟩ := Option.bind_eq_some_iff.1 hbind
    exact Option.some.inj hn ▸ Int.natCast_nonneg n
  rw [exponent?.eq_def] at h
  split at h
  · exact Option.some.inj h ▸ Int.le_refl 0
  · split at h
    · split at h
      · exact absurd (List.mem_cons_of_mem _ (List.mem_cons_self ..)) hsign
      · exact hnat h
      · exact hnat h
    · cases h

/-- Without a point and without a sign, digits and a power of ten make a whole value. -/
theorem exponent_ofChars? {cs : List Char} (hpoint : '.' ∉ cs) (hsign : '-' ∉ cs) {d : Decimal}
    (h : ofChars? cs = some d) : 0 ≤ d.exponent := by
  have hdrop : ∀ c ∈ cs.dropWhile Char.isDigit, c ∈ cs :=
    fun c hc => List.dropWhile_subset _ hc
  have hfraction : fraction (cs.dropWhile Char.isDigit) = ([], cs.dropWhile Char.isDigit) := by
    rw [fraction.eq_def]
    split
    · rename_i rest hrest
      exact absurd (hdrop '.' (hrest ▸ List.mem_cons_self ..)) hpoint
    · rfl
  simp only [ofChars?, hfraction] at h
  split at h
  · cases h
  · obtain ⟨e, he, rfl⟩ := Option.map_eq_some_iff.1 h
    have hnonneg := exponent?_nonneg (fun hc => hsign (hdrop '-' hc)) he
    show 0 ≤ e - (([] : List Char).length : Int)
    rw [List.length_nil]
    omega

end Decimal

/-- A whole decimal that is not too large rounds to a whole magnitude. -/
theorem Magnitude.whole_ofDecimal {d : Decimal} (he : 0 ≤ d.exponent)
    (h : (ofDecimal d).rank < infiniteRank) : (ofDecimal d).IsWhole := by
  obtain ⟨n, e⟩ := d
  cases e with
  | negSucc e => exact absurd he (Int.not_le.2 (Int.negSucc_lt_zero e))
  | ofNat e =>
    rcases Nat.eq_zero_or_pos n with rfl | hn
    · rw [ofDecimal, if_pos rfl]
      exact whole_zero
    · rw [ofDecimal_ofNat (Nat.pos_iff_ne_zero.1 hn)] at h ⊢
      split at h
      · exact absurd h (Nat.lt_irrefl _)
      · rename_i hlarge
        rw [if_neg hlarge]
        exact whole_nearest h

namespace Number

/-- A number that is read without a sign, a point or an infinity. -/
inductive Plain : Number → Prop where
  | whole {m : Magnitude} (whole : m.IsWhole) (finite : m.rank < infiniteRank) :
      Plain (signed false m)

/-- **A finite number read from word characters is whole**, and its sign is positive. -/
theorem plain_of_ofChars? {w : List Char} (hw : ∀ c ∈ w, Token.isWordChar c = true) {x : Number}
    (h : ofChars? w = some x) (hfinite : x.isFinite = true) : x.Plain := by
  have hminus : '-' ∉ w := fun hc => absurd (hw _ hc) (by decide)
  have hplus : '+' ∉ w := fun hc => absurd (hw _ hc) (by decide)
  have hpoint : '.' ∉ w := fun hc => absurd (hw _ hc) (by decide)
  have hunsigned : ofChars? w = ofUnsigned? false w := by
    rw [ofChars?.eq_def]
    split
    · exact absurd (List.mem_cons_self ..) hminus
    · exact absurd (List.mem_cons_self ..) hplus
    · rfl
  rw [hunsigned] at h
  simp only [ofUnsigned?] at h
  split at h
  · obtain rfl := Option.some.inj h
    cases hfinite
  · split at h
    · obtain rfl := Option.some.inj h
      exact absurd hfinite (by decide)
    · obtain ⟨d, hd, rfl⟩ := Option.map_eq_some_iff.1 h
      have hrank := of_decide_eq_true hfinite
      have he := Decimal.exponent_ofChars? hpoint hminus hd
      exact .whole (Magnitude.whole_ofDecimal he hrank) hrank

/-! ## Writing a word -/

/-- A plain number is written with digits only, having no sign. -/
theorem exists_digits_of_plain {x : Number} (hx : x.Plain) :
    ∃ n, x.display.toList = Nat.toDigits 10 n := by
  cases hx with
  | whole hm hfinite =>
    rw [toList_display]
    exact Magnitude.spelling_of_whole hm hfinite

end Number

/-- Digits are neither letters nor the underscore. -/
theorem Token.startsLikeName_of_digit {c : Char} (h : c.isDigit = true) (cs : List Char) :
    startsLikeName (c :: cs) = false := by
  have hclasses : startsLikeName (c :: cs) = ((c.isUpper || c.isLower) || decide (c = '_')) := rfl
  obtain ⟨hlo, hhi⟩ := isDigit_iff.1 h
  rw [hclasses, ← Bool.not_eq_true]
  simp only [Bool.or_eq_true, decide_eq_true_eq, isUpper_iff, isLower_iff]
  rintro ((_ | _) | rfl)
  · omega
  · omega
  · exact absurd h (by decide)

/-- No keyword begins with a digit. -/
theorem Token.keywordAt?_of_digit {c : Char} (hc : c.isDigit = true) (cs : List Char) :
    keywordAt? (c :: cs) = none := by
  rw [Option.eq_none_iff_forall_ne_some]
  intro word hword
  obtain ⟨op, rest, -, hstart, -⟩ := keywordAt?_eq_some_iff.1 hword
  have hname := startsLikeName_keyword_append op rest
  rw [← hstart, startsLikeName_of_digit hc] at hname
  cases hname

/-- **A number read from a word is written as a word.** -/
theorem Number.isWord_display {x : Number} (hx : x.Plain) :
    Token.IsWord x.display.toList := by
  obtain ⟨n, hn⟩ := exists_digits_of_plain hx
  rw [hn]
  have hdigits : ∀ c ∈ Nat.toDigits 10 n, c.isDigit = true := Decimal.isDigit_toDigits
  have hne : Nat.toDigits 10 n ≠ [] := Nat.toDigits_ne_nil
  refine ⟨hne, fun c hc => Token.isWordChar_of_isDigit (hdigits c hc), ?_⟩
  obtain ⟨c, cs, hcs⟩ := List.exists_cons_of_ne_nil hne
  rw [hcs] at hdigits ⊢
  exact Token.keywordAt?_of_digit (hdigits c (List.mem_cons_self ..)) cs

/-- The operand of an ordering test, as it comes from the scanner. -/
theorem Value.plain_of_numberOfText? {w : String} (hw : Token.IsWord w.toList) {x : Number}
    (h : numberOfText? w = some x) (hfinite : x.isFinite = true) : x.Plain := by
  have hblank : ∀ c ∈ w.toList, Text.isBlank c = false :=
    fun c hc => Token.isBlank_of_isWordChar (hw.chars c hc)
  rw [numberOfText?, Text.trim_of_no_blank hblank] at h
  exact Number.plain_of_ofChars? hw.chars h hfinite

end Caret
