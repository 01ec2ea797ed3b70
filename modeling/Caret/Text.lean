/-
  Text as lists of characters: runs, blanks, trimming, and where one text occurs in another.

  Blank characters are those with the Unicode property `White_Space`, 25 in all.
-/

/-! ## Runs -/

namespace List

variable {α : Type} {p : α → Bool} {as : List α}

/-- All of a run is taken, if what comes behind it does not go on with it. -/
theorem takeWhile_append_of_all (bs : List α) (h : ∀ a ∈ as, p a = true)
    (hb : ∀ b, bs.head? = some b → p b = false) : (as ++ bs).takeWhile p = as := by
  rw [takeWhile_append_of_pos h]
  cases bs with
  | nil => simp
  | cons b bs => simp [hb b rfl]

/-- No more than the run is dropped. -/
theorem dropWhile_append_of_all (bs : List α) (h : ∀ a ∈ as, p a = true)
    (hb : ∀ b, bs.head? = some b → p b = false) : (as ++ bs).dropWhile p = bs := by
  have hparts := takeWhile_append_dropWhile (p := p) (l := as ++ bs)
  rw [takeWhile_append_of_all bs h hb] at hparts
  exact append_cancel_left hparts

end List

namespace Caret.Text

/-! ## Blanks -/

/-- A character of Unicode's `White_Space`. -/
def isBlank (c : Char) : Bool :=
  let n := c.toNat
  (0x0009 ≤ n && n ≤ 0x000D) || n = 0x0020 || n = 0x0085 || n = 0x00A0 || n = 0x1680 ||
  (0x2000 ≤ n && n ≤ 0x200A) || n = 0x2028 || n = 0x2029 || n = 0x202F || n = 0x205F ||
  n = 0x3000

/-- Drop the blanks at both ends. -/
def trim (cs : List Char) : List Char :=
  ((cs.dropWhile isBlank).reverse.dropWhile isBlank).reverse

/-! ## Occurrences -/

/-- Does `part` stand somewhere in `whole`?  The empty text stands everywhere. -/
def occursIn (part : List Char) : List Char → Bool
  | [] => part.isEmpty
  | c :: cs => part.isPrefixOf (c :: cs) || occursIn part cs

end Caret.Text
