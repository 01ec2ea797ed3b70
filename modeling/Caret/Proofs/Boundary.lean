/-
  The boundary of notation: which trees have an exact text, told by looking at them.

  `exactText?` finds out by writing, reading and writing again.  As long as no name and no comparand
  has a structural character in it, the answer can be read off the tree.

  1. **Words in plain terms** — a text is kept if it is a run of letters, digits and underscores,
     with at least one of them, that does not open with a keyword (`Token.isWord_iff`).  A keyword
     counts where a digit or nothing follows, so `OR2` opens with one and `ORDER` does not.

  2. **Numbers** — of the finite numbers those are kept that are whole and have no sign
     (`Number.isWord_display_iff`).

  3. **Trees** — what an exact text is read as is alike to the tree that was written, so everything
     that is true of what is read is true of that tree (`exactText?_isSome_iff`).  The other
     direction is the round trip.
-/
import Caret.Proofs.ExactText

namespace Caret

/-! ## Words in plain terms -/

namespace Token

/-- A keyword stands at the start of the text, and a digit or nothing at all stands behind it. -/
def OpensWithKeyword (w : List Char) : Prop :=
  ∃ (op : Operator) (rest : List Char),
    w = op.keyword.toList ++ rest ∧ ∀ c, rest.head? = some c → c.isDigit = true

theorem keywordAt?_eq_none_iff {w : List Char} (hw : ∀ c ∈ w, isWordChar c = true) :
    keywordAt? w = none ↔ ¬ OpensWithKeyword w := by
  rw [Option.eq_none_iff_forall_ne_some]
  constructor
  · rintro h ⟨op, rest, rfl, hrest⟩
    have hfollows : startsLikeName rest = false := by
      cases rest with
      | nil => rfl
      | cons c cs => exact startsLikeName_of_digit (hrest c rfl) cs
    exact h _ (keywordAt?_eq_some_iff.2 ⟨op, rest, rfl, rfl, hfollows⟩)
  · intro h word hword
    obtain ⟨op, rest, -, rfl, hfollows⟩ := keywordAt?_eq_some_iff.1 hword
    refine h ⟨op, rest, rfl, fun c hc => ?_⟩
    obtain ⟨cs, rfl⟩ := List.head?_eq_some_iff.1 hc
    exact isDigit_of_not_startsLikeName (hw c (by simp)) hfollows

/-- **A word in plain terms.** -/
theorem isWord_iff {w : List Char} :
    IsWord w ↔ w ≠ [] ∧ (∀ c ∈ w, isWordChar c = true) ∧ ¬ OpensWithKeyword w := by
  constructor
  · intro h
    exact ⟨h.ne_nil, h.chars, (keywordAt?_eq_none_iff h.chars).1 h.plain⟩
  · rintro ⟨hne, hchars, hkeyword⟩
    exact ⟨hne, hchars, (keywordAt?_eq_none_iff hchars).2 hkeyword⟩

example : IsWord "ORDER".toList ∧ IsWord "GT_30".toList ∧
    ¬ IsWord "EQ".toList ∧ ¬ IsWord "OR2".toList ∧ ¬ IsWord "GT30".toList := by decide

end Token

/-! ## Numbers -/

/-- **Of the finite numbers the whole ones without a sign are written as words.** -/
theorem Number.isWord_display_iff {x : Number} (hx : x.isFinite = true) :
    Token.IsWord x.display.toList ↔ x.Plain :=
  ⟨fun hword => Value.plain_of_numberOfText? hword (Value.numberOfText?_display x) hx,
    Number.isWord_display⟩

/-! ## Trees -/

namespace Condition

/-- What an exact text is read as is alike to the tree, which is therefore as what was read. -/
theorem of_exactText? {c : Condition} (hc : c.Unstructured) {text : String}
    (h : c.exactText? = some text) :
    c.WellFormed ∧ c.depth ≤ Parse.defaultLimit ∧ ∀ w ∈ c.texts, Token.IsWord w.toList := by
  obtain ⟨-, back, hread, hwritten⟩ := exactText?_eq_some_iff.1 h
  obtain ⟨hback, hdepth⟩ := canonical_of_ofText hread
  have halike : back.Alike c := alike_of_written_eq hback.unstructured hc hwritten
  refine ⟨halike.wellFormed_iff.1 hback.wellFormed, ?_, ?_⟩
  · rw [← halike.depth_eq]
    exact hdepth
  · rw [← halike.texts_eq]
    exact hback.words

/-- **The boundary of notation.**  Let no name and no comparand have a structural character in it.
    A tree that can be built has an exact text just if it is at most 64 deep and each of these texts
    is a run of word characters, not empty, that does not open with a keyword.  A tree that cannot
    be built has none.  So a finite number to compare with has to be whole and without a sign. -/
theorem exactText?_isSome_iff {c : Condition} (hc : c.Unstructured) :
    (c.WellFormed → (c.exactText?.isSome = true ↔ c.depth ≤ 64 ∧ ∀ w ∈ c.texts,
      w.toList ≠ [] ∧ (∀ x ∈ w.toList, Token.isWordChar x = true) ∧
        ¬ Token.OpensWithKeyword w.toList)) ∧
    (¬ c.WellFormed → c.exactText? = none) ∧
    ∀ x : Number, x.isFinite = true → x.display ∈ c.texts → ¬ x.Plain → c.exactText? = none := by
  refine ⟨fun hwf => ⟨fun h => ?_, fun ⟨hdepth, htexts⟩ => ?_⟩, fun hwf => ?_,
    fun x hfinite hx hplain => ?_⟩
  · obtain ⟨text, htext⟩ := Option.isSome_iff_exists.1 h
    obtain ⟨-, hdepth, hwords⟩ := of_exactText? hc htext
    exact ⟨hdepth, fun w hw => Token.isWord_iff.1 (hwords w hw)⟩
  · have hwords : ∀ w ∈ c.texts, Token.IsWord w.toList := fun w hw =>
      Token.isWord_iff.2 (htexts w hw)
    rw [exactText?_of_words hwf hwords hdepth]
    rfl
  · rw [Option.eq_none_iff_forall_ne_some]
    intro text htext
    exact hwf (of_exactText? hc htext).1
  · rw [Option.eq_none_iff_forall_ne_some]
    intro text htext
    obtain ⟨-, -, hwords⟩ := of_exactText? hc htext
    exact hplain ((Number.isWord_display_iff hfinite).1 (hwords _ hx))

/-- `ORDER` and `GT_30` are kept; `GT30` opens with a keyword, and `-0` has a sign. -/
theorem exactText?_isSome_iff_keywords :
    let kept := group .and [leaf "ORDER" (.equality .eq (.string "GT_30")),
      leaf "a" (.order .gte .zero)]
    let keyword := group .and [leaf "ORDER" (.equality .eq (.string "GT30"))]
    let negative := negation (leaf "ORDER" (.order .lt (.signed true .zero)))
    (kept.Unstructured ∧ kept.WellFormed ∧ kept.exactText?.isSome = true) ∧
      (keyword.Unstructured ∧ keyword.WellFormed ∧ ¬ keyword.exactText?.isSome = true) ∧
      negative.Unstructured ∧ negative.WellFormed ∧ negative.exactText? = none := by
  intro kept keyword negative
  have hzero : Number.zero.isFinite = true := by decide
  have hminus : (Number.signed true .zero).isFinite = true := by decide
  have hplain : ¬ (Number.signed true .zero).Plain := nofun
  have hkept : kept.Unstructured := by decide
  have hkeptwf : kept.WellFormed := ⟨List.cons_ne_nil _ _, trivial, hzero, trivial⟩
  have hwords : ∀ w ∈ kept.texts, Token.IsWord w.toList := by decide
  have hkeyword : keyword.Unstructured := by decide
  have hkeywordwf : keyword.WellFormed := ⟨List.cons_ne_nil _ _, trivial, trivial⟩
  have hopens : Token.OpensWithKeyword "GT30".toList := ⟨.order .gt, ['3', '0'], rfl, by simp⟩
  have hnegative : negative.Unstructured := by decide
  refine ⟨⟨hkept, hkeptwf, ?_⟩, ⟨hkeyword, hkeywordwf, fun h => ?_⟩, hnegative, hminus, ?_⟩
  · exact ((exactText?_isSome_iff hkept).1 hkeptwf).2
      ⟨by decide, fun w hw => Token.isWord_iff.1 (hwords w hw)⟩
  · have htexts := (((exactText?_isSome_iff hkeyword).1 hkeywordwf).1 h).2
    exact (htexts "GT30" (List.mem_cons_of_mem _ (List.mem_cons_self ..))).2.2 hopens
  · exact (exactText?_isSome_iff hnegative).2.2 _ hminus
      (List.mem_cons_of_mem _ (List.mem_cons_self ..)) hplain

end Condition

end Caret
