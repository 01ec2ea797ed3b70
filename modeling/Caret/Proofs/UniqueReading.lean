/-
  Unique reading: the written form determines a tree whose texts have no structural characters.

  Text up to its first structural character can be told from what follows (`plain_append_inj`).
  After its opening parenthesis a leaf goes on to `^`, a group to `[` and a negation to `(`
  (`Condition.mark`), with a name or a keyword before it.  So the first structural character tells
  what sort of node it is, the text before it tells which one, and the rest is read in the same way.

  What comes out is not the tree itself but a tree that is written alike: `1` and `"1"` leave the
  same trace.
-/
import Caret.Proofs.Alike
import Caret.Proofs.Scanning

namespace Caret

/-! ## Text without structural characters -/

namespace Token

/-- **Text up to its first structural character is determined**, and so is that character. -/
theorem plain_append_inj {w v : List Char} {x y : Char} {r s : List Char}
    (hw : ∀ c ∈ w, Kind.ofChar? c = none) (hv : ∀ c ∈ v, Kind.ofChar? c = none)
    (hx : Kind.ofChar? x ≠ none) (hy : Kind.ofChar? y ≠ none)
    (h : w ++ x :: r = v ++ y :: s) : w = v ∧ x = y ∧ r = s := by
  induction w generalizing v with
  | nil =>
    cases v with
    | nil =>
      obtain ⟨rfl, rfl⟩ := List.cons.inj h
      exact ⟨rfl, rfl, rfl⟩
    | cons d v =>
      -- the mark of the one would be plain text of the other
      obtain ⟨rfl, -⟩ := List.cons.inj h
      exact absurd (hv x (List.mem_cons_self ..)) hx
  | cons c w ih =>
    obtain ⟨hc, hw⟩ := List.forall_mem_cons.1 hw
    cases v with
    | nil =>
      obtain ⟨rfl, -⟩ := List.cons.inj h
      exact absurd hc hy
    | cons d v =>
      obtain ⟨rfl, hcons⟩ := List.cons.inj h
      obtain ⟨rfl, hrest⟩ := ih hw (List.forall_mem_cons.1 hv).2 hcons
      exact ⟨rfl, hrest⟩

theorem ofChar?_keyword (op : Operator) : ∀ c ∈ op.keyword.toList, Kind.ofChar? c = none :=
  fun _ hc => ofChar?_eq_none (isWordChar_of_mem_keyword hc)

end Token

/-! ## Tests -/

theorem Test.exists_spelling (test : Test) : ∃ tail, test.spelling = '^' :: tail := ⟨_, rfl⟩

/-- The operator and the text of the comparand can be read off a test and the parenthesis that
    closes its leaf. -/
theorem Test.spelling_append_inj {t u : Test} {r s : List Char}
    (ht : ∀ w ∈ t.comparand?, ∀ c ∈ w.toList, Token.Kind.ofChar? c = none)
    (hu : ∀ w ∈ u.comparand?, ∀ c ∈ w.toList, Token.Kind.ofChar? c = none)
    (h : t.spelling ++ ')' :: r = u.spelling ++ ')' :: s) :
    t.operator = u.operator ∧ t.comparand? = u.comparand? ∧ r = s := by
  have hkt := Token.ofChar?_keyword t.operator
  have hku := Token.ofChar?_keyword u.operator
  simp only [spelling, List.cons_append, List.append_assoc, List.cons.injEq, true_and] at h
  -- the mark after the keyword tells whether a comparand follows
  cases hwt : t.comparand? with
  | none =>
    cases hwu : u.comparand? with
    | none =>
      simp only [hwt, hwu, List.nil_append] at h
      obtain ⟨hop, -, hr⟩ := Token.plain_append_inj hkt hku (by decide) (by decide) h
      exact ⟨Operator.keyword_injective (String.toList_injective hop), rfl, hr⟩
    | some v =>
      simp only [hwt, hwu, List.nil_append, List.cons_append] at h
      obtain ⟨-, hmark, -⟩ := Token.plain_append_inj hkt hku (by decide) (by decide) h
      exact absurd hmark (by decide)
  | some w =>
    cases hwu : u.comparand? with
    | none =>
      simp only [hwt, hwu, List.nil_append, List.cons_append] at h
      obtain ⟨-, hmark, -⟩ := Token.plain_append_inj hkt hku (by decide) (by decide) h
      exact absurd hmark (by decide)
    | some v =>
      simp only [hwt, hwu, List.cons_append] at h
      obtain ⟨hop, -, h⟩ := Token.plain_append_inj hkt hku (by decide) (by decide) h
      obtain ⟨hw, -, hr⟩ :=
        Token.plain_append_inj (ht w hwt) (hu v hwu) (by decide) (by decide) h
      rw [String.toList_injective hw]
      exact ⟨Operator.keyword_injective (String.toList_injective hop), rfl, hr⟩

/-! ## Trees -/

namespace Condition

/-- The first structural character after the opening parenthesis. -/
def mark : Condition → Char
  | leaf _ _ => '^'
  | group _ _ => '['
  | negation _ => '('

theorem ofChar?_mark (c : Condition) : Token.Kind.ofChar? c.mark ≠ none := by
  cases c <;> exact Option.some_ne_none _

theorem exists_spelling (c : Condition) : ∃ rest, c.spelling = '(' :: rest := by
  cases c <;> exact ⟨_, rfl⟩

/-- A condition opens with a parenthesis and goes on with plain text up to its mark. -/
theorem exists_mark {c : Condition} (hc : c.Unstructured) :
    ∃ w rest, (∀ x ∈ w, Token.Kind.ofChar? x = none) ∧
      c.spelling = '(' :: (w ++ c.mark :: rest) := by
  cases c with
  | leaf property test =>
    refine ⟨property.toList, test.spelling.tail ++ [')'], hc property (List.mem_cons_self ..), ?_⟩
    rw [spelling]
    simp only [List.cons_append, List.append_assoc]
    rfl
  | group op children =>
    refine ⟨op.keyword.toList, spellingOfChildren children ++ [']', ')'],
      Token.ofChar?_keyword (.connective op), ?_⟩
    rw [spelling]
    simp only [List.cons_append, List.append_assoc]
    rfl
  | negation child =>
    obtain ⟨rest, hrest⟩ := child.exists_spelling
    refine ⟨Operator.not.keyword.toList, rest ++ [')'], Token.ofChar?_keyword .not, ?_⟩
    rw [spelling, hrest]
    simp only [List.cons_append, List.append_assoc]
    rfl

/-- The sort of node can be read off. -/
theorem mark_eq_of_spelling {c d : Condition} {r s : List Char} (hc : c.Unstructured)
    (hd : d.Unstructured) (h : c.spelling ++ r = d.spelling ++ s) : c.mark = d.mark := by
  obtain ⟨w, rest, hw, hcs⟩ := exists_mark hc
  obtain ⟨v, rest', hv, hds⟩ := exists_mark hd
  rw [hcs, hds] at h
  simp only [List.cons_append, List.append_assoc, List.cons.injEq, true_and] at h
  exact (Token.plain_append_inj hw hv c.ofChar?_mark d.ofChar?_mark h).2.1

mutual

/-- **Unique reading**, whatever follows: equal written forms are of trees that are alike. -/
theorem spelling_append_inj : ∀ {c d : Condition} {r s : List Char}, c.Unstructured →
    d.Unstructured → c.spelling ++ r = d.spelling ++ s → c.Alike d ∧ r = s
  | leaf p t, leaf q u, r, s, hc, hd, h => by
    obtain ⟨hp, ht⟩ := List.forall_mem_cons.1 hc
    obtain ⟨hq, hu⟩ := List.forall_mem_cons.1 hd
    obtain ⟨tail, htail⟩ := t.exists_spelling
    obtain ⟨tail', htail'⟩ := u.exists_spelling
    simp only [spelling, htail, htail', List.cons_append, List.append_assoc, List.nil_append,
      List.cons.injEq, true_and] at h
    obtain ⟨hname, -, h⟩ := Token.plain_append_inj hp hq (by decide) (by decide) h
    have h : t.spelling ++ ')' :: r = u.spelling ++ ')' :: s := by
      rw [htail, htail', List.cons_append, List.cons_append, h]
    obtain ⟨hop, hcomparand, hr⟩ := Test.spelling_append_inj (fun w hw => ht w (by simpa using hw))
      (fun w hw => hu w (by simpa using hw)) h
    exact ⟨⟨String.toList_injective hname, hop, hcomparand⟩, hr⟩
  | group op cs, group op' ds, r, s, hc, hd, h => by
    simp only [spelling, List.cons_append, List.append_assoc, List.nil_append, List.cons.injEq,
      true_and] at h
    obtain ⟨hop, -, h⟩ := Token.plain_append_inj (Token.ofChar?_keyword (.connective op))
      (Token.ofChar?_keyword (.connective op')) (by decide) (by decide) h
    have hop := Operator.keyword_injective (String.toList_injective hop)
    obtain ⟨hall, h⟩ := spellingOfChildren_append_inj hc hd h
    exact ⟨⟨Operator.connective.inj hop, hall⟩, (List.cons.inj h).2⟩
  | negation c, negation d, r, s, hc, hd, h => by
    simp only [spelling, List.cons_append, List.append_assoc, List.nil_append, List.cons.injEq,
      true_and, List.append_cancel_left_eq] at h
    have hc : c.Unstructured := hc
    have hd : d.Unstructured := hd
    obtain ⟨halike, h⟩ := spelling_append_inj hc hd h
    exact ⟨halike, (List.cons.inj h).2⟩
  | leaf _ _, group _ _, _, _, hc, hd, h | leaf _ _, negation _, _, _, hc, hd, h
  | group _ _, leaf _ _, _, _, hc, hd, h | group _ _, negation _, _, _, hc, hd, h
  | negation _, leaf _ _, _, _, hc, hd, h | negation _, group _ _, _, _, hc, hd, h => by
    -- nodes of two sorts
    exact absurd (mark_eq_of_spelling hc hd h) (by simp [mark])

/-- The children of a group, up to its bracket. -/
theorem spellingOfChildren_append_inj : ∀ {cs ds : List Condition} {r s : List Char},
    (∀ w ∈ textsOfAll cs, ∀ x ∈ w.toList, Token.Kind.ofChar? x = none) →
    (∀ w ∈ textsOfAll ds, ∀ x ∈ w.toList, Token.Kind.ofChar? x = none) →
    spellingOfChildren cs ++ ']' :: r = spellingOfChildren ds ++ ']' :: s →
    AllAlike cs ds ∧ r = s
  | [], [], r, s, _, _, h => ⟨trivial, (List.cons.inj h).2⟩
  | c :: cs, d :: ds, r, s, hc, hd, h => by
    obtain ⟨hc, hcs⟩ := List.forall_mem_append.1 hc
    obtain ⟨hd, hds⟩ := List.forall_mem_append.1 hd
    rw [spellingOfChildren, spellingOfChildren, List.append_assoc, List.append_assoc] at h
    obtain ⟨halike, h⟩ := spelling_append_inj hc hd h
    obtain ⟨hall, h⟩ := spellingOfFurther_append_inj hcs hds h
    exact ⟨⟨halike, hall⟩, h⟩
  | [], d :: ds, _, _, _, _, h => by
    obtain ⟨rest, hrest⟩ := d.exists_spelling
    rw [spellingOfChildren, spellingOfChildren, hrest] at h
    exact absurd (List.cons.inj h).1 (by decide)
  | c :: cs, [], _, _, _, _, h => by
    obtain ⟨rest, hrest⟩ := c.exists_spelling
    rw [spellingOfChildren, spellingOfChildren, hrest] at h
    exact absurd (List.cons.inj h).1 (by decide)

/-- The children after the first, each after its comma, up to the bracket. -/
theorem spellingOfFurther_append_inj : ∀ {cs ds : List Condition} {r s : List Char},
    (∀ w ∈ textsOfAll cs, ∀ x ∈ w.toList, Token.Kind.ofChar? x = none) →
    (∀ w ∈ textsOfAll ds, ∀ x ∈ w.toList, Token.Kind.ofChar? x = none) →
    spellingOfFurther cs ++ ']' :: r = spellingOfFurther ds ++ ']' :: s →
    AllAlike cs ds ∧ r = s
  | [], [], r, s, _, _, h => ⟨trivial, (List.cons.inj h).2⟩
  | c :: cs, d :: ds, r, s, hc, hd, h => by
    obtain ⟨hc, hcs⟩ := List.forall_mem_append.1 hc
    obtain ⟨hd, hds⟩ := List.forall_mem_append.1 hd
    rw [spellingOfFurther, spellingOfFurther] at h
    simp only [List.cons_append, List.append_assoc, List.cons.injEq, true_and] at h
    obtain ⟨halike, h⟩ := spelling_append_inj hc hd h
    obtain ⟨hall, h⟩ := spellingOfFurther_append_inj hcs hds h
    exact ⟨⟨halike, hall⟩, h⟩
  | [], _ :: _, _, _, _, _, h => absurd (List.cons.inj h).1 (by decide)
  | _ :: _, [], _, _, _, _, h => absurd (List.cons.inj h).1 (by decide)

end

/-- **The written form determines the tree**, as far as it is written at all. -/
theorem alike_of_written_eq {c d : Condition} (hc : c.Unstructured) (hd : d.Unstructured)
    (h : c.written = d.written) : c.Alike d := by
  have h : c.spelling ++ [] = d.spelling ++ [] := by
    rw [List.append_nil, List.append_nil]
    exact String.ofList_injective h
  exact (spelling_append_inj hc hd h).1

/-- **The written form determines the meaning.**  Without structural characters in their texts,
    trees that are written alike have the same shape, operators, names and displayed comparands; on
    every record they have the same truth value, or the same mismatch, after the same reads. -/
theorem alike_and_evaluate_eq_of_written_eq {c d : Condition} (hc : c.Unstructured)
    (hd : d.Unstructured) (h : c.written = d.written) :
    c.Alike d ∧ ∀ look, c.evaluate look = d.evaluate look ∧ c.reads look = d.reads look := by
  have halike := alike_of_written_eq hc hd h
  exact ⟨halike, fun look => ⟨halike.evaluate_eq look, halike.reads_eq look⟩⟩

/-- Truth values, `null` and numbers beside their texts; names with blanks, points and quotes, or
    with nothing at all. -/
theorem alike_and_evaluate_eq_of_written_eq_quoted :
    let c := group .or [negation (leaf "first \"name\"" (.equality .ne (.bool true))),
      group .and [leaf "" (.equality .eq .null), leaf "é.-1" (.equality .eq (.number .zero))],
      leaf "AND" (.text .contains "")]
    let d := group .or [negation (leaf "first \"name\"" (.equality .ne (.string "true"))),
      group .and [leaf "" (.equality .eq (.string "null")),
        leaf "é.-1" (.equality .eq (.string "0"))],
      leaf "AND" (.text .contains "")]
    c.Unstructured ∧ d.Unstructured ∧ c.written = d.written ∧ c.Alike d ∧
      ∀ look, c.evaluate look = d.evaluate look ∧ c.reads look = d.reads look := by
  intro c d
  have hc : c.Unstructured := by decide
  have hd : d.Unstructured := by decide
  have hwritten : c.written = d.written := by decide
  exact ⟨hc, hd, hwritten, alike_and_evaluate_eq_of_written_eq hc hd hwritten⟩

end Condition

end Caret
