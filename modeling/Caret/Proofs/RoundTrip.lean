/-
  Round trip: a tree of clean texts is read back from its written form.

  A text is CLEAN if it is scanned as one operand, itself.  In the written form every name, keyword
  and comparand is followed by a structural character, so clean texts come out of the scanner as
  they went in.

  1. **Pieces** — `Scans cs P`: in front of any text the characters `cs` are scanned on their own,
     as tokens with the property `P`.  Pieces are put together from their end: a mark, a keyword or
     a word before a piece, or a piece before another.

  2. **Trees** — `Condition.scans_spelling`: the characters of a tree are scanned as the tokens of
     an `Expr` of the tree as written.  By recursion on the tree, in step with the grammar.

  3. **Text** — with completeness of the parser, `ofText_written_of_words`.
-/
import Caret.Proofs.Alike
import Caret.Proofs.Grammar
import Caret.Proofs.Scanning

namespace Caret

/-! ## Pieces of text -/

namespace Token

/-- In front of any text, the characters `cs` are scanned on their own, as tokens with `P`. -/
def Scans (cs : List Char) (P : List Token → Prop) : Prop :=
  ∀ (offset : Nat) (rest : List Char),
    ∃ ts offset', scanFrom offset (cs ++ rest) = ts ++ scanFrom offset' rest ∧ P ts

/-- A piece that does not go on with a word before it. -/
def StartsMarked (cs : List Char) : Prop := ∃ c ds, cs = c :: ds ∧ isWordChar c = false

namespace Scans

variable {cs ds : List Char} {P Q : List Token → Prop}

theorem nil : Scans [] (· = []) := fun offset _ => ⟨[], offset, rfl, rfl⟩

theorem imp (h : Scans cs P) (hPQ : ∀ ts, P ts → Q ts) : Scans cs Q := by
  intro offset rest
  obtain ⟨ts, offset', hscan, hts⟩ := h offset rest
  exact ⟨ts, offset', hscan, hPQ ts hts⟩

/-- Two pieces, scanned one behind the other, make up a piece. -/
theorem append (h : Scans cs P) (h' : Scans ds Q) :
    Scans (cs ++ ds) fun ts => ∃ us vs, ts = us ++ vs ∧ P us ∧ Q vs := by
  intro offset rest
  obtain ⟨us, o₁, hus, hP⟩ := h offset (ds ++ rest)
  obtain ⟨vs, o₂, hvs, hQ⟩ := h' o₁ rest
  refine ⟨us ++ vs, o₂, ?_, us, vs, rfl, hP, hQ⟩
  rw [List.append_assoc, hus, hvs, List.append_assoc]

/-- A structural character is a token of its own, whatever piece comes behind it. -/
theorem mark (h : Scans cs P) {c : Char} {kind : Kind} (hc : Kind.ofChar? c = some kind) :
    Scans (c :: cs) fun ts => ∃ t us, ts = t :: us ∧ t.kind = kind ∧ P us := by
  intro offset rest
  obtain ⟨us, o₁, hus, hP⟩ := h (offset + byteLength [c]) rest
  refine ⟨⟨kind, String.ofList [c], offset⟩ :: us, o₁, ?_, _, us, rfl, rfl, hP⟩
  rw [List.cons_append, scanFrom_mark hc, hus]
  rfl

/-- A word ends in front of a piece that starts with a mark. -/
theorem endsWord_append (hcs : StartsMarked cs) (rest : List Char) : EndsWord (cs ++ rest) := by
  obtain ⟨c, ds, rfl, hc⟩ := hcs
  intro d hd
  obtain rfl := Option.some.inj hd
  exact hc

/-- A keyword is a token of its own in front of such a piece. -/
theorem keyword (h : Scans cs P) (hcs : StartsMarked cs) (op : Operator) :
    Scans (op.keyword.toList ++ cs) fun ts => ∃ t us, ts = t :: us ∧ t.Spells op ∧ P us := by
  intro offset rest
  obtain ⟨us, o₁, hus, hP⟩ := h (offset + byteLength op.keyword.toList) rest
  refine ⟨⟨.operator, op.keyword, offset⟩ :: us, o₁, ?_, _, us, rfl, ⟨rfl, rfl⟩, hP⟩
  rw [List.append_assoc, scanFrom_keyword op offset (endsWord_append hcs rest), hus]
  rfl

/-- So is a word, which comes out as an operand with its text unchanged. -/
theorem word (h : Scans cs P) (hcs : StartsMarked cs) {w : String} (hw : IsWord w.toList) :
    Scans (w.toList ++ cs) fun ts =>
      ∃ t us, ts = t :: us ∧ t.kind = .operand ∧ t.text = w ∧ P us := by
  intro offset rest
  obtain ⟨us, o₁, hus, hP⟩ := h (offset + byteLength w.toList) rest
  refine ⟨⟨.operand, String.ofList w.toList, offset⟩ :: us, o₁, ?_, _, us, rfl, rfl,
    String.ofList_toList, hP⟩
  rw [List.append_assoc, scanFrom_word hw offset (endsWord_append hcs rest), hus]
  rfl

end Scans

end Token

/-! ## Tests -/

namespace Test

/-- Operator and text of the comparand make the test as written. -/
theorem testOf_asWritten {property w : String} {test : Test} (hw : test.comparand? = some w)
    (hwf : (Condition.leaf property test).WellFormed) :
    TestOf test.operator w test.asWritten := by
  cases test with
  | equality op v =>
    obtain rfl := Option.some.inj hw
    exact .equality op v.display
  | order op x =>
    obtain rfl := Option.some.inj hw
    exact .order op (Value.numberOfText?_display x) hwf
  | text op s =>
    obtain rfl := Option.some.inj hw
    exact .text op s
  | presence op => cases hw

/-- Only a presence test has no comparand. -/
theorem exists_presence {test : Test} (h : test.comparand? = none) :
    ∃ op, test = .presence op := by
  cases test with
  | presence op => exact ⟨op, rfl⟩
  | _ => cases h

theorem startsMarked_spelling (test : Test) (cs : List Char) :
    Token.StartsMarked (test.spelling ++ cs) := ⟨'^', _, rfl, by decide⟩

/-- The tokens of a test and of the parenthesis that closes its leaf. -/
theorem scans_spelling {property : String} {test : Test}
    (hwf : (Condition.leaf property test).WellFormed)
    (hwords : ∀ w ∈ test.comparand?, Token.IsWord w.toList) :
    Token.Scans (test.spelling ++ [')']) fun ts => ∃ us e, ts = us ++ [e] ∧ e.kind = .closeParen ∧
      ∀ p : Token, p.kind = .operand →
        Grammar.Inside (p :: us) (.leaf p.text test.asWritten) := by
  have hclose := Token.Scans.nil.mark (c := ')') rfl
  have hmarked : Token.StartsMarked [')'] := ⟨')', [], rfl, by decide⟩
  rw [spelling]
  cases hw : test.comparand? with
  | none =>
    obtain ⟨op, rfl⟩ := exists_presence hw
    simp only [List.cons_append, List.append_nil]
    refine ((hclose.keyword hmarked (.presence op)).mark (c := '^') rfl).imp ?_
    rintro _ ⟨s, _, rfl, hs, k, _, rfl, hk, e, _, rfl, he, rfl⟩
    exact ⟨[s, k], e, rfl, he, fun p hp => .presence hp hs hk⟩
  | some w =>
    have hword := (hclose.word hmarked (hwords w hw)).mark (c := '^') rfl
    have hkeyword := hword.keyword ⟨'^', _, rfl, by decide⟩ test.operator
    simp only [List.cons_append, List.append_assoc]
    refine (hkeyword.mark (c := '^') rfl).imp ?_
    rintro _ ⟨s, _, rfl, hs, k, _, rfl, hk, s', _, rfl, hs', v, _, rfl, hv, rfl, e, _, rfl, he, rfl⟩
    exact ⟨[s, k, s', v], e, rfl, he,
      fun p hp => .comparand hp hs hk hs' hv (testOf_asWritten hw hwf)⟩

end Test

/-! ## Trees -/

namespace Condition

theorem startsMarked_spelling (c : Condition) (cs : List Char) :
    Token.StartsMarked (c.spelling ++ cs) := by
  cases c <;> exact ⟨'(', _, rfl, by decide⟩

mutual

/-- **The characters of a tree are scanned as an expression**, whatever is behind them. -/
theorem scans_spelling : ∀ {c : Condition}, c.WellFormed →
    (∀ w ∈ c.texts, Token.IsWord w.toList) →
    Token.Scans c.spelling fun ts => Grammar.Expr ts c.asWritten
  | leaf property test, hwf, hwords => by
    obtain ⟨hname, hcomparand⟩ := List.forall_mem_cons.1 hwords
    have htest := Test.scans_spelling hwf fun w hw => hcomparand w (by simpa using hw)
    have hleaf := htest.word (test.startsMarked_spelling _) hname
    rw [spelling]
    simp only [List.cons_append, List.append_assoc]
    refine (hleaf.mark (c := '(') rfl).imp ?_
    rintro _ ⟨o, _, rfl, ho, p, _, rfl, hp, rfl, us, e, rfl, he, hinside⟩
    exact .parens ho (hinside p hp) he
  | group op [], hwf, _ => absurd rfl hwf.1
  | group op (c :: cs), hwf, hwords => by
    obtain ⟨-, hc, hcs⟩ := hwf
    obtain ⟨hcwords, hcswords⟩ := List.forall_mem_append.1 hwords
    -- from the end: the two closing marks, the children, the opening bracket and the keyword
    have hends := (Token.Scans.nil.mark (c := ')') rfl).mark (c := ']') rfl
    have hchildren :=
      (scans_spelling hc hcwords).append ((scans_spellingOfFurther hcs hcswords).append hends)
    have hgroup := (hchildren.mark (c := '[') rfl).keyword ⟨'[', _, rfl, by decide⟩ (.connective op)
    rw [spelling, spellingOfChildren, asWritten, allAsWritten]
    simp only [List.cons_append, List.append_assoc]
    refine (hgroup.mark (c := '(') rfl).imp ?_
    rintro _ ⟨o, _, rfl, ho, k, _, rfl, hk, b, _, rfl, hb, ts, _, rfl, hfirst, us, _, rfl, hfurther,
      b', _, rfl, hb', e, _, rfl, he, rfl⟩
    have hexpr : Grammar.Expr _ _ := .parens ho (.group hk hb hfirst hfurther hb') he
    -- the pieces are bracketed to the right, the production brackets its children to the left
    simpa only [List.cons_append, List.append_assoc, List.nil_append] using hexpr
  | negation c, hwf, hwords => by
    have hclose := Token.Scans.nil.mark (c := ')') rfl
    have hchild := (scans_spelling (c := c) hwf hwords).append hclose
    have hnot := hchild.keyword (c.startsMarked_spelling _) .not
    rw [spelling]
    simp only [List.cons_append, List.append_assoc]
    refine (hnot.mark (c := '(') rfl).imp ?_
    rintro _ ⟨o, _, rfl, ho, k, _, rfl, hk, ts, _, rfl, hexpr, e, _, rfl, he, rfl⟩
    exact .parens ho (.negation hk hexpr) he

/-- The children after the first, each behind its comma. -/
theorem scans_spellingOfFurther : ∀ {cs : List Condition}, AllWellFormed cs →
    (∀ w ∈ textsOfAll cs, Token.IsWord w.toList) →
    Token.Scans (spellingOfFurther cs) fun ts => Grammar.Further ts (allAsWritten cs)
  | [], _, _ => Token.Scans.nil.imp fun _ h => h ▸ .nil
  | c :: cs, hwf, hwords => by
    obtain ⟨hc, hcs⟩ := hwf
    obtain ⟨hcwords, hcswords⟩ := List.forall_mem_append.1 hwords
    have hchild := (scans_spelling hc hcwords).append (scans_spellingOfFurther hcs hcswords)
    refine (hchild.mark (c := ',') rfl).imp ?_
    rintro _ ⟨d, _, rfl, hd, ts, us, rfl, hexpr, hfurther⟩
    exact .cons hd hexpr hfurther

end

/-! ## Text -/

/-- Text that is scanned as an expression denotes its tree. -/
theorem ofText_of_scans {text : String} {c : Condition} {limit : Nat}
    (h : Token.Scans text.toList fun ts => Grammar.Expr ts c) (hdepth : c.depth ≤ limit) :
    ofText limit text = .ok c := by
  obtain ⟨ts, offset, hscan, hexpr⟩ := h 0 []
  rw [List.append_nil, Token.scanFrom, List.append_nil] at hscan
  rw [ofText, Token.scan, hscan]
  exact ofTokens_of_expr hexpr hdepth

/-- A well-formed tree of words reads back as written. -/
theorem ofText_written_of_words {c : Condition} {limit : Nat} (hwf : c.WellFormed)
    (hwords : ∀ w ∈ c.texts, Token.IsWord w.toList) (hdepth : c.depth ≤ limit) :
    ofText limit c.written = .ok c.asWritten := by
  have hscans := scans_spelling hwf hwords
  rw [← String.toList_ofList (l := c.spelling)] at hscans
  exact ofText_of_scans hscans (c.depth_asWritten ▸ hdepth)

/-- Every name and every displayed comparand is scanned as one operand, namely itself. -/
def Clean (c : Condition) : Prop :=
  ∀ w ∈ c.texts, ∃ offset, Token.scan w = [⟨.operand, w, offset⟩]

/-- Clean texts are words. -/
theorem clean_iff {c : Condition} : c.Clean ↔ ∀ w ∈ c.texts, Token.IsWord w.toList :=
  forall₂_congr fun _ _ => Token.isWord_iff_scan.symm

/-- **Round trip.**  A well-formed tree of clean texts is read back from its written form wherever
    its depth is allowed.  What comes back compares with the text of a comparand in place of the
    comparand, and is otherwise the same; on every record it has the same truth value, or the same
    mismatch, after the same reads. -/
theorem ofText_written {c : Condition} {limit : Nat} (hwf : c.WellFormed) (hclean : c.Clean)
    (hdepth : c.depth ≤ limit) :
    ofText limit c.written = .ok c.asWritten ∧
      ∀ look, c.asWritten.evaluate look = c.evaluate look ∧
        c.asWritten.reads look = c.reads look := by
  refine ⟨ofText_written_of_words hwf (clean_iff.1 hclean) hdepth, fun look => ?_⟩
  rw [evaluate, evaluate, reads, reads, outcome_asWritten]
  exact ⟨rfl, rfl⟩

/-- `(AND[(open^EQ^true),(NOT(owner^NULL))])`: the truth value comes back as text. -/
theorem ofText_written_open :
    let c := group .and [leaf "open" (.equality .eq (.bool true)),
      negation (leaf "owner" (.presence .null))]
    let back := group .and [leaf "open" (.equality .eq (.string "true")),
      negation (leaf "owner" (.presence .null))]
    c.WellFormed ∧ c.Clean ∧ c.depth ≤ 3 ∧ ofText 3 c.written = .ok back ∧
      ∀ look, back.evaluate look = c.evaluate look ∧ back.reads look = c.reads look := by
  intro c back
  have hwf : c.WellFormed := ⟨List.cons_ne_nil _ _, trivial, trivial, trivial⟩
  have hclean : c.Clean := clean_iff.2 (by decide)
  have hdepth : c.depth ≤ 3 := by decide
  exact ⟨hwf, hclean, hdepth, ofText_written hwf hclean hdepth⟩

end Condition

end Caret
