/-
  Exact texts: which trees have one, and what it says about its tree.

  `exactText?` writes a tree, reads the text under the default limit, writes what was read, and
  compares the two texts.  It never compares trees.

  1. **What it says** — a text that passes is the written form of two trees, of the one that was
     asked for and of the one that is read.  They are alike just if no name and no comparand has a
     structural character in it (`exact_reads_alike_iff`): what is read has none, and without any a
     text has only one tree.  A comparand such as `x),(b^EQ^y` does pass, as part of a group, and is
     read as two conditions (`exact_imitation`).

  2. **Who has one** — of the trees that text can denote all those within the default limit
     (`Canonical.exactText?_eq`).  So reading, writing and encoding agree on these trees
     (`ofText_written_of_ofText`).
-/
import Caret.Condition.Build
import Caret.Json
import Caret.Proofs.Canonical

namespace Caret

namespace Condition

/-! ## What an exact text says -/

theorem exactText?_eq_some_iff {c : Condition} {text : String} :
    c.exactText? = some text ↔ text = c.written ∧
      ∃ back, ofText Parse.defaultLimit c.written = .ok back ∧ back.written = c.written := by
  rw [exactText?]
  cases ofText Parse.defaultLimit c.written with
  | error e => simp
  | ok back =>
    by_cases hback : back.written = c.written
    · simp [hback, eq_comm]
    · simp [hback]

/-- **A well-formed tree of words within the default limit has an exact text.** -/
theorem exactText?_of_words {c : Condition} (hwf : c.WellFormed)
    (hwords : ∀ w ∈ c.texts, Token.IsWord w.toList) (hdepth : c.depth ≤ Parse.defaultLimit) :
    c.exactText? = some c.written := by
  rw [exactText?_eq_some_iff]
  exact ⟨rfl, c.asWritten, ofText_written_of_words hwf hwords hdepth, c.written_asWritten⟩

theorem Alike.unstructured {c d : Condition} (h : c.Alike d) (hc : c.Unstructured) :
    d.Unstructured := by
  rw [Unstructured, ← h.texts_eq]
  exact hc

/-- **What an exact text says.**  It can be read, and what is read has the shape, the operators, the
    names and the displayed comparands of the tree, and evaluates as the tree on every record, just
    if no name and no comparand of the tree has a structural character in it. -/
theorem exact_reads_alike_iff {c : Condition} {text : String} (h : c.exactText? = some text) :
    ∃ back, ofText Parse.defaultLimit text = .ok back ∧
      ((back.Alike c ∧ ∀ look, back.evaluate look = c.evaluate look) ↔ c.Unstructured) := by
  obtain ⟨rfl, back, hread, hwritten⟩ := exactText?_eq_some_iff.1 h
  have hback : back.Unstructured := (canonical_of_ofText hread).1.unstructured
  refine ⟨back, hread, fun ⟨halike, _⟩ => halike.unstructured hback, fun hc => ?_⟩
  have halike := alike_of_written_eq hback hc hwritten
  exact ⟨halike, halike.evaluate_eq⟩

/-- A truth value has no structural characters in its text, so its group is read as alike. -/
theorem exact_reads_alike_open :
    let c := group .and [leaf "open" (.equality .eq (.bool true))]
    c.exactText? = some "(AND[(open^EQ^true)])" ∧ c.Unstructured ∧
      ∃ back, ofText Parse.defaultLimit "(AND[(open^EQ^true)])" = .ok back ∧
        back.Alike c ∧ ∀ look, back.evaluate look = c.evaluate look := by
  intro c
  have hwf : c.WellFormed := ⟨List.cons_ne_nil _ _, trivial, trivial⟩
  have h : c.exactText? = some "(AND[(open^EQ^true)])" :=
    exactText?_of_words hwf (by decide) (by decide)
  have hc : c.Unstructured := by decide
  obtain ⟨back, hread, hiff⟩ := exact_reads_alike_iff h
  exact ⟨h, hc, back, hread, hiff.2 hc⟩

/-- A comparand that imitates notation: the group of one test has an exact text, which is read as a
    group of two tests, and there is a record on which the two differ. -/
theorem exact_imitation :
    let c := group .and [leaf "a" (.equality .eq (.string "x),(b^EQ^y"))]
    let back := group .and [leaf "a" (.equality .eq (.string "x")),
      leaf "b" (.equality .eq (.string "y"))]
    let record := Record.ofList [("a", .string "x"), ("b", .string "y")]
    all [Property.equals ⟨"a"⟩ (.string "x),(b^EQ^y")] = .ok c ∧
      c.exactText? = some "(AND[(a^EQ^x),(b^EQ^y)])" ∧
      ofText Parse.defaultLimit "(AND[(a^EQ^x),(b^EQ^y)])" = .ok back ∧
      ¬ back.Alike c ∧
      back.evaluate record.get? = .ok true ∧ c.evaluate record.get? = .ok false := by
  intro c back record
  have hback : back.Canonical := ⟨List.cons_ne_nil _ _, ⟨by decide, .equality .eq (by decide)⟩,
    ⟨by decide, .equality .eq (by decide)⟩, trivial⟩
  have hread := hback.read_written (show back.depth ≤ Parse.defaultLimit by decide)
  have hexact : c.exactText? = some "(AND[(a^EQ^x),(b^EQ^y)])" :=
    exactText?_eq_some_iff.2 ⟨rfl, back, hread, rfl⟩
  have halike : ¬ back.Alike c := fun ⟨_, _, hchildren⟩ => hchildren
  exact ⟨rfl, hexact, hread, halike, rfl, rfl⟩

/-! ## Canonical trees -/

/-- **Exactly the canonical trees within the default limit have an exact text**, of all canonical
    trees. -/
theorem Canonical.exactText?_eq {c : Condition} (h : c.Canonical) :
    c.exactText? = if c.depth ≤ Parse.defaultLimit then some c.written else none := by
  by_cases hdepth : c.depth ≤ Parse.defaultLimit
  · rw [if_pos hdepth]
    exact exactText?_of_words h.wellFormed h.words hdepth
  · rw [if_neg hdepth, Option.eq_none_iff_forall_ne_some]
    intro text htext
    obtain ⟨-, back, hread, hwritten⟩ := exactText?_eq_some_iff.1 htext
    -- nothing else than `c` itself could have been read
    obtain ⟨hback, hlimit⟩ := canonical_of_ofText hread
    obtain rfl := (hback.written_inj h).1 hwritten
    exact hdepth hlimit

/-! ## JSON -/

theorem Canonical.ofJson_toJson {c : Condition} (h : c.Canonical)
    (hdepth : c.depth ≤ Parse.defaultLimit) :
    c.toJson = .ok (.string c.written) ∧ ofJson (.string c.written) = .ok c := by
  constructor
  · rw [toJson, h.exactText?_eq, if_pos hdepth]
  · rw [ofJson, h.read_written hdepth]

/-- **Reading, then writing, is a canonical form.**  A tree that was read is read again from its
    written form, as itself and under the same limit.  That form is exact just if the default limit
    allows the depth.  Two trees that were read, from whatever texts and under whatever limits, are
    equal just if they are written alike, and just if they are the same as data.  What was read
    within the default limit, or decoded from JSON, can be encoded, and then decoded as itself. -/
theorem ofText_written_of_ofText {limit : Nat} {text : String} {c : Condition}
    (h : ofText limit text = .ok c) :
    ofText limit c.written = .ok c ∧
      c.exactText? = (if c.depth ≤ Parse.defaultLimit then some c.written else none) ∧
      (∀ {limit' : Nat} {text' : String} {d : Condition}, ofText limit' text' = .ok d →
        (c = d ↔ c.written = d.written) ∧ (c.same d = true ↔ c = d)) ∧
      (limit ≤ Parse.defaultLimit → ∃ j, c.toJson = .ok j ∧ ofJson j = .ok c) ∧
      ∀ {j : Json} {d : Condition}, ofJson j = .ok d →
        ∃ j', d.toJson = .ok j' ∧ ofJson j' = .ok d := by
  obtain ⟨hc, hdepth⟩ := canonical_of_ofText h
  refine ⟨hc.read_written hdepth, hc.exactText?_eq, fun hread => ?_, fun hlimit => ?_,
    fun hj => ?_⟩
  · obtain ⟨hd, -⟩ := canonical_of_ofText hread
    exact ⟨(hc.written_inj hd).symm, hc.same_iff hd⟩
  · exact ⟨_, hc.ofJson_toJson (Nat.le_trans hdepth hlimit)⟩
  · obtain ⟨source, hread⟩ := exists_text_of_ofJson hj
    obtain ⟨hd, hdepth⟩ := canonical_of_ofText hread
    exact ⟨_, hd.ofJson_toJson hdepth⟩

/-- A threshold with a zero too many, which is gone in the written form. -/
theorem ofText_written_of_ofText_zeros :
    let c := leaf "a" (.order .gt .zero)
    ofText 1 "(a^GT^00)" = .ok c ∧ ofText 1 c.written = .ok c ∧
      c.exactText? = some c.written ∧ c.same c = true ∧
      ∃ j, c.toJson = .ok j ∧ ofJson j = .ok c := by
  intro c
  have hread : ofText 1 "(a^GT^00)" = .ok c := by
    have hclose := Token.Scans.nil.mark (c := ')') rfl
    have hzeros := (hclose.word ⟨')', _, rfl, by decide⟩ (w := "00") (by decide)).mark (c := '^') rfl
    have htest := (hzeros.keyword ⟨'^', _, rfl, by decide⟩ (.order .gt)).mark (c := '^') rfl
    have hleaf := (htest.word ⟨'^', _, rfl, by decide⟩ (w := "a") (by decide)).mark (c := '(') rfl
    refine ofText_of_scans (hleaf.imp ?_) (by decide)
    rintro _ ⟨o, _, rfl, ho, p, _, rfl, hp, htext, s, _, rfl, hs, k, _, rfl, hk, s', _, rfl, hs',
      w, _, rfl, hw, hzero, e, _, rfl, he, rfl⟩
    have made : TestOf (.order .gt) w.text (.order .gt .zero) :=
      .order .gt (hzero ▸ rfl) (by decide)
    show Grammar.Expr _ (leaf "a" (.order .gt .zero))
    rw [← htext]
    exact .parens ho (.comparand hp hs hk hs' hw made) he
  obtain ⟨hback, hexact, hsame, hjson, -⟩ := ofText_written_of_ofText hread
  exact ⟨hread, hback, hexact, (hsame hread).2.2 rfl, hjson (by decide)⟩

end Condition

end Caret
