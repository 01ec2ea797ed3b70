/-
  The trees that text can denote.

  1. **Canonical trees** — names and comparands are words, equality tests compare with text, and
     thresholds are whole numbers of positive sign.  Whatever is read is canonical
     (`canonical_of_ofText`): operands are words, and a word reads as no other number.

  2. **Fixed points** — a canonical tree is its own tree as written, it is well-formed, its texts
     are words; so it is read back as itself, under any limit that allows its depth.  Written
     alike, canonical trees are equal, and sameness as data is equality, since there is no `nan`
     and only one zero.
-/
import Caret.Proofs.RoundTrip
import Caret.Proofs.UniqueReading
import Caret.Proofs.WholeNumber

namespace Caret

/-! ## Canonical trees -/

/-- The tests that text can denote. -/
inductive Test.Canonical : Test → Prop where
  | equality (op : EqualityOp) {w : String} (word : Token.IsWord w.toList) :
      Canonical (.equality op (.string w))
  | order (op : OrderOp) {x : Number} (plain : x.Plain) : Canonical (.order op x)
  | text (op : TextOp) {w : String} (word : Token.IsWord w.toList) : Canonical (.text op w)
  | presence (op : PresenceOp) : Canonical (.presence op)

namespace Condition

mutual

/-- The trees that text can denote. -/
def Canonical : Condition → Prop
  | leaf property test => Token.IsWord property.toList ∧ test.Canonical
  | group _ children => children ≠ [] ∧ AllCanonical children
  | negation child => child.Canonical

def AllCanonical : List Condition → Prop
  | [] => True
  | c :: cs => c.Canonical ∧ AllCanonical cs

end

end Condition

/-- An operator makes a canonical test of a word, if it makes any. -/
theorem TestOf.canonical {op : Operator} {w : String} {test : Test} (h : TestOf op w test)
    (hw : Token.IsWord w.toList) : test.Canonical := by
  cases h with
  | equality op => exact .equality op hw
  | order op reads finite => exact .order op (Value.plain_of_numberOfText? hw reads finite)
  | text op => exact .text op hw

/-- Tokens whose operands are words. -/
def Token.WordOperands (ts : List Token) : Prop :=
  ∀ t ∈ ts, t.kind = .operand → IsWord t.text.toList

namespace Condition

mutual

/-- **An expression over words is canonical.** -/
theorem canonical_of_expr {ts : List Token} {c : Condition} :
    Grammar.Expr ts c → Token.WordOperands ts → c.Canonical
  | .parens _ inside _, h => by
    -- the tokens between the two parentheses
    have hinside := (List.forall_mem_append.1 (List.forall_mem_cons.1 h).2).1
    exact canonical_of_inside inside hinside

/-- Whatever stands between the parentheses: operands are words, and no group is empty. -/
theorem canonical_of_inside {ts : List Token} {c : Condition} :
    Grammar.Inside ts c → Token.WordOperands ts → c.Canonical
  | .presence property _ _, h => ⟨h _ (List.mem_cons_self ..) property, .presence _⟩
  | .comparand property _ _ _ operand made, h =>
    ⟨h _ (List.mem_cons_self ..) property, made.canonical (h _ (by simp) operand)⟩
  | .emptyGroup allowed _ _ _, _ => allowed.elim
  | .group _ _ first further _, h => by
    -- the tokens after the keyword and the opening bracket
    have htail := (List.forall_mem_cons.1 (List.forall_mem_cons.1 h).2).2
    obtain ⟨hfirst, hfurther⟩ := List.forall_mem_append.1 (List.forall_mem_append.1 htail).1
    exact ⟨List.cons_ne_nil _ _, canonical_of_expr first hfirst,
      canonical_of_further further hfurther⟩
  | .negation _ child, h => by
    have hchild := canonical_of_expr child (List.forall_mem_cons.1 h).2
    exact hchild

theorem canonical_of_further {ts : List Token} {cs : List Condition} :
    Grammar.Further ts cs → Token.WordOperands ts → AllCanonical cs
  | .nil, _ => trivial
  | .cons _ child further, h => by
    obtain ⟨hchild, hfurther⟩ := List.forall_mem_append.1 (List.forall_mem_cons.1 h).2
    exact ⟨canonical_of_expr child hchild, canonical_of_further further hfurther⟩

end

/-- **Whatever is read from text is canonical**, and not too deep. -/
theorem canonical_of_ofText {limit : Nat} {text : String} {c : Condition}
    (h : ofText limit text = .ok c) : c.Canonical ∧ c.depth ≤ limit := by
  obtain ⟨hexpr, hdepth⟩ := expr_of_ofTokens h
  exact ⟨canonical_of_expr hexpr fun t ht hk => Token.isWord_of_mem_scan ht hk, hdepth⟩

end Condition

/-! ## What canonical trees are like -/

namespace Number

theorem Plain.isFinite {x : Number} (h : x.Plain) : x.isFinite = true := by
  cases h with
  | whole _ hfinite => exact decide_eq_true hfinite

/-- Of plain numbers only one stands at a position. -/
theorem equal_iff_of_plain {x y : Number} (hx : x.Plain) (hy : y.Plain) :
    x.equal y = true ↔ x = y := by
  cases hx with
  | @whole m =>
    cases hy with
    | @whole n =>
      -- neither has a sign, so positions are ranks
      show ((m.rank : Int) == (n.rank : Int)) = true ↔ signed false m = signed false n
      rw [beq_iff_eq, Int.ofNat_inj, signed.injEq, eq_self_iff_true, true_and]
      exact ⟨fun h => by cases m; cases n; cases h; rfl, fun h => h ▸ rfl⟩

end Number

namespace Test.Canonical

variable {test : Test}

/-- The threshold of a canonical ordering test is finite, being plain. -/
theorem wellFormed (h : test.Canonical) (property : String) :
    (Condition.leaf property test).WellFormed := by
  cases h with
  | equality op word => trivial
  | order op plain => exact plain.isFinite
  | text op word => trivial
  | presence op => trivial

/-- The comparand of a canonical test is displayed as a word: a plain number has no sign and no
    point. -/
theorem words (h : test.Canonical) : ∀ w ∈ test.comparand?, Token.IsWord w.toList := by
  rintro w hw
  cases h with
  | equality op word => exact Option.some.inj hw ▸ word
  | order op plain => exact Option.some.inj hw ▸ Number.isWord_display plain
  | text op word => exact Option.some.inj hw ▸ word
  | presence op => cases hw

/-- A canonical equality test compares with text already. -/
theorem asWritten_eq (h : test.Canonical) : test.asWritten = test := by
  cases h <;> rfl

/-- Canonical tests that are the same are equal, as their numbers are plain. -/
theorem same_iff {u : Test} (ht : test.Canonical) (hu : u.Canonical) :
    test.same u = true ↔ test = u := by
  cases ht with
  | equality op word =>
    cases hu with
    | equality op' word' => simp [same, Value.same]
    | _ => simp [same]
  | order op plain =>
    cases hu with
    | order op' plain' => simp [same, Number.equal_iff_of_plain plain plain']
    | _ => simp [same]
  | text op word => cases hu <;> simp [same]
  | presence op => cases hu <;> simp [same]

end Test.Canonical

namespace Condition

mutual

/-- A canonical tree has no empty group, and its thresholds are finite. -/
theorem Canonical.wellFormed : ∀ {c : Condition}, c.Canonical → c.WellFormed
  | leaf property _, h => h.2.wellFormed property
  | group _ _, h => ⟨h.1, AllCanonical.wellFormed h.2⟩
  | negation c, h => Canonical.wellFormed (c := c) h

theorem AllCanonical.wellFormed : ∀ {cs : List Condition}, AllCanonical cs → AllWellFormed cs
  | [], _ => trivial
  | _ :: _, h => ⟨Canonical.wellFormed h.1, AllCanonical.wellFormed h.2⟩

end

mutual

/-- Whatever a canonical tree writes bare is a word. -/
theorem Canonical.words : ∀ {c : Condition}, c.Canonical → ∀ w ∈ c.texts, Token.IsWord w.toList
  | leaf _ _, h => by
    refine List.forall_mem_cons.2 ⟨h.1, fun w hw => h.2.words w ?_⟩
    simpa using hw
  | group _ _, h => AllCanonical.words h.2
  | negation c, h => Canonical.words (c := c) h

theorem AllCanonical.words : ∀ {cs : List Condition}, AllCanonical cs →
    ∀ w ∈ textsOfAll cs, Token.IsWord w.toList
  | [], _ => fun _ hw => nomatch hw
  | _ :: _, h => List.forall_mem_append.2 ⟨Canonical.words h.1, AllCanonical.words h.2⟩

end

mutual

/-- **A canonical tree is its own tree as written.** -/
theorem Canonical.asWritten_eq : ∀ {c : Condition}, c.Canonical → c.asWritten = c
  | leaf _ _, h => by rw [asWritten, h.2.asWritten_eq]
  | group _ _, h => by rw [asWritten, AllCanonical.asWritten_eq h.2]
  | negation c, h => by rw [asWritten, Canonical.asWritten_eq (c := c) h]

theorem AllCanonical.asWritten_eq : ∀ {cs : List Condition}, AllCanonical cs →
    allAsWritten cs = cs
  | [], _ => rfl
  | _ :: _, h => by
    rw [allAsWritten, Canonical.asWritten_eq h.1, AllCanonical.asWritten_eq h.2]

end

mutual

/-- **On canonical trees sameness is equality.** -/
theorem Canonical.same_iff : ∀ {c d : Condition}, c.Canonical → d.Canonical →
    (c.same d = true ↔ c = d)
  | leaf p t, leaf q u, hc, hd => by
    rw [same, Bool.and_eq_true, beq_iff_eq, hc.2.same_iff hd.2, leaf.injEq]
  | group op cs, group op' ds, hc, hd => by
    rw [same, Bool.and_eq_true, decide_eq_true_eq, AllCanonical.same_iff hc.2 hd.2, group.injEq]
  | negation c, negation d, hc, hd => by
    have hc : c.Canonical := hc
    have hd : d.Canonical := hd
    rw [same, Canonical.same_iff hc hd, negation.injEq]
  | leaf _ _, group _ _, _, _ | leaf _ _, negation _, _, _ | group _ _, leaf _ _, _, _
  | group _ _, negation _, _, _ | negation _, leaf _ _, _, _ | negation _, group _ _, _, _ => by
    simp only [same, reduceCtorEq, Bool.false_eq_true]

theorem AllCanonical.same_iff : ∀ {cs ds : List Condition}, AllCanonical cs → AllCanonical ds →
    (sameAll cs ds = true ↔ cs = ds)
  | [], [], _, _ => by rw [sameAll, eq_self_iff_true, eq_self_iff_true]
  | c :: cs, d :: ds, hc, hd => by
    rw [sameAll, Bool.and_eq_true, Canonical.same_iff hc.1 hd.1, AllCanonical.same_iff hc.2 hd.2,
      List.cons.injEq]
  | [], _ :: _, _, _ | _ :: _, [], _, _ => by
    simp only [sameAll, reduceCtorEq, Bool.false_eq_true]

end

/-- A word has no structural character in it. -/
theorem Canonical.unstructured {c : Condition} (h : c.Canonical) : c.Unstructured :=
  fun w hw x hx => Token.ofChar?_eq_none ((h.words w hw).chars x hx)

/-- A canonical tree is read back as itself. -/
theorem Canonical.read_written {c : Condition} {limit : Nat} (h : c.Canonical)
    (hdepth : c.depth ≤ limit) : ofText limit c.written = .ok c := by
  rw [ofText_written_of_words h.wellFormed h.words hdepth, h.asWritten_eq]

/-- Canonical trees of one text are equal. -/
theorem Canonical.written_inj {c d : Condition} (hc : c.Canonical) (hd : d.Canonical) :
    c.written = d.written ↔ c = d := by
  constructor
  · intro h
    have halike := alike_of_written_eq hc.unstructured hd.unstructured h
    rw [← hc.asWritten_eq, alike_iff.1 halike, hd.asWritten_eq]
  · rintro rfl
    rfl

end Condition

end Caret
