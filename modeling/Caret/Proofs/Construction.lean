/-
  Whatever is built, read or decoded is well-formed, and what would not be is refused.

  1. **Nodes** — a tree is well-formed if each of its nodes is intact by itself: a group has a
     child, a threshold is finite (`wellFormed_iff_nodes`).

  2. **Operations** — `Constructible` closes under everything that makes conditions, fed with
     whatever such operations have made before.

  3. **The invariant** — each operation keeps well-formedness, and the operations reach every
     well-formed tree (`constructible_iff`).  So an operation that fails is one whose result would
     have been ill-formed, and the other way round (`construction_invariant`).
-/
import Caret.Json
import Caret.Proofs.Comparand
import Caret.Proofs.Flaws

namespace Caret

/-! ## Nodes -/

namespace Condition

/-- The node by itself is as it should be, whatever is below it. -/
def Intact : Condition → Prop
  | leaf _ (.order _ threshold) => threshold.isFinite = true
  | leaf _ _ => True
  | group _ children => children ≠ []
  | negation _ => True

theorem mem_nodesOfAll {cs : List Condition} {d : Condition} :
    d ∈ nodesOfAll cs ↔ ∃ c ∈ cs, d ∈ c.nodes := by
  induction cs with
  | nil => simp [nodesOfAll]
  | cons c cs ih => simp only [nodesOfAll, List.mem_append, ih, List.mem_cons, exists_eq_or_imp]

/-- **A tree is well-formed if all its nodes are intact.** -/
theorem wellFormed_iff_nodes (c : Condition) : c.WellFormed ↔ ∀ d ∈ c.nodes, d.Intact := by
  induction c with
  | leaf property test =>
    rw [nodes, List.forall_mem_singleton]
    cases test <;> exact Iff.rfl
  | group op cs ih =>
    rw [nodes, List.forall_mem_cons, WellFormed, allWellFormed_iff]
    refine and_congr_right fun _ => ⟨fun h d hd => ?_, fun h c hc => ?_⟩
    · obtain ⟨c, hc, hd⟩ := mem_nodesOfAll.1 hd
      exact (ih c hc).1 (h c hc) d hd
    · exact (ih c hc).2 fun d hd => h d (mem_nodesOfAll.2 ⟨c, hc, hd⟩)
  | negation c ih =>
    rw [nodes, List.forall_mem_cons, WellFormed, ih]
    exact (and_iff_right trivial).symm

/-! ## Operations -/

/-- What can be made by the operations on conditions, from nothing and from what they made. -/
inductive Constructible : Condition → Prop where
  | equality (property : String) (op : EqualityOp) (v : Value) :
      Constructible (.equality property op v)
  | order {property : String} {op : OrderOp} {v : Value} {c : Condition}
      (built : Condition.order property op v = .ok c) : Constructible c
  | text (property : String) (op : TextOp) (s : String) : Constructible (.text property op s)
  | presence (property : String) (op : PresenceOp) : Constructible (.presence property op)
  | combine {op : Connective} {children : List Condition} {c : Condition}
      (made : ∀ d ∈ children, Constructible d) (built : Condition.combine op children = .ok c) :
      Constructible c
  | all {children : List Condition} {c : Condition} (made : ∀ d ∈ children, Constructible d)
      (built : Condition.all children = .ok c) : Constructible c
  | any {children : List Condition} {c : Condition} (made : ∀ d ∈ children, Constructible d)
      (built : Condition.any children = .ok c) : Constructible c
  | negation {c : Condition} (made : Constructible c) : Constructible (.negation c)
  | and {c d : Condition} (left : Constructible c) (right : Constructible d) :
      Constructible (c.and d)
  | or {c d : Condition} (left : Constructible c) (right : Constructible d) :
      Constructible (c.or d)
  | equals (p : Property) (v : Value) : Constructible (p.equals v)
  | differs (p : Property) (v : Value) : Constructible (p.differs v)
  | isBelow {p : Property} {v : Value} {c : Condition} (built : p.below v = .ok c) :
      Constructible c
  | isAtMost {p : Property} {v : Value} {c : Condition} (built : p.atMost v = .ok c) :
      Constructible c
  | isAbove {p : Property} {v : Value} {c : Condition} (built : p.above v = .ok c) :
      Constructible c
  | isAtLeast {p : Property} {v : Value} {c : Condition} (built : p.atLeast v = .ok c) :
      Constructible c
  | startsWith (p : Property) (s : String) : Constructible (p.startsWith s)
  | contains (p : Property) (s : String) : Constructible (p.contains s)
  | endsWith (p : Property) (s : String) : Constructible (p.endsWith s)
  | isNull (p : Property) : Constructible p.isNull
  | isBlank (p : Property) : Constructible p.isBlank
  | isEmpty (p : Property) : Constructible p.isEmpty
  | ofTokens {limit : Nat} {ts : List Token} {c : Condition} (read : ofTokens limit ts = .ok c) :
      Constructible c
  | ofText {limit : Nat} {text : String} {c : Condition} (read : ofText limit text = .ok c) :
      Constructible c
  | ofJson {json : Json} {c : Condition} (decoded : ofJson json = .ok c) : Constructible c

/-- An ordering test is built just from the values that read as finite numbers. -/
theorem order_eq_ok_iff {property : String} {op : OrderOp} {v : Value} {c : Condition} :
    Condition.order property op v = .ok c ↔
      ∃ x, v.reading = .number x ∧ x.isFinite = true ∧ c = leaf property (.order op x) := by
  rw [Condition.order]
  cases hv : v.asNumber? with
  | some x =>
    obtain ⟨hreads, hfinite⟩ := Value.asNumber?_eq_some_iff.1 hv
    constructor
    · intro h
      exact ⟨x, hreads, hfinite, (Except.ok.inj h).symm⟩
    · rintro ⟨y, hy, -, rfl⟩
      cases hreads.symm.trans hy
      rfl
  | none =>
    constructor
    · intro h
      cases h
    · rintro ⟨x, hreads, hfinite, -⟩
      cases hv.symm.trans (Value.asNumber?_eq_some_iff.2 ⟨hreads, hfinite⟩)

theorem order_eq_error_iff {property : String} {op : OrderOp} {v : Value} :
    Condition.order property op v = .error (.notNumeric v.display) ↔
      ∀ x, v.reading = .number x → ¬ x.isFinite = true := by
  constructor
  · intro h x hreads hfinite
    cases h.symm.trans (order_eq_ok_iff.2 ⟨x, hreads, hfinite, rfl⟩)
  · intro h
    have hnone : v.asNumber? = none := by
      refine Option.eq_none_iff_forall_ne_some.2 fun x hx => ?_
      obtain ⟨hreads, hfinite⟩ := Value.asNumber?_eq_some_iff.1 hx
      exact h x hreads hfinite
    rw [Condition.order, hnone]

theorem combine_eq_ok_iff {op : Connective} {cs : List Condition} {c : Condition} :
    combine op cs = .ok c ↔ cs ≠ [] ∧ c = group op cs := by
  cases cs with
  | nil => exact iff_of_false nofun fun h => h.1 rfl
  | cons d ds =>
    refine ⟨fun h => ⟨List.cons_ne_nil d ds, (Except.ok.inj h).symm⟩, ?_⟩
    rintro ⟨-, rfl⟩
    rfl

theorem wellFormed_of_order {property : String} {op : OrderOp} {v : Value} {c : Condition}
    (h : Condition.order property op v = .ok c) : c.WellFormed := by
  obtain ⟨x, -, hfinite, rfl⟩ := order_eq_ok_iff.1 h
  exact hfinite

theorem wellFormed_of_combine {op : Connective} {cs : List Condition} {c : Condition}
    (hcs : ∀ d ∈ cs, d.WellFormed) (h : combine op cs = .ok c) : c.WellFormed := by
  obtain ⟨hne, rfl⟩ := combine_eq_ok_iff.1 h
  exact ⟨hne, allWellFormed_iff.2 hcs⟩

/-- Joining never takes a child away, so the group it makes or extends has one. -/
theorem WellFormed.join {c d : Condition} (hc : c.WellFormed) (hd : d.WellFormed)
    (op : Connective) : (Condition.join op c d).WellFormed := by
  have htwo : (group op [c, d]).WellFormed := ⟨List.cons_ne_nil _ _, hc, hd, trivial⟩
  cases c with
  | group op' cs =>
    obtain ⟨-, hcs⟩ := hc
    have hall : ∀ e ∈ cs ++ [d], e.WellFormed :=
      List.forall_mem_append.2 ⟨allWellFormed_iff.1 hcs, List.forall_mem_singleton.2 hd⟩
    rw [Condition.join]
    split
    · exact ⟨List.append_ne_nil_of_right_ne_nil _ (List.cons_ne_nil _ _), allWellFormed_iff.2 hall⟩
    · exact htwo
  | leaf property test => exact htwo
  | negation child => exact htwo

/-! ## The invariant -/

/-- Every operation keeps the invariant. -/
theorem Constructible.wellFormed {c : Condition} (h : Constructible c) : c.WellFormed := by
  induction h with
  | equality property op v | text property op s | presence property op => trivial
  | order built => exact wellFormed_of_order built
  | combine made built ih | all made built ih | any made built ih =>
    exact wellFormed_of_combine ih built
  | negation made ih => exact ih
  | and left right ihc ihd => exact ihc.join ihd .and
  | or left right ihc ihd => exact ihc.join ihd .or
  | equals p v | differs p v | startsWith p s | contains p s | endsWith p s => trivial
  | isNull p | isBlank p | isEmpty p => trivial
  | isBelow built | isAtMost built | isAbove built | isAtLeast built =>
    exact wellFormed_of_order built
  | ofTokens read => exact wellFormed_of_ofTokens read
  | ofText read => exact wellFormed_of_ofTokens read
  | ofJson decoded =>
    obtain ⟨text, hread⟩ := exists_text_of_ofJson decoded
    exact wellFormed_of_ofTokens hread

/-- The operations reach every well-formed tree, each by the operation of its root. -/
theorem WellFormed.constructible {c : Condition} (h : c.WellFormed) : Constructible c := by
  induction c with
  | leaf property test =>
    cases test with
    | equality op v => exact .equality property op v
    | order op x =>
      have hbuilt : Condition.order property op (.number x) = .ok (leaf property (.order op x)) :=
        order_eq_ok_iff.2 ⟨x, rfl, h, rfl⟩
      exact .order hbuilt
    | text op s => exact .text property op s
    | presence op => exact .presence property op
  | group op cs ih =>
    have hcs : ∀ c ∈ cs, Constructible c := fun c hc => ih c hc (allWellFormed_iff.1 h.2 c hc)
    exact .combine hcs (combine_eq_ok_iff.2 ⟨h.1, rfl⟩)
  | negation c ih => exact .negation (ih h)

/-- **Just the well-formed trees can be made.** -/
theorem constructible_iff {c : Condition} : Constructible c ↔ c.WellFormed :=
  ⟨Constructible.wellFormed, WellFormed.constructible⟩

/-- **The construction invariant.**  What can be made are just the trees whose nodes are all
    intact.  A group, an ordering test and a tree that some tokens would make without the parser's
    checks are made if they are such trees (the last one also has to fit under the limit), and
    otherwise there is an error in their place. -/
theorem construction_invariant :
    (∀ c, Constructible c ↔ ∀ d ∈ c.nodes, d.Intact) ∧
      (∀ op cs, (∀ c ∈ cs, Constructible c) →
        (Constructible (group op cs) → combine op cs = .ok (group op cs)) ∧
          (¬ Constructible (group op cs) → combine op cs = .error (.noChildren op))) ∧
      (∀ property op v,
        (∀ x, v.reading = .number x → Constructible (leaf property (.order op x)) →
            Condition.order property op v = .ok (leaf property (.order op x))) ∧
          ((∀ x, v.reading = .number x → ¬ Constructible (leaf property (.order op x))) →
            Condition.order property op v = .error (.notNumeric v.display))) ∧
      ∀ limit ts c, LooseGrammar.Expr ts c →
        (Constructible c → (ofTokens limit ts = .ok c ↔ c.depth ≤ limit)) ∧
          (¬ Constructible c → ∃ e, ofTokens limit ts = .error e) := by
  simp only [constructible_iff]
  refine ⟨wellFormed_iff_nodes, fun op cs hcs => ⟨fun h => ?_, fun h => ?_⟩,
    fun property op v => ⟨fun x hreads h => ?_, fun h => ?_⟩, fun limit ts c h => ?_⟩
  · exact combine_eq_ok_iff.2 ⟨h.1, rfl⟩
  · cases cs with
    | nil => rfl
    | cons d ds => exact absurd ⟨List.cons_ne_nil d ds, allWellFormed_iff.2 hcs⟩ h
  · exact order_eq_ok_iff.2 ⟨x, hreads, h, rfl⟩
  · exact order_eq_error_iff.2 h
  · exact ofTokens_of_loose h

/-- A test, a group of it and tokens for it are made; with nothing to group and with `NaN` as a
    threshold there are errors. -/
theorem construction_invariant_nan :
    let low := leaf "a" (.order .lt .zero)
    let endless := leaf "a" (.order .lt .nan)
    let tokens (w : String) : List Token := [⟨.openParen, "(", 0⟩, ⟨.operand, "a", 1⟩,
      ⟨.separator, "^", 2⟩, ⟨.operator, "LT", 3⟩, ⟨.separator, "^", 5⟩, ⟨.operand, w, 6⟩,
      ⟨.closeParen, ")", 9⟩]
    Constructible low ∧ ¬ Constructible endless ∧
      (∀ d ∈ ((low.and low.negation).or low).nodes, d.Intact) ∧
      combine .and [low] = .ok (group .and [low]) ∧ combine .and [] = .error (.noChildren .and) ∧
      Condition.order "a" .lt (.string " 0 ") = .ok low ∧
      Condition.order "a" .lt (.string "NaN") = .error (.notNumeric "NaN") ∧
      ofTokens 64 (tokens "0") = .ok low ∧ ∃ e, ofTokens 64 (tokens "NaN") = .error e := by
  intro low endless tokens
  obtain ⟨hnodes, hgroup, horder, htokens⟩ := construction_invariant
  have hzero : (Value.string " 0 ").reading = .number .zero := rfl
  have hnan : (Value.string "NaN").reading = .number .nan := rfl
  have hlow : Constructible low := constructible_iff.2 (by decide : Number.zero.isFinite = true)
  have hendless : ¬ Constructible endless := fun h => nomatch constructible_iff.1 h
  have hempty : ¬ Constructible (group .and []) := fun h => (constructible_iff.1 h).1 rfl
  have hjoined : Constructible ((low.and low.negation).or low) :=
    .or (.and hlow (.negation hlow)) hlow
  have hall : ∀ c ∈ [low], Constructible c := List.forall_mem_singleton.2 hlow
  have hreads : ∀ x, (Value.string "NaN").reading = .number x →
      ¬ Constructible (leaf "a" (.order .lt x)) := by
    intro x hx
    cases hnan.symm.trans hx
    exact hendless
  have hspelled : ∀ w x, Value.numberOfText? w = some x →
      LooseGrammar.Expr (tokens w) (leaf "a" (.order .lt x)) := by
    intro w x hw
    show LooseGrammar.Expr (_ :: ([_, _, _, _, _] ++ [_])) _
    have hkeyword : Token.Spells ⟨.operator, "LT", 3⟩ (.order .lt) := ⟨rfl, rfl⟩
    exact .parens rfl (.comparand rfl rfl hkeyword rfl rfl (.unchecked .lt hw)) rfl
  have hread := (htokens 64 (tokens "0") low (hspelled "0" .zero rfl)).1 hlow
  have hrefused := (htokens 64 (tokens "NaN") endless (hspelled "NaN" .nan rfl)).2 hendless
  exact ⟨hlow, hendless, (hnodes _).1 hjoined, (hgroup .and [low] hall).1 (.combine hall rfl),
    (hgroup .and [] nofun).2 hempty, (horder "a" .lt _).1 .zero hzero hlow,
    (horder "a" .lt _).2 hreads, hread.2 (by decide), hrefused⟩

end Condition

end Caret
