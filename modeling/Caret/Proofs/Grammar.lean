/-
  The parser accepts exactly the grammar of caret notation.

      expr    ::= '(' inside ')'
      inside  ::= operand '^' presence keyword
                | operand '^' keyword of another test '^' operand
                | ('AND' | 'OR') '[' expr further ']'
                | 'NOT' expr
      further ::= (',' expr)*

  1. **Grammar** — one inductive predicate for each production, between a list of tokens and the
     tree that it stands for.  They know of no points, frames or limits; tokens are arbitrary, so a
     keyword may be unknown and an operand may be any text.  `Derivation.Expr` and its companions
     leave two things open: which tests an operator makes of a comparand, and whether brackets may
     be empty.  `Grammar.Expr`, `Grammar.Inside` and `Grammar.Further` are the parser's choice, the
     checked tests of `TestOf` and no empty groups.

  2. **Steps** — `Step limit s t p` lists all that one token can do to a parse in progress, and
     `step_eq_ok_iff` says that `State.step` does just that.  Nothing below unfolds `State.step`.

  3. **Completeness** — `run_expr`: over the tokens of an `Expr`, a run goes from "an expression is
     due" to the state after it, whatever frames are around it, as long as the tree fits under the
     limit.  By recursion on the derivation.

  4. **Soundness** — `expr_sound`: a run that ends well has read an `Expr` first.  By induction on
     the number of tokens; the frames stay arbitrary throughout, so that the children of a group
     are read by the very statement that is being proved.

  Together: `expr_eq_ok_iff` for an expression with more tokens behind it, and
  `ofTokens_eq_ok_iff` for a whole list.
-/
import Caret.Parse

namespace Caret

/-! ## Depth of several conditions -/

namespace Condition

theorem greatestDepth_le_iff {cs : List Condition} {n : Nat} :
    greatestDepth cs ≤ n ↔ ∀ c ∈ cs, c.depth ≤ n := by
  induction cs with
  | nil => simp [greatestDepth]
  | cons c cs ih => rw [greatestDepth, Nat.max_le, ih, List.forall_mem_cons]

/-- Every condition has a pair of parentheses of its own. -/
theorem one_le_depth (c : Condition) : 1 ≤ c.depth := by
  cases c <;> rw [depth] <;> omega

/-- Under `depth` parentheses and its own, a group has room just if its children have room. -/
theorem depth_group_le_iff {op : Connective} {c : Condition} {cs : List Condition}
    {depth limit : Nat} :
    depth + (group op (c :: cs)).depth ≤ limit + 1 ↔ ∀ d ∈ c :: cs, depth + d.depth ≤ limit := by
  rw [Condition.depth]
  constructor
  · intro h d hd
    have hall := greatestDepth_le_iff.1 (show greatestDepth (c :: cs) ≤ limit - depth by omega)
    have hroom := hall d hd
    omega
  · intro h
    have hone := c.one_le_depth
    have hroom := h c (List.mem_cons_self ..)
    have hall : greatestDepth (c :: cs) ≤ limit - depth := by
      refine greatestDepth_le_iff.2 fun d hd => ?_
      have hroom := h d hd
      omega
    omega

end Condition

/-! ## The grammar -/

/-- The token is the keyword of an operator. -/
def Token.Spells (t : Token) (op : Operator) : Prop := t.kind = .operator ∧ t.text = op.keyword

/-- The tests that an operator makes of the text of a comparand: an ordering test needs text that
    reads as a finite number once it is trimmed, an equality test keeps the text as it is. -/
inductive TestOf : Operator → String → Test → Prop where
  | equality (op : EqualityOp) (w : String) : TestOf (.equality op) w (.equality op (.string w))
  | order (op : OrderOp) {w : String} {x : Number} (reads : Value.numberOfText? w = some x)
      (finite : x.isFinite = true) : TestOf (.order op) w (.order op x)
  | text (op : TextOp) (w : String) : TestOf (.text op) w (.text op w)

namespace Derivation

variable (tests : Operator → String → Test → Prop) (emptyGroups : Prop)

mutual

/-- `expr ::= '(' inside ')'` -/
inductive Expr : List Token → Condition → Prop where
  | parens {o e : Token} {ts : List Token} {c : Condition} (opened : o.kind = .openParen)
      (inside : Inside ts c) (closed : e.kind = .closeParen) : Expr (o :: (ts ++ [e])) c

/-- What stands between the parentheses: one of the `tests`, a group or a negation.  A group needs
    a child unless `emptyGroups` are allowed. -/
inductive Inside : List Token → Condition → Prop where
  | presence {p s k : Token} {op : PresenceOp} (property : p.kind = .operand)
      (separator : s.kind = .separator) (keyword : k.Spells (.presence op)) :
      Inside [p, s, k] (.leaf p.text (.presence op))
  | comparand {p s k s' w : Token} {op : Operator} {test : Test} (property : p.kind = .operand)
      (separator : s.kind = .separator) (keyword : k.Spells op) (separator' : s'.kind = .separator)
      (operand : w.kind = .operand) (made : tests op w.text test) :
      Inside [p, s, k, s', w] (.leaf p.text test)
  | emptyGroup {k o e : Token} {op : Connective} (allowed : emptyGroups)
      (keyword : k.Spells (.connective op)) (opened : o.kind = .openBracket)
      (closed : e.kind = .closeBracket) : Inside [k, o, e] (.group op [])
  | group {k o e : Token} {ts us : List Token} {op : Connective} {c : Condition}
      {cs : List Condition} (keyword : k.Spells (.connective op)) (opened : o.kind = .openBracket)
      (first : Expr ts c) (further : Further us cs) (closed : e.kind = .closeBracket) :
      Inside (k :: o :: (ts ++ us ++ [e])) (.group op (c :: cs))
  | negation {k : Token} {ts : List Token} {c : Condition} (keyword : k.Spells .not)
      (child : Expr ts c) : Inside (k :: ts) (.negation c)

/-- `further ::= (',' expr)*` -/
inductive Further : List Token → List Condition → Prop where
  | nil : Further [] []
  | cons {d : Token} {ts us : List Token} {c : Condition} {cs : List Condition}
      (delimiter : d.kind = .delimiter) (child : Expr ts c) (further : Further us cs) :
      Further (d :: (ts ++ us)) (c :: cs)

end

end Derivation

namespace Grammar

/-- An expression of caret notation, with the tree that it stands for. -/
abbrev Expr : List Token → Condition → Prop := Derivation.Expr TestOf False

/-- What stands between the parentheses of an expression. -/
abbrev Inside : List Token → Condition → Prop := Derivation.Inside TestOf False

/-- The children of a group after its first. -/
abbrev Further : List Token → List Condition → Prop := Derivation.Further TestOf False

end Grammar

/-! ## Steps: all that one token can do -/

namespace Parse

def ComparandOp.operator : ComparandOp → Operator
  | equality op => .equality op
  | order op => .order op
  | text op => .text op

/-- A leaf is made exactly where its operator makes a test of the comparand's text. -/
theorem leafOf_eq_ok_iff {property w : String} {op : ComparandOp} {c : Condition} :
    leafOf property op w = .ok c ↔ ∃ test, TestOf op.operator w test ∧ c = .leaf property test := by
  cases op with
  | equality op =>
    constructor
    · intro h
      exact ⟨_, .equality op w, (Except.ok.inj h).symm⟩
    · rintro ⟨_, ⟨⟩, rfl⟩; rfl
  | order op =>
    show Condition.order property op (.string w) = .ok c ↔ _
    rw [Condition.order, Value.asNumber?]
    constructor
    · intro h
      cases hx : (Value.numberOfText? w).filter Number.isFinite with
      | none => rw [hx] at h; cases h
      | some x =>
        rw [hx] at h
        obtain ⟨hreads, hfinite⟩ := Option.filter_eq_some_iff.1 hx
        exact ⟨_, .order op hreads hfinite, (Except.ok.inj h).symm⟩
    · rintro ⟨_, made, rfl⟩
      cases made with
      | order op hreads hfinite => rw [hreads, Option.filter_some, if_pos hfinite]
  | text op =>
    constructor
    · intro h
      exact ⟨_, .text op w, (Except.ok.inj h).symm⟩
    · rintro ⟨_, ⟨⟩, rfl⟩; rfl

/-- `Step limit s t p`: the token `t` takes the state `s` to `p`, with at most `limit` parentheses
    open. -/
inductive Step (limit : Nat) : State → Token → Progress → Prop where
  | openParen {frames : List Frame} {depth : Nat} {t : Token} (kind : t.kind = .openParen)
      (room : depth < limit) :
      Step limit ⟨frames, .expr, depth⟩ t (.pending ⟨frames, .node, depth + 1⟩)
  | property {frames : List Frame} {depth : Nat} {t : Token} (kind : t.kind = .operand) :
      Step limit ⟨frames, .node, depth⟩ t (.pending ⟨frames, .property t.text, depth⟩)
  | connective {frames : List Frame} {depth : Nat} {t : Token} {op : Connective}
      (keyword : t.Spells (.connective op)) :
      Step limit ⟨frames, .node, depth⟩ t (.pending ⟨frames, .group op, depth⟩)
  | negation {frames : List Frame} {depth : Nat} {t : Token} (keyword : t.Spells .not) :
      Step limit ⟨frames, .node, depth⟩ t (.pending ⟨.negation :: frames, .expr, depth⟩)
  | separator {frames : List Frame} {depth : Nat} {t : Token} {property : String}
      (kind : t.kind = .separator) :
      Step limit ⟨frames, .property property, depth⟩ t
        (.pending ⟨frames, .operator property, depth⟩)
  | presence {frames : List Frame} {depth : Nat} {t : Token} {property : String} {op : PresenceOp}
      (keyword : t.Spells (.presence op)) :
      Step limit ⟨frames, .operator property, depth⟩ t
        (.pending ⟨frames, .close (.presence property op), depth⟩)
  | test {frames : List Frame} {depth : Nat} {t : Token} {property : String} (op : ComparandOp)
      (keyword : t.Spells op.operator) :
      Step limit ⟨frames, .operator property, depth⟩ t
        (.pending ⟨frames, .test property op, depth⟩)
  | separator' {frames : List Frame} {depth : Nat} {t : Token} {property : String}
      {op : ComparandOp} (kind : t.kind = .separator) :
      Step limit ⟨frames, .test property op, depth⟩ t
        (.pending ⟨frames, .comparand property op, depth⟩)
  | comparand {frames : List Frame} {depth : Nat} {t : Token} {property : String}
      {op : ComparandOp} {c : Condition} (kind : t.kind = .operand)
      (made : leafOf property op t.text = .ok c) :
      Step limit ⟨frames, .comparand property op, depth⟩ t (.pending ⟨frames, .close c, depth⟩)
  | openBracket {frames : List Frame} {depth : Nat} {t : Token} {op : Connective}
      (kind : t.kind = .openBracket) :
      Step limit ⟨frames, .group op, depth⟩ t (.pending ⟨frames, .firstChild op, depth⟩)
  | firstChild {frames : List Frame} {depth : Nat} {t : Token} {op : Connective}
      (kind : t.kind = .openParen) (room : depth < limit) :
      Step limit ⟨frames, .firstChild op, depth⟩ t
        (.pending ⟨.group op [] :: frames, .node, depth + 1⟩)
  | delimiter {frames : List Frame} {depth : Nat} {t : Token} {op : Connective} {last : Condition}
      {earlier : List Condition} (kind : t.kind = .delimiter) :
      Step limit ⟨frames, .furtherChild op last earlier, depth⟩ t
        (.pending ⟨.group op (last :: earlier) :: frames, .expr, depth⟩)
  | closeBracket {frames : List Frame} {depth : Nat} {t : Token} {op : Connective}
      {last : Condition} {earlier : List Condition} (kind : t.kind = .closeBracket) :
      Step limit ⟨frames, .furtherChild op last earlier, depth⟩ t
        (.pending ⟨frames, .close (.group op (last :: earlier).reverse), depth⟩)
  | closeParen {frames : List Frame} {depth : Nat} {t : Token} {c : Condition}
      (kind : t.kind = .closeParen) :
      Step limit ⟨frames, .close c, depth⟩ t (closeExpr frames (depth - 1) c)

theorem spells_of_ofKeyword? {t : Token} {op : Operator} (hk : t.kind = .operator)
    (h : Operator.ofKeyword? t.text = some op) : t.Spells op :=
  ⟨hk, (Operator.ofKeyword?_eq_some_iff.1 h).symm⟩

theorem ofKeyword?_of_spells {t : Token} {op : Operator} (h : t.Spells op) :
    Operator.ofKeyword? t.text = some op :=
  Operator.ofKeyword?_eq_some_iff.2 h.2.symm

/-- A choice between a value and an error that ends in a value. -/
theorem ite_ok_eq_ok {ε α : Type} {q : Prop} [Decidable q] {e : ε} {a b : α}
    (h : (if q then .ok a else .error e : Except ε α) = .ok b) : q ∧ a = b := by
  split at h
  · rename_i hq
    exact ⟨hq, Except.ok.inj h⟩
  · cases h

theorem step_of_openExpr {limit depth : Nat} {frames : List Frame} {t : Token} {p : Progress}
    (h : openExpr limit frames depth t = .ok p) :
    t.kind = .openParen ∧ depth < limit ∧ p = .pending ⟨frames, .node, depth + 1⟩ := by
  rw [openExpr] at h
  split at h
  · rename_i hk
    split at h
    · cases h
    · rename_i hd
      exact ⟨hk, Nat.not_le.1 hd, (Except.ok.inj h).symm⟩
  · cases h

theorem openExpr_eq_ok {limit depth : Nat} {frames : List Frame} {t : Token}
    (hk : t.kind = .openParen) (hd : depth < limit) :
    openExpr limit frames depth t = .ok (.pending ⟨frames, .node, depth + 1⟩) := by
  rw [openExpr, if_pos hk, if_neg (Nat.not_le.2 hd)]

theorem step_of_startNode {limit depth : Nat} {frames : List Frame} {t : Token} {p : Progress}
    (h : startNode frames depth t = .ok p) : Step limit ⟨frames, .node, depth⟩ t p := by
  rw [startNode] at h
  split at h
  · rename_i hk
    cases h
    exact .property hk
  · rename_i hk
    split at h
    · rename_i op hop
      cases h
      exact .connective (spells_of_ofKeyword? hk hop)
    · rename_i hop
      cases h
      exact .negation (spells_of_ofKeyword? hk hop)
    · cases h
  · cases h

theorem step_of_leafOperator {limit depth : Nat} {frames : List Frame} {property : String}
    {t : Token} {p : Progress} (h : leafOperator frames depth property t = .ok p) :
    Step limit ⟨frames, .operator property, depth⟩ t p := by
  rw [leafOperator] at h
  split at h
  · rename_i hk
    split at h
    · rename_i op hop
      cases h
      exact .presence (spells_of_ofKeyword? hk hop)
    · rename_i op hop
      cases h
      exact .test (.equality op) (spells_of_ofKeyword? hk hop)
    · rename_i op hop
      cases h
      exact .test (.order op) (spells_of_ofKeyword? hk hop)
    · rename_i op hop
      cases h
      exact .test (.text op) (spells_of_ofKeyword? hk hop)
    · cases h
  · cases h

theorem step_of_leafComparand {limit depth : Nat} {frames : List Frame} {property : String}
    {op : ComparandOp} {t : Token} {p : Progress}
    (h : leafComparand frames depth property op t = .ok p) :
    Step limit ⟨frames, .comparand property op, depth⟩ t p := by
  rw [leafComparand] at h
  split at h
  · rename_i hk
    split at h
    · rename_i c hc
      cases h
      exact .comparand hk hc
    · cases h
  · cases h

/-- Whatever a token does to a state is on the list. -/
theorem step_of_eq_ok {limit : Nat} {s : State} {t : Token} {p : Progress}
    (h : s.step limit t = .ok p) : Step limit s t p := by
  obtain ⟨frames, point, depth⟩ := s
  -- one case for each point; the four points that only wait for one kind of token are alike
  cases point with
  | expr =>
    obtain ⟨hk, hd, rfl⟩ := step_of_openExpr h
    exact .openParen hk hd
  | node => exact step_of_startNode h
  | property property =>
    obtain ⟨hk, hp⟩ := ite_ok_eq_ok h
    exact hp ▸ .separator hk
  | operator property => exact step_of_leafOperator h
  | test property op =>
    obtain ⟨hk, hp⟩ := ite_ok_eq_ok h
    exact hp ▸ .separator' hk
  | comparand property op => exact step_of_leafComparand h
  | group op =>
    obtain ⟨hk, hp⟩ := ite_ok_eq_ok h
    exact hp ▸ .openBracket hk
  | firstChild op =>
    by_cases hb : t.kind = .closeBracket
    · simp only [State.step, if_pos hb] at h
      cases h
    · simp only [State.step, if_neg hb] at h
      obtain ⟨hk, hd, rfl⟩ := step_of_openExpr h
      exact .firstChild hk hd
  | furtherChild op last earlier =>
    simp only [State.step] at h
    split at h
    · rename_i hk
      cases h
      exact .delimiter hk
    · rename_i hk
      cases h
      exact .closeBracket hk
    · cases h
  | close c =>
    obtain ⟨hk, hp⟩ := ite_ok_eq_ok h
    exact hp ▸ .closeParen hk

/-- Whatever is on the list is what the token does. -/
theorem eq_ok_of_step {limit : Nat} {s : State} {t : Token} {p : Progress}
    (h : Step limit s t p) : s.step limit t = .ok p := by
  cases h with
  | openParen kind room => exact openExpr_eq_ok kind room
  | property kind => simp only [State.step, startNode, kind]
  | connective keyword =>
    simp only [State.step, startNode, keyword.1, ofKeyword?_of_spells keyword]
  | negation keyword =>
    simp only [State.step, startNode, keyword.1, ofKeyword?_of_spells keyword]
  | separator kind => simp only [State.step, if_pos kind]
  | presence keyword =>
    simp only [State.step, leafOperator, if_pos keyword.1, ofKeyword?_of_spells keyword]
  | test op keyword =>
    cases op <;>
      simp only [State.step, leafOperator, if_pos keyword.1, ofKeyword?_of_spells keyword,
        ComparandOp.operator]
  | separator' kind => simp only [State.step, if_pos kind]
  | comparand kind made => simp only [State.step, leafComparand, if_pos kind, made]
  | openBracket kind => simp only [State.step, if_pos kind]
  | firstChild kind room =>
    simp only [State.step, kind, reduceCtorEq, if_false, openExpr_eq_ok kind room]
  | delimiter kind => simp only [State.step, kind]
  | closeBracket kind => simp only [State.step, kind]
  | closeParen kind => simp only [State.step, if_pos kind]

/-- **What one token can do**, read off the relation in place of the function. -/
theorem step_eq_ok_iff {limit : Nat} {s : State} {t : Token} {p : Progress} :
    s.step limit t = .ok p ↔ Step limit s t p :=
  ⟨step_of_eq_ok, eq_ok_of_step⟩

/-! ## Runs -/

/-- Go on after a token. -/
def resume (limit : Nat) : Progress → List Token → Except ParseError Reading
  | .pending s, ts => run limit s ts
  | .complete c depth, ts => .ok ⟨c, depth, ts⟩

/-- A step is taken off the front of a run. -/
theorem run_cons_of_step {limit : Nat} {s : State} {t : Token} {p : Progress} (h : Step limit s t p)
    (ts : List Token) : run limit s (t :: ts) = resume limit p ts := by
  rw [run, step_eq_ok_iff.2 h]
  cases p <;> rfl

/-- A run that ends well takes a token and goes on. -/
theorem exists_step_of_run {limit : Nat} {s : State} {ts : List Token} {r : Reading}
    (h : run limit s ts = .ok r) :
    ∃ t rest p, ts = t :: rest ∧ Step limit s t p ∧ resume limit p rest = .ok r := by
  cases ts with
  | nil => cases h
  | cons t rest =>
    rw [run] at h
    cases hs : s.step limit t with
    | error e => rw [hs] at h; cases h
    | ok p =>
      rw [hs] at h
      refine ⟨t, rest, p, rfl, step_eq_ok_iff.1 hs, ?_⟩
      cases p <;> exact h

/-- Before the first child of a group the parser looks for `]`, and otherwise expects an
    expression as always. -/
theorem run_firstChild {limit depth : Nat} {frames : List Frame} {op : Connective} {t : Token}
    (hk : t.kind = .openParen) (ts : List Token) :
    run limit ⟨frames, .firstChild op, depth⟩ (t :: ts) =
      run limit ⟨.group op [] :: frames, .expr, depth⟩ (t :: ts) := by
  have hb : t.kind ≠ .closeBracket := by rw [hk]; decide
  rw [run, run]
  simp only [State.step, if_neg hb]

theorem run_firstChild_of_ok {limit depth : Nat} {frames : List Frame} {op : Connective}
    {ts : List Token} {r : Reading} (h : run limit ⟨frames, .firstChild op, depth⟩ ts = .ok r) :
    run limit ⟨frames, .firstChild op, depth⟩ ts =
      run limit ⟨.group op [] :: frames, .expr, depth⟩ ts := by
  obtain ⟨t, ts, p, rfl, hstep, -⟩ := exists_step_of_run h
  cases hstep with
  | firstChild hk hroom => exact run_firstChild hk ts

/-! ## Completeness -/

/-- Every expression begins with a parenthesis. -/
theorem exists_openParen_of_expr {ts : List Token} {c : Condition} (h : Grammar.Expr ts c) :
    ∃ t rest, ts = t :: rest ∧ t.kind = .openParen := by
  cases h with
  | parens opened inside closed => exact ⟨_, _, rfl, opened⟩

theorem exists_comparandOp {op : Operator} {w : String} {test : Test} (h : TestOf op w test) :
    ∃ op' : ComparandOp, op'.operator = op := by
  cases h with
  | equality op => exact ⟨.equality op, rfl⟩
  | order op => exact ⟨.order op, rfl⟩
  | text op => exact ⟨.text op, rfl⟩

mutual

/-- **Completeness**, with arbitrary frames around the expression and tokens behind it. -/
theorem run_expr {limit : Nat} {used : List Token} {c : Condition} :
    Grammar.Expr used c → ∀ {frames : List Frame} {depth : Nat} (rest : List Token),
      depth + c.depth ≤ limit →
      run limit ⟨frames, .expr, depth⟩ (used ++ rest) =
        resume limit (closeExpr frames depth c) rest
  | @Derivation.Expr.parens _ _ o e ts c opened inside closed, frames, depth, rest, hd => by
    have hone := c.one_le_depth
    have hroom : depth < limit := by omega
    rw [List.cons_append, List.append_assoc, run_cons_of_step (.openParen opened hroom)]
    show run limit ⟨frames, .node, depth + 1⟩ _ = _
    rw [run_inside inside _ (by omega), List.singleton_append,
      run_cons_of_step (.closeParen closed), Nat.add_sub_cancel]

/-- The same between the parentheses: those of the tree itself are open already. -/
theorem run_inside {limit : Nat} {used : List Token} {c : Condition} :
    Grammar.Inside used c → ∀ {frames : List Frame} {depth : Nat} (rest : List Token),
      depth + c.depth ≤ limit + 1 →
      run limit ⟨frames, .node, depth⟩ (used ++ rest) =
        run limit ⟨frames, .close c, depth⟩ rest
  | .presence property separator keyword, frames, depth, rest, _ => by
    show run limit _ (_ :: _ :: _ :: rest) = _
    rw [run_cons_of_step (.property property)]
    show run limit _ (_ :: _ :: rest) = _
    rw [run_cons_of_step (.separator separator)]
    show run limit _ (_ :: rest) = _
    rw [run_cons_of_step (.presence keyword)]
    rfl
  | .comparand property separator keyword separator' operand made, frames, depth, rest, _ => by
    obtain ⟨op, rfl⟩ := exists_comparandOp made
    show run limit _ (_ :: _ :: _ :: _ :: _ :: rest) = _
    rw [run_cons_of_step (.property property)]
    show run limit _ (_ :: _ :: _ :: _ :: rest) = _
    rw [run_cons_of_step (.separator separator)]
    show run limit _ (_ :: _ :: _ :: rest) = _
    rw [run_cons_of_step (.test op keyword)]
    show run limit _ (_ :: _ :: rest) = _
    rw [run_cons_of_step (.separator' separator')]
    show run limit _ (_ :: rest) = _
    rw [run_cons_of_step (.comparand operand (leafOf_eq_ok_iff.2 ⟨_, made, rfl⟩))]
    rfl
  | .emptyGroup allowed _ _ _, _, _, _, _ => allowed.elim
  | @Derivation.Inside.group _ _ k o e ts us op c cs keyword opened first further closed, frames,
      depth, rest, hd => by
    obtain ⟨hc, hcs⟩ := List.forall_mem_cons.1 (Condition.depth_group_le_iff.1 hd)
    obtain ⟨t, ts', rfl, hk⟩ := exists_openParen_of_expr first
    rw [List.cons_append, List.cons_append, List.append_assoc, List.append_assoc,
      run_cons_of_step (.connective keyword)]
    show run limit _ (_ :: _) = _
    rw [run_cons_of_step (.openBracket opened)]
    show run limit _ _ = _
    rw [List.cons_append, run_firstChild hk, ← List.cons_append, run_expr first _ hc]
    show run limit ⟨frames, .furtherChild op c [], depth⟩ (us ++ (e :: rest)) = _
    exact run_further further closed _ hcs
  | .negation keyword child, frames, depth, rest, hd => by
    rw [Condition.depth] at hd
    rw [List.cons_append, run_cons_of_step (.negation keyword)]
    show run limit _ _ = _
    rw [run_expr child _ (by omega)]
    rfl

/-- Over further children and the bracket that ends them. -/
theorem run_further {limit : Nat} {used : List Token} {cs : List Condition} :
    Grammar.Further used cs → ∀ {e : Token}, e.kind = .closeBracket →
      ∀ {frames : List Frame} {depth : Nat} {op : Connective} {last : Condition}
        {earlier : List Condition} (rest : List Token), (∀ c ∈ cs, depth + c.depth ≤ limit) →
      run limit ⟨frames, .furtherChild op last earlier, depth⟩ (used ++ e :: rest) =
        run limit ⟨frames, .close (.group op ((last :: earlier).reverse ++ cs)), depth⟩ rest
  | .nil, e, closed, frames, depth, op, last, earlier, rest, _ => by
    rw [List.nil_append, run_cons_of_step (.closeBracket closed), List.append_nil]
    rfl
  | @Derivation.Further.cons _ _ d ts us c cs delimiter child further, e, closed, frames, depth, op,
      last, earlier, rest, hd => by
    obtain ⟨hc, hcs⟩ := List.forall_mem_cons.1 hd
    rw [List.cons_append, List.append_assoc, run_cons_of_step (.delimiter delimiter)]
    show run limit _ _ = _
    rw [run_expr child _ hc]
    show run limit ⟨frames, .furtherChild op c (last :: earlier), depth⟩ _ = _
    rw [run_further further closed _ hcs, List.reverse_cons, List.append_assoc]
    rfl

end

/-! ## Soundness -/

/-- What soundness says of runs over at most `n` tokens: where an expression is due, one is read,
    it fits under the limit, and the run goes on as after that expression. -/
def ReadsExpr (limit n : Nat) : Prop :=
  ∀ {frames : List Frame} {depth : Nat} {ts : List Token} {r : Reading}, ts.length ≤ n →
    run limit ⟨frames, .expr, depth⟩ ts = .ok r →
    ∃ used c rest, ts = used ++ rest ∧ Grammar.Expr used c ∧ depth + c.depth ≤ limit ∧
      resume limit (closeExpr frames depth c) rest = .ok r

/-- The children of a group after those it has, up to its bracket. -/
theorem further_sound {limit n : Nat} (hn : ReadsExpr limit n) :
    ∀ {m : Nat}, m ≤ n → ∀ {frames : List Frame} {depth : Nat} {op : Connective}
      {last : Condition} {earlier : List Condition} {ts : List Token} {r : Reading},
      ts.length ≤ m → run limit ⟨frames, .furtherChild op last earlier, depth⟩ ts = .ok r →
      ∃ used cs e rest, ts = used ++ e :: rest ∧ Grammar.Further used cs ∧ e.kind = .closeBracket ∧
        (∀ c ∈ cs, depth + c.depth ≤ limit) ∧
        run limit ⟨frames, .close (.group op ((last :: earlier).reverse ++ cs)), depth⟩ rest =
          .ok r := by
  intro m
  induction m with
  | zero =>
    intro _ frames depth op last earlier ts r hlen h
    obtain ⟨t, ts', p, rfl, -, -⟩ := exists_step_of_run h
    simp at hlen
  | succ m ih =>
    intro hm frames depth op last earlier ts r hlen h
    obtain ⟨t, ts', p, rfl, hstep, h⟩ := exists_step_of_run h
    rw [List.length_cons] at hlen
    cases hstep with
    | delimiter kind =>
      -- one more child, then the same question with fewer tokens
      obtain ⟨us, c, rest, rfl, hc, hd, h⟩ := hn (by omega) h
      rw [List.length_append] at hlen
      obtain ⟨vs, cs, e, rest, rfl, hcs, he, hds, h⟩ := ih (by omega) (by omega) h
      refine ⟨t :: (us ++ vs), c :: cs, e, rest, ?_, .cons kind hc hcs, he,
        List.forall_mem_cons.2 ⟨hd, hds⟩, ?_⟩
      · rw [List.cons_append, List.append_assoc]
      · rw [List.reverse_cons, List.append_assoc] at h
        exact h
    | closeBracket kind =>
      refine ⟨[], [], t, ts', rfl, .nil, kind, by simp, ?_⟩
      rw [List.append_nil]
      exact h

/-- What follows the name of a property, up to the parenthesis that closes its leaf. -/
theorem leaf_sound {limit : Nat} {frames : List Frame} {depth : Nat} {p : Token}
    (hp : p.kind = .operand) {ts : List Token} {r : Reading}
    (h : run limit ⟨frames, .property p.text, depth⟩ ts = .ok r) :
    ∃ used test rest, ts = used ++ rest ∧ Grammar.Inside (p :: used) (.leaf p.text test) ∧
      run limit ⟨frames, .close (.leaf p.text test), depth⟩ rest = .ok r := by
  obtain ⟨s, ts, _, rfl, hstep, h⟩ := exists_step_of_run h
  cases hstep with
  | separator hs =>
    obtain ⟨k, ts, _, rfl, hstep, h⟩ := exists_step_of_run h
    cases hstep with
    | presence keyword => exact ⟨[s, k], _, ts, rfl, .presence hp hs keyword, h⟩
    | test op keyword =>
      obtain ⟨s', ts, _, rfl, hstep, h⟩ := exists_step_of_run h
      cases hstep with
      | separator' hs' =>
        obtain ⟨w, ts, _, rfl, hstep, h⟩ := exists_step_of_run h
        cases hstep with
        | comparand hw made =>
          obtain ⟨test, htest, rfl⟩ := leafOf_eq_ok_iff.1 made
          exact ⟨[s, k, s', w], test, ts, rfl, .comparand hp hs keyword hs' hw htest, h⟩

/-- What follows the keyword of a group, up to the parenthesis that closes it. -/
theorem group_sound {limit n : Nat} (hn : ReadsExpr limit n) {frames : List Frame} {depth : Nat}
    {op : Connective} {ts : List Token} {r : Reading} (hlen : ts.length ≤ n)
    (h : run limit ⟨frames, .group op, depth⟩ ts = .ok r) :
    ∃ used c cs rest, ts = used ++ rest ∧
      (∀ k : Token, k.Spells (.connective op) →
        Grammar.Inside (k :: used) (.group op (c :: cs))) ∧
      (∀ d ∈ c :: cs, depth + d.depth ≤ limit) ∧
      run limit ⟨frames, .close (.group op (c :: cs)), depth⟩ rest = .ok r := by
  obtain ⟨o, ts, _, rfl, hstep, h⟩ := exists_step_of_run h
  cases hstep with
  | openBracket ho =>
    rw [List.length_cons] at hlen
    have h : run limit ⟨frames, .firstChild op, depth⟩ ts = .ok r := h
    rw [run_firstChild_of_ok h] at h
    obtain ⟨us, c, rest, rfl, hc, hd, h⟩ := hn (by omega) h
    rw [List.length_append] at hlen
    obtain ⟨vs, cs, e, rest, rfl, hcs, he, hds, h⟩ :=
      further_sound hn (Nat.le_refl n) (by omega) h
    exact ⟨o :: (us ++ vs ++ [e]), c, cs, rest, by simp,
      fun k keyword => .group keyword ho hc hcs he, List.forall_mem_cons.2 ⟨hd, hds⟩, h⟩

/-- What stands between two parentheses, up to the closing one. -/
theorem inside_sound {limit n : Nat} (hn : ReadsExpr limit n) {frames : List Frame} {depth : Nat}
    (hdepth : depth ≤ limit) {ts : List Token} {r : Reading} (hlen : ts.length ≤ n)
    (h : run limit ⟨frames, .node, depth⟩ ts = .ok r) :
    ∃ used c rest, ts = used ++ rest ∧ Grammar.Inside used c ∧ depth + c.depth ≤ limit + 1 ∧
      run limit ⟨frames, .close c, depth⟩ rest = .ok r := by
  obtain ⟨k, ts, p, rfl, hstep, h⟩ := exists_step_of_run h
  rw [List.length_cons] at hlen
  cases hstep with
  | property hk =>
    obtain ⟨used, test, rest, rfl, hinside, h⟩ := leaf_sound hk h
    exact ⟨k :: used, _, rest, rfl, hinside, Nat.succ_le_succ hdepth, h⟩
  | connective keyword =>
    obtain ⟨used, c, cs, rest, rfl, hinside, hroom, h⟩ := group_sound hn (by omega) h
    exact ⟨k :: used, _, rest, rfl, hinside k keyword, Condition.depth_group_le_iff.2 hroom, h⟩
  | negation keyword =>
    obtain ⟨us, c, rest, rfl, hc, hd, h⟩ := hn (by omega) h
    refine ⟨k :: us, .negation c, rest, rfl, .negation keyword hc, ?_, h⟩
    rw [Condition.depth]
    omega

/-- **Soundness**, with arbitrary frames around the expression. -/
theorem expr_sound (limit : Nat) : ∀ n, ReadsExpr limit n := by
  intro n
  induction n with
  | zero =>
    intro frames depth ts r hlen h
    obtain ⟨t, ts', p, rfl, -, -⟩ := exists_step_of_run h
    simp at hlen
  | succ n ih =>
    intro frames depth ts r hlen h
    obtain ⟨o, ts, p, rfl, hstep, h⟩ := exists_step_of_run h
    rw [List.length_cons] at hlen
    cases hstep with
    | openParen ho hroom =>
      obtain ⟨us, c, rest, rfl, hc, hd, h⟩ := inside_sound ih hroom (by omega) h
      obtain ⟨e, rest, p, rfl, hstep, h⟩ := exists_step_of_run h
      cases hstep with
      | closeParen he =>
        refine ⟨o :: (us ++ [e]), c, rest, ?_, .parens ho hc he, by omega, h⟩
        rw [List.cons_append, List.append_assoc]
        rfl

/-! ## The parser and the grammar -/

/-- **One expression**: what is read is derived, fits under the limit and leaves the depth as it
    was; and whatever is so derived is read, with any tokens behind it. -/
theorem expr_eq_ok_iff {limit depth : Nat} {ts : List Token} {r : Reading} :
    expr limit depth ts = .ok r ↔ r.depth = depth ∧ depth + r.condition.depth ≤ limit ∧
      ∃ used, ts = used ++ r.rest ∧ Grammar.Expr used r.condition := by
  constructor
  · intro h
    obtain ⟨used, c, rest, hts, hc, hd, h⟩ := expr_sound limit ts.length (Nat.le_refl _) h
    obtain rfl : ⟨c, depth, rest⟩ = r := Except.ok.inj h
    exact ⟨rfl, hd, used, hts, hc⟩
  · rintro ⟨rfl, hd, used, rfl, hc⟩
    exact run_expr hc _ hd

end Parse

namespace Condition

/-- Tokens that form a condition are derived by the grammar. -/
theorem expr_of_ofTokens {limit : Nat} {ts : List Token} {c : Condition}
    (h : ofTokens limit ts = .ok c) : Grammar.Expr ts c ∧ c.depth ≤ limit := by
  rw [ofTokens] at h
  split at h
  · rename_i c' depth hread
    cases h
    obtain ⟨-, hd, used, rfl, hc⟩ := Parse.expr_eq_ok_iff.1 hread
    rw [List.append_nil]
    exact ⟨hc, by rwa [Nat.zero_add] at hd⟩
  · cases h
  · cases h

/-- What the grammar derives is accepted, with the tree of the derivation. -/
theorem ofTokens_of_expr {limit : Nat} {ts : List Token} {c : Condition}
    (hc : Grammar.Expr ts c) (hd : c.depth ≤ limit) : ofTokens limit ts = .ok c := by
  have hread : Parse.expr limit 0 ts = .ok ⟨c, 0, []⟩ :=
    Parse.expr_eq_ok_iff.2 ⟨rfl, by rwa [Nat.zero_add], ts, (List.append_nil ts).symm, hc⟩
  rw [ofTokens, hread]

/-- **The parser accepts exactly the grammar**, as far as the limit allows: of any tokens, it makes
    the tree of their derivation or none at all. -/
theorem ofTokens_eq_ok_iff (limit : Nat) (ts : List Token) (c : Condition) :
    ofTokens limit ts = .ok c ↔ Grammar.Expr ts c ∧ c.depth ≤ limit :=
  ⟨expr_of_ofTokens, fun ⟨hc, hd⟩ => ofTokens_of_expr hc hd⟩

end Condition

end Caret
