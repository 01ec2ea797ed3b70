/-
  What the parser makes of tokens that would form an ill-formed tree.

  1. **The grammar has only well-formed trees** (`wellFormed_of_expr`), whatever the tokens.

  2. **Flaws** — two ways to go wrong show in the tokens themselves: brackets with nothing in
     between, and an ordering test of text that is no finite number.  Wherever they stand, the
     parser refuses (`ofTokens_of_flawed`), whatever the limit.

  3. **Loose grammar** — the productions without the two checks: the tests of `LooseTestOf`, whose
     thresholds may be infinite or `nan`, and empty groups.  It says which tree the tokens would
     make.  Where that tree is well-formed, it is the tree of the grammar, and where it is not, the
     tokens are flawed (`expr_or_flawed`).
-/
import Caret.Proofs.Reach

namespace Caret

/-! ## Well-formed trees -/

namespace Condition

/-- A test of the grammar makes a well-formed leaf: its threshold is finite. -/
theorem wellFormed_of_testOf {op : Operator} {w : String} {test : Test} (h : TestOf op w test)
    (property : String) : (leaf property test).WellFormed := by
  cases h with
  | equality op => trivial
  | order op reads finite => exact finite
  | text op => trivial

mutual

/-- **The grammar has only well-formed trees**, whatever the tokens. -/
theorem wellFormed_of_expr {ts : List Token} {c : Condition} : Grammar.Expr ts c → c.WellFormed
  | .parens _ inside _ => wellFormed_of_inside inside

theorem wellFormed_of_inside {ts : List Token} {c : Condition} :
    Grammar.Inside ts c → c.WellFormed
  | .presence _ _ _ => trivial
  | .comparand _ _ _ _ _ made => wellFormed_of_testOf made _
  | .emptyGroup allowed _ _ _ => allowed.elim
  | .group _ _ first further _ =>
    ⟨List.cons_ne_nil _ _, wellFormed_of_expr first, wellFormed_of_further further⟩
  | .negation _ child => by
    have hchild := wellFormed_of_expr child
    exact hchild

theorem wellFormed_of_further {ts : List Token} {cs : List Condition} :
    Grammar.Further ts cs → AllWellFormed cs
  | .nil => trivial
  | .cons _ child further => ⟨wellFormed_of_expr child, wellFormed_of_further further⟩

end

/-- **Whatever is parsed is well-formed.** -/
theorem wellFormed_of_ofTokens {limit : Nat} {ts : List Token} {c : Condition}
    (h : ofTokens limit ts = .ok c) : c.WellFormed :=
  wellFormed_of_expr (expr_of_ofTokens h).1

end Condition

/-! ## Flaws -/

/-- Neighbouring tokens that no condition contains. -/
inductive Token.Flaw : List Token → Prop where
  /-- Brackets with nothing in between. -/
  | brackets {o e : Token} (opened : o.kind = .openBracket) (closed : e.kind = .closeBracket) :
      Flaw [o, e]
  /-- An ordering test of text that does not read as a finite number. -/
  | threshold {k s w : Token} {op : OrderOp} (keyword : k.Spells (.order op))
      (separator : s.kind = .separator)
      (fails : ∀ x, Value.numberOfText? w.text = some x → ¬ x.isFinite = true) : Flaw [k, s, w]

/-- Some of the tokens are a flaw. -/
def Token.Flawed (ts : List Token) : Prop := ∃ flaw, Flaw flaw ∧ flaw <:+: ts

theorem Token.Flawed.mono {ts us : List Token} (h : Flawed ts) (hsub : ts <:+: us) : Flawed us := by
  obtain ⟨flaw, hflaw, hts⟩ := h
  exact ⟨flaw, hflaw, hts.trans hsub⟩

/-- A token is the keyword of one operator at most. -/
theorem Token.Spells.unique {t : Token} {op op' : Operator} (h : t.Spells op) (h' : t.Spells op') :
    op = op' :=
  Operator.keyword_injective (h.2.symm.trans h'.2)

namespace Parse

variable {limit : Nat} {s : State} {t : Token} {p : Progress}

/-- After the bracket of a group a child has to come. -/
theorem Step.of_openBracket (h : Step limit s t p) (kind : t.kind = .openBracket) :
    ∃ frames op depth, p = .pending ⟨frames, .firstChild op, depth⟩ := by
  cases h with
  | @openBracket frames depth t op _ => exact ⟨frames, op, depth, rfl⟩
  | property kind' | separator kind' | separator' kind' | comparand kind' | delimiter kind'
  | openParen kind' | firstChild kind' | closeBracket kind' | closeParen kind' =>
    cases kind'.symm.trans kind
  | connective keyword | negation keyword | presence keyword | test op keyword =>
    cases keyword.1.symm.trans kind

/-- After the keyword of an ordering test its comparand has to come. -/
theorem Step.of_order {op : OrderOp} (h : Step limit s t p) (keyword : t.Spells (.order op)) :
    ∃ frames property depth, p = .pending ⟨frames, .test property (.order op), depth⟩ := by
  cases h with
  | @test frames depth t property op' keyword' =>
    cases op' with
    | order op' =>
      cases keyword'.unique keyword
      exact ⟨frames, property, depth, rfl⟩
    | equality op' | text op' => cases keyword'.unique keyword
  | connective keyword' | negation keyword' | presence keyword' => cases keyword'.unique keyword
  | property kind | separator kind | separator' kind | comparand kind | delimiter kind
  | openParen kind | firstChild kind | openBracket kind | closeBracket kind | closeParen kind =>
    cases kind.symm.trans keyword.1

/-- A token that is no finite number is no comparand of an ordering test, whether it is an operand
    or not. -/
theorem leafComparand_eq_error {frames : List Frame} {depth : Nat} {property : String}
    {op : OrderOp} (fails : ∀ x, Value.numberOfText? t.text = some x → ¬ x.isFinite = true) :
    ∃ e, leafComparand frames depth property (.order op) t = .error e := by
  cases hleaf : leafOf property (.order op) t.text with
  | error cause =>
    rw [leafComparand, hleaf]
    split
    · exact ⟨_, rfl⟩
    · exact ⟨_, rfl⟩
  | ok c =>
    obtain ⟨test, made, -⟩ := leafOf_eq_ok_iff.1 hleaf
    cases made with
    | order op reads finite => exact absurd finite (fails _ reads)

/-- Wherever a flaw begins, its last token is refused. -/
theorem exists_refusal_of_flaw (limit : Nat) {flaw : List Token} (h : Token.Flaw flaw) :
    ∃ part t, flaw = part ++ [t] ∧
      ∀ {s s' : State}, Reaches limit s part s' → ∃ e, s'.step limit t = .error e := by
  cases h with
  | @brackets o e opened closed =>
    refine ⟨[o], e, rfl, fun {s s'} h => ?_⟩
    cases h with
    | next first further =>
      obtain ⟨frames, op, depth, hp⟩ := first.of_openBracket opened
      cases hp
      cases further
      exact ⟨.emptyGroup op (.kind .openParen) e.offset, if_pos closed⟩
  | @threshold k m w op keyword separator fails =>
    refine ⟨[k, m], w, rfl, fun {s s'} h => ?_⟩
    cases h with
    | next first further =>
      obtain ⟨frames, property, depth, hp⟩ := first.of_order keyword
      cases hp
      cases further with
      | next second further =>
        cases second
        cases further
        exact leafComparand_eq_error fails

end Parse

/-- **No condition contains a flaw**: the parser refuses where the flaw ends, if not before. -/
theorem Condition.ofTokens_of_flawed {ts : List Token} (h : Token.Flawed ts) (limit : Nat) :
    ∃ e, ofTokens limit ts = .error e := by
  obtain ⟨flaw, hflaw, before, after, rfl⟩ := h
  obtain ⟨part, t, rfl, hrefused⟩ := Parse.exists_refusal_of_flaw limit hflaw
  have hshape : before ++ (part ++ [t]) ++ after = (before ++ part) ++ t :: after := by simp
  rw [hshape]
  cases hread : ofTokens limit ((before ++ part) ++ t :: after) with
  | error e => exact ⟨e, rfl⟩
  | ok c =>
    -- the parse would have come as far as the last token of the flaw
    obtain ⟨s', hreached⟩ := reaches_of_ofTokens hread (List.cons_ne_nil t after)
    obtain ⟨s, -, hpart⟩ := hreached.split
    obtain ⟨e, hstep⟩ := hrefused hpart
    cases hread.symm.trans (ofTokens_eq_iff.2 (.refused hreached hstep))

/-! ## The loose grammar -/

/-- The tests that an operator makes of the text of a comparand, if a threshold may be any number,
    infinite or `nan` too. -/
inductive LooseTestOf : Operator → String → Test → Prop where
  | checked {op : Operator} {w : String} {test : Test} (made : TestOf op w test) :
      LooseTestOf op w test
  | unchecked (op : OrderOp) {w : String} {x : Number} (reads : Value.numberOfText? w = some x) :
      LooseTestOf (.order op) w (.order op x)

namespace LooseGrammar

/-- An expression, were neither check made: a threshold may be any number, brackets may be empty. -/
abbrev Expr : List Token → Condition → Prop := Derivation.Expr LooseTestOf True

/-- What stands between the parentheses of such an expression. -/
abbrev Inside : List Token → Condition → Prop := Derivation.Inside LooseTestOf True

/-- The children of such a group after its first. -/
abbrev Further : List Token → List Condition → Prop := Derivation.Further LooseTestOf True

end LooseGrammar

namespace Condition

mutual

/-- **What the loose grammar has besides the grammar** is flawed, and its tree is ill-formed. -/
theorem expr_or_flawed {ts : List Token} {c : Condition} :
    LooseGrammar.Expr ts c → Grammar.Expr ts c ∨ Token.Flawed ts ∧ ¬ c.WellFormed
  | @Derivation.Expr.parens _ _ o e ts c opened inside closed => by
    rcases inside_or_flawed inside with hinside | ⟨hflawed, hill⟩
    · exact Or.inl (.parens opened hinside closed)
    · exact Or.inr ⟨hflawed.mono ⟨[o], [e], rfl⟩, hill⟩

theorem inside_or_flawed {ts : List Token} {c : Condition} :
    LooseGrammar.Inside ts c → Grammar.Inside ts c ∨ Token.Flawed ts ∧ ¬ c.WellFormed
  | .presence property separator keyword => Or.inl (.presence property separator keyword)
  | @Derivation.Inside.comparand _ _ p s k s' w op test property separator keyword separator'
      operand made => by
    cases made with
    | checked made =>
      exact Or.inl (.comparand property separator keyword separator' operand made)
    | @unchecked op w' x reads =>
      by_cases hfinite : x.isFinite = true
      · exact Or.inl
          (.comparand property separator keyword separator' operand (.order op reads hfinite))
      · have hfails : ∀ y, Value.numberOfText? w.text = some y → ¬ y.isFinite = true := by
          intro y hy
          cases reads.symm.trans hy
          exact hfinite
        exact Or.inr ⟨⟨_, .threshold keyword separator' hfails, [p, s], [], rfl⟩, hfinite⟩
  | @Derivation.Inside.emptyGroup _ _ k o e op _ keyword opened closed =>
    Or.inr ⟨⟨_, .brackets opened closed, [k], [], rfl⟩, fun h => h.1 rfl⟩
  | @Derivation.Inside.group _ _ k o e ts us op c cs keyword opened first further closed => by
    rcases expr_or_flawed first with hfirst | ⟨hflawed, hill⟩
    · rcases further_or_flawed further with hfurther | ⟨hflawed, hill⟩
      · exact Or.inl (.group keyword opened hfirst hfurther closed)
      · exact Or.inr ⟨hflawed.mono ⟨k :: o :: ts, [e], by simp⟩, fun h => hill h.2.2⟩
    · exact Or.inr ⟨hflawed.mono ⟨[k, o], us ++ [e], by simp⟩, fun h => hill h.2.1⟩
  | @Derivation.Inside.negation _ _ k ts c keyword child => by
    rcases expr_or_flawed child with hchild | ⟨hflawed, hill⟩
    · exact Or.inl (.negation keyword hchild)
    · exact Or.inr ⟨hflawed.mono ⟨[k], [], by simp⟩, hill⟩

theorem further_or_flawed {ts : List Token} {cs : List Condition} :
    LooseGrammar.Further ts cs → Grammar.Further ts cs ∨ Token.Flawed ts ∧ ¬ AllWellFormed cs
  | .nil => Or.inl .nil
  | @Derivation.Further.cons _ _ d ts us c cs delimiter child further => by
    rcases expr_or_flawed child with hchild | ⟨hflawed, hill⟩
    · rcases further_or_flawed further with hfurther | ⟨hflawed, hill⟩
      · exact Or.inl (.cons delimiter hchild hfurther)
      · exact Or.inr ⟨hflawed.mono ⟨d :: ts, [], by simp⟩, fun h => hill h.2⟩
    · exact Or.inr ⟨hflawed.mono ⟨[d], us, by simp⟩, fun h => hill h.1⟩

end

/-- **What is read of a loose expression**: its tree, if that is well-formed and not too deep. -/
theorem ofTokens_of_loose {limit : Nat} {ts : List Token} {c : Condition}
    (h : LooseGrammar.Expr ts c) :
    (c.WellFormed → (ofTokens limit ts = .ok c ↔ c.depth ≤ limit)) ∧
      (¬ c.WellFormed → ∃ e, ofTokens limit ts = .error e) := by
  rcases expr_or_flawed h with hexpr | ⟨hflawed, hill⟩
  · have hread : ofTokens limit ts = .ok c ↔ c.depth ≤ limit :=
      ⟨fun hok => (expr_of_ofTokens hok).2, ofTokens_of_expr hexpr⟩
    exact ⟨fun _ => hread, fun hill => absurd (wellFormed_of_expr hexpr) hill⟩
  · exact ⟨fun hwf => absurd hwf hill, fun _ => ofTokens_of_flawed hflawed limit⟩

end Condition

end Caret
