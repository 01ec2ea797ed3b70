/-
  What an error says was expected is just what could have stood in its place.

  1. **Admission** — `expected.Admits t` puts the four sorts of expectation in terms of kinds and
     keywords, with no word about parsing.

  2. **Steps** — the point of a state expects just the tokens that it can go on with, under some
     limit (`exists_step_iff`).  There is one exception: where the comparand of an ordering test is
     due, an operand has to be numeric text as well.

  3. **Viability** — the state that a parse reaches does not depend on the limit
     (`Reaches.unique`), and every state can be completed.  So behind tokens that reach a state,
     what it can go on with is just what is viable there (`viable_snoc_iff`).

  4. **Errors** — an error that names an expectation has it from the point where the parse stood
     (`Refusal.expected_eq`), wherever that was.
-/
import Caret.Proofs.Flaws
import Caret.Proofs.ViablePrefix

namespace Caret

/-! ## Admission -/

/-- The token is one of those that were expected. -/
def Expected.Admits : Expected → Token → Prop
  | kind k, t => t.kind = k
  | nodeStart, t => t.kind = .operand ∨ t.kind = .operator ∧ t.text ∈ ["AND", "OR", "NOT"]
  | leafOperator, t => t.kind = .operator ∧
    t.text ∈ ["EQ", "NE", "LT", "LTE", "GT", "GTE", "SW", "CT", "EW", "NULL", "BLANK", "EMPTY"]
  | delimiterOrClose, t => t.kind = .delimiter ∨ t.kind = .closeBracket

namespace Token

/-- The text reads as a finite number. -/
def IsNumeric (t : Token) : Prop := ∃ x, Value.numberOfText? t.text = some x ∧ x.isFinite = true

/-- The tokens end with the keyword of an ordering test and a separator. -/
def AwaitsNumber (ts : List Token) : Prop :=
  ∃ part k s op, ts = part ++ [k, s] ∧ k.Spells (.order op) ∧ s.kind = .separator

theorem nodeKeyword_iff {t : Token} :
    t.kind = .operator ∧ t.text ∈ ["AND", "OR", "NOT"] ↔
      (∃ op, t.Spells (.connective op)) ∨ t.Spells .not := by
  constructor
  · rintro ⟨hk, h⟩
    simp only [List.mem_cons, List.not_mem_nil, or_false] at h
    rcases h with h | h | h
    · exact Or.inl ⟨.and, hk, h⟩
    · exact Or.inl ⟨.or, hk, h⟩
    · exact Or.inr ⟨hk, h⟩
  · rintro (⟨op, hk, h⟩ | ⟨hk, h⟩)
    · cases op <;> exact ⟨hk, by rw [h]; decide⟩
    · exact ⟨hk, by rw [h]; decide⟩

theorem leafKeyword_iff {t : Token} :
    t.kind = .operator ∧ t.text ∈
        ["EQ", "NE", "LT", "LTE", "GT", "GTE", "SW", "CT", "EW", "NULL", "BLANK", "EMPTY"] ↔
      (∃ op : Parse.ComparandOp, t.Spells op.operator) ∨ ∃ op, t.Spells (.presence op) := by
  constructor
  · rintro ⟨hk, h⟩
    simp only [List.mem_cons, List.not_mem_nil, or_false] at h
    rcases h with h | h | h | h | h | h | h | h | h | h | h | h
    · exact Or.inl ⟨.equality .eq, hk, h⟩
    · exact Or.inl ⟨.equality .ne, hk, h⟩
    · exact Or.inl ⟨.order .lt, hk, h⟩
    · exact Or.inl ⟨.order .lte, hk, h⟩
    · exact Or.inl ⟨.order .gt, hk, h⟩
    · exact Or.inl ⟨.order .gte, hk, h⟩
    · exact Or.inl ⟨.text .startsWith, hk, h⟩
    · exact Or.inl ⟨.text .contains, hk, h⟩
    · exact Or.inl ⟨.text .endsWith, hk, h⟩
    · exact Or.inr ⟨.null, hk, h⟩
    · exact Or.inr ⟨.blank, hk, h⟩
    · exact Or.inr ⟨.empty, hk, h⟩
  · rintro (⟨op, hk, h⟩ | ⟨op, hk, h⟩)
    · rcases op with op | op | op <;> cases op <;> exact ⟨hk, by rw [h]; decide⟩
    · cases op <;> exact ⟨hk, by rw [h]; decide⟩

end Token

/-! ## Steps -/

namespace Parse

variable {limit limit' : Nat} {s s' s'' : State} {t : Token} {p p' : Progress} {ts : List Token}
  {property : String}

/-- **Whatever goes on was expected.** -/
theorem Step.admits (h : Step limit s t p) : s.point.expected.Admits t := by
  cases h with
  | property kind => exact Or.inl kind
  | connective keyword => exact Or.inr (Token.nodeKeyword_iff.2 (Or.inl ⟨_, keyword⟩))
  | negation keyword => exact Or.inr (Token.nodeKeyword_iff.2 (Or.inr keyword))
  | presence keyword => exact Token.leafKeyword_iff.2 (Or.inr ⟨_, keyword⟩)
  | test op keyword => exact Token.leafKeyword_iff.2 (Or.inl ⟨op, keyword⟩)
  | delimiter kind => exact Or.inl kind
  | closeBracket kind => exact Or.inr kind
  | openParen kind | separator kind | separator' kind | comparand kind | openBracket kind
  | firstChild kind | closeParen kind => exact kind

theorem Step.isNumeric {op : OrderOp} (h : Step limit s t p)
    (hpoint : s.point = .comparand property (.order op)) : t.IsNumeric := by
  cases h with
  | comparand kind made =>
    cases hpoint
    obtain ⟨test, hmade, -⟩ := leafOf_eq_ok_iff.1 made
    cases hmade with
    | order op reads finite => exact ⟨_, reads, finite⟩
  | _ => cases hpoint

/-- Every text is a comparand, unless a number is due. -/
theorem exists_leafOf_eq_ok {op : ComparandOp} (property w : String)
    (hnumber : ∀ op', op = .order op' → ∃ x, Value.numberOfText? w = some x ∧ x.isFinite = true) :
    ∃ c, leafOf property op w = .ok c := by
  cases op with
  | equality op => exact ⟨_, rfl⟩
  | text op => exact ⟨_, rfl⟩
  | order op =>
    obtain ⟨x, reads, finite⟩ := hnumber op rfl
    exact ⟨_, leafOf_eq_ok_iff.2 ⟨_, .order op reads finite, rfl⟩⟩

/-- **Whatever was expected goes on**, with room for one more parenthesis. -/
theorem exists_step_of_admits (h : s.point.expected.Admits t)
    (hnumber : ∀ property op, s.point = .comparand property (.order op) → t.IsNumeric) :
    ∃ p, Step (s.depth + 1) s t p := by
  obtain ⟨frames, point, depth⟩ := s
  cases point with
  | expr => exact ⟨_, .openParen h (Nat.lt_succ_self depth)⟩
  | node =>
    rcases h with hk | hkeyword
    · exact ⟨_, .property hk⟩
    · rcases Token.nodeKeyword_iff.1 hkeyword with ⟨op, hop⟩ | hnot
      · exact ⟨_, .connective hop⟩
      · exact ⟨_, .negation hnot⟩
  | property property => exact ⟨_, .separator h⟩
  | operator property =>
    rcases Token.leafKeyword_iff.1 h with ⟨op, hop⟩ | ⟨op, hop⟩
    · exact ⟨_, .test op hop⟩
    · exact ⟨_, .presence hop⟩
  | test property op => exact ⟨_, .separator' h⟩
  | comparand property op =>
    obtain ⟨c, hc⟩ := exists_leafOf_eq_ok property t.text fun op' hop =>
      hnumber property op' (congrArg _ hop)
    exact ⟨_, .comparand h hc⟩
  | group op => exact ⟨_, .openBracket h⟩
  | firstChild op => exact ⟨_, .firstChild h (Nat.lt_succ_self depth)⟩
  | furtherChild op last earlier =>
    rcases h with hk | hk
    · exact ⟨_, .delimiter hk⟩
    · exact ⟨_, .closeBracket hk⟩
  | close c => exact ⟨_, .closeParen h⟩

/-- **A state goes on with the tokens that its point expects**, numbers where it awaits them. -/
theorem exists_step_iff : (∃ limit p, Step limit s t p) ↔ s.point.expected.Admits t ∧
    ∀ property op, s.point = .comparand property (.order op) → t.IsNumeric := by
  constructor
  · rintro ⟨limit, p, h⟩
    exact ⟨h.admits, fun property op hpoint => h.isNumeric hpoint⟩
  · rintro ⟨h, hnumber⟩
    exact ⟨s.depth + 1, exists_step_of_admits h hnumber⟩

/-! ## Where numbers are awaited -/

theorem Reaches.last (h : Reaches limit s ts s') : ts = [] ∧ s' = s ∨
    ∃ before t s'', ts = before ++ [t] ∧ Reaches limit s before s'' ∧
      Step limit s'' t (.pending s') := by
  rcases List.eq_nil_or_concat ts with rfl | ⟨before, t, rfl⟩
  · cases h
    exact Or.inl ⟨rfl, rfl⟩
  · rw [List.concat_eq_append] at h ⊢
    obtain ⟨s'', hbefore, hlast⟩ := h.split
    cases hlast with
    | next first further =>
      cases further
      exact Or.inr ⟨before, t, s'', rfl, hbefore, first⟩

/-- A closed expression leads to a point that is behind an expression. -/
theorem closeExpr_ne {frames frames' : List Frame} {depth depth' : Nat} {c : Condition}
    {point : Point} (hclose : ∀ d, point ≠ .close d)
    (hchild : ∀ op last earlier, point ≠ .furtherChild op last earlier) :
    closeExpr frames depth c ≠ .pending ⟨frames', point, depth'⟩ := by
  rcases frames with _ | ⟨_ | ⟨op, children⟩, frames⟩
  · exact nofun
  · intro h
    cases h
    exact hclose _ rfl
  · intro h
    cases h
    exact hchild _ _ _ rfl

theorem Step.point_of_comparand {op : ComparandOp} (h : Step limit s t (.pending s'))
    (hpoint : s'.point = .comparand property op) :
    s.point = .test property op ∧ t.kind = .separator := by
  obtain ⟨frames, point, depth⟩ := s'
  cases hpoint
  generalize hp : Progress.pending _ = p at h
  cases h with
  | separator' kind =>
    cases hp
    exact ⟨rfl, kind⟩
  | closeParen kind => exact absurd hp.symm (closeExpr_ne nofun nofun)
  | _ => cases hp

theorem Step.point_of_test {op : ComparandOp} (h : Step limit s t (.pending s'))
    (hpoint : s'.point = .test property op) :
    s.point = .operator property ∧ t.Spells op.operator := by
  obtain ⟨frames, point, depth⟩ := s'
  cases hpoint
  generalize hp : Progress.pending _ = p at h
  cases h with
  | test op keyword =>
    cases hp
    exact ⟨rfl, keyword⟩
  | closeParen kind => exact absurd hp.symm (closeExpr_ne nofun nofun)
  | _ => cases hp

/-- **A number is awaited** just behind the keyword of an ordering test and its separator. -/
theorem Reaches.awaitsNumber_iff (h : Reaches limit (.start 0) ts s) :
    Token.AwaitsNumber ts ↔ ∃ property op, s.point = .comparand property (.order op) := by
  constructor
  · rintro ⟨part, k, m, op, rfl, hk, hm⟩
    obtain ⟨s', -, hlast⟩ := h.split
    cases hlast with
    | next first further =>
      obtain ⟨frames, property, depth, hp⟩ := first.of_order hk
      cases hp
      cases further with
      | next second further =>
        cases second
        cases further
        exact ⟨property, op, rfl⟩
  · rintro ⟨property, op, hpoint⟩
    rcases h.last with ⟨-, rfl⟩ | ⟨before, m, s', rfl, hbefore, hm⟩
    · cases hpoint
    · obtain ⟨hpoint', hm⟩ := hm.point_of_comparand hpoint
      rcases hbefore.last with ⟨-, rfl⟩ | ⟨part, k, s'', rfl, -, hk⟩
      · cases hpoint'
      · obtain ⟨-, hk⟩ := hk.point_of_test hpoint'
        exact ⟨part, k, m, op, by rw [List.append_assoc]; rfl, hk, hm⟩

/-! ## Viability -/

theorem Step.unique (h : Step limit s t p) (h' : Step limit s t p') : p = p' :=
  Except.ok.inj ((step_eq_ok_iff.2 h).symm.trans (step_eq_ok_iff.2 h'))

/-- **Tokens lead to one state only**, whatever the limit. -/
theorem Reaches.unique (h : Reaches limit s ts s') (h' : Reaches limit' s ts s'') : s' = s'' := by
  induction h with
  | here s =>
    cases h'
    rfl
  | next first further ih =>
    cases h' with
    | next first' further' =>
      have hboth := first.of_limit_le (Nat.le_max_left limit limit')
      cases hboth.unique (first'.of_limit_le (Nat.le_max_right limit limit'))
      exact ih further'

end Parse

namespace Condition

open Parse (Reaches Step State)

variable {limit : Nat} {before : List Token} {s : State}

theorem run_of_ofTokens {ts : List Token} {c : Condition} (h : ofTokens limit ts = .ok c) :
    ∃ depth, Parse.run limit (.start 0) ts = .ok ⟨c, depth, []⟩ := by
  cases ofTokens_eq_iff.1 h with
  | @accepted before t s c depth reached last =>
    exact ⟨depth, Parse.run_eq_iff.2 (.completed reached last)⟩

/-- **Viable tokens are those that the state goes on with.** -/
theorem viable_snoc_iff (h : Reaches limit (.start 0) before s) {t : Token} :
    Viable (before ++ [t]) ↔ ∃ limit' p, Step limit' s t p := by
  constructor
  · rintro ⟨limit', more, c, hok⟩
    rw [List.append_assoc, List.singleton_append] at hok
    obtain ⟨s', hreached⟩ := reaches_of_ofTokens hok (List.cons_ne_nil t more)
    obtain rfl := h.unique hreached
    obtain ⟨depth, hrun⟩ := run_of_ofTokens hok
    rw [Parse.run_of_reaches hreached] at hrun
    obtain ⟨t', rest, p, hts, hstep, -⟩ := Parse.exists_step_of_run hrun
    obtain rfl := (List.cons.inj hts).1
    exact ⟨limit', p, hstep⟩
  · rintro ⟨limit', p, hstep⟩
    have hreached := h.of_limit_le (Nat.le_max_left limit limit')
    have hlast := hstep.of_limit_le (Nat.le_max_right limit limit')
    cases p with
    | pending s' => exact viable_of_reaches (hreached.snoc hlast)
    | complete c depth =>
      refine ⟨max limit limit', [], c, ?_⟩
      rw [List.append_nil]
      exact ofTokens_eq_iff.2 (.accepted hreached hlast)

/-- Behind tokens that reach a state, the viable ones are those that its point expects. -/
theorem viable_snoc_iff_admits (h : Reaches limit (.start 0) before s) (t : Token) :
    Viable (before ++ [t]) ↔
      s.point.expected.Admits t ∧ (Token.AwaitsNumber before → t.IsNumeric) := by
  rw [viable_snoc_iff h, Parse.exists_step_iff, h.awaitsNumber_iff]
  exact and_congr_right fun _ => ⟨fun hnumber ⟨property, op, hpoint⟩ => hnumber property op hpoint,
    fun hnumber property op hpoint => hnumber ⟨property, op, hpoint⟩⟩

end Condition

/-! ## Errors -/

/-- An error that names an expectation has it from the point where the token was refused. -/
theorem Parse.Refusal.expected_eq {limit : Nat} {s : State} {t : Token} {e : ParseError}
    {expected : Expected} (h : Refusal limit s t e) (hexpected : e.expected? = some expected) :
    expected = s.point.expected := by
  cases h with
  | tooDeep kind full fits => cases hexpected
  | operand point kind fails => cases hexpected
  | misplaced | keyword kind | emptyGroup point kind => exact (Option.some.inj hexpected).symm

namespace Condition

/-- **What an error expected is exact.**  An error that names what it expected stands behind some of
    the tokens: at their end, or at the first offence among them.  What could have stood there, so
    that the whole can still be completed, is just what the error names; only where an ordering
    test awaits its comparand, the operand has to be numeric text too. -/
theorem ofTokens_expected_exact {limit : Nat} {ts : List Token} {e : ParseError}
    {expected : Expected} (h : ofTokens limit ts = .error e)
    (hexpected : e.expected? = some expected) :
    ∃ before after, ts = before ++ after ∧
      (after = [] ∧ e = .unexpectedEnd expected ∨
        ∃ t rest, after = t :: rest ∧ Offence limit before t e) ∧
      ∀ x, Viable (before ++ [x]) ↔
        expected.Admits x ∧ (Token.AwaitsNumber before → x.IsNumeric) := by
  cases ofTokens_eq_iff.1 h with
  | @ended ts s reached =>
    obtain rfl : s.point.expected = expected := Option.some.inj hexpected
    exact ⟨ts, [], (List.append_nil ts).symm, Or.inl ⟨rfl, rfl⟩, viable_snoc_iff_admits reached⟩
  | @refused before after t s e reached refusal =>
    obtain rfl := (Parse.refusal_of_step refusal).expected_eq hexpected
    exact ⟨before, t :: after, rfl, Or.inr ⟨t, after, rfl, offence_of_refused reached refusal⟩,
      viable_snoc_iff_admits reached⟩
  | trailing reached last => cases hexpected

/-- In `(age^GT^()` the second parenthesis is refused where an operand was expected.  Just the
    numeric operands could have stood there: `GT` awaits a number. -/
theorem ofTokens_expected_exact_number :
    let before : List Token := [⟨.openParen, "(", 0⟩, ⟨.operand, "age", 1⟩, ⟨.separator, "^", 4⟩,
      ⟨.operator, "GT", 5⟩, ⟨.separator, "^", 7⟩]
    let ts := before ++ [⟨.openParen, "(", 8⟩, ⟨.closeParen, ")", 9⟩]
    let e : ParseError := .unexpectedToken (.kind .operand) "'('" 8
    ofTokens 2 ts = .error e ∧ Token.AwaitsNumber before ∧
      ∃ before' after, ts = before' ++ after ∧
        (after = [] ∧ e = .unexpectedEnd (.kind .operand) ∨
          ∃ t rest, after = t :: rest ∧ Offence 2 before' t e) ∧
        ∀ x, Viable (before' ++ [x]) ↔
          (Expected.kind .operand).Admits x ∧ (Token.AwaitsNumber before' → x.IsNumeric) := by
  intro before ts e
  have herror : ofTokens 2 ts = .error e := rfl
  have hawaits : Token.AwaitsNumber before :=
    ⟨before.take 3, ⟨.operator, "GT", 5⟩, ⟨.separator, "^", 7⟩, .gt, rfl, ⟨rfl, rfl⟩, rfl⟩
  exact ⟨herror, hawaits, ofTokens_expected_exact herror rfl⟩

end Condition

end Caret
