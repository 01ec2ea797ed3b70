/-
  Where a parse stands after some of its tokens.

  The parser takes one token at a time and never looks ahead, so what it makes of a list of tokens
  is decided piece by piece.

  1. **Reaching** — `Reaches limit s ts s'`: the tokens `ts` take the parse from `s` to `s'`, all of
     them inside the expression in progress.  Whatever follows is then read as from `s'`
     (`run_of_reaches`).

  2. **Courses** — a run reaches a state and there it runs out of tokens, completes its expression,
     or refuses a token; `run_eq_iff` says that there is nothing else.  For whole lists of tokens a
     complete expression with something behind it is a fourth way (`Verdict`).

  3. **Parentheses** — the depth of a state counts the expressions that are open
     (`State.Balanced`), so along a run it goes up with each `(` and down with each `)`, and never
     above the limit.

  4. **Limits** — a greater limit makes no difference to a run that the smaller one does not stop
     (`run_of_limit_le`).
-/
import Caret.Proofs.Grammar

namespace Caret

namespace Parse

/-! ## Reaching -/

/-- The tokens `ts` take the state `s` to `s'`, and the expression in progress goes on all along. -/
inductive Reaches (limit : Nat) : State → List Token → State → Prop where
  | here (s : State) : Reaches limit s [] s
  | next {s s' s'' : State} {t : Token} {ts : List Token} (first : Step limit s t (.pending s'))
      (further : Reaches limit s' ts s'') : Reaches limit s (t :: ts) s''

/-- What follows is read from the state that was reached. -/
theorem run_of_reaches {limit : Nat} {s s' : State} {ts : List Token} (h : Reaches limit s ts s') :
    ∀ us : List Token, run limit s (ts ++ us) = run limit s' us := by
  induction h with
  | here s => exact fun us => rfl
  | next first further ih =>
    intro us
    rw [List.cons_append, run_cons_of_step first]
    exact ih us

/-- One token more at the end. -/
theorem Reaches.snoc {limit : Nat} {s s' s'' : State} {ts : List Token} {t : Token}
    (h : Reaches limit s ts s') (last : Step limit s' t (.pending s'')) :
    Reaches limit s (ts ++ [t]) s'' := by
  induction h with
  | here s => exact .next last (.here s'')
  | next first further ih => exact .next first (ih last)

/-- What is reached over two lists of tokens is reached by way of some state between them. -/
theorem Reaches.split {limit : Nat} {s s' : State} {us vs : List Token}
    (h : Reaches limit s (us ++ vs) s') :
    ∃ s'', Reaches limit s us s'' ∧ Reaches limit s'' vs s' := by
  induction us generalizing s with
  | nil => exact ⟨s, .here s, h⟩
  | cons u us ih =>
    cases h with
    | next first further =>
      obtain ⟨s'', hus, hvs⟩ := ih further
      exact ⟨s'', .next first hus, hvs⟩

/-- On the way to a state every part of the way leads to some state. -/
theorem Reaches.of_prefix {limit : Nat} {s s' : State} {ts us : List Token}
    (h : Reaches limit s ts s') (hus : us <+: ts) : ∃ s'', Reaches limit s us s'' := by
  obtain ⟨vs, rfl⟩ := hus
  obtain ⟨s'', hreached, -⟩ := h.split
  exact ⟨s'', hreached⟩

/-! ## Courses -/

/-- The three courses that a run can take, each with what it ends in. -/
inductive Course (limit : Nat) (s : State) : List Token → Except ParseError Reading → Prop where
  | ended {ts : List Token} {s' : State} (reached : Reaches limit s ts s') :
      Course limit s ts (.error (.unexpectedEnd s'.point.expected))
  | completed {before after : List Token} {t : Token} {s' : State} {c : Condition} {depth : Nat}
      (reached : Reaches limit s before s') (last : Step limit s' t (.complete c depth)) :
      Course limit s (before ++ t :: after) (.ok ⟨c, depth, after⟩)
  | refused {before after : List Token} {t : Token} {s' : State} {e : ParseError}
      (reached : Reaches limit s before s') (refusal : s'.step limit t = .error e) :
      Course limit s (before ++ t :: after) (.error e)

theorem Course.cons {limit : Nat} {s s' : State} {t : Token} {ts : List Token}
    {r : Except ParseError Reading} (first : Step limit s t (.pending s'))
    (h : Course limit s' ts r) : Course limit s (t :: ts) r := by
  cases h with
  | ended reached => exact .ended (.next first reached)
  | completed reached last => exact .completed (.next first reached) last
  | refused reached refusal => exact .refused (.next first reached) refusal

/-- By induction on the tokens: the first one takes the state to another, completes the expression
    or is refused. -/
theorem course_run (limit : Nat) (ts : List Token) :
    ∀ s : State, Course limit s ts (run limit s ts) := by
  induction ts with
  | nil => exact fun s => .ended (.here s)
  | cons t ts ih =>
    intro s
    rw [run]
    cases hs : s.step limit t with
    | error e => exact .refused (.here s) hs
    | ok p =>
      have hstep := step_eq_ok_iff.1 hs
      cases p with
      | pending s' => exact .cons hstep (ih s')
      | complete c depth => exact .completed (.here s) hstep

/-- **A run takes one of the three courses**, and what it ends in says which. -/
theorem run_eq_iff {limit : Nat} {s : State} {ts : List Token} {r : Except ParseError Reading} :
    run limit s ts = r ↔ Course limit s ts r := by
  constructor
  · rintro rfl
    exact course_run limit ts s
  · intro h
    cases h with
    | ended reached =>
      have hrun := run_of_reaches reached []
      rwa [List.append_nil] at hrun
    | completed reached last =>
      rw [run_of_reaches reached, run_cons_of_step last]
      rfl
    | refused reached refusal => rw [run_of_reaches reached, run, refusal]

end Parse

/-! ## Parentheses -/

/-- The parentheses that some tokens open, less those that they close. -/
def Token.unclosed (ts : List Token) : Int :=
  (ts.countP fun t => t.kind = .openParen : Nat) - (ts.countP fun t => t.kind = .closeParen : Nat)

theorem Token.unclosed_append (ts us : List Token) :
    unclosed (ts ++ us) = unclosed ts + unclosed us := by
  simp only [unclosed, List.countP_append]
  omega

theorem Token.unclosed_le_length (ts : List Token) : unclosed ts ≤ ts.length := by
  have hopened := List.countP_le_length (p := fun t : Token => t.kind = .openParen) (l := ts)
  rw [unclosed]
  omega

namespace Parse

/-- The parentheses of its own that the innermost expression has open. -/
def Point.opened : Point → Nat
  | expr => 0
  | _ => 1

/-- With `base` parentheses open around the whole, the depth counts the expressions that are open:
    each frame has one parenthesis open, and the innermost expression may have its own. -/
def State.Balanced (base : Nat) (s : State) : Prop :=
  s.depth = base + s.frames.length + s.point.opened

theorem State.balanced_start (depth : Nat) : (start depth).Balanced depth := rfl

namespace Progress

def depth : Progress → Nat
  | pending s => s.depth
  | complete _ depth => depth

/-- A complete expression leaves only the parentheses around it. -/
def Balanced (base : Nat) : Progress → Prop
  | pending s => s.Balanced base
  | complete _ depth => depth = base

end Progress

theorem depth_closeExpr (frames : List Frame) (depth : Nat) (c : Condition) :
    (closeExpr frames depth c).depth = depth := by
  rcases frames with _ | ⟨_ | _, frames⟩ <;> rfl

/-- The innermost frame becomes the expression in progress, so the count stays. -/
theorem balanced_closeExpr (base : Nat) (frames : List Frame) (c : Condition) :
    (closeExpr frames (base + frames.length) c).Balanced base := by
  rcases frames with _ | ⟨_ | _, frames⟩ <;> rfl

variable {limit base : Nat} {s s' : State} {t : Token} {p : Progress} {ts : List Token}

/-- A token keeps the depth in step with the open expressions. -/
theorem Step.balanced (h : Step limit s t p) (hs : s.Balanced base) : p.Balanced base := by
  cases h with
  | @closeParen frames depth t c kind =>
    have hdepth : depth - 1 = base + frames.length := by rw [show depth = _ from hs]; rfl
    rw [hdepth]
    exact balanced_closeExpr base frames c
  | openParen kind room => exact congrArg (· + 1) hs
  | firstChild kind room => exact congrArg (· + 1) hs
  | _ => exact hs

/-- The depth follows the parentheses. -/
theorem Step.depth_eq (h : Step limit s t p) (hs : s.Balanced base) :
    (p.depth : Int) = s.depth + Token.unclosed [t] := by
  cases h with
  | openParen kind room | firstChild kind room =>
    simp [Progress.depth, Token.unclosed, kind]
  | @closeParen frames depth t c kind =>
    have hdepth : depth = base + frames.length + 1 := hs
    have hunclosed : Token.unclosed [t] = -1 := by simp [Token.unclosed, kind]
    rw [depth_closeExpr, hunclosed]
    show ((depth - 1 : Nat) : Int) = (depth : Int) + -1
    omega
  -- no other token counts
  | property kind | separator kind | separator' kind | comparand kind made | openBracket kind
  | delimiter kind | closeBracket kind =>
    simp [Progress.depth, Token.unclosed, kind]
  | connective keyword | negation keyword | presence keyword | test op keyword =>
    simp [Progress.depth, Token.unclosed, keyword.1]

/-- Parentheses are only opened under the limit. -/
theorem Step.depth_le (h : Step limit s t p) (hs : s.depth ≤ limit) : p.depth ≤ limit := by
  cases h with
  | openParen kind room | firstChild kind room => exact room
  | @closeParen frames depth t c kind =>
    rw [depth_closeExpr]
    exact Nat.le_trans (Nat.sub_le depth 1) hs
  | _ => exact hs

theorem Reaches.balanced (h : Reaches limit s ts s') (hs : s.Balanced base) :
    s'.Balanced base := by
  induction h with
  | here s => exact hs
  | next first further ih => exact ih (first.balanced hs)

/-- **The depth is the number of open parentheses**, those around the whole included. -/
theorem Reaches.depth_eq (h : Reaches limit s ts s') (hs : s.Balanced base) :
    (s'.depth : Int) = s.depth + Token.unclosed ts := by
  induction h with
  | here s => exact (Int.add_zero _).symm
  | next first further ih =>
    have hfirst := first.depth_eq hs
    rw [ih (first.balanced hs), ← List.singleton_append, Token.unclosed_append, ← Int.add_assoc,
      ← hfirst]
    rfl

/-- Wherever a parse of a whole list stands, as many parentheses are open as the depth says. -/
theorem Reaches.depth_eq_unclosed (h : Reaches limit (.start 0) ts s) :
    (s.depth : Int) = Token.unclosed ts := by
  rw [h.depth_eq (State.balanced_start 0)]
  exact Int.zero_add (Token.unclosed ts)

/-- **No run has more parentheses open than the limit allows.** -/
theorem Reaches.depth_le (h : Reaches limit s ts s') (hs : s.depth ≤ limit) :
    s'.depth ≤ limit := by
  induction h with
  | here s => exact hs
  | next first further ih => exact ih (first.depth_le hs)

/-! ## Limits -/

variable {limit' : Nat}

/-- A greater limit makes a difference to an expression only where the smaller one finds it too
    deep. -/
theorem openExpr_of_limit_le (hlimit : limit ≤ limit') (frames : List Frame) (depth : Nat)
    (t : Token) : openExpr limit' frames depth t = openExpr limit frames depth t ∨
      openExpr limit frames depth t = .error (.tooDeep limit t.offset) := by
  by_cases hk : t.kind = .openParen
  · by_cases hfull : limit ≤ depth
    · right
      rw [openExpr, if_pos hk, if_pos hfull]
    · left
      rw [openExpr_eq_ok hk (Nat.not_le.1 hfull),
        openExpr_eq_ok hk (Nat.lt_of_lt_of_le (Nat.not_le.1 hfull) hlimit)]
  · left
    rw [openExpr, openExpr, if_neg hk, if_neg hk]

/-- A greater limit changes a step only where the smaller one stops it. -/
theorem step_of_limit_le (hlimit : limit ≤ limit') (s : State) (t : Token) :
    s.step limit' t = s.step limit t ∨ s.step limit t = .error (.tooDeep limit t.offset) := by
  obtain ⟨frames, point, depth⟩ := s
  cases point with
  | expr => exact openExpr_of_limit_le hlimit frames depth t
  | firstChild op =>
    by_cases hb : t.kind = .closeBracket
    · left
      simp only [State.step, if_pos hb]
    · simp only [State.step, if_neg hb]
      exact openExpr_of_limit_le hlimit _ depth t
  | _ => exact Or.inl rfl

/-- **A greater limit changes a run only where the smaller one stops it.** -/
theorem run_of_limit_le (hlimit : limit ≤ limit') (ts : List Token) : ∀ s : State,
    run limit' s ts = run limit s ts ∨
      ∃ offset, run limit s ts = .error (.tooDeep limit offset) := by
  induction ts with
  | nil => exact fun s => Or.inl rfl
  | cons t ts ih =>
    intro s
    rw [run, run]
    rcases step_of_limit_le hlimit s t with hstep | hstep
    · rw [hstep]
      cases hs : s.step limit t with
      | error e => exact Or.inl rfl
      | ok p =>
        cases p with
        | pending s' => exact ih s'
        | complete c depth => exact Or.inl rfl
    · right
      exact ⟨t.offset, by rw [hstep]⟩

theorem Step.of_limit_le (h : Step limit s t p) (hlimit : limit ≤ limit') : Step limit' s t p := by
  have hok := step_eq_ok_iff.2 h
  rcases step_of_limit_le hlimit s t with hstep | hstep
  · exact step_eq_ok_iff.1 (hstep.trans hok)
  · rw [hok] at hstep
    cases hstep

theorem Reaches.of_limit_le (h : Reaches limit s ts s') (hlimit : limit ≤ limit') :
    Reaches limit' s ts s' := by
  induction h with
  | here s => exact .here s
  | next first further ih => exact .next (first.of_limit_le hlimit) ih

end Parse

/-! ## Verdicts on whole lists -/

open Parse (Reaches Step State Course)

/-- What can become of a list of tokens that is to be one condition: it runs out, it is one, some
    token is refused, or something is left behind a complete condition. -/
inductive Verdict (limit : Nat) : List Token → Except ParseError Condition → Prop where
  | ended {ts : List Token} {s : State} (reached : Reaches limit (.start 0) ts s) :
      Verdict limit ts (.error (.unexpectedEnd s.point.expected))
  | accepted {before : List Token} {t : Token} {s : State} {c : Condition} {depth : Nat}
      (reached : Reaches limit (.start 0) before s) (last : Step limit s t (.complete c depth)) :
      Verdict limit (before ++ [t]) (.ok c)
  | refused {before after : List Token} {t : Token} {s : State} {e : ParseError}
      (reached : Reaches limit (.start 0) before s) (refusal : s.step limit t = .error e) :
      Verdict limit (before ++ t :: after) (.error e)
  | trailing {before after : List Token} {t x : Token} {s : State} {c : Condition} {depth : Nat}
      (reached : Reaches limit (.start 0) before s) (last : Step limit s t (.complete c depth)) :
      Verdict limit (before ++ t :: x :: after) (.error (.trailingInput x.display x.offset))

namespace Condition

/-- **A verdict for every list**, and only one. -/
theorem ofTokens_eq_iff {limit : Nat} {ts : List Token} {r : Except ParseError Condition} :
    ofTokens limit ts = r ↔ Verdict limit ts r := by
  constructor
  · rintro rfl
    have hcourse := Parse.course_run limit ts (.start 0)
    rw [ofTokens, Parse.expr]
    revert hcourse
    cases Parse.run limit (.start 0) ts with
    | error e =>
      intro hcourse
      cases hcourse with
      | ended reached => exact .ended reached
      | refused reached refusal => exact .refused reached refusal
    | ok r =>
      intro hcourse
      cases hcourse with
      | @completed before after t s c depth reached last =>
        cases after with
        | nil => exact .accepted reached last
        | cons x after => exact .trailing reached last
  · intro h
    cases h with
    | ended reached => rw [ofTokens, Parse.expr, Parse.run_eq_iff.2 (.ended reached)]
    | accepted reached last =>
      rw [ofTokens, Parse.expr, Parse.run_eq_iff.2 (.completed reached last)]
    | refused reached refusal =>
      rw [ofTokens, Parse.expr, Parse.run_eq_iff.2 (.refused reached refusal)]
    | trailing reached last =>
      rw [ofTokens, Parse.expr, Parse.run_eq_iff.2 (.completed reached last)]

/-- What has become a condition was in progress before each of its tokens. -/
theorem reaches_of_ofTokens {limit : Nat} {before rest : List Token} {c : Condition}
    (h : ofTokens limit (before ++ rest) = .ok c) (hrest : rest ≠ []) :
    ∃ s, Reaches limit (.start 0) before s := by
  generalize hts : before ++ rest = ts at h
  cases ofTokens_eq_iff.1 h with
  | @accepted part t s c depth reached last =>
    rcases List.prefix_concat_iff.1 (show before <+: part ++ [t] from ⟨rest, hts⟩) with heq | hpart
    · rw [heq] at hts
      exact absurd (List.append_right_eq_self.1 hts) hrest
    · exact reached.of_prefix hpart

/-- **A greater limit changes a verdict only where the smaller one stops the parse.** -/
theorem ofTokens_of_limit_le {limit limit' : Nat} (hlimit : limit ≤ limit') (ts : List Token) :
    ofTokens limit' ts = ofTokens limit ts ∨
      ∃ offset, ofTokens limit ts = .error (.tooDeep limit offset) := by
  rw [ofTokens, ofTokens, Parse.expr, Parse.expr]
  rcases Parse.run_of_limit_le hlimit ts (.start 0) with hrun | ⟨offset, hrun⟩
  · left
    rw [hrun]
  · right
    exact ⟨offset, by rw [hrun]⟩

end Condition

end Caret
