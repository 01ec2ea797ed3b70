/-
  Reading an expression ends, stays among its tokens, and depends on nothing behind it.

  The parser takes a list of tokens and drops what it has taken.  Here the tokens stay as they are
  and a CURSOR stands among them: the place of the next token, and the state before that token, with
  the depth in it.  So at every moment it can be seen how far the parser is.

  1. **Length** — an expression has at least five tokens, as `(a^NULL)` has.

  2. **Frames** — the frames around an expression are not looked at before the expression is
     complete (`Step.within`), so a child is read inside its group as it is read on its own
     (`reaches_of_expr`).

  3. **Places** — `expr` reads what the grammar derives between two places (`expr_drop_eq_ok_iff`),
     whatever stands behind the second one (`expr_drop_of_take_eq`).

  4. **Cursors** — `Moves limit tokens a b`: the token at the place of `a` takes the cursor to `b`.
     Every move leaves fewer tokens, so that there is no endless row of moves
     (`wellFounded_moves`), and a cursor that can move no further has come to the result of the
     run (`exists_halts`).

  5. **Counters** — the place and the depth of a cursor stay in bounds (`InBounds`).

  6. **Groups** — in a round from one child to the next at least six tokens are taken
     (`further_child`), and unless the rest of a group follows its keyword, the result is an error
     (`group_or_error`).

  Together: `expr_progress`.
-/
import Mathlib.Logic.Relation
import Caret.Proofs.Reach

/-! ## Suffixes of a list -/

namespace List

variable {α : Type} {i j : Nat}

/-- A suffix that is not empty begins with the element at its place. -/
theorem drop_eq_cons_iff {l rest : List α} {a : α} :
    l.drop i = a :: rest ↔ l[i]? = some a ∧ l.drop (i + 1) = rest := by
  constructor
  · intro h
    rw [← head?_drop, ← tail_drop, h]
    exact ⟨rfl, rfl⟩
  · rintro ⟨helement, rfl⟩
    obtain ⟨hi, rfl⟩ := getElem?_eq_some_iff.1 helement
    exact drop_eq_getElem_cons hi

/-- What comes from one place on is what comes up to a later place and what comes from there on. -/
theorem drop_eq_append_drop (h : i ≤ j) (l : List α) :
    l.drop i = (l.take j).drop i ++ l.drop j := by
  rw [drop_take, ← Nat.add_sub_cancel' h, ← drop_drop, Nat.add_sub_cancel_left,
    take_append_drop]

end List

namespace Caret

namespace Parse

/-! ## Length -/

mutual

/-- `(a^NULL)` is as short as an expression gets. -/
theorem five_le_length_of_expr {ts : List Token} {c : Condition} :
    Grammar.Expr ts c → 5 ≤ ts.length
  | .parens opened inside closed => by
    have hinside := three_le_length_of_inside inside
    rw [List.length_cons, List.length_append, List.length_singleton]
    omega

theorem three_le_length_of_inside {ts : List Token} {c : Condition} :
    Grammar.Inside ts c → 3 ≤ ts.length
  | .presence property separator keyword => Nat.le_refl 3
  | .comparand property separator keyword separator' operand made => by
    simp only [List.length_cons]
    omega
  | .emptyGroup allowed _ _ _ => allowed.elim
  | .group keyword opened first further closed => by
    have hfirst := five_le_length_of_expr first
    simp only [List.length_cons, List.length_append]
    omega
  | .negation keyword child => by
    have hchild := five_le_length_of_expr child
    rw [List.length_cons]
    omega

end

/-! ## Frames -/

/-- The same state with more frames around it. -/
def State.within (s : State) (outer : List Frame) : State := ⟨s.frames ++ outer, s.point, s.depth⟩

/-- What comes after a token if there are more frames around: a complete expression is handed to
    the innermost one of them. -/
def Progress.within (p : Progress) (outer : List Frame) : Progress :=
  match p with
  | .pending s => .pending (s.within outer)
  | .complete c depth => closeExpr outer depth c

theorem closeExpr_append (frames outer : List Frame) (depth : Nat) (c : Condition) :
    closeExpr (frames ++ outer) depth c = (closeExpr frames depth c).within outer := by
  rcases frames with _ | ⟨_ | _, frames⟩ <;> rfl

variable {limit : Nat}

/-- What a token does, it does with more frames around. -/
theorem Step.within {s : State} {t : Token} {p : Progress} (h : Step limit s t p)
    (outer : List Frame) : Step limit (s.within outer) t (p.within outer) := by
  cases h with
  | openParen kind room => exact .openParen kind room
  | property kind => exact .property kind
  | connective keyword => exact .connective keyword
  | negation keyword => exact .negation keyword
  | separator kind => exact .separator kind
  | presence keyword => exact .presence keyword
  | test op keyword => exact .test op keyword
  | separator' kind => exact .separator' kind
  | comparand kind made => exact .comparand kind made
  | openBracket kind => exact .openBracket kind
  | firstChild kind room => exact .firstChild kind room
  | delimiter kind => exact .delimiter kind
  | closeBracket kind => exact .closeBracket kind
  | closeParen kind =>
    rw [← closeExpr_append]
    exact .closeParen kind

theorem Reaches.within {s s' : State} {ts : List Token} (h : Reaches limit s ts s')
    (outer : List Frame) : Reaches limit (s.within outer) ts (s'.within outer) := by
  induction h with
  | here s => exact .here (s.within outer)
  | next first further ih => exact .next (first.within outer) ih

/-- **A child is read as on its own**: over the tokens of an expression, a parse inside a group goes
    on to a group with one child more, at the same depth again. -/
theorem reaches_of_expr {depth : Nat} {used : List Token} {c : Condition}
    (h : Grammar.Expr used c) (hroom : depth + c.depth ≤ limit) (op : Connective)
    (children : List Condition) (frames : List Frame) :
    Reaches limit ⟨.group op children :: frames, .expr, depth⟩ used
      ⟨frames, .furtherChild op c children, depth⟩ := by
  have hread : run limit (.start depth) used = .ok ⟨c, depth, []⟩ :=
    expr_eq_ok_iff.2 ⟨rfl, hroom, used, (List.append_nil used).symm, h⟩
  cases run_eq_iff.1 hread with
  | completed reached last =>
    exact (reached.within (.group op children :: frames)).snoc (last.within _)

/-! ## Places -/

section Places

variable {tokens : List Token} {pos stop depth : Nat}

/-- **What is read from a place** is what the grammar derives between that place and some other. -/
theorem expr_drop_eq_ok_iff {r : Reading} :
    expr limit depth (tokens.drop pos) = .ok r ↔
      r.depth = depth ∧ depth + r.condition.depth ≤ limit ∧
        ∃ stop, pos + 5 ≤ stop ∧ stop ≤ tokens.length ∧ r.rest = tokens.drop stop ∧
          Grammar.Expr ((tokens.take stop).drop pos) r.condition := by
  rw [expr_eq_ok_iff]
  refine and_congr_right fun _ => and_congr_right fun _ => ⟨?_, ?_⟩
  · rintro ⟨used, htokens, hexpr⟩
    have hfive := five_le_length_of_expr hexpr
    have hlength := congrArg List.length htokens
    rw [List.length_append, List.length_drop] at hlength
    have hrest : tokens.drop (pos + used.length) = r.rest := by
      rw [← List.drop_drop, htokens, List.drop_left]
    have hused : (tokens.take (pos + used.length)).drop pos = used := by
      rw [List.drop_take, Nat.add_sub_cancel_left, htokens, List.take_left]
    exact ⟨pos + used.length, by omega, by omega, hrest.symm, hused.symm ▸ hexpr⟩
  · rintro ⟨stop, hstop, -, hrest, hexpr⟩
    exact ⟨_, hrest ▸ List.drop_eq_append_drop (by omega) tokens, hexpr⟩

/-- **What stands behind an expression** has no part in reading it. -/
theorem expr_drop_of_take_eq {tokens' : List Token} {c : Condition}
    (h : expr limit depth (tokens.drop pos) = .ok ⟨c, depth, tokens.drop stop⟩)
    (hstop : stop ≤ tokens.length) (heq : tokens'.take stop = tokens.take stop) :
    expr limit depth (tokens'.drop pos) = .ok ⟨c, depth, tokens'.drop stop⟩ := by
  obtain ⟨hdepth, hroom, stop', hfive, hstop', hrest, hexpr⟩ := expr_drop_eq_ok_iff.1 h
  -- as many tokens are left from one place as from the other, so it is the same place
  have hlength := congrArg List.length hrest
  rw [List.length_drop, List.length_drop] at hlength
  obtain rfl : stop = stop' := by omega
  have hlength' := congrArg List.length heq
  rw [List.length_take, List.length_take] at hlength'
  exact expr_drop_eq_ok_iff.2 ⟨rfl, hroom, stop, hfive, by omega, rfl, heq ▸ hexpr⟩

end Places

/-! ## Cursors -/

/-- A parse of some tokens: the place of the next one, and the state before it. -/
structure Cursor where
  pos : Nat
  state : State

namespace Cursor

variable {tokens : List Token} {a b : Cursor}

/-- The cursor takes the token at its place, and the expression in progress goes on behind it. -/
inductive Moves (limit : Nat) (tokens : List Token) (a : Cursor) : Cursor → Prop where
  | take {t : Token} {s : State} (token : tokens[a.pos]? = some t)
      (step : a.state.step limit t = .ok (.pending s)) : Moves limit tokens a ⟨a.pos + 1, s⟩

/-- The cursor `a` comes to `b` by any number of moves. -/
abbrev Passes (limit : Nat) (tokens : List Token) : Cursor → Cursor → Prop :=
  Relation.ReflTransGen (Moves limit tokens)

/-- What a cursor ends in where it stands: it is behind the last token, or the token at its place
    completes the expression or is refused. -/
inductive Halts (limit : Nat) (tokens : List Token) (a : Cursor) :
    Except ParseError Reading → Prop where
  | ended (nothing : tokens[a.pos]? = none) :
      Halts limit tokens a (.error (.unexpectedEnd a.state.point.expected))
  | completed {t : Token} {c : Condition} {depth : Nat} (token : tokens[a.pos]? = some t)
      (last : a.state.step limit t = .ok (.complete c depth)) :
      Halts limit tokens a (.ok ⟨c, depth, tokens.drop (a.pos + 1)⟩)
  | refused {t : Token} {e : ParseError} (token : tokens[a.pos]? = some t)
      (refusal : a.state.step limit t = .error e) : Halts limit tokens a (.error e)

/-- **No cursor moves for ever**, as every move leaves one token less. -/
theorem wellFounded_moves (limit : Nat) (tokens : List Token) :
    WellFounded fun b a => Moves limit tokens a b := by
  refine Subrelation.wf ?_ (measure fun a : Cursor => tokens.length - a.pos).wf
  intro b a h
  cases h with
  | take token step =>
    obtain ⟨hpos, -⟩ := List.getElem?_eq_some_iff.1 token
    show tokens.length - (a.pos + 1) < tokens.length - a.pos
    omega

/-- The tokens that a cursor takes on its way. -/
theorem reaches_of_passes (h : Passes limit tokens a b) :
    ∃ used, tokens.drop a.pos = used ++ tokens.drop b.pos ∧ b.pos = a.pos + used.length ∧
      Reaches limit a.state used b.state := by
  induction h with
  | refl => exact ⟨[], rfl, rfl, .here a.state⟩
  | tail way move ih =>
    obtain ⟨used, htokens, hpos, hreached⟩ := ih
    cases move with
    | @take t s token step =>
      refine ⟨used ++ [t], ?_, ?_, hreached.snoc (step_eq_ok_iff.1 step)⟩
      · rw [htokens, List.drop_eq_cons_iff.2 ⟨token, rfl⟩, List.append_assoc, List.singleton_append]
      · rw [List.length_append, ← Nat.add_assoc, ← hpos]
        rfl

/-- What some tokens reach, the cursor at their place comes to. -/
theorem passes_of_reaches {s s' : State} {used : List Token} (h : Reaches limit s used s') :
    ∀ {pos : Nat} {rest : List Token}, tokens.drop pos = used ++ rest →
      Passes limit tokens ⟨pos, s⟩ ⟨pos + used.length, s'⟩ := by
  induction h with
  | here s => exact fun _ => .refl
  | @next s s' s'' t ts first further ih =>
    intro pos rest htokens
    obtain ⟨htoken, hrest⟩ := List.drop_eq_cons_iff.1 htokens
    have hway := ih hrest
    rw [Nat.add_assoc, Nat.add_comm 1] at hway
    exact .head (.take htoken (step_eq_ok_iff.2 first)) hway

/-- Wherever a cursor has come, the result is still that of the whole run. -/
theorem run_of_passes (h : Passes limit tokens a b) :
    run limit a.state (tokens.drop a.pos) = run limit b.state (tokens.drop b.pos) := by
  obtain ⟨used, htokens, -, hreached⟩ := reaches_of_passes h
  rw [htokens, run_of_reaches hreached]

/-- A cursor that cannot move has come to the result. -/
theorem moves_or_halts (limit : Nat) (tokens : List Token) (a : Cursor) :
    (∃ b, Moves limit tokens a b) ∨
      Halts limit tokens a (run limit a.state (tokens.drop a.pos)) := by
  cases htoken : tokens[a.pos]? with
  | none =>
    right
    rw [List.drop_eq_nil_of_le (List.getElem?_eq_none_iff.1 htoken)]
    exact .ended htoken
  | some t =>
    rw [List.drop_eq_cons_iff.2 ⟨htoken, rfl⟩, run]
    cases hstep : a.state.step limit t with
    | error e => exact Or.inr (.refused htoken hstep)
    | ok p =>
      cases p with
      | pending s => exact Or.inl ⟨⟨a.pos + 1, s⟩, .take htoken hstep⟩
      | complete c depth => exact Or.inr (.completed htoken hstep)

/-- **Every cursor comes to a halt**, with the result of its run. -/
theorem exists_halts (limit : Nat) (tokens : List Token) (a : Cursor) :
    ∃ last, Passes limit tokens a last ∧
      Halts limit tokens last (run limit a.state (tokens.drop a.pos)) := by
  -- on the tokens that are left: the halt of a cursor is that of the next one, if there is a next
  induction a using (wellFounded_moves limit tokens).induction with
  | _ a ih =>
    rcases moves_or_halts limit tokens a with ⟨b, move⟩ | hhalts
    · obtain ⟨last, hway, hhalts⟩ := ih b move
      rw [run_of_passes (.single move)]
      exact ⟨last, .head move hway, hhalts⟩
    · exact ⟨a, .refl, hhalts⟩

/-! ## Counters -/

/-- The counters of a cursor, its place and the depth of its state, on the way from the place `pos`
    with `depth` parentheses open. -/
structure InBounds (limit : Nat) (tokens : List Token) (pos depth : Nat) (a : Cursor) : Prop where
  pos_le : pos ≤ a.pos
  pos_le_length : a.pos ≤ tokens.length
  depth_le_limit : a.state.depth ≤ limit
  /-- Every parenthesis took a token to open it. -/
  depth_le_taken : a.state.depth ≤ depth + (a.pos - pos)
  /-- No parenthesis is closed but those that were opened on the way. -/
  balanced : a.state.Balanced depth

variable {pos depth : Nat}

theorem inBounds_of_passes (h : Passes limit tokens ⟨pos, .start depth⟩ a)
    (hpos : pos ≤ tokens.length) (hdepth : depth ≤ limit) : InBounds limit tokens pos depth a := by
  obtain ⟨used, (htokens : tokens.drop pos = used ++ tokens.drop a.pos),
    (htaken : a.pos = pos + used.length), hreached⟩ := reaches_of_passes h
  have hlength := congrArg List.length htokens
  rw [List.length_append, List.length_drop, List.length_drop] at hlength
  have hbalanced := State.balanced_start depth
  have hopen : (a.state.depth : Int) = depth + Token.unclosed used := hreached.depth_eq hbalanced
  have hle := Token.unclosed_le_length used
  exact ⟨by omega, by omega, hreached.depth_le hdepth, by omega, hreached.balanced hbalanced⟩

/-! ## Groups -/

variable {frames : List Frame} {op : Connective}

/-- **One round of a group** that has some children: it reads a `,` and a further child, which are
    at least six tokens, or it reads the `]`, or there is an error. -/
theorem further_child {last : Condition} {earlier : List Condition}
    (h : a.state = ⟨frames, .furtherChild op last earlier, depth⟩) :
    (∃ c stop, a.pos + 6 ≤ stop ∧
        expr limit depth (tokens.drop (a.pos + 1)) = .ok ⟨c, depth, tokens.drop stop⟩ ∧
        Passes limit tokens a ⟨stop, ⟨frames, .furtherChild op c (last :: earlier), depth⟩⟩) ∨
      Moves limit tokens a
        ⟨a.pos + 1, ⟨frames, .close (.group op (last :: earlier).reverse), depth⟩⟩ ∨
      ∃ e, run limit a.state (tokens.drop a.pos) = .error e := by
  obtain ⟨pos, s⟩ := a
  obtain rfl : s = _ := h
  show _ ∨ _ ∨ ∃ e, run limit ⟨frames, .furtherChild op last earlier, depth⟩ (tokens.drop pos) = _
  cases hrun : run limit ⟨frames, .furtherChild op last earlier, depth⟩ (tokens.drop pos) with
  | error e => exact Or.inr (Or.inr ⟨e, rfl⟩)
  | ok r =>
    obtain ⟨t, rest, p, htokens, hstep, hrun⟩ := exists_step_of_run hrun
    obtain ⟨htoken, rfl⟩ := List.drop_eq_cons_iff.1 htokens
    have htaken := step_eq_ok_iff.2 hstep
    cases hstep with
    | delimiter kind =>
      -- what follows the delimiter is first read as an expression on its own
      obtain ⟨used, c, rest, hused, hexpr, hroom, -⟩ := expr_sound limit _ (Nat.le_refl _) hrun
      have hread : expr limit depth (tokens.drop (pos + 1)) = .ok ⟨c, depth, rest⟩ :=
        expr_eq_ok_iff.2 ⟨rfl, hroom, used, hused, hexpr⟩
      obtain ⟨-, -, stop, hfive, hstop, rfl, hexpr⟩ := expr_drop_eq_ok_iff.1 hread
      have hchild := passes_of_reaches (reaches_of_expr hexpr hroom op (last :: earlier) frames)
        (List.drop_eq_append_drop (by omega) tokens)
      have hlength : pos + 1 + ((tokens.take stop).drop (pos + 1)).length = stop := by
        rw [List.length_drop, List.length_take]
        omega
      rw [hlength] at hchild
      exact Or.inl ⟨c, stop, by omega, hread, .head (.take htoken htaken) hchild⟩
    | closeBracket kind => exact Or.inr (Or.inl (.take htoken htaken))

/-- **What follows the keyword of a group** begins with the rest of a group, or there is an
    error. -/
theorem group_or_error (h : a.state = ⟨frames, .group op, depth⟩) :
    (∃ used rest children, tokens.drop a.pos = used ++ rest ∧
        ∀ k : Token, k.Spells (.connective op) →
          Grammar.Inside (k :: used) (.group op children)) ∨
      ∃ e, run limit a.state (tokens.drop a.pos) = .error e := by
  cases hrun : run limit a.state (tokens.drop a.pos) with
  | error e => exact Or.inr ⟨e, rfl⟩
  | ok r =>
    rw [h] at hrun
    obtain ⟨used, c, cs, rest, htokens, hinside, -, -⟩ :=
      group_sound (expr_sound limit _) (Nat.le_refl _) hrun
    exact Or.inl ⟨used, rest, c :: cs, htokens, hinside⟩

end Cursor

/-! ## One expression -/

open Cursor

/-- **Reading an expression**, from any place and from any depth under the limit.

    It ends: no cursor moves for ever, and from wherever one has come it gets to the result.  On the
    way its place never goes back and the counters stay in bounds, so that they fit into a machine
    word if the number of tokens and the limit do, even where a token is counted and then refused.
    If the result is a condition, five tokens or more were taken, the depth is what it was at the
    start, and the result is the same with any other tokens behind those.  Each round of a group
    takes at least one token, and if what follows the keyword of a group is not the rest of one, the
    result is an error. -/
theorem expr_progress (tokens : List Token) {pos limit depth : Nat} (hpos : pos ≤ tokens.length)
    (hdepth : depth ≤ limit) :
    let start : Cursor := ⟨pos, .start depth⟩
    let result := expr limit depth (tokens.drop pos)
    (WellFounded fun b a => Moves limit tokens a b) ∧
      (∀ a, Passes limit tokens start a →
        (∃ last, Passes limit tokens a last ∧ Halts limit tokens last result) ∧
        (∀ b, Passes limit tokens a b → a.pos ≤ b.pos) ∧
        InBounds limit tokens pos depth a ∧
        ∀ size, tokens.length < size → limit < size →
          a.pos < size ∧ a.state.depth < size ∧ ∀ t, tokens[a.pos]? = some t → a.pos + 1 < size) ∧
      (∀ r, result = .ok r → r.depth = depth ∧
        ∃ stop, pos + 5 ≤ stop ∧ stop ≤ tokens.length ∧ r.rest = tokens.drop stop ∧
          ∀ tokens' : List Token, tokens'.take stop = tokens.take stop →
            expr limit depth (tokens'.drop pos) = .ok ⟨r.condition, depth, tokens'.drop stop⟩) ∧
      ∀ a, Passes limit tokens start a →
        (∀ frames op last earlier d, a.state = ⟨frames, .furtherChild op last earlier, d⟩ →
          (∃ c stop, a.pos + 6 ≤ stop ∧
              expr limit d (tokens.drop (a.pos + 1)) = .ok ⟨c, d, tokens.drop stop⟩ ∧
              Passes limit tokens a ⟨stop, ⟨frames, .furtherChild op c (last :: earlier), d⟩⟩) ∨
            Moves limit tokens a
              ⟨a.pos + 1, ⟨frames, .close (.group op (last :: earlier).reverse), d⟩⟩ ∨
            ∃ e, result = .error e) ∧
        ∀ frames op d, a.state = ⟨frames, .group op, d⟩ →
          (∃ used rest children, tokens.drop a.pos = used ++ rest ∧
              ∀ k : Token, k.Spells (.connective op) →
                Grammar.Inside (k :: used) (.group op children)) ∨
            ∃ e, result = .error e := by
  intro start result
  have hresult : ∀ {a}, Passes limit tokens start a →
      run limit a.state (tokens.drop a.pos) = result := fun h => (run_of_passes h).symm
  refine ⟨wellFounded_moves limit tokens, fun a h => ⟨?_, fun b hb => ?_, ?_, ?_⟩, ?_, ?_⟩
  · rw [← hresult h]
    exact exists_halts limit tokens a
  · obtain ⟨used, -, hplace, -⟩ := reaches_of_passes hb
    omega
  · exact inBounds_of_passes h hpos hdepth
  · have hbounds := inBounds_of_passes h hpos hdepth
    intro size htokens hlimit
    refine ⟨Nat.lt_of_le_of_lt hbounds.pos_le_length htokens,
      Nat.lt_of_le_of_lt hbounds.depth_le_limit hlimit, fun t ht => ?_⟩
    obtain ⟨hlt, -⟩ := List.getElem?_eq_some_iff.1 ht
    exact Nat.lt_of_le_of_lt hlt htokens
  · rintro ⟨c, d, rest⟩ hr
    obtain ⟨rfl, -, stop, hfive, hstop, rfl, -⟩ := expr_drop_eq_ok_iff.1 hr
    exact ⟨rfl, stop, hfive, hstop, rfl, fun tokens' heq => expr_drop_of_take_eq hr hstop heq⟩
  · intro a h
    rw [← hresult h]
    exact ⟨fun frames op last earlier d hstate => further_child hstate,
      fun frames op d hstate => group_or_error hstate⟩

/-- `(AND[(a^NULL),(NOT(b^NULL))])` behind a parenthesis too many and before a separator too many,
    two levels down and with just the room it needs.  Before the delimiter the group has one child,
    and a round takes it to the second. -/
theorem expr_progress_second_child :
    let ts : List Token := [⟨.closeParen, ")", 0⟩, ⟨.openParen, "(", 1⟩, ⟨.operator, "AND", 2⟩,
      ⟨.openBracket, "[", 5⟩, ⟨.openParen, "(", 6⟩, ⟨.operand, "a", 7⟩, ⟨.separator, "^", 8⟩,
      ⟨.operator, "NULL", 9⟩, ⟨.closeParen, ")", 13⟩, ⟨.delimiter, ",", 14⟩, ⟨.openParen, "(", 15⟩,
      ⟨.operator, "NOT", 16⟩, ⟨.openParen, "(", 19⟩, ⟨.operand, "b", 20⟩, ⟨.separator, "^", 21⟩,
      ⟨.operator, "NULL", 22⟩, ⟨.closeParen, ")", 26⟩, ⟨.closeParen, ")", 27⟩,
      ⟨.closeBracket, "]", 28⟩, ⟨.closeParen, ")", 29⟩, ⟨.separator, "^", 30⟩]
    let first : Condition := .leaf "a" (.presence .null)
    let c : Condition := .group .and [first, .negation (.leaf "b" (.presence .null))]
    let start : Cursor := ⟨1, .start 2⟩
    let second : Cursor := ⟨9, ⟨[], .furtherChild .and first [], 3⟩⟩
    1 ≤ ts.length ∧ 2 ≤ 5 ∧ expr 5 2 (ts.drop 1) = .ok ⟨c, 2, ts.drop 20⟩ ∧
      Passes 5 ts start second ∧ InBounds 5 ts 1 2 second ∧
      (∃ d stop, 9 + 6 ≤ stop ∧ expr 5 3 (ts.drop 10) = .ok ⟨d, 3, ts.drop stop⟩ ∧
        Passes 5 ts second ⟨stop, ⟨[], .furtherChild .and d [first], 3⟩⟩) ∧
      ∃ stop, 1 + 5 ≤ stop ∧ stop ≤ ts.length ∧ ts.drop 20 = ts.drop stop ∧
        ∀ ts' : List Token, ts'.take stop = ts.take stop →
          expr 5 2 (ts'.drop 1) = .ok ⟨c, 2, ts'.drop stop⟩ := by
  intro ts first c start second
  have hread : expr 5 2 (ts.drop 1) = .ok ⟨c, 2, ts.drop 20⟩ := rfl
  have hway : Passes 5 ts start second :=
    .head (.take rfl rfl) <| .head (.take rfl rfl) <| .head (.take rfl rfl) <|
      .head (.take rfl rfl) <| .head (.take rfl rfl) <| .head (.take rfl rfl) <|
      .head (.take rfl rfl) <| .single (.take rfl rfl)
  obtain ⟨-, hcursors, hok, hgroups⟩ :=
    expr_progress ts (show 1 ≤ ts.length by decide) (show 2 ≤ 5 by decide)
  obtain ⟨-, -, hbounds, -⟩ := hcursors second hway
  refine ⟨by decide, by decide, hread, hway, hbounds, ?_, (hok _ hread).2⟩
  rcases (hgroups second hway).1 _ _ _ _ _ rfl with hround | hmove | ⟨e, herror⟩
  · exact hround
  · -- the token at this place is no bracket
    cases hmove with
    | take token step =>
      obtain rfl := Option.some.inj token
      cases step
  · cases hread.symm.trans herror

end Parse

end Caret
