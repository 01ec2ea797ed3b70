/-
  The limit on nesting filters what is accepted, and changes nothing else.

  1. **Overflow** — `Token.Exceeds limit before t`: behind `before`, the parenthesis `t` is the
     first one at which more than `limit` parentheses are open.  This says nothing of parsing.

  2. **Tokens that go too deep** — the error names the limit and just that parenthesis
     (`exceeds_of_tooDeep`), as the depth of a state is the number of open parentheses and stays
     under the limit all along.

  3. **Trees** — tokens that form a tree under some limit form it under every limit that is at
     least the depth of the tree, and go too deep under every smaller one (`ofTokens_limit`).
-/
import Caret.Proofs.ViablePrefix

namespace Caret

/-! ## Overflow -/

/-- Behind `before`, the token is the first one at which more than `limit` parentheses are open. -/
structure Token.Exceeds (limit : Nat) (before : List Token) (t : Token) : Prop where
  kind : t.kind = .openParen
  /-- Before it there were never more than `limit`. -/
  within : ∀ part, part <+: before → unclosed part ≤ limit
  /-- With it there is one more. -/
  beyond : unclosed (before ++ [t]) = limit + 1

namespace Parse

/-- On the way to a state no more than `limit` parentheses were ever open. -/
theorem Reaches.unclosed_le {limit : Nat} {ts part : List Token} {s : State}
    (h : Reaches limit (.start 0) ts s) (hpart : part <+: ts) : Token.unclosed part ≤ limit := by
  obtain ⟨s', hreached⟩ := h.of_prefix hpart
  have hdepth : s'.depth ≤ limit := hreached.depth_le (Nat.zero_le limit)
  rw [← hreached.depth_eq_unclosed]
  exact Int.ofNat_le.2 hdepth

/-- A step that goes too deep does so at the first parenthesis that is one too many. -/
theorem exceeds_of_step {limit bound offset : Nat} {before : List Token} {s : State} {t : Token}
    (reached : Reaches limit (.start 0) before s)
    (refusal : s.step limit t = .error (.tooDeep bound offset)) :
    bound = limit ∧ offset = t.offset ∧ Token.Exceeds limit before t := by
  cases refusal_of_step refusal with
  | tooDeep kind full fits =>
    have hdepth := reached.depth_eq_unclosed
    have hle : s.depth ≤ limit := reached.depth_le (Nat.zero_le limit)
    have hopen : Token.unclosed [t] = 1 := by simp [Token.unclosed, kind]
    refine ⟨rfl, rfl, kind, fun part hpart => reached.unclosed_le hpart, ?_⟩
    rw [Token.unclosed_append, hopen]
    omega

end Parse

namespace Condition

/-- **Tokens that go too deep**, whatever else may be wrong behind. -/
theorem exceeds_of_tooDeep {limit bound offset : Nat} {ts : List Token}
    (h : ofTokens limit ts = .error (.tooDeep bound offset)) :
    bound = limit ∧ ∃ before t after,
      ts = before ++ t :: after ∧ offset = t.offset ∧ Token.Exceeds limit before t := by
  cases ofTokens_eq_iff.1 h with
  | @refused before after t s e reached refusal =>
    obtain ⟨hbound, hoffset, hexceeds⟩ := Parse.exceeds_of_step reached refusal
    exact ⟨hbound, before, t, after, rfl, hoffset, hexceeds⟩

/-! ## Trees -/

/-- What is accepted under one limit is accepted under just the limits that allow its depth. -/
theorem ofTokens_eq_ok_iff_depth_le {limit limit' : Nat} {ts : List Token} {c : Condition}
    (h : ofTokens limit ts = .ok c) : ofTokens limit' ts = .ok c ↔ c.depth ≤ limit' := by
  obtain ⟨hexpr, -⟩ := expr_of_ofTokens h
  exact ⟨fun h' => (expr_of_ofTokens h').2, ofTokens_of_expr hexpr⟩

/-- What is accepted under one limit goes too deep under those that do not allow its depth. -/
theorem ofTokens_eq_tooDeep_of_lt {limit limit' : Nat} {ts : List Token} {c : Condition}
    (h : ofTokens limit ts = .ok c) (hlt : limit' < c.depth) :
    ∃ offset, ofTokens limit' ts = .error (.tooDeep limit' offset) := by
  have hlimit : c.depth ≤ limit := (expr_of_ofTokens h).2
  rcases ofTokens_of_limit_le (show limit' ≤ limit by omega) ts with heq | hdeep
  · have hle : c.depth ≤ limit' := (ofTokens_eq_ok_iff_depth_le h).1 (heq.symm.trans h)
    omega
  · exact hdeep

/-- **The limit filters.**  Where one limit does not stop the parse, no greater limit changes its
    result, tree or error.  Tokens that form a tree under some limit form it under the limits that
    are at least the depth of the tree; any smaller limit is exceeded, at the first parenthesis
    at which more are open than it allows. -/
theorem ofTokens_limit (ts : List Token) :
    (∀ limit limit', limit ≤ limit' →
        (∀ bound offset, ofTokens limit ts ≠ .error (.tooDeep bound offset)) →
        ofTokens limit' ts = ofTokens limit ts) ∧
      ∀ limit c, ofTokens limit ts = .ok c → ∀ limit',
        (ofTokens limit' ts = .ok c ↔ c.depth ≤ limit') ∧
          (limit' < c.depth → ∃ before t after, ts = before ++ t :: after ∧
            Token.Exceeds limit' before t ∧
            ofTokens limit' ts = .error (.tooDeep limit' t.offset)) := by
  refine ⟨fun limit limit' hle hstops => ?_, fun limit c h limit' => ⟨?_, fun hlt => ?_⟩⟩
  · rcases ofTokens_of_limit_le hle ts with heq | ⟨offset, hdeep⟩
    · exact heq
    · exact absurd hdeep (hstops limit offset)
  · exact ofTokens_eq_ok_iff_depth_le h
  · obtain ⟨offset, hdeep⟩ := ofTokens_eq_tooDeep_of_lt h hlt
    obtain ⟨-, before, t, after, hts, rfl, hexceeds⟩ := exceeds_of_tooDeep hdeep
    exact ⟨before, t, after, hts, hexceeds, hdeep⟩

/-- `(AND[(a^NULL),(NOT(b^NULL))])` nests three deep.  Two levels are enough for the first child,
    and the parenthesis at offset 18 is one too many. -/
theorem ofTokens_limit_siblings :
    let ts : List Token := [⟨.openParen, "(", 0⟩, ⟨.operator, "AND", 1⟩, ⟨.openBracket, "[", 4⟩,
      ⟨.openParen, "(", 5⟩, ⟨.operand, "a", 6⟩, ⟨.separator, "^", 7⟩, ⟨.operator, "NULL", 8⟩,
      ⟨.closeParen, ")", 12⟩, ⟨.delimiter, ",", 13⟩, ⟨.openParen, "(", 14⟩,
      ⟨.operator, "NOT", 15⟩, ⟨.openParen, "(", 18⟩, ⟨.operand, "b", 19⟩, ⟨.separator, "^", 20⟩,
      ⟨.operator, "NULL", 21⟩, ⟨.closeParen, ")", 25⟩, ⟨.closeParen, ")", 26⟩,
      ⟨.closeBracket, "]", 27⟩, ⟨.closeParen, ")", 28⟩]
    let c := group .and [leaf "a" (.presence .null), negation (leaf "b" (.presence .null))]
    ofTokens 64 ts = .ok c ∧ 2 < c.depth ∧ (∀ bound offset,
        ofTokens 3 ts ≠ .error (.tooDeep bound offset)) ∧
      ofTokens 64 ts = ofTokens 3 ts ∧
      ∃ before t after, ts = before ++ t :: after ∧ Token.Exceeds 2 before t ∧
        ofTokens 2 ts = .error (.tooDeep 2 t.offset) := by
  intro ts c
  have hok : ofTokens 64 ts = .ok c := rfl
  have hok' : ofTokens 3 ts = .ok c := rfl
  have hlt : 2 < c.depth := by decide
  have hstops : ∀ bound offset, ofTokens 3 ts ≠ .error (.tooDeep bound offset) := by
    intro bound offset hdeep
    cases hok'.symm.trans hdeep
  obtain ⟨hsame, hfilter⟩ := ofTokens_limit ts
  exact ⟨hok, hlt, hstops, hsame 3 64 (by decide) hstops, (hfilter 64 c hok 2).2 hlt⟩

end Condition

end Caret
