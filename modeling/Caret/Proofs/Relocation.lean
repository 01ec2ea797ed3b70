/-
  Where tokens stand makes no difference to what they form.

  1. **Relocations** — a function on tokens that keeps kinds, and keeps the texts of operators and
     operands, puts them elsewhere (`Token.Relocates`); the texts of structural tokens it may
     change as it likes.

  2. **One token** — a relocated token takes a state where the token takes it, or meets the same
     error at its new place (`step_relocate`), since of its text only what is kept is looked at.

  3. **Lists** — so relocating and parsing can change places (`ofTokens_relocate`).  Two lists of
     the same content are relocated to one and the same list, and thus they form the same tree or
     meet the same error, its offset apart (`ofTokens_of_sameContent`).
-/
import Mathlib.Data.List.Forall2
import Caret.Proofs.Reach

namespace Caret

/-! ## Relocations -/

/-- The error at another place. -/
def ParseError.mapOffset (f : Nat → Nat) : ParseError → ParseError
  | unexpectedToken expected found offset => unexpectedToken expected found (f offset)
  | unexpectedEnd expected => unexpectedEnd expected
  | unknownOperator keyword expected offset => unknownOperator keyword expected (f offset)
  | emptyGroup op expected offset => emptyGroup op expected (f offset)
  | invalidOperand offset cause => invalidOperand (f offset) cause
  | trailingInput found offset => trailingInput found (f offset)
  | tooDeep limit offset => tooDeep limit (f offset)

/-- The error without its place. -/
def ParseError.unplaced : ParseError → ParseError := mapOffset fun _ => 0

namespace Token

/-- The token at another place. -/
def mapOffset (f : Nat → Nat) (t : Token) : Token := ⟨t.kind, t.text, f t.offset⟩

/-- The function puts tokens elsewhere, and changes no more than their offset and the text of
    structural ones. -/
structure Relocates (g : Token → Token) (f : Nat → Nat) : Prop where
  kind : ∀ t, (g t).kind = t.kind
  text : ∀ t, t.kind.hasText = true → (g t).text = t.text
  offset : ∀ t, (g t).offset = f t.offset

theorem relocates_mapOffset (f : Nat → Nat) : Relocates (mapOffset f) f :=
  ⟨fun _ => rfl, fun _ _ => rfl, fun _ => rfl⟩

/-- Messages name a text only where it is kept. -/
theorem Relocates.display {g : Token → Token} {f : Nat → Nat} (hg : Relocates g f) (t : Token) :
    (g t).display = t.display := by
  rw [Token.display, Token.display, hg.kind]
  by_cases htext : t.kind.hasText = true
  · rw [if_pos htext, if_pos htext, hg.text t htext]
  · rw [if_neg htext, if_neg htext]

end Token

/-! ## One token -/

namespace Parse

variable {g : Token → Token} {f : Nat → Nat} {limit : Nat}

/-- An unexpected token is described as before, and found at its new place. -/
theorem refuse_relocate (hg : Token.Relocates g f) (point : Point) (t : Token) :
    refuse point (g t) = (refuse point t).mapOffset f := by
  rw [refuse, refuse, hg.display, hg.offset]
  rfl

/-- A point that waits for one kind of token. -/
theorem shift_relocate (hg : Token.Relocates g f) (point : Point) (t : Token) (kind : Token.Kind)
    (next : Progress) :
    (if (g t).kind = kind then .ok next else .error (refuse point (g t))) =
      (if t.kind = kind then .ok next else .error (refuse point t) :
        Except ParseError Progress).mapError (ParseError.mapOffset f) := by
  rw [hg.kind, refuse_relocate hg]
  by_cases hk : t.kind = kind
  · rw [if_pos hk, if_pos hk]
    rfl
  · rw [if_neg hk, if_neg hk]
    rfl

/-- Where an expression begins, only the kind of the token counts. -/
theorem openExpr_relocate (hg : Token.Relocates g f) (frames : List Frame) (depth : Nat)
    (t : Token) : openExpr limit frames depth (g t) =
      (openExpr limit frames depth t).mapError (ParseError.mapOffset f) := by
  rw [openExpr, openExpr, hg.kind, hg.offset, refuse_relocate hg]
  by_cases hk : t.kind = .openParen
  · by_cases hfull : limit ≤ depth
    · rw [if_pos hk, if_pos hk, if_pos hfull, if_pos hfull]
      rfl
    · rw [if_pos hk, if_pos hk, if_neg hfull, if_neg hfull]
      rfl
  · rw [if_neg hk, if_neg hk]
    rfl

/-- Where a node begins, the text counts if the token is a name or a keyword, and that is kept. -/
theorem startNode_relocate (hg : Token.Relocates g f) (frames : List Frame) (depth : Nat)
    (t : Token) : startNode frames depth (g t) =
      (startNode frames depth t).mapError (ParseError.mapOffset f) := by
  rw [startNode, startNode, hg.kind, hg.offset, refuse_relocate hg]
  cases hk : t.kind with
  | operand =>
    rw [hg.text t (by rw [hk]; rfl)]
    rfl
  | operator =>
    rw [hg.text t (by rw [hk]; rfl)]
    cases Operator.ofKeyword? t.text with
    | none => rfl
    | some op => cases op <;> rfl
  | _ => rfl

theorem leafOperator_relocate (hg : Token.Relocates g f) (frames : List Frame) (depth : Nat)
    (property : String) (t : Token) : leafOperator frames depth property (g t) =
      (leafOperator frames depth property t).mapError (ParseError.mapOffset f) := by
  rw [leafOperator, leafOperator, hg.kind, hg.offset, refuse_relocate hg]
  by_cases hk : t.kind = .operator
  · rw [if_pos hk, if_pos hk, hg.text t (by rw [hk]; rfl)]
    cases Operator.ofKeyword? t.text with
    | none => rfl
    | some op => cases op <;> rfl
  · rw [if_neg hk, if_neg hk]
    rfl

theorem leafComparand_relocate (hg : Token.Relocates g f) (frames : List Frame) (depth : Nat)
    (property : String) (op : ComparandOp) (t : Token) :
    leafComparand frames depth property op (g t) =
      (leafComparand frames depth property op t).mapError (ParseError.mapOffset f) := by
  rw [leafComparand, leafComparand, hg.kind, hg.offset, refuse_relocate hg]
  by_cases hk : t.kind = .operand
  · rw [if_pos hk, if_pos hk, hg.text t (by rw [hk]; rfl)]
    cases leafOf property op t.text <;> rfl
  · rw [if_neg hk, if_neg hk]
    rfl

/-- **A relocated token** does what the token does, or meets its error at the new place. -/
theorem step_relocate (hg : Token.Relocates g f) (s : State) (t : Token) :
    s.step limit (g t) = (s.step limit t).mapError (ParseError.mapOffset f) := by
  obtain ⟨frames, point, depth⟩ := s
  cases point with
  | expr => exact openExpr_relocate hg frames depth t
  | node => exact startNode_relocate hg frames depth t
  | operator property => exact leafOperator_relocate hg frames depth property t
  | comparand property op => exact leafComparand_relocate hg frames depth property op t
  | firstChild op =>
    simp only [State.step, hg.kind, hg.offset, openExpr_relocate hg]
    by_cases hb : t.kind = .closeBracket
    · rw [if_pos hb, if_pos hb]
      rfl
    · rw [if_neg hb, if_neg hb]
  | furtherChild op last earlier =>
    simp only [State.step, hg.kind, refuse_relocate hg]
    cases t.kind <;> rfl
  | property property | test property op | group op | close c =>
    exact shift_relocate hg _ t _ _

variable {s s' : State} {t : Token} {p : Progress} {ts : List Token}

theorem Step.relocate (h : Step limit s t p) (hg : Token.Relocates g f) :
    Step limit s (g t) p := by
  rw [← step_eq_ok_iff] at h ⊢
  rw [step_relocate hg, h]
  rfl

/-- Relocated tokens lead from state to state as the tokens do. -/
theorem Reaches.relocate (h : Reaches limit s ts s') (hg : Token.Relocates g f) :
    Reaches limit s (ts.map g) s' := by
  induction h with
  | here s => exact .here s
  | next first further ih => exact .next (first.relocate hg) ih

end Parse

/-! ## Lists -/

namespace Condition

/-- **Relocated tokens** form the same tree, or meet the same error at its new place. -/
theorem ofTokens_relocate {g : Token → Token} {f : Nat → Nat} (hg : Token.Relocates g f)
    (limit : Nat) (ts : List Token) :
    ofTokens limit (ts.map g) = (ofTokens limit ts).mapError (ParseError.mapOffset f) := by
  have hverdict : Verdict limit ts (ofTokens limit ts) := ofTokens_eq_iff.1 rfl
  apply ofTokens_eq_iff.2
  generalize ofTokens limit ts = r at hverdict
  cases hverdict with
  | ended reached => exact .ended (reached.relocate hg)
  | accepted reached last =>
    rw [List.map_append]
    exact .accepted (reached.relocate hg) (last.relocate hg)
  | @refused before after t s e reached refusal =>
    rw [List.map_append]
    refine .refused (reached.relocate hg) ?_
    rw [Parse.step_relocate hg, refusal]
    rfl
  | @trailing before after t x s c depth reached last =>
    have hverdict : Verdict limit (before.map g ++ g t :: g x :: after.map g)
        (.error (.trailingInput (g x).display (g x).offset)) :=
      .trailing (reached.relocate hg) (last.relocate hg)
    rw [hg.display, hg.offset] at hverdict
    rw [List.map_append]
    exact hverdict

end Condition

/-! ## The same content -/

namespace Token

/-- The tokens are of one kind, and if they are operators or operands also of one text. -/
def SameContent (t u : Token) : Prop :=
  t.kind = u.kind ∧ (t.kind = .operator ∨ t.kind = .operand → t.text = u.text)

/-- The token without its place, and without its text if it is structural. -/
def bare (t : Token) : Token := ⟨t.kind, if t.kind.hasText then t.text else "", 0⟩

/-- `bare` puts all tokens to one place, the start of the text. -/
theorem relocates_bare : Relocates bare fun _ => 0 :=
  ⟨fun _ => rfl, fun _ htext => if_pos htext, fun _ => rfl⟩

/-- Tokens of the same content differ in nothing but what `bare` takes away. -/
theorem SameContent.bare_eq {t u : Token} (h : SameContent t u) : t.bare = u.bare := by
  obtain ⟨hkind, htext⟩ := h
  have hkept : t.kind.hasText = true → t.text = u.text := by
    intro hhas
    apply htext
    revert hhas
    cases t.kind <;> decide
  rw [bare, bare, ← hkind]
  by_cases hhas : t.kind.hasText = true
  · rw [if_pos hhas, if_pos hhas, hkept hhas]
  · rw [if_neg hhas, if_neg hhas]

theorem map_bare_eq {ts us : List Token} (h : List.Forall₂ SameContent ts us) :
    ts.map bare = us.map bare := by
  induction h with
  | nil => rfl
  | cons first further ih => rw [List.map_cons, List.map_cons, first.bare_eq, ih]

end Token

namespace Condition

/-- **Tokens of the same content** form the same tree, or meet the same error somewhere. -/
theorem ofTokens_of_sameContent {ts us : List Token} (h : List.Forall₂ Token.SameContent ts us)
    (limit : Nat) : (ofTokens limit ts).mapError ParseError.unplaced =
      (ofTokens limit us).mapError ParseError.unplaced := by
  have hts := ofTokens_relocate Token.relocates_bare limit ts
  have hus := ofTokens_relocate Token.relocates_bare limit us
  rw [Token.map_bare_eq h] at hts
  exact hts.symm.trans hus

end Condition

end Caret
