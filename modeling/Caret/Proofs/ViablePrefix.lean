/-
  Errors are reported at the first token that cannot stand where it stands, and nothing behind that
  token matters.

  A list of tokens is VIABLE if something can be put behind it so that the whole is a condition,
  under some limit.

  1. **Completion** — every parse in progress can be completed, from any point and inside any
     frames, as long as there is room for one more parenthesis (`State.completable`).  So whatever
     has been read without an error is viable (`viable_of_reaches`).

  2. **Refusals** — `Refusal limit s t` lists the errors that a token can meet.  All but one of them
     do not depend on the limit; a `(` that is one too many is taken under a greater limit.

  3. **First offence** — `Offence limit before t e`: the error `e` belongs to the token `t` behind
     `before`.  Everything before the token is viable, nothing is that goes on with it, and every
     list that begins in this way meets the same error.  Of any tokens, a condition is made, or
     they end too early and are viable, or one of them is the first offence
     (`ofTokens_first_offence`).
-/
import Caret.Proofs.Reach

namespace Caret

/-! ## Completion -/

namespace Token

/-- A token of which only the kind counts. -/
def ofKind (kind : Kind) : Token := ⟨kind, "", 0⟩

def ofOperator (op : Operator) : Token := ⟨.operator, op.keyword, 0⟩

def ofWord (w : String) : Token := ⟨.operand, w, 0⟩

theorem spells_ofOperator (op : Operator) : (ofOperator op).Spells op := ⟨rfl, rfl⟩

end Token

namespace Parse

variable {limit : Nat} {s : State} {t : Token} {p : Progress}

/-- Some tokens complete the expression in progress, and with it all expressions around it. -/
def State.Completable (limit : Nat) (s : State) : Prop :=
  ∃ ts c depth, run limit s ts = .ok ⟨c, depth, []⟩

def Progress.Completable (limit : Nat) : Progress → Prop
  | pending s => s.Completable limit
  | complete _ _ => True

/-- One token more at the front. -/
theorem Step.completable (h : Step limit s t p) (hp : p.Completable limit) :
    s.Completable limit := by
  cases p with
  | complete c depth => exact ⟨[t], c, depth, run_cons_of_step h []⟩
  | pending s' =>
    obtain ⟨ts, c, depth, hrun⟩ := hp
    exact ⟨t :: ts, c, depth, (run_cons_of_step h ts).trans hrun⟩

/-- What is left of an expression and of those around it is a matter of closing marks. -/
theorem completable_close (frames : List Frame) : ∀ (depth : Nat) (c : Condition),
    State.Completable limit ⟨frames, .close c, depth⟩ := by
  induction frames with
  | nil =>
    intro depth c
    exact Step.completable (t := .ofKind .closeParen) (.closeParen rfl) trivial
  | cons frame frames ih =>
    intro depth c
    refine Step.completable (t := .ofKind .closeParen) (.closeParen rfl) ?_
    cases frame with
    | negation => exact ih (depth - 1) (.negation c)
    | group op children =>
      exact Step.completable (t := .ofKind .closeBracket) (.closeBracket rfl) (ih _ _)

/-- A property is made a leaf by a presence test, which takes no comparand. -/
theorem completable_operator (frames : List Frame) (depth : Nat) (property : String) :
    State.Completable limit ⟨frames, .operator property, depth⟩ :=
  Step.completable (.presence (Token.spells_ofOperator (.presence .null)))
    (completable_close frames depth _)

theorem completable_property (frames : List Frame) (depth : Nat) (property : String) :
    State.Completable limit ⟨frames, .property property, depth⟩ :=
  Step.completable (t := .ofKind .separator) (.separator rfl)
    (completable_operator frames depth property)

/-- Where a node is due, a test of some property will do. -/
theorem completable_node (frames : List Frame) (depth : Nat) :
    State.Completable limit ⟨frames, .node, depth⟩ :=
  Step.completable (t := .ofWord "a") (.property rfl) (completable_property frames depth "a")

/-- The text `0` is a comparand for every operator that takes one. -/
theorem completable_comparand (frames : List Frame) (depth : Nat) (property : String)
    (op : ComparandOp) : State.Completable limit ⟨frames, .comparand property op, depth⟩ := by
  have hmade : ∃ test, TestOf op.operator "0" test := by
    cases op with
    | equality op => exact ⟨_, .equality op "0"⟩
    | order op => exact ⟨_, .order op (x := .zero) rfl (by decide)⟩
    | text op => exact ⟨_, .text op "0"⟩
  obtain ⟨test, hmade⟩ := hmade
  exact Step.completable (t := .ofWord "0")
    (.comparand rfl (leafOf_eq_ok_iff.2 ⟨test, hmade, rfl⟩)) (completable_close frames depth _)

/-- **Every parse in progress can be completed**, if there is room for one more parenthesis. -/
theorem State.completable (s : State) (hroom : s.depth < limit) : s.Completable limit := by
  obtain ⟨frames, point, depth⟩ := s
  have hroom : depth < limit := hroom
  have hfirst : ∀ op, State.Completable limit ⟨frames, .firstChild op, depth⟩ := fun op =>
    Step.completable (t := .ofKind .openParen) (.firstChild rfl hroom) (completable_node _ _)
  cases point with
  | expr =>
    exact Step.completable (t := .ofKind .openParen) (.openParen rfl hroom)
      (completable_node frames _)
  | node => exact completable_node frames depth
  | property property => exact completable_property frames depth property
  | operator property => exact completable_operator frames depth property
  | test property op =>
    exact Step.completable (t := .ofKind .separator) (.separator' rfl)
      (completable_comparand frames depth property op)
  | comparand property op => exact completable_comparand frames depth property op
  | group op =>
    exact Step.completable (t := .ofKind .openBracket) (.openBracket rfl) (hfirst op)
  | firstChild op => exact hfirst op
  | furtherChild op last earlier =>
    exact Step.completable (t := .ofKind .closeBracket) (.closeBracket rfl)
      (completable_close frames depth _)
  | close c => exact completable_close frames depth c

end Parse

namespace Condition

/-- Something can be put behind the tokens so that the whole is a condition, under some limit. -/
def Viable (ts : List Token) : Prop := ∃ limit more c, ofTokens limit (ts ++ more) = .ok c

/-- **What has been read without an error can be completed**, with one more parenthesis at most. -/
theorem completes_of_reaches {limit : Nat} {ts : List Token} {s : Parse.State}
    (h : Parse.Reaches limit (.start 0) ts s) :
    ∃ more c, ofTokens (limit + 1) (ts ++ more) = .ok c := by
  have hroom : s.depth < limit + 1 := Nat.lt_succ_of_le (h.depth_le (Nat.zero_le limit))
  obtain ⟨more, c, depth, hrun⟩ := s.completable hroom
  have hreached := h.of_limit_le (Nat.le_succ limit)
  refine ⟨more, c, ?_⟩
  rw [ofTokens, Parse.expr, Parse.run_of_reaches hreached, hrun]

/-- What has been read without an error begins some condition. -/
theorem viable_of_reaches {limit : Nat} {ts : List Token} {s : Parse.State}
    (h : Parse.Reaches limit (.start 0) ts s) : Viable ts := by
  obtain ⟨more, c, hok⟩ := completes_of_reaches h
  exact ⟨limit + 1, more, c, hok⟩

end Condition

/-! ## Refusals -/

namespace Parse

variable {limit : Nat} {s : State} {t : Token} {e : ParseError}

/-- The errors that a token can meet. -/
inductive Refusal (limit : Nat) (s : State) (t : Token) : ParseError → Prop where
  /-- A `(` that is one too many; with more room it opens an expression. -/
  | tooDeep {next : State} (kind : t.kind = .openParen) (full : limit ≤ s.depth)
      (fits : ∀ limit', s.depth < limit' → Step limit' s t (.pending next)) :
      Refusal limit s t (.tooDeep limit t.offset)
  /-- A token of the wrong kind. -/
  | misplaced : Refusal limit s t (refuse s.point t)
  /-- A keyword that does not belong here, or an operator without a keyword. -/
  | keyword (kind : t.kind = .operator) :
      Refusal limit s t (.unknownOperator t.text s.point.expected t.offset)
  /-- A group that closes before it has a child. -/
  | emptyGroup {op : Connective} (point : s.point = .firstChild op) (kind : t.kind = .closeBracket) :
      Refusal limit s t (.emptyGroup op s.point.expected t.offset)
  /-- A comparand that the operator makes no test of. -/
  | operand {property : String} {op : ComparandOp} {cause : ConstructionError}
      (point : s.point = .comparand property op) (kind : t.kind = .operand)
      (fails : leafOf property op t.text = .error cause) :
      Refusal limit s t (.invalidOperand t.offset cause)

/-- A choice between a value and an error that ends in an error. -/
theorem ite_ok_eq_error {ε α : Type} {q : Prop} [Decidable q] {e e' : ε} {a : α}
    (h : (if q then .ok a else .error e : Except ε α) = .error e') : e = e' := by
  split at h
  · cases h
  · exact Except.error.inj h

/-- Where an expression is due, there is no room for it or the token is no `(`. -/
theorem refusal_of_openExpr {frames : List Frame} {depth : Nat}
    (h : openExpr limit frames depth t = .error e) :
    t.kind = .openParen ∧ limit ≤ depth ∧ e = .tooDeep limit t.offset ∨ e = refuse .expr t := by
  rw [openExpr] at h
  split at h
  · rename_i hk
    split at h
    · rename_i hfull
      exact Or.inl ⟨hk, hfull, (Except.error.inj h).symm⟩
    · cases h
  · exact Or.inr (Except.error.inj h).symm

theorem refusal_of_startNode {frames : List Frame} {depth : Nat}
    (h : startNode frames depth t = .error e) : Refusal limit ⟨frames, .node, depth⟩ t e := by
  rw [startNode] at h
  split at h
  · cases h
  · rename_i hk
    split at h
    · cases h
    · cases h
    · cases h
      exact .keyword hk
  · cases h
    exact .misplaced

theorem refusal_of_leafOperator {frames : List Frame} {depth : Nat} {property : String}
    (h : leafOperator frames depth property t = .error e) :
    Refusal limit ⟨frames, .operator property, depth⟩ t e := by
  rw [leafOperator] at h
  split at h
  · rename_i hk
    split at h
    · cases h
    · cases h
    · cases h
    · cases h
    · cases h
      exact .keyword hk
  · cases h
    exact .misplaced

theorem refusal_of_leafComparand {frames : List Frame} {depth : Nat} {property : String}
    {op : ComparandOp} (h : leafComparand frames depth property op t = .error e) :
    Refusal limit ⟨frames, .comparand property op, depth⟩ t e := by
  rw [leafComparand] at h
  split at h
  · rename_i hk
    split at h
    · cases h
    · rename_i cause hcause
      cases h
      exact .operand rfl hk hcause
  · cases h
    exact .misplaced

/-- **All errors of a step.** -/
theorem refusal_of_step (h : s.step limit t = .error e) : Refusal limit s t e := by
  obtain ⟨frames, point, depth⟩ := s
  cases point with
  | expr =>
    rcases refusal_of_openExpr h with ⟨hk, hfull, rfl⟩ | rfl
    · exact .tooDeep hk hfull fun limit' hroom => .openParen hk hroom
    · exact .misplaced
  | node => exact refusal_of_startNode h
  | operator property => exact refusal_of_leafOperator h
  | comparand property op => exact refusal_of_leafComparand h
  | firstChild op =>
    by_cases hb : t.kind = .closeBracket
    · simp only [State.step, if_pos hb] at h
      cases h
      exact .emptyGroup rfl hb
    · simp only [State.step, if_neg hb] at h
      rcases refusal_of_openExpr h with ⟨hk, hfull, rfl⟩ | rfl
      · exact .tooDeep hk hfull fun limit' hroom => .firstChild hk hroom
      · exact .misplaced
  | furtherChild op last earlier =>
    simp only [State.step] at h
    split at h
    · cases h
    · cases h
    · cases h
      exact .misplaced
  | property property | test property op | group op | close c =>
    exact ite_ok_eq_error h ▸ .misplaced

theorem Refusal.offset?_eq (h : Refusal limit s t e) : e.offset? = some t.offset := by
  cases h <;> rfl

theorem Refusal.ne_unexpectedEnd (h : Refusal limit s t e) (expected : Expected) :
    e ≠ .unexpectedEnd expected := by
  cases h <;> exact fun h => nomatch h

end Parse

/-! ## First offence -/

namespace Condition

/-- The error `e` belongs to the token `t` behind `before`. -/
structure Offence (limit : Nat) (before : List Token) (t : Token) (e : ParseError) : Prop where
  /-- The error names the place of the token. -/
  offset : e.offset? = some t.offset
  /-- Nothing behind the token matters. -/
  stays : ∀ after, ofTokens limit (before ++ t :: after) = .error e
  viable : Viable before
  /-- No limit would let the token pass, unless the limit was what it met. -/
  first : (∀ limit' offset, e ≠ .tooDeep limit' offset) → ¬ Viable (before ++ [t])
  /-- A limit is met by a `(` where as many parentheses are open as it allows. -/
  tooDeep : ∀ {limit' offset}, e = .tooDeep limit' offset → limit' = limit ∧
    t.kind = .openParen ∧ Token.unclosed before = limit ∧ Viable (before ++ [t])

/-- A token that meets the same error whatever follows lets nothing pass, under no limit at all,
    unless the limit was what it met. -/
theorem not_viable_of_stays {limit : Nat} {before : List Token} {t : Token} {e : ParseError}
    (hstays : ∀ after, ofTokens limit (before ++ t :: after) = .error e)
    (hlimit : ∀ limit' offset, e ≠ .tooDeep limit' offset) : ¬ Viable (before ++ [t]) := by
  rintro ⟨limit', after, c, hok⟩
  rw [List.append_assoc, List.singleton_append] at hok
  have herror := hstays after
  have hne : ofTokens limit' (before ++ t :: after) ≠ ofTokens limit (before ++ t :: after) := by
    rw [hok, herror]
    exact fun h => nomatch h
  -- of two limits only the smaller one can make a difference, and by stopping the parse
  rcases Nat.le_total limit limit' with hle | hle
  · rcases ofTokens_of_limit_le hle (before ++ t :: after) with heq | ⟨offset, hdeep⟩
    · exact hne heq
    · rw [herror] at hdeep
      exact hlimit limit offset (Except.error.inj hdeep)
  · rcases ofTokens_of_limit_le hle (before ++ t :: after) with heq | ⟨offset, hdeep⟩
    · exact hne heq.symm
    · rw [hok] at hdeep
      cases hdeep

/-- A token that is refused is the first offence. -/
theorem offence_of_refused {limit : Nat} {before : List Token} {s : Parse.State} {t : Token}
    {e : ParseError} (reached : Parse.Reaches limit (.start 0) before s)
    (refusal : s.step limit t = .error e) : Offence limit before t e := by
  have hstays : ∀ after, ofTokens limit (before ++ t :: after) = .error e := fun after =>
    ofTokens_eq_iff.2 (.refused reached refusal)
  have hrefusal := Parse.refusal_of_step refusal
  refine ⟨hrefusal.offset?_eq, hstays, viable_of_reaches reached, not_viable_of_stays hstays, ?_⟩
  rintro limit' offset rfl
  cases hrefusal with
  | tooDeep kind full fits =>
    have hdepth := reached.depth_eq_unclosed
    have hle : s.depth ≤ limit := reached.depth_le (Nat.zero_le limit)
    -- with one more parenthesis allowed the run goes on
    have hmore := reached.of_limit_le (Nat.le_succ limit)
    have hnext := hmore.snoc (fits (limit + 1) (Nat.lt_succ_of_le hle))
    exact ⟨rfl, kind, by omega, viable_of_reaches hnext⟩

/-- So is the token behind a condition that is complete. -/
theorem offence_of_trailing {limit depth : Nat} {before : List Token} {s : Parse.State}
    {t x : Token} {c : Condition} (reached : Parse.Reaches limit (.start 0) before s)
    (last : Parse.Step limit s t (.complete c depth)) :
    Offence limit (before ++ [t]) x (.trailingInput x.display x.offset) := by
  have hstays : ∀ after, ofTokens limit (before ++ [t] ++ x :: after) =
      .error (.trailingInput x.display x.offset) := by
    intro after
    rw [List.append_assoc, List.singleton_append]
    exact ofTokens_eq_iff.2 (.trailing reached last)
  have haccepted : ofTokens limit (before ++ [t] ++ []) = .ok c := by
    rw [List.append_nil]
    exact ofTokens_eq_iff.2 (.accepted reached last)
  exact ⟨rfl, hstays, ⟨limit, [], c, haccepted⟩, not_viable_of_stays hstays, fun h => nomatch h⟩

/-- **Where a parse ends.**  Any part of a condition that is not all of it ends too early, and any
    token behind it is too much.  Tokens that end too early can be completed, if need be under a
    greater limit.  With any other error one of the tokens is the first offence. -/
theorem ofTokens_first_offence (limit : Nat) (ts : List Token) :
    match ofTokens limit ts with
    | .ok _ =>
      (∀ before, before <+: ts → before ≠ ts →
        ∃ expected, ofTokens limit before = .error (.unexpectedEnd expected)) ∧
      ∀ x rest, ofTokens limit (ts ++ x :: rest) = .error (.trailingInput x.display x.offset)
    | .error (.unexpectedEnd _) =>
      ∃ limit' more c, limit ≤ limit' ∧ ofTokens limit' (ts ++ more) = .ok c
    | .error e => ∃ before t after, ts = before ++ t :: after ∧ Offence limit before t e := by
  have hverdict : Verdict limit ts (ofTokens limit ts) := ofTokens_eq_iff.1 rfl
  generalize ofTokens limit ts = r at hverdict
  cases hverdict with
  | ended reached =>
    obtain ⟨more, c, hok⟩ := completes_of_reaches reached
    exact ⟨limit + 1, more, c, Nat.le_succ limit, hok⟩
  | @accepted before t s c depth reached last =>
    refine ⟨fun part hpart hne => ?_, fun x rest => (offence_of_trailing reached last).stays rest⟩
    -- what is missing contains the last token, which alone completes the condition
    rcases List.prefix_concat_iff.1 hpart with heq | hpart
    · exact absurd heq hne
    · obtain ⟨s', hreached⟩ := reached.of_prefix hpart
      exact ⟨s'.point.expected, ofTokens_eq_iff.2 (.ended hreached)⟩
  | @refused before after t s e reached refusal =>
    have hoffence := offence_of_refused reached refusal
    have hne := (Parse.refusal_of_step refusal).ne_unexpectedEnd
    split
    · rename_i h
      cases h
    · rename_i expected h
      exact absurd (Except.error.inj h) (hne expected)
    · rename_i h
      exact ⟨before, t, after, rfl, Except.error.inj h ▸ hoffence⟩
  | @trailing before after t x s c depth reached last =>
    refine ⟨before ++ [t], x, after, ?_, offence_of_trailing reached last⟩
    rw [List.append_assoc, List.singleton_append]

/-- `(NOT(a` with one level allowed: the second parenthesis is the first offence, not the end. -/
theorem ofTokens_first_offence_nested :
    let ts : List Token := [⟨.openParen, "(", 0⟩, ⟨.operator, "NOT", 1⟩, ⟨.openParen, "(", 4⟩,
      ⟨.operand, "a", 5⟩]
    ofTokens 1 ts = .error (.tooDeep 1 4) ∧
      ∃ before t after, ts = before ++ t :: after ∧ Offence 1 before t (.tooDeep 1 4) := by
  intro ts
  exact ⟨rfl, ofTokens_first_offence 1 ts⟩

end Condition

end Caret
