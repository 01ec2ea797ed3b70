/-
  Layout does not matter.

  Characters that are neither marks nor word characters are IGNORED: they part lexemes and are no
  part of any.  They can be put wherever no token is cut in two, also between the operator and the
  operand of `GT30`.

  1. **Offsets** — scanning from further on finds the same tokens further on (`scanFrom_add`).

  2. **Insertion** — a lexeme stays a lexeme when ignored characters come to stand somewhere behind
     it (`Lexeme.insert`): no letter, no underscore and no word goes on with them.  So inserting
     them where no token is cut moves the tokens behind that point and leaves those before it as
     they are (`scanFrom_insert`).  By induction from lexeme to lexeme.

  3. **Text** — with `ofTokens_relocate`, `ofText_layout`.
-/
import Caret.Proofs.Relocation
import Caret.Proofs.Scanning

namespace Caret

namespace Token

/-! ## Offsets -/

/-- Scanning from further on finds the same tokens further on. -/
theorem scanFrom_add (amount : Nat) (cs : List Char) : ∀ offset,
    scanFrom (offset + amount) cs = (scanFrom offset cs).map (mapOffset (· + amount)) := by
  induction cs using lexeme_induction with
  | nil =>
    intro offset
    rw [scanFrom, scanFrom, List.map_nil]
  | @lexeme taken rest kind h ih =>
    intro offset
    rw [scanFrom_append h, scanFrom_append h, List.map_append, ← ih,
      Nat.add_right_comm offset amount]
    cases kind <;> rfl

/-! ## Insertion -/

/-- The characters are neither marks nor word characters. -/
def Ignored (ws : List Char) : Prop :=
  ∀ c ∈ ws, Kind.ofChar? c = none ∧ isWordChar c = false

instance (ws : List Char) : Decidable (Ignored ws) :=
  decidable_of_iff (ws.all fun c => (Kind.ofChar? c).isNone && !isWordChar c)
    (by simp only [Ignored, List.all_eq_true, Bool.and_eq_true, Option.isNone_iff_eq_none,
      Bool.not_eq_true'])

/-- The point lies inside the token, not at one of its ends. -/
def Straddles (t : Token) (point : Nat) : Prop :=
  t.offset < point ∧ point < t.offset + t.text.utf8ByteSize

/-- Offsets from `point` on grow by `amount`. -/
def moveFrom (point amount offset : Nat) : Nat :=
  if point ≤ offset then offset + amount else offset

/-- Ignored characters are scanned as nothing. -/
theorem scanFrom_ignored {ws : List Char} (hws : Ignored ws) (bs : List Char) : ∀ offset,
    scanFrom offset (ws ++ bs) = scanFrom (offset + byteLength ws) bs := by
  induction ws with
  | nil => exact fun offset => rfl
  | cons w ws ih =>
    intro offset
    obtain ⟨⟨hmark, hword⟩, hrest⟩ := List.forall_mem_cons.1 hws
    have hfirst := scanFrom_append (.other hmark hword (ws ++ bs)) offset
    have hlength : byteLength (w :: ws) = byteLength [w] + byteLength ws := byteLength_append [w] ws
    rw [hlength, ← Nat.add_assoc, ← ih hrest]
    exact hfirst

/-- What stands behind `vs` starts as before, or with an ignored character. -/
theorem head?_insert (vs ws bs : List Char) : (vs ++ (ws ++ bs)).head? = (vs ++ bs).head? ∨
    ∃ w ∈ ws, (vs ++ (ws ++ bs)).head? = some w := by
  cases vs with
  | cons v vs => exact Or.inl rfl
  | nil =>
    cases ws with
    | nil => exact Or.inl rfl
    | cons w ws => exact Or.inr ⟨w, List.mem_cons_self .., rfl⟩

theorem EndsWord.insert {vs ws bs : List Char} (hws : Ignored ws) (h : EndsWord (vs ++ bs)) :
    EndsWord (vs ++ (ws ++ bs)) := by
  intro c hc
  rcases head?_insert vs ws bs with hsame | ⟨w, hw, hfirst⟩
  · exact h c (hsame ▸ hc)
  · obtain rfl := Option.some.inj (hc.symm.trans hfirst)
    exact (hws c hw).2

theorem startsLikeName_insert {vs ws bs : List Char} (hws : Ignored ws)
    (h : startsLikeName (vs ++ bs) = false) : startsLikeName (vs ++ (ws ++ bs)) = false := by
  cases vs with
  | cons v vs => exact h
  | nil =>
    cases ws with
    | nil => exact h
    | cons w ws =>
      apply EndsWord.startsLikeName
      intro c hc
      obtain rfl := Option.some.inj hc
      exact (hws w (List.mem_cons_self ..)).2

/-- **A lexeme stays a lexeme** when ignored characters are put somewhere behind it. -/
theorem Lexeme.insert {taken vs ws bs : List Char} {kind : Option Kind} (hws : Ignored ws)
    (h : Lexeme taken (vs ++ bs) kind) : Lexeme taken (vs ++ (ws ++ bs)) kind := by
  cases h with
  | mark marks => exact .mark marks _
  | keyword op ends => exact .keyword op (startsLikeName_insert hws ends)
  | word word ends => exact .word word (ends.insert hws)
  | other unmarked other => exact .other unmarked other _

/-- Of a text with a lexeme at its start and a point to cut it at: the point is the start of the
    text, or lies inside the lexeme, or not before its end. -/
theorem cases_of_append_eq {taken rest as bs : List Char} (h : taken ++ rest = as ++ bs) :
    as = [] ∨ (∃ us, as ≠ [] ∧ us ≠ [] ∧ taken = as ++ us) ∨
      ∃ as', as = taken ++ as' ∧ rest = as' ++ bs := by
  by_cases has : as = []
  · exact Or.inl has
  · right
    rcases List.append_eq_append_iff.1 h with ⟨as', has', hrest⟩ | ⟨us, htaken, hbs⟩
    · exact Or.inr ⟨as', has', hrest⟩
    · by_cases hus : us = []
      · subst hus
        exact Or.inr ⟨[], by rw [htaken, List.append_nil, List.append_nil], hbs.symm⟩
      · exact Or.inl ⟨us, has, hus, htaken⟩

/-- A lexeme with a point inside it is a token, since a single character has no inside. -/
theorem Lexeme.exists_straddles {as us rest : List Char} {kind : Option Kind}
    (h : Lexeme (as ++ us) rest kind) (has : as ≠ []) (hus : us ≠ []) (offset : Nat) :
    ∃ t ∈ ofLexeme offset (as ++ us) kind, t.Straddles (offset + byteLength as) := by
  cases kind with
  | none =>
    generalize htaken : as ++ us = taken at h
    cases h with
    | other unmarked other rest =>
      have hlength := congrArg List.length htaken
      have haspos := List.length_pos_iff.2 has
      have huspos := List.length_pos_iff.2 hus
      rw [List.length_append, List.length_singleton] at hlength
      omega
  | some kind =>
    have haspos := byteLength_pos has
    have huspos := byteLength_pos hus
    refine ⟨⟨kind, String.ofList (as ++ us), offset⟩, List.mem_singleton_self _, ?_, ?_⟩
    · show offset < offset + byteLength as
      omega
    · show offset + byteLength as < offset + (String.ofList (as ++ us)).utf8ByteSize
      rw [← byteLength_eq, byteLength_append]
      omega

/-- A lexeme before the point stays where it is. -/
theorem map_ofLexeme {point amount offset : Nat} (h : offset < point) (taken : List Char)
    (kind : Option Kind) : (ofLexeme offset taken kind).map (mapOffset (moveFrom point amount)) =
      ofLexeme offset taken kind := by
  have hstays : moveFrom point amount offset = offset := if_neg (Nat.not_le.2 h)
  cases kind with
  | none => rfl
  | some kind =>
    show [(⟨kind, String.ofList taken, moveFrom point amount offset⟩ : Token)] = _
    rw [hstays]
    rfl

/-- Ignored characters at the start move all tokens. -/
theorem scanFrom_insert_start {ws : List Char} (hws : Ignored ws) (bs : List Char) (offset : Nat) :
    scanFrom offset (ws ++ bs) =
      (scanFrom offset bs).map (mapOffset (moveFrom offset (byteLength ws))) := by
  rw [scanFrom_ignored hws, scanFrom_add]
  refine List.map_congr_left fun t ht => ?_
  rw [mapOffset, mapOffset, moveFrom, if_pos (le_offset_of_mem_scanFrom ht)]

/-- **Inserting ignored characters** where no token is cut moves the tokens from there on. -/
theorem scanFrom_insert {ws : List Char} (hws : Ignored ws) (bs : List Char) {cs : List Char} :
    ∀ {offset : Nat} {as : List Char}, cs = as ++ bs →
      (∀ t ∈ scanFrom offset cs, ¬ t.Straddles (offset + byteLength as)) →
      scanFrom offset (as ++ (ws ++ bs)) = (scanFrom offset cs).map
        (mapOffset (moveFrom (offset + byteLength as) (byteLength ws))) := by
  induction cs using lexeme_induction with
  | nil =>
    intro offset as has _
    obtain ⟨rfl, rfl⟩ := List.append_eq_nil_iff.1 has.symm
    exact scanFrom_insert_start hws [] offset
  | @lexeme taken rest kind h ih =>
    intro offset as has hwhole
    rcases cases_of_append_eq has with rfl | ⟨us, hasne, husne, rfl⟩ | ⟨as', rfl, rfl⟩
    · rw [has]
      exact scanFrom_insert_start hws bs offset
    · obtain ⟨t, ht, hstraddles⟩ := h.exists_straddles hasne husne offset
      rw [scanFrom_append h] at hwhole
      exact absurd hstraddles (hwhole t (List.mem_append_left _ ht))
    · -- the lexeme stands as before, and behind it the question is the same
      have hpos := byteLength_pos h.ne_nil
      have hpoint : offset + byteLength (taken ++ as') =
          offset + byteLength taken + byteLength as' := by
        rw [byteLength_append, Nat.add_assoc]
      rw [scanFrom_append h, hpoint] at hwhole
      have hrest := ih rfl fun t ht => hwhole t (List.mem_append_right _ ht)
      rw [List.append_assoc, scanFrom_append (h.insert hws), hrest, scanFrom_append h, hpoint,
        List.map_append, map_ofLexeme (by omega)]

/-- The tokens of a text with ignored characters put into it. -/
theorem scan_insert {a b w : String} (hw : Ignored w.toList)
    (hwhole : ∀ t ∈ scan (a ++ b), ¬ t.Straddles a.utf8ByteSize) :
    scan (a ++ w ++ b) =
      (scan (a ++ b)).map (mapOffset (moveFrom a.utf8ByteSize w.utf8ByteSize)) := by
  have hpoint : 0 + byteLength a.toList = a.utf8ByteSize := by
    rw [Nat.zero_add, byteLength_toList]
  rw [scan, String.toList_append] at hwhole
  rw [← hpoint] at hwhole
  have hinsert := scanFrom_insert hw b.toList rfl hwhole
  rw [hpoint, byteLength_toList] at hinsert
  rw [scan, scan, String.toList_append, String.toList_append, String.toList_append,
    List.append_assoc]
  exact hinsert

end Token

/-! ## Text -/

namespace Condition

open Token (Ignored Straddles SameContent moveFrom)

/-- **Layout does not matter.**  Characters that are neither marks nor word characters can be put
    into a text wherever they cut no token in two.  The tokens from there on move by the size of
    what was put in and are otherwise the same, and so are the tree, or the error, its offset moved
    like those of the tokens.  And of any tokens only kinds, and the texts of operators and
    operands, make a difference to the tree or error, its offset apart. -/
theorem ofText_layout (limit : Nat) :
    (∀ a b w : String, Ignored w.toList →
        (∀ t ∈ Token.scan (a ++ b), ¬ t.Straddles a.utf8ByteSize) →
        Token.scan (a ++ w ++ b) = (Token.scan (a ++ b)).map
            (Token.mapOffset (moveFrom a.utf8ByteSize w.utf8ByteSize)) ∧
          ofText limit (a ++ w ++ b) = (ofText limit (a ++ b)).mapError
            (ParseError.mapOffset (moveFrom a.utf8ByteSize w.utf8ByteSize))) ∧
      ∀ ts us, List.Forall₂ SameContent ts us →
        (ofTokens limit ts).mapError ParseError.unplaced =
          (ofTokens limit us).mapError ParseError.unplaced := by
  refine ⟨fun a b w hw hwhole => ?_, fun ts us h => ofTokens_of_sameContent h limit⟩
  have hscan := Token.scan_insert hw hwhole
  refine ⟨hscan, ?_⟩
  rw [ofText, hscan]
  exact ofTokens_relocate (Token.relocates_mapOffset _) limit (Token.scan (a ++ b))

/-- Between the operator and the operand of `GT30` there is room for an accented letter and a
    blank, three bytes: the error about the operand moves from offset 5 to offset 8. -/
theorem ofText_layout_keyword :
    let tokens : List Token := [⟨.openParen, "(", 0⟩, ⟨.operand, "a", 1⟩, ⟨.separator, "^", 2⟩,
      ⟨.operator, "GT", 3⟩, ⟨.operand, "30", 5⟩, ⟨.closeParen, ")", 7⟩]
    let bare : List Token := [⟨.openParen, "", 0⟩, ⟨.operand, "a", 0⟩, ⟨.separator, "", 0⟩,
      ⟨.operator, "GT", 0⟩, ⟨.operand, "30", 0⟩, ⟨.closeParen, "", 0⟩]
    let error (offset : Nat) : Except ParseError Condition :=
      .error (.unexpectedToken (.kind .separator) "operand '30'" offset)
    Ignored "é ".toList ∧
      (∀ t ∈ Token.scan ("(a^GT" ++ "30)"), ¬ t.Straddles "(a^GT".utf8ByteSize) ∧
      ofText 1 ("(a^GT" ++ "30)") = error 5 ∧ ofText 1 ("(a^GT" ++ "é " ++ "30)") = error 8 ∧
      List.Forall₂ SameContent tokens bare ∧
      (ofTokens 1 tokens).mapError ParseError.unplaced =
        (ofTokens 1 bare).mapError ParseError.unplaced := by
  intro tokens bare error
  have hignored : Ignored "é ".toList := by decide
  have hscan : Token.scan ("(a^GT" ++ "30)") = tokens := by decide +kernel
  have hwhole : ∀ t ∈ Token.scan ("(a^GT" ++ "30)"), ¬ t.Straddles "(a^GT".utf8ByteSize := by
    rw [hscan]
    unfold Straddles
    decide
  have herror : ofText 1 ("(a^GT" ++ "30)") = error 5 := by
    rw [ofText, hscan]
    rfl
  have hsame : List.Forall₂ SameContent tokens bare := by
    unfold SameContent
    decide
  obtain ⟨htext, htokens⟩ := ofText_layout 1
  have hmoved := (htext "(a^GT" "30)" "é " hignored hwhole).2
  rw [herror] at hmoved
  exact ⟨hignored, hwhole, herror, hmoved, hsame, htokens tokens bare hsame⟩

end Condition

end Caret
