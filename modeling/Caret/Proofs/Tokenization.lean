/-
  What the tokens of a text are, with no word about how they are found.

  1. **Specification** — `Tokenization text ts`: the tokens `ts` stand in the text one behind the
     other, each is of the kind that its text calls for there, and they leave out just the
     characters that are neither marks nor word characters.

  2. **Lexemes** — at one place stands one lexeme only (`Lexeme.unique`).  Hence the text of a token
     calls for its kind just where it is a lexeme of that kind (`CalledFor.lexeme`,
     `Lexeme.calledFor`).

  3. **Scanning** — the tokens that the scanner finds are as specified (`tokenization_scan`).  By
     induction from lexeme to lexeme; what stands right before a word depends on the lexeme before
     it (`Lexeme.parted`).

  4. **Uniqueness** — a text has one tokenization only.  A token of one begins with a character
     that is covered by a token of the other.  Were that one to begin earlier, it would by
     induction belong to the first tokenization as well and overlap the token there.
-/
import Mathlib.Data.List.Pairwise
import Mathlib.Data.List.Sort
import Caret.Proofs.Scanning

/-! ## Cutting a text -/

/-- One text is cut at one place in one way. -/
theorem String.append_inj_of_utf8ByteSize {a b a' b' : String} (h : a ++ b = a' ++ b')
    (hsize : a.utf8ByteSize = a'.utf8ByteSize) : a = a' ∧ b = b' := by
  have hbytes := congrArg String.toByteArray h
  rw [String.toByteArray_append, String.toByteArray_append] at hbytes
  obtain rfl := String.toByteArray_inj.1 (ByteArray.append_inj_left hbytes hsize)
  exact ⟨rfl, (String.append_right_inj a).1 h⟩

namespace Caret

namespace Token

/-! ## Specification -/

/-- Marks and word characters make up tokens, all others are dropped. -/
def Visible (c : Char) : Prop := (Kind.ofChar? c).isSome = true ∨ isWordChar c = true

/-- The token starts and ends before the other one does. -/
def Before (t u : Token) : Prop :=
  t.offset < u.offset ∧ t.offset + t.text.utf8ByteSize ≤ u.offset

/-- What stands at this place belongs to the token. -/
def Covers (t : Token) (place : Nat) : Prop :=
  t.offset ≤ place ∧ place < t.offset + t.text.utf8ByteSize

/-- The token is of the kind that its text calls for in front of `after`. -/
structure CalledFor (t : Token) (after : List Char) : Prop where
  mark : ∀ {c : Char} {kind : Kind}, Kind.ofChar? c = some kind →
    (t.kind = kind ↔ t.text.toList = [c])
  /-- A keyword that does not go on like a name. -/
  operator : t.kind = .operator ↔
    (Operator.ofKeyword? t.text).isSome = true ∧ startsLikeName after = false
  /-- A run of word characters with none behind it.  Where it starts with a keyword, it goes on like
      a name. -/
  operand : t.kind = .operand → t.text ≠ "" ∧ (∀ c ∈ t.text.toList, isWordChar c = true) ∧
    EndsWord after ∧ ∀ (op : Operator) (rest : List Char),
      t.text.toList = op.keyword.toList ++ rest → startsLikeName (rest ++ after) = true

/-- Right before the token stands no word character, unless it is the last one of an operator and
    the token is an operand that starts with a digit. -/
def Parted (ts : List Token) (before : List Char) (t : Token) : Prop :=
  ∀ c, before.getLast? = some c → isWordChar c = false ∨
    t.kind = .operand ∧ (∃ d, t.text.toList.head? = some d ∧ d.isDigit = true) ∧
      ∃ u ∈ ts, u.kind = .operator ∧ u.offset + u.text.utf8ByteSize = t.offset

/-- The tokens of a text. -/
structure Tokenization (text : String) (ts : List Token) : Prop where
  apart : ts.Pairwise Before
  /-- Each token stands in the text, at its offset. -/
  stands : ∀ t ∈ ts, ∃ before after, text = before ++ t.text ++ after ∧
    t.offset = before.utf8ByteSize ∧ t.CalledFor after.toList ∧
      (t.kind = .operator ∨ t.kind = .operand → Parted ts before.toList t)
  covered : ∀ before c after, text = before ++ String.singleton c ++ after → Visible c →
    ∃! t, t ∈ ts ∧ t.Covers before.utf8ByteSize
  dropped : ∀ before c after, text = before ++ String.singleton c ++ after → ¬ Visible c →
    ∀ t ∈ ts, ¬ t.Covers before.utf8ByteSize

/-! ## Lexemes -/

theorem ofChar?_injective {c d : Char} {kind : Kind} (hc : Kind.ofChar? c = some kind)
    (hd : Kind.ofChar? d = some kind) : c = d := by
  rw [Kind.ofChar?.eq_def] at hc hd
  split at hc <;> cases hc <;> split at hd <;> cases hd <;> rfl

/-- Every other kind is that of a mark. -/
theorem exists_ofChar?_eq {kind : Kind} (hoperator : kind ≠ .operator)
    (hoperand : kind ≠ .operand) : ∃ c, Kind.ofChar? c = some kind := by
  cases kind with
  | openParen => exact ⟨'(', rfl⟩
  | closeParen => exact ⟨')', rfl⟩
  | openBracket => exact ⟨'[', rfl⟩
  | closeBracket => exact ⟨']', rfl⟩
  | separator => exact ⟨'^', rfl⟩
  | delimiter => exact ⟨',', rfl⟩
  | operator => exact absurd rfl hoperator
  | operand => exact absurd rfl hoperand

namespace Lexeme

variable {taken rest : List Char} {kind : Option Kind}

theorem isMark {c : Char} {k : Kind} (h : Lexeme taken rest (some k))
    (hc : Kind.ofChar? c = some k) : taken = [c] := by
  cases h with
  | mark marks rest => rw [ofChar?_injective hc marks]
  | keyword op ends => cases hasText_of_ofChar? hc
  | word word ends => cases hasText_of_ofChar? hc

theorem isKeyword (h : Lexeme taken rest (some .operator)) :
    (∃ op : Operator, taken = op.keyword.toList) ∧ startsLikeName rest = false := by
  cases h with
  | mark marks rest => cases hasText_of_ofChar? marks
  | keyword op ends => exact ⟨⟨op, rfl⟩, ends⟩

theorem endsWord (h : Lexeme taken rest (some .operand)) : EndsWord rest := by
  cases h with
  | mark marks rest => cases hasText_of_ofChar? marks
  | word word ends => exact ends

/-- Keywords and words are made of word characters. -/
theorem chars {k : Kind} (h : Lexeme taken rest (some k)) (hk : k = .operator ∨ k = .operand) :
    ∀ c ∈ taken, isWordChar c = true := by
  rcases hk with rfl | rfl
  · obtain ⟨⟨op, rfl⟩, -⟩ := h.isKeyword
    exact fun c hc => isWordChar_of_mem_keyword hc
  · exact h.isWord.chars

/-- The characters of tokens are visible, those that are no tokens are not. -/
theorem visible_iff (h : Lexeme taken rest kind) {c : Char} (hc : c ∈ taken) :
    Visible c ↔ kind.isSome = true := by
  have hword (h : isWordChar c = true) : Visible c ↔ true = true := by simp [Visible, h]
  cases h with
  | mark marks rest =>
    obtain rfl := List.mem_singleton.1 hc
    simp [Visible, marks]
  | keyword op ends => exact hword (isWordChar_of_mem_keyword hc)
  | word word ends => exact hword (word.chars c hc)
  | other unmarked other rest =>
    obtain rfl := List.mem_singleton.1 hc
    simp [Visible, unmarked, other]

/-- **At one place stands one lexeme.** -/
theorem unique {taken' rest' : List Char} {kind' : Option Kind} (h : Lexeme taken rest kind)
    (h' : Lexeme taken' rest' kind') (htext : taken ++ rest = taken' ++ rest') :
    taken = taken' ∧ rest = rest' ∧ kind = kind' := by
  obtain ⟨c, cs, rfl⟩ := List.exists_cons_of_ne_nil h.ne_nil
  obtain ⟨c', cs', rfl⟩ := List.exists_cons_of_ne_nil h'.ne_nil
  obtain ⟨rfl, hrest⟩ := List.cons.inj htext
  have hrest : cs ++ rest = cs' ++ rest' := hrest
  have hfound := h.eq_lexeme rfl
  rw [hrest, h'.eq_lexeme rfl] at hfound
  obtain ⟨rfl, hlength⟩ := Prod.mk.inj hfound
  obtain ⟨rfl, rfl⟩ := List.append_inj hrest hlength.symm
  exact ⟨rfl, rfl, rfl⟩

end Lexeme

theorem CalledFor.lexeme {t : Token} {after : List Char} (h : t.CalledFor after) :
    Lexeme t.text.toList after (some t.kind) := by
  by_cases hoperator : t.kind = .operator
  · obtain ⟨hkeyword, hname⟩ := h.operator.1 hoperator
    obtain ⟨op, hop⟩ := Option.isSome_iff_exists.1 hkeyword
    rw [hoperator, ← Operator.ofKeyword?_eq_some_iff.1 hop]
    exact .keyword op hname
  · by_cases hoperand : t.kind = .operand
    · obtain ⟨hne, hchars, hends, hprefix⟩ := h.operand hoperand
      rw [hoperand]
      refine .word ⟨fun hnil => hne (String.toList_eq_nil_iff.1 hnil), hchars, ?_⟩ hends
      rw [Option.eq_none_iff_forall_ne_some]
      intro word hword
      obtain ⟨op, rest, -, hcs, hname⟩ := keywordAt?_eq_some_iff.1 hword
      have hlike := hprefix op rest hcs
      rw [startsLikeName_append hends, hname] at hlike
      cases hlike
    · obtain ⟨c, hc⟩ := exists_ofChar?_eq hoperator hoperand
      rw [(h.mark hc).1 rfl]
      exact .mark hc after

/-- What else could be called for would be a lexeme as well, at the same place. -/
theorem Lexeme.calledFor {t : Token} {after : List Char}
    (h : Lexeme t.text.toList after (some t.kind)) : t.CalledFor after where
  mark := by
    intro c kind hc
    refine ⟨fun hkind => h.isMark (hkind ▸ hc), fun htext => ?_⟩
    have hmark : Lexeme t.text.toList after (some kind) := htext ▸ .mark hc after
    exact Option.some.inj (h.unique hmark rfl).2.2
  operator := by
    refine ⟨fun hkind => ?_, fun ⟨hkeyword, hname⟩ => ?_⟩
    · rw [hkind] at h
      obtain ⟨⟨op, htext⟩, hname⟩ := h.isKeyword
      exact ⟨Option.isSome_of_eq_some
        (Operator.ofKeyword?_eq_some_iff.2 (String.toList_inj.1 htext.symm)), hname⟩
    · obtain ⟨op, hop⟩ := Option.isSome_iff_exists.1 hkeyword
      have hkeyword : Lexeme t.text.toList after (some .operator) :=
        Operator.ofKeyword?_eq_some_iff.1 hop ▸ .keyword op hname
      exact Option.some.inj (h.unique hkeyword rfl).2.2
  operand := by
    intro hkind
    rw [hkind] at h
    refine ⟨fun hnil => h.ne_nil (String.toList_eq_nil_iff.2 hnil), h.isWord.chars, h.endsWord,
      fun op rest htext => ?_⟩
    rw [← Bool.not_eq_false]
    intro hname
    obtain ⟨-, -, hkinds⟩ := h.unique (.keyword op hname) (by rw [htext, List.append_assoc])
    cases hkinds

/-! ## Scanning -/

section Scanning

variable {offset : Nat} {taken rest : List Char} {kind : Option Kind} {t : Token}

/-- The token of a lexeme ends where the next lexeme starts. -/
theorem stop_of_mem_ofLexeme (h : t ∈ ofLexeme offset taken kind) :
    t.offset + t.text.utf8ByteSize = offset + byteLength taken := by
  obtain ⟨-, rfl, rfl⟩ := mem_ofLexeme_iff.1 h
  rw [byteLength_toList]

/-- **Tokens come one behind the other.** -/
theorem pairwise_before_scanFrom (cs : List Char) : ∀ offset,
    (scanFrom offset cs).Pairwise Before := by
  induction cs using lexeme_induction with
  | nil =>
    intro offset
    rw [scanFrom]
    exact .nil
  | @lexeme taken rest kind h ih =>
    intro offset
    rw [scanFrom_append h, List.pairwise_append]
    refine ⟨?_, ih _, fun t ht u hu => ?_⟩
    · cases kind with
      | none => exact .nil
      | some kind => exact List.pairwise_singleton _ _
    · have hstop := stop_of_mem_ofLexeme ht
      have hnext := le_offset_of_mem_scanFrom hu
      have hpos := byteLength_pos h.ne_nil
      obtain ⟨-, -, hstart⟩ := mem_ofLexeme_iff.1 ht
      exact ⟨by omega, by omega⟩

/-- **A word right behind a lexeme** is parted from it. -/
theorem Lexeme.parted {after : List Char} (h : Lexeme taken (t.text.toList ++ after) kind)
    (hnext : Lexeme t.text.toList after (some t.kind))
    (hkind : t.kind = .operator ∨ t.kind = .operand)
    (hoffset : t.offset = offset + byteLength taken) :
    t.Parted (ofLexeme offset taken kind) taken := by
  intro c hc
  obtain ⟨d, ds, htext⟩ := List.exists_cons_of_ne_nil hnext.ne_nil
  have hd : isWordChar d = true := hnext.chars hkind d (htext ▸ List.mem_cons_self ..)
  cases h with
  | @mark m kind marks =>
    obtain rfl : m = c := Option.some.inj hc
    left
    rw [← Bool.not_eq_true]
    intro hword
    rw [ofChar?_eq_none hword] at marks
    cases marks
  | keyword op ends =>
    -- the word starts like no name, so it starts with a digit and is no keyword
    have hdigit : d.isDigit = true := by
      rw [htext] at ends
      exact isDigit_of_not_startsLikeName hd ends
    have hoperand : t.kind = .operand := by
      refine hkind.resolve_left fun hoperator => ?_
      rw [hoperator] at hnext
      obtain ⟨⟨op', hop'⟩, -⟩ := hnext.isKeyword
      rw [hop', startsLikeName_keyword_append] at ends
      cases ends
    have hu : (⟨.operator, op.keyword, offset⟩ : Token) ∈
        ofLexeme offset op.keyword.toList (some .operator) := mem_ofLexeme_iff.2 ⟨rfl, rfl, rfl⟩
    exact Or.inr ⟨hoperand, ⟨d, by rw [htext]; rfl, hdigit⟩, _, hu, rfl,
      (stop_of_mem_ofLexeme hu).trans hoffset.symm⟩
  | word word ends =>
    have hnone := ends d (by rw [htext]; rfl)
    rw [hd] at hnone
    cases hnone
  | @other o unmarked other =>
    obtain rfl : o = c := Option.some.inj hc
    exact Or.inl other

theorem Parted.mono {ts us : List Token} {before : List Char} (h : t.Parted ts before)
    (hsub : ∀ u ∈ ts, u ∈ us) : t.Parted us before := by
  intro c hc
  rcases h c hc with hword | ⟨hkind, hdigit, u, hu, hoperator⟩
  · exact Or.inl hword
  · exact Or.inr ⟨hkind, hdigit, u, hsub u hu, hoperator⟩

/-- **Each token stands where it says**, as a lexeme of its kind. -/
theorem exists_stand_of_mem_scanFrom {cs : List Char} : ∀ {offset : Nat},
    t ∈ scanFrom offset cs → ∃ before after, cs = before ++ (t.text.toList ++ after) ∧
      t.offset = offset + byteLength before ∧ Lexeme t.text.toList after (some t.kind) ∧
      (t.kind = .operator ∨ t.kind = .operand → t.Parted (scanFrom offset cs) before) := by
  induction cs using lexeme_induction with
  | nil =>
    intro offset ht
    rw [scanFrom] at ht
    cases ht
  | @lexeme taken rest kind h ih =>
    intro offset ht
    rw [scanFrom_append h] at ht ⊢
    rcases List.mem_append.1 ht with ht | ht
    · obtain ⟨rfl, rfl, rfl⟩ := mem_ofLexeme_iff.1 ht
      refine ⟨[], rest, rfl, rfl, h, fun _ c hc => ?_⟩
      cases hc
    · obtain ⟨before, after, rfl, hoffset, hlexeme, hparted⟩ := ih ht
      refine ⟨taken ++ before, after, (List.append_assoc ..).symm, ?_, hlexeme, fun hkind => ?_⟩
      · rw [byteLength_append, hoffset, Nat.add_assoc]
      · cases before with
        | nil =>
          rw [List.append_nil]
          exact (h.parted hlexeme hkind hoffset).mono fun u hu => List.mem_append_left _ hu
        | cons b before =>
          intro c hc
          rw [List.getLast?_append_of_ne_nil _ (List.cons_ne_nil b before)] at hc
          exact (hparted hkind).mono (fun u hu => List.mem_append_right _ hu) c hc

/-- A character stands in the first lexeme or behind it. -/
theorem inside_or_behind {before after : List Char} {c : Char}
    (h : taken ++ rest = before ++ c :: after) :
    (∃ us, taken = before ++ c :: us) ∨
      ∃ before', before = taken ++ before' ∧ rest = before' ++ c :: after := by
  rcases List.append_eq_append_iff.1 h with ⟨before', hbefore, hrest⟩ | ⟨us, htaken, hus⟩
  · exact Or.inr ⟨before', hbefore, hrest⟩
  · cases us with
    | nil => exact Or.inr ⟨[], by rw [htaken, List.append_nil, List.append_nil], hus.symm⟩
    | cons u us =>
      obtain ⟨rfl, -⟩ := List.cons.inj hus
      exact Or.inl ⟨us, htaken⟩

/-- **The visible characters are those that tokens cover.** -/
theorem exists_covers_scanFrom_iff {c : Char} {after cs : List Char} : ∀ {offset before},
    cs = before ++ c :: after →
      ((∃ t ∈ scanFrom offset cs, t.Covers (offset + byteLength before)) ↔ Visible c) := by
  induction cs using lexeme_induction with
  | nil =>
    intro offset before h
    exact absurd h.symm (List.append_ne_nil_of_right_ne_nil _ (List.cons_ne_nil c after))
  | @lexeme taken rest kind h ih =>
    intro offset before hcs
    rw [scanFrom_append h]
    rcases inside_or_behind hcs with ⟨us, htaken⟩ | ⟨before, rfl, hrest⟩
    · have hinside : byteLength before < byteLength taken := by
        have hpos := byteLength_pos (List.cons_ne_nil c us)
        rw [htaken, byteLength_append]
        omega
      rw [h.visible_iff (by rw [htaken]; exact List.mem_append_right _ (List.mem_cons_self ..))]
      constructor
      · rintro ⟨t, ht, hstart, -⟩
        rcases List.mem_append.1 ht with ht | ht
        · rw [(mem_ofLexeme_iff.1 ht).1]
          rfl
        · have hnext := le_offset_of_mem_scanFrom ht
          omega
      · intro hsome
        obtain ⟨k, rfl⟩ := Option.isSome_iff_exists.1 hsome
        have ht : (⟨k, String.ofList taken, offset⟩ : Token) ∈ ofLexeme offset taken (some k) :=
          mem_ofLexeme_iff.2 ⟨rfl, String.toList_ofList.symm, rfl⟩
        refine ⟨_, List.mem_append_left _ ht, Nat.le_add_right offset _, ?_⟩
        rw [stop_of_mem_ofLexeme ht]
        omega
    · rw [byteLength_append, ← Nat.add_assoc, ← ih hrest]
      constructor
      · rintro ⟨t, ht, hcovers⟩
        rcases List.mem_append.1 ht with ht | ht
        · have hstop := stop_of_mem_ofLexeme ht
          have hcovered := hcovers.2
          omega
        · exact ⟨t, ht, hcovers⟩
      · rintro ⟨t, ht, hcovers⟩
        exact ⟨t, List.mem_append_right _ ht, hcovers⟩

/-- Of two tokens one stands before the other. -/
theorem before_or_before {ts : List Token} {u : Token} (h : ts.Pairwise Before) (ht : t ∈ ts)
    (hu : u ∈ ts) (hne : t ≠ u) : t.Before u ∨ u.Before t := by
  have hsymm : Std.Symm fun t u : Token => t.Before u ∨ u.Before t := ⟨fun _ _ => Or.symm⟩
  have heither : ts.Pairwise fun t u => t.Before u ∨ u.Before t := h.imp Or.inl
  exact heither.forall ht hu hne

/-- Tokens that stand one behind the other cover no place twice. -/
theorem eq_of_covers {ts : List Token} {u : Token} (h : ts.Pairwise Before) (ht : t ∈ ts)
    (hu : u ∈ ts) {place : Nat} (htplace : t.Covers place) (huplace : u.Covers place) :
    t = u := by
  by_contra hne
  obtain ⟨htstart, htstop⟩ := htplace
  obtain ⟨hustart, hustop⟩ := huplace
  rcases before_or_before h ht hu hne with ⟨-, hbefore⟩ | ⟨-, hbefore⟩
  · omega
  · omega

end Scanning

theorem exists_covers_scan_iff {text before after : String} {c : Char}
    (h : text = before ++ String.singleton c ++ after) :
    (∃ t ∈ scan text, t.Covers before.utf8ByteSize) ↔ Visible c := by
  have hcs : text.toList = before.toList ++ c :: after.toList := by
    rw [h, String.toList_append, String.toList_append, String.toList_singleton, List.append_assoc]
    rfl
  rw [scan, ← exists_covers_scanFrom_iff hcs, byteLength_toList, Nat.zero_add]

/-- **What the scanner finds is a tokenization.** -/
theorem tokenization_scan (text : String) : Tokenization text (scan text) where
  apart := pairwise_before_scanFrom _ _
  stands := by
    intro t ht
    obtain ⟨before, after, hcs, hoffset, hlexeme, hparted⟩ := exists_stand_of_mem_scanFrom ht
    refine ⟨String.ofList before, String.ofList after, ?_, ?_, ?_, ?_⟩
    · rw [← String.toList_inj, String.toList_append, String.toList_append, String.toList_ofList,
        String.toList_ofList, List.append_assoc, hcs]
    · rw [hoffset, Nat.zero_add, byteLength_eq]
    · rw [String.toList_ofList]
      exact hlexeme.calledFor
    · rw [String.toList_ofList]
      exact hparted
  covered := by
    intro before c after htext hc
    obtain ⟨t, ht, hcovers⟩ := (exists_covers_scan_iff htext).2 hc
    exact ⟨t, ⟨ht, hcovers⟩, fun u ⟨hu, hucovers⟩ =>
      eq_of_covers (pairwise_before_scanFrom _ _) hu ht hucovers hcovers⟩
  dropped := by
    intro before c after htext hc t ht hcovers
    exact hc ((exists_covers_scan_iff htext).1 ⟨t, ht, hcovers⟩)

/-! ## Uniqueness -/

/-- A token begins with a visible character. -/
theorem CalledFor.exists_visible {t : Token} {after : List Char} (h : t.CalledFor after) :
    ∃ c rest, t.text = String.singleton c ++ rest ∧ Visible c := by
  obtain ⟨c, cs, hcs⟩ := List.exists_cons_of_ne_nil h.lexeme.ne_nil
  refine ⟨c, String.ofList cs, ?_, ?_⟩
  · rw [← String.toList_inj, hcs, String.toList_append, String.toList_singleton,
      String.toList_ofList]
    rfl
  · exact (h.lexeme.visible_iff (by rw [hcs]; exact List.mem_cons_self ..)).2 rfl

/-- A token covers the place that it begins at. -/
theorem CalledFor.covers_offset {t : Token} {after : List Char} (h : t.CalledFor after) :
    t.Covers t.offset := by
  have hpos := byteLength_pos h.lexeme.ne_nil
  rw [byteLength_toList] at hpos
  exact ⟨Nat.le_refl _, by omega⟩

namespace Tokenization

variable {text : String} {ts us : List Token} {t u : Token}

/-- Of two tokenizations tokens at the same place are the same. -/
theorem eq_of_offset_eq (hts : Tokenization text ts) (hus : Tokenization text us) (ht : t ∈ ts)
    (hu : u ∈ us) (hoffset : t.offset = u.offset) : t = u := by
  obtain ⟨before, after, htext, hplace, hcalled, -⟩ := hts.stands t ht
  obtain ⟨before', after', htext', hplace', hcalled', -⟩ := hus.stands u hu
  rw [String.append_assoc] at htext htext'
  obtain ⟨-, hsame⟩ := String.append_inj_of_utf8ByteSize (htext.symm.trans htext') (by omega)
  have hchars := congrArg String.toList hsame
  rw [String.toList_append, String.toList_append] at hchars
  obtain ⟨hword, -, hkind⟩ := hcalled.lexeme.unique hcalled'.lexeme hchars
  obtain ⟨kind, word, offset⟩ := t
  obtain rfl := hoffset
  obtain rfl : word = u.text := String.toList_inj.1 hword
  obtain rfl : kind = u.kind := Option.some.inj hkind
  rfl

/-- **A token of one tokenization is a token of the other.** -/
theorem mem (hts : Tokenization text ts) (hus : Tokenization text us) (ht : t ∈ ts) :
    t ∈ us := by
  induction hn : t.offset using Nat.strongRecOn generalizing t ts us with
  | ind n ih =>
    obtain ⟨before, after, htext, hplace, hcalled, -⟩ := hts.stands t ht
    obtain ⟨c, rest, hword, hc⟩ := hcalled.exists_visible
    have hat : text = before ++ String.singleton c ++ (rest ++ after) := by
      rw [htext, hword, String.append_assoc, String.append_assoc, String.append_assoc]
    obtain ⟨u, ⟨hu, hcovers⟩, -⟩ := hus.covered before c (rest ++ after) hat hc
    rw [← hplace] at hcovers
    rcases Nat.lt_or_eq_of_le hcovers.1 with hlt | heq
    · -- a token that begins earlier would be one of `ts`, with `t` on top of it
      have hu' : u ∈ ts := ih u.offset (hn ▸ hlt) hus hts hu rfl
      obtain rfl := eq_of_covers hts.apart hu' ht hcovers hcalled.covers_offset
      exact hu
    · obtain rfl := hts.eq_of_offset_eq hus ht hu heq.symm
      exact hu

/-- **A text has one tokenization only.** -/
theorem unique (hts : Tokenization text ts) (hus : Tokenization text us) : ts = us := by
  have hirrefl : Std.Irrefl Before := ⟨fun t h => Nat.lt_irrefl _ h.1⟩
  have hantisymm : Std.Antisymm Before := ⟨fun t u h h' => absurd h'.1 (Nat.lt_asymm h.1)⟩
  exact hts.apart.eq_of_mem_iff hus.apart fun t => ⟨hts.mem hus, hus.mem hts⟩

end Tokenization

/-- **The tokens of a text** are what the scanner finds, and nothing else is.  They stand in the
    text one behind the other, take in all of its marks and word characters and nothing else, and
    are of the kinds that their texts call for. -/
theorem scan_eq_iff {text : String} {ts : List Token} : scan text = ts ↔ Tokenization text ts := by
  constructor
  · rintro rfl
    exact tokenization_scan text
  · exact (tokenization_scan text).unique

/-- A keyword counts where a digit follows it, but not within a run of letters. -/
example : scan "(ÄaGT ^GT30)" = [⟨.openParen, "(", 0⟩, ⟨.operand, "aGT", 3⟩, ⟨.separator, "^", 7⟩,
    ⟨.operator, "GT", 8⟩, ⟨.operand, "30", 10⟩, ⟨.closeParen, ")", 12⟩] := by decide +kernel

end Token

end Caret
