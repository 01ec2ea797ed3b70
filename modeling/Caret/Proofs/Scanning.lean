/-
  What the scanner makes of marks, keywords and words, and which words it can make.

  A WORD (`IsWord`) is a run of word characters at whose start no keyword stands: `ORDER` and
  `30GT` are words, `GT` and `GT30` are not.  Words are exactly the texts that are scanned as one
  operand (`isWord_iff_scan`), and every operand that the scanner makes of any text is a word
  (`isWord_of_mem_scanFrom`).

  1. **Keywords** — of two keywords that could stand at one place one goes on with a letter where
     the other ends, so at most one stands there (`keywordAt?_eq_some_iff`).  Whether one does
     depends on the character after it only as far as that is a word character
     (`keywordAt?_append`).

  2. **Sizes** — offsets count the bytes of UTF-8, for lists of characters as for texts.

  3. **Lexemes** — `Lexeme taken rest kind` lists all that can stand in front of `rest`: a mark, a
     keyword, a word, or a character that counts for nothing.  A text that is not empty begins with
     a lexeme (`exists_lexeme`), and that is the one which the scanner takes (`scanFrom_append`).
     Nothing below unfolds `lexeme` or `scanFrom`; proofs go from lexeme to lexeme
     (`lexeme_induction`).
-/
import Mathlib.Data.List.Find
import Caret.Token.Scan
import Caret.Number.ReadBack

namespace Caret

namespace Token

/-! ## Words -/

/-- What follows does not go on with a word character. -/
def EndsWord (rest : List Char) : Prop := ∀ c, rest.head? = some c → isWordChar c = false

/-- A run of word characters at whose start no keyword stands. -/
structure IsWord (w : List Char) : Prop where
  ne_nil : w ≠ []
  chars : ∀ c ∈ w, isWordChar c = true
  plain : keywordAt? w = none

instance (w : List Char) : Decidable (IsWord w) :=
  decidable_of_iff (w ≠ [] ∧ w.all isWordChar = true ∧ keywordAt? w = none)
    ⟨fun ⟨hne, hchars, hplain⟩ => ⟨hne, List.all_eq_true.1 hchars, hplain⟩,
      fun h => ⟨h.ne_nil, List.all_eq_true.2 h.chars, h.plain⟩⟩

/-- A word character is not structural. -/
theorem ofChar?_eq_none {c : Char} (h : isWordChar c = true) : Kind.ofChar? c = none := by
  rw [Kind.ofChar?.eq_def]
  split
  case h_7 => rfl
  all_goals exact absurd h (by decide)

theorem isWordChar_of_startsLikeName {c : Char} {cs : List Char}
    (h : startsLikeName (c :: cs) = true) : isWordChar c = true := by
  rw [startsLikeName] at h
  rw [isWordChar, Char.isAlphanum]
  cases hc : c.isAlpha with
  | true => rfl
  | false =>
    rw [hc, Bool.false_or] at h
    rw [h, Bool.or_true]

/-- Of word characters only digits do not start a name. -/
theorem isDigit_of_not_startsLikeName {c : Char} {cs : List Char} (hc : isWordChar c = true)
    (h : startsLikeName (c :: cs) = false) : c.isDigit = true := by
  have hname : (c.isAlpha || decide (c = '_')) = false := h
  obtain ⟨halpha, hunderscore⟩ := Bool.or_eq_false_iff.1 hname
  rw [isWordChar, Char.isAlphanum, halpha, hunderscore, Bool.false_or, Bool.or_false] at hc
  exact hc

/-- No name starts where a word ends. -/
theorem EndsWord.startsLikeName {rest : List Char} (h : EndsWord rest) :
    startsLikeName rest = false := by
  cases rest with
  | nil => rfl
  | cons c cs =>
    rw [← Bool.not_eq_true]
    intro hname
    have hc := isWordChar_of_startsLikeName hname
    rw [h c rfl] at hc
    cases hc

theorem startsLikeName_append {cs rest : List Char} (h : EndsWord rest) :
    startsLikeName (cs ++ rest) = startsLikeName cs := by
  cases cs with
  | cons c cs => rfl
  | nil => exact h.startsLikeName

/-! ## Keywords -/

/-- Keywords are made of word characters. -/
theorem keyword_chars : ∀ word ∈ keywords, ∀ c ∈ word, isWordChar c = true := by
  have key : keywords.all (List.all · isWordChar) = true := by decide
  exact fun word hword => List.all_eq_true.1 (List.all_eq_true.1 key word hword)

theorem isWordChar_of_mem_keyword {op : Operator} {c : Char} (hc : c ∈ op.keyword.toList) :
    isWordChar c = true :=
  keyword_chars _ (List.mem_map_of_mem (Operator.mem_all op)) c hc

/-- Where a word ends, nothing behind it helps a keyword to stand at its start. -/
theorem isPrefixOf_append {word : List Char} (hw : ∀ c ∈ word, isWordChar c = true)
    {rest : List Char} (h : EndsWord rest) :
    ∀ cs : List Char, word.isPrefixOf (cs ++ rest) = word.isPrefixOf cs := by
  induction word with
  | nil => intro cs; rw [List.isPrefixOf_nil_left, List.isPrefixOf_nil_left]
  | cons k word ih =>
    obtain ⟨hk, hword⟩ := List.forall_mem_cons.1 hw
    intro cs
    cases cs with
    | cons c cs =>
      rw [List.cons_append, List.isPrefixOf_cons_cons, List.isPrefixOf_cons_cons, ih hword]
    | nil =>
      cases rest with
      | nil => rfl
      | cons d ds =>
        have hne : (k == d) = false := by
          rw [← Bool.not_eq_true, beq_iff_eq]
          rintro rfl
          rw [h k rfl] at hk
          cases hk
        rw [List.nil_append, List.isPrefixOf_cons_cons, hne, Bool.false_and]
        rfl

/-- **What follows a word does not matter** to whether a keyword stands at its start. -/
theorem keywordAt?_append (cs : List Char) {rest : List Char} (h : EndsWord rest) :
    keywordAt? (cs ++ rest) = keywordAt? cs := by
  rw [keywordAt?, keywordAt?]
  refine List.find?_congr fun word hword => ?_
  rw [isPrefixOf_append (keyword_chars word hword) h]
  cases hp : word.isPrefixOf cs with
  | false => rfl
  | true =>
    have hlen := (List.isPrefixOf_iff_prefix.1 hp).length_le
    rw [List.drop_append_of_le_length hlen, startsLikeName_append h]

/-- Only what stands first in a text can make it start like a name. -/
theorem startsLikeName_append_of_true {cs : List Char} (h : startsLikeName cs = true)
    (rest : List Char) : startsLikeName (cs ++ rest) = true := by
  cases cs with
  | nil => cases h
  | cons c cs => exact h

/-- Keywords begin with a letter. -/
theorem startsLikeName_keyword_append (op : Operator) (rest : List Char) :
    startsLikeName (op.keyword.toList ++ rest) = true := by
  have key : ∀ op ∈ Operator.all, startsLikeName op.keyword.toList = true := by decide
  exact startsLikeName_append_of_true (key op (Operator.mem_all op)) rest

/-- Where a keyword starts a longer one, a letter follows it. -/
theorem eq_or_startsLikeName_drop {op op' : Operator}
    (h : op.keyword.toList <+: op'.keyword.toList) :
    op = op' ∨ startsLikeName (op'.keyword.toList.drop op.keyword.toList.length) = true := by
  have key : ∀ op ∈ Operator.all, ∀ op' ∈ Operator.all, op.keyword.toList <+: op'.keyword.toList →
      op = op' ∨ startsLikeName (op'.keyword.toList.drop op.keyword.toList.length) = true := by
    decide
  exact key op (Operator.mem_all op) op' (Operator.mem_all op') h

/-- At one place stands at most one keyword. -/
theorem keyword_unique {op op' : Operator} {rest rest' : List Char}
    (h : op.keyword.toList ++ rest = op'.keyword.toList ++ rest')
    (hrest : startsLikeName rest = false) (hrest' : startsLikeName rest' = false) : op = op' := by
  rcases List.append_eq_append_iff.1 h with ⟨more, hkeyword, rfl⟩ | ⟨more, hkeyword, rfl⟩
  · rcases eq_or_startsLikeName_drop ⟨more, hkeyword.symm⟩ with heq | hname
    · exact heq
    · rw [hkeyword, List.drop_left] at hname
      rw [startsLikeName_append_of_true hname rest'] at hrest
      cases hrest
  · rcases eq_or_startsLikeName_drop ⟨more, hkeyword.symm⟩ with heq | hname
    · exact heq.symm
    · rw [hkeyword, List.drop_left] at hname
      rw [startsLikeName_append_of_true hname rest] at hrest'
      cases hrest'

/-- **Keywords in plain terms.** -/
theorem keywordAt?_eq_some_iff {cs word : List Char} :
    keywordAt? cs = some word ↔ ∃ (op : Operator) (rest : List Char),
      word = op.keyword.toList ∧ cs = op.keyword.toList ++ rest ∧ startsLikeName rest = false := by
  -- whatever word is found is a keyword that stands there
  have hfound : ∀ {word}, keywordAt? cs = some word → ∃ (op : Operator) (rest : List Char),
      word = op.keyword.toList ∧ cs = op.keyword.toList ++ rest ∧ startsLikeName rest = false := by
    intro word h
    rw [keywordAt?] at h
    obtain ⟨op, -, rfl⟩ := List.mem_map.1 (List.mem_of_find?_eq_some h)
    have hstands := List.find?_some h
    obtain ⟨hstarts, hname⟩ := Bool.and_eq_true_iff.1 hstands
    obtain ⟨rest, rfl⟩ := List.isPrefixOf_iff_prefix.1 hstarts
    rw [List.drop_left, Bool.not_eq_true'] at hname
    exact ⟨op, rest, rfl, rfl, hname⟩
  constructor
  · exact hfound
  · rintro ⟨op, rest, rfl, hcs, hname⟩
    have hsome : (keywordAt? cs).isSome := by
      rw [keywordAt?, List.find?_isSome]
      refine ⟨op.keyword.toList, List.mem_map_of_mem (Operator.mem_all op), ?_⟩
      simp [hcs, List.isPrefixOf_iff_prefix, hname]
    obtain ⟨word, hword⟩ := Option.isSome_iff_exists.1 hsome
    obtain ⟨op', rest', rfl, hcs', hname'⟩ := hfound hword
    rw [hword, keyword_unique (hcs'.symm.trans hcs) hname' hname]

/-! ## Sizes -/

/-- The bytes of a list of characters are those of the text that they make up. -/
theorem byteLength_eq (cs : List Char) : byteLength cs = (String.ofList cs).utf8ByteSize := by
  induction cs with
  | nil => rfl
  | cons c cs ih =>
    have hsplit : String.ofList (c :: cs) = String.singleton c ++ String.ofList cs := by
      rw [String.singleton_eq_ofList, ← String.ofList_append]
      rfl
    rw [hsplit, String.utf8ByteSize_append, String.utf8ByteSize_singleton, byteLength, ih]

theorem byteLength_toList (s : String) : byteLength s.toList = s.utf8ByteSize := by
  rw [byteLength_eq, String.ofList_toList]

theorem byteLength_append (cs ds : List Char) :
    byteLength (cs ++ ds) = byteLength cs + byteLength ds := by
  rw [byteLength_eq, byteLength_eq, byteLength_eq, String.ofList_append,
    String.utf8ByteSize_append]

theorem byteLength_pos {cs : List Char} (h : cs ≠ []) : 0 < byteLength cs := by
  obtain ⟨c, ds, rfl⟩ := List.exists_cons_of_ne_nil h
  have hc := c.utf8Size_pos
  rw [byteLength]
  omega

/-! ## Lexemes -/

/-- In front of `rest` stands the lexeme `taken`: a token of some kind, or a character that is
    none. -/
inductive Lexeme : List Char → List Char → Option Kind → Prop where
  | mark {c : Char} {kind : Kind} (marks : Kind.ofChar? c = some kind) (rest : List Char) :
      Lexeme [c] rest (some kind)
  | keyword (op : Operator) {rest : List Char} (ends : startsLikeName rest = false) :
      Lexeme op.keyword.toList rest (some .operator)
  | word {w rest : List Char} (word : IsWord w) (ends : EndsWord rest) :
      Lexeme w rest (some .operand)
  | other {c : Char} (unmarked : Kind.ofChar? c = none) (other : isWordChar c = false)
      (rest : List Char) : Lexeme [c] rest none

/-- The token of a lexeme, if it is one. -/
def ofLexeme (offset : Nat) (taken : List Char) (kind : Option Kind) : List Token :=
  (kind.map fun kind => ⟨kind, String.ofList taken, offset⟩).toList

/-- The token of a lexeme, if any, has its kind, its text and its place. -/
theorem mem_ofLexeme_iff {offset : Nat} {taken : List Char} {kind : Option Kind} {t : Token} :
    t ∈ ofLexeme offset taken kind ↔
      kind = some t.kind ∧ taken = t.text.toList ∧ offset = t.offset := by
  cases kind with
  | none => exact ⟨(nomatch ·), fun h => nomatch h.1⟩
  | some kind =>
    constructor
    · intro h
      obtain rfl := List.mem_singleton.1 h
      exact ⟨rfl, String.toList_ofList.symm, rfl⟩
    · rintro ⟨hkind, rfl, rfl⟩
      obtain rfl := Option.some.inj hkind
      refine List.mem_singleton.2 ?_
      rw [String.ofList_toList]

/-- A run of word characters is taken to its end. -/
theorem endsWord_dropWhile (cs : List Char) : EndsWord (cs.dropWhile isWordChar) := by
  intro c hc
  have := List.head?_dropWhile_not isWordChar cs
  rw [hc] at this
  simpa using this

/-- **Every text begins with a lexeme**, unless it is empty. -/
theorem exists_lexeme (c : Char) (cs : List Char) :
    ∃ taken rest kind, c :: cs = taken ++ rest ∧ Lexeme taken rest kind := by
  cases hmark : Kind.ofChar? c with
  | some kind => exact ⟨[c], cs, some kind, rfl, .mark hmark cs⟩
  | none =>
    cases hat : keywordAt? (c :: cs) with
    | some word =>
      obtain ⟨op, rest, -, hcs, hname⟩ := keywordAt?_eq_some_iff.1 hat
      exact ⟨_, rest, _, hcs, .keyword op hname⟩
    | none =>
      by_cases hc : isWordChar c = true
      · have hsplit := List.takeWhile_append_dropWhile (p := isWordChar) (l := c :: cs)
        have hends := endsWord_dropWhile (c :: cs)
        refine ⟨_, _, _, hsplit.symm, .word ⟨?_, List.all_eq_true.1 List.all_takeWhile, ?_⟩ hends⟩
        · rw [List.takeWhile_cons_of_pos hc]
          exact List.cons_ne_nil _ _
        · rw [← keywordAt?_append _ hends, hsplit, hat]
      · exact ⟨[c], cs, none, rfl, .other hmark (Bool.not_eq_true _ ▸ hc) cs⟩

namespace Lexeme

variable {taken rest : List Char} {kind : Option Kind}

theorem ne_nil (h : Lexeme taken rest kind) : taken ≠ [] := by
  cases h with
  | mark marks rest => exact List.cons_ne_nil _ _
  | keyword op ends =>
    intro hnil
    have hname := startsLikeName_keyword_append op []
    rw [hnil] at hname
    cases hname
  | word word ends => exact word.ne_nil
  | other unmarked other rest => exact List.cons_ne_nil _ _

/-- The scanner finds the lexeme that stands there. -/
theorem eq_lexeme (h : Lexeme taken rest kind) :
    ∀ {c : Char} {cs : List Char}, taken = c :: cs → lexeme c (cs ++ rest) = (kind, cs.length) := by
  intro c cs hcs
  cases h with
  | mark marks rest =>
    obtain ⟨rfl, rfl⟩ := List.cons.inj hcs
    rw [lexeme, marks]
    rfl
  | keyword op ends =>
    have hstart : op.keyword.toList ++ rest = c :: (cs ++ rest) := by rw [hcs]; rfl
    have hat : keywordAt? (c :: (cs ++ rest)) = some (c :: cs) :=
      keywordAt?_eq_some_iff.2 ⟨op, rest, hcs.symm, hstart.symm, ends⟩
    have hc : isWordChar c = true :=
      isWordChar_of_startsLikeName (hstart ▸ startsLikeName_keyword_append op rest)
    rw [lexeme, ofChar?_eq_none hc, hat]
    rfl
  | word word ends =>
    subst hcs
    obtain ⟨hc, hchars⟩ := List.forall_mem_cons.1 word.chars
    have hat : keywordAt? (c :: (cs ++ rest)) = none := by
      rw [← List.cons_append, keywordAt?_append _ ends, word.plain]
    rw [lexeme, ofChar?_eq_none hc, hat]
    simp only [hc, if_true, List.takeWhile_append_of_all rest hchars ends]
  | @other d unmarked other rest =>
    obtain ⟨rfl, rfl⟩ := List.cons.inj hcs
    have hat : keywordAt? (d :: rest) = none := by
      rw [Option.eq_none_iff_forall_ne_some]
      intro word hword
      obtain ⟨op, rest', -, hstart, -⟩ := keywordAt?_eq_some_iff.1 hword
      -- the keyword would begin with a character that is no word character
      have hd : isWordChar d = true :=
        isWordChar_of_startsLikeName (hstart ▸ startsLikeName_keyword_append op rest')
      rw [hd] at other
      cases other
    rw [lexeme, unmarked, List.nil_append, hat]
    simp only [other]
    rfl

end Lexeme

/-- **Scanning takes lexeme after lexeme.** -/
theorem scanFrom_append {taken rest : List Char} {kind : Option Kind}
    (h : Lexeme taken rest kind) (offset : Nat) : scanFrom offset (taken ++ rest) =
      ofLexeme offset taken kind ++ scanFrom (offset + byteLength taken) rest := by
  obtain ⟨c, cs, hcs⟩ := List.exists_cons_of_ne_nil h.ne_nil
  have hfound := h.eq_lexeme hcs
  rw [hcs, List.cons_append, scanFrom, hfound]
  simp only [List.take_left, List.drop_left]
  cases kind <;> rfl

/-- To show a fact of all texts, show it of the empty one and of a lexeme before any text that has
    it. -/
@[elab_as_elim]
theorem lexeme_induction {motive : List Char → Prop} (nil : motive [])
    (lexeme : ∀ {taken rest : List Char} {kind : Option Kind}, Lexeme taken rest kind →
      motive rest → motive (taken ++ rest)) (cs : List Char) : motive cs := by
  induction hlen : cs.length using Nat.strongRecOn generalizing cs with
  | ind n ih =>
    cases cs with
    | nil => exact nil
    | cons c cs =>
      obtain ⟨taken, rest, kind, hcs, hlexeme⟩ := exists_lexeme c cs
      have hpos := List.length_pos_iff.2 hlexeme.ne_nil
      rw [hcs, List.length_append] at hlen
      rw [hcs]
      exact lexeme hlexeme (ih rest.length (by omega) rest rfl)

theorem scanFrom_mark {c : Char} {kind : Kind} (h : Kind.ofChar? c = some kind) (offset : Nat)
    (cs : List Char) :
    scanFrom offset (c :: cs) =
      ⟨kind, String.ofList [c], offset⟩ :: scanFrom (offset + byteLength [c]) cs :=
  scanFrom_append (.mark h cs) offset

theorem scanFrom_keyword (op : Operator) (offset : Nat) {rest : List Char} (h : EndsWord rest) :
    scanFrom offset (op.keyword.toList ++ rest) = ⟨.operator, op.keyword, offset⟩ ::
      scanFrom (offset + byteLength op.keyword.toList) rest := by
  rw [scanFrom_append (.keyword op h.startsLikeName), ofLexeme, Option.map_some,
    String.ofList_toList]
  rfl

theorem scanFrom_word {w : List Char} (hw : IsWord w) (offset : Nat) {rest : List Char}
    (h : EndsWord rest) :
    scanFrom offset (w ++ rest) =
      ⟨.operand, String.ofList w, offset⟩ :: scanFrom (offset + byteLength w) rest :=
  scanFrom_append (.word hw h) offset

/-- No token stands before the start. -/
theorem le_offset_of_mem_scanFrom {cs : List Char} {t : Token} : ∀ {offset : Nat},
    t ∈ scanFrom offset cs → offset ≤ t.offset := by
  induction cs using lexeme_induction with
  | nil =>
    intro offset ht
    rw [scanFrom] at ht
    cases ht
  | @lexeme taken rest kind h ih =>
    intro offset ht
    rw [scanFrom_append h] at ht
    rcases List.mem_append.1 ht with ht | ht
    · obtain ⟨-, -, rfl⟩ := mem_ofLexeme_iff.1 ht
      exact Nat.le_refl _
    · have hrest := ih ht
      omega

/-! ## Operands are words -/

/-- No character is an operator or an operand by itself. -/
theorem hasText_of_ofChar? {c : Char} {kind : Kind} (h : Kind.ofChar? c = some kind) :
    kind.hasText = false := by
  rw [Kind.ofChar?.eq_def] at h
  split at h <;> cases h <;> rfl

/-- A lexeme that is an operand is a word. -/
theorem Lexeme.isWord {taken rest : List Char} (h : Lexeme taken rest (some .operand)) :
    IsWord taken := by
  cases h with
  | mark marks rest => cases hasText_of_ofChar? marks
  | word word ends => exact word

/-- **Operands are words**, whatever the text they come from. -/
theorem isWord_of_mem_scanFrom {offset : Nat} {cs : List Char} {t : Token}
    (ht : t ∈ scanFrom offset cs) (hk : t.kind = .operand) : IsWord t.text.toList := by
  induction cs using lexeme_induction generalizing offset with
  | nil =>
    rw [scanFrom] at ht
    cases ht
  | @lexeme taken rest kind h ih =>
    rw [scanFrom_append h] at ht
    rcases List.mem_append.1 ht with ht | ht
    · obtain ⟨rfl, rfl, -⟩ := mem_ofLexeme_iff.1 ht
      rw [hk] at h
      exact h.isWord
    · exact ih ht

theorem isWord_of_mem_scan {text : String} {t : Token} (ht : t ∈ scan text)
    (hk : t.kind = .operand) : IsWord t.text.toList :=
  isWord_of_mem_scanFrom ht hk

/-- **Words are the texts that are scanned as one operand.** -/
theorem isWord_iff_scan {w : String} :
    IsWord w.toList ↔ ∃ offset, scan w = [⟨.operand, w, offset⟩] := by
  constructor
  · intro hw
    have hscan := scanFrom_word hw 0 (show EndsWord [] from fun c hc => nomatch hc)
    rw [List.append_nil, String.ofList_toList, scanFrom] at hscan
    exact ⟨0, hscan⟩
  · rintro ⟨offset, h⟩
    have hmem : (⟨.operand, w, offset⟩ : Token) ∈ scan w := by
      rw [h]
      exact List.mem_singleton_self _
    exact isWord_of_mem_scan hmem rfl

end Token

end Caret
