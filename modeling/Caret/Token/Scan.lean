/-
  From text to tokens.

  1. **Lexemes** (`lexeme`): at any point of the text stands a structural character, or a KEYWORD
     that no letter or underscore follows, or the longest run of word characters, or a character
     that counts for nothing.  Hence `GT30` is the operator `GT` and the operand `30`, while
     `ORDER` is one operand.
  2. **Scanning** (`scanFrom`) takes lexeme after lexeme and counts bytes.  It never fails; whether
     the tokens make sense is the grammar's business.
-/
import Caret.Token.Basic

namespace Caret

namespace Token

/-! ## Characters and keywords -/

/-- ASCII letters, digits and the underscore. -/
def isWordChar (c : Char) : Bool := c.isAlphanum || c = '_'

/-- Does the text go on with a letter or an underscore?  A keyword in front of it is none then. -/
def startsLikeName : List Char → Bool
  | [] => false
  | c :: _ => c.isAlpha || c = '_'

/-- The keywords as characters. -/
def keywords : List (List Char) := Operator.all.map fun op => op.keyword.toList

/-- The keyword that stands at the start of a text.  Where one keyword starts another, as in `LT`
    and `LTE`, the shorter one is followed by a letter, so there is never a choice. -/
def keywordAt? (cs : List Char) : Option (List Char) :=
  keywords.find? fun word => word.isPrefixOf cs && !startsLikeName (cs.drop word.length)

/-! ## Lexemes -/

/-- The lexeme at the start of `c :: cs`: its kind, or `none` if it is no token, and how many
    characters of `cs` belong to it. -/
def lexeme (c : Char) (cs : List Char) : Option Kind × Nat :=
  match Kind.ofChar? c with
  | some kind => (some kind, 0)
  | none =>
    match keywordAt? (c :: cs) with
    | some word => (some .operator, word.length - 1)
    | none =>
      if isWordChar c then (some .operand, (cs.takeWhile isWordChar).length) else (none, 0)

/-- The length of characters in UTF-8. -/
def byteLength : List Char → Nat
  | [] => 0
  | c :: cs => c.utf8Size + byteLength cs

/-! ## Scanning -/

/-- The tokens of a text that starts at a byte offset. -/
def scanFrom (offset : Nat) : List Char → List Token
  | [] => []
  | c :: cs =>
    let found := lexeme c cs
    let taken := c :: cs.take found.2
    let further := scanFrom (offset + byteLength taken) (cs.drop found.2)
    match found.1 with
    | some kind => ⟨kind, String.ofList taken, offset⟩ :: further
    | none => further
termination_by cs => cs.length
decreasing_by simp only [List.length_drop, List.length_cons]; omega

/-- The tokens of a text. -/
def scan (text : String) : List Token := scanFrom 0 text.toList

end Token

end Caret
