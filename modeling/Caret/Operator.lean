/-
  The operators of the condition language and the keywords they are written with.

  Five classes of operators, and `NOT` on its own.  A keyword belongs to one operator only, and
  case counts: `Operator.ofKeyword?` finds the operator of a keyword whatever its class.
-/

namespace Caret

/-! ## Vocabularies -/

/-- A class of operators, each written as a keyword. -/
class Vocabulary (α : Type) where
  /-- Every operator of the class, once. -/
  all : List α
  keyword : α → String

/-- A word that is no keyword of the class that was asked for. -/
structure UnknownKeyword where
  word : String
  deriving DecidableEq

def UnknownKeyword.message (e : UnknownKeyword) : String :=
  "unknown operator keyword '" ++ e.word ++ "'"

namespace Vocabulary

/-- The operator that a word is the keyword of. -/
def find? {α : Type} [Vocabulary α] (word : String) : Option α :=
  all.find? fun op => keyword op == word

/-- Like `find?`, with the reason for a failure. -/
def find {α : Type} [Vocabulary α] (word : String) : Except UnknownKeyword α :=
  match find? word with
  | some op => .ok op
  | none => .error ⟨word⟩

end Vocabulary

/-! ## The five classes -/

/-- Loose equality tests. -/
inductive EqualityOp where
  | eq
  | ne
  deriving DecidableEq

/-- Ordering tests over numbers. -/
inductive OrderOp where
  | lt
  | lte
  | gt
  | gte
  deriving DecidableEq

/-- Tests for a text at the start, anywhere, or at the end of another. -/
inductive TextOp where
  | startsWith
  | contains
  | endsWith
  deriving DecidableEq

/-- Tests of presence, which take no comparand. -/
inductive PresenceOp where
  | null
  | blank
  | empty
  deriving DecidableEq

/-- Connectives over an ordered list of conditions. -/
inductive Connective where
  | and
  | or
  deriving DecidableEq

def EqualityOp.keyword : EqualityOp → String
  | eq => "EQ"
  | ne => "NE"

def OrderOp.keyword : OrderOp → String
  | lt => "LT"
  | lte => "LTE"
  | gt => "GT"
  | gte => "GTE"

def TextOp.keyword : TextOp → String
  | startsWith => "SW"
  | contains => "CT"
  | endsWith => "EW"

def PresenceOp.keyword : PresenceOp → String
  | null => "NULL"
  | blank => "BLANK"
  | empty => "EMPTY"

def Connective.keyword : Connective → String
  | and => "AND"
  | or => "OR"

instance : Vocabulary EqualityOp := ⟨[.eq, .ne], EqualityOp.keyword⟩

instance : Vocabulary OrderOp := ⟨[.lt, .lte, .gt, .gte], OrderOp.keyword⟩

instance : Vocabulary TextOp := ⟨[.startsWith, .contains, .endsWith], TextOp.keyword⟩

instance : Vocabulary PresenceOp := ⟨[.null, .blank, .empty], PresenceOp.keyword⟩

instance : Vocabulary Connective := ⟨[.and, .or], Connective.keyword⟩

/-! ## All operators -/

/-- Any operator, by class. -/
inductive Operator where
  | equality (op : EqualityOp)
  | order (op : OrderOp)
  | text (op : TextOp)
  | presence (op : PresenceOp)
  | connective (op : Connective)
  | not
  deriving DecidableEq

namespace Operator

def keyword : Operator → String
  | equality op => op.keyword
  | order op => op.keyword
  | text op => op.keyword
  | presence op => op.keyword
  | connective op => op.keyword
  | not => "NOT"

/-- All fifteen operators. -/
def all : List Operator :=
  (Vocabulary.all.map equality) ++ (Vocabulary.all.map order) ++ (Vocabulary.all.map text) ++
    (Vocabulary.all.map presence) ++ (Vocabulary.all.map connective) ++ [not]

instance : Vocabulary Operator := ⟨all, keyword⟩

/-- The operator of a keyword, `none` for any other word. -/
def ofKeyword? (word : String) : Option Operator := Vocabulary.find? word

theorem mem_all (op : Operator) : op ∈ all := by
  rcases op with ⟨⟨⟩⟩ | ⟨⟨⟩⟩ | ⟨⟨⟩⟩ | ⟨⟨⟩⟩ | ⟨⟨⟩⟩ | _ <;> decide

/-- Different operators have different keywords. -/
theorem keyword_injective {a b : Operator} (h : a.keyword = b.keyword) : a = b := by
  have key : ∀ a ∈ all, ∀ b ∈ all, a.keyword = b.keyword → a = b := by decide
  exact key a (mem_all a) b (mem_all b) h

/-- A word names an operator exactly if it is that operator's keyword. -/
theorem ofKeyword?_eq_some_iff {word : String} {op : Operator} :
    ofKeyword? word = some op ↔ op.keyword = word := by
  constructor
  · intro h
    have hword := List.find?_some h
    exact eq_of_beq hword
  · rintro rfl
    have hsome : (ofKeyword? op.keyword).isSome := by
      rw [ofKeyword?, Vocabulary.find?, List.find?_isSome]
      exact ⟨op, mem_all op, by simp [Vocabulary.keyword]⟩
    obtain ⟨found, hfound⟩ := Option.isSome_iff_exists.1 hsome
    have hkey : found.keyword = op.keyword := by
      have hword := List.find?_some hfound
      exact eq_of_beq hword
    rw [hfound, keyword_injective hkey]

end Operator

end Caret
