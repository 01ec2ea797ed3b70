/-
  Conditions from tokens and from text, and the trees that their written form determines.

  1. **`Parse.run`** takes tokens until an expression is complete and returns the tokens after it.
  2. **`Condition.ofTokens`** wants nothing to follow; **`Condition.ofText`** scans first.
  3. **`Condition.exactText?`** gives the written form of a tree only if parsing it leads to a tree
     with that same written form.
-/
import Caret.Parse.State
import Caret.Token.Scan
import Caret.Condition.Written

namespace Caret

namespace Parse

/-- An expression, read to its end: its condition, the parentheses open after it, and the tokens
    that follow it. -/
structure Reading where
  condition : Condition
  depth : Nat
  rest : List Token

/-- Take tokens until the expression in progress is complete. -/
def run (limit : Nat) (s : State) : List Token → Except ParseError Reading
  | [] => .error (.unexpectedEnd s.point.expected)
  | t :: ts =>
    match s.step limit t with
    | .ok (.pending next) => run limit next ts
    | .ok (.complete c depth) => .ok ⟨c, depth, ts⟩
    | .error e => .error e

/-- Read one expression, with `depth` parentheses open around it. -/
def expr (limit depth : Nat) (ts : List Token) : Except ParseError Reading :=
  run limit (.start depth) ts

/-- Nesting that is allowed where nobody says otherwise, counted in open parentheses. -/
def defaultLimit : Nat := 64

end Parse

namespace Condition

/-- The condition that some tokens form, nested no deeper than `limit`. -/
def ofTokens (limit : Nat) (ts : List Token) : Except ParseError Condition :=
  match Parse.expr limit 0 ts with
  | .ok ⟨c, _, []⟩ => .ok c
  | .ok ⟨_, _, t :: _⟩ => .error (.trailingInput t.display t.offset)
  | .error e => .error e

/-- The condition that a text denotes, nested no deeper than `limit`. -/
def ofText (limit : Nat) (text : String) : Except ParseError Condition :=
  ofTokens limit (Token.scan text)

/-- The written form of a condition, if it reads back to a condition of the same written form.
    Texts with structural characters, signs, points or keywords in them do not, nor does nesting
    beyond the default limit. -/
def exactText? (c : Condition) : Option String :=
  match ofText Parse.defaultLimit c.written with
  | .ok back => if back.written = c.written then some c.written else none
  | .error _ => none

end Condition

end Caret
