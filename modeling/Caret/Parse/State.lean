/-
  Parsing caret notation, one token at a time.

      expr   ::= '(' inside ')'
      inside ::= operand '^' keyword of a presence test
               | operand '^' keyword of another test '^' operand
               | ('AND' | 'OR') '[' expr (',' expr)* ']'
               | 'NOT' expr

  The grammar never needs to look ahead, so a parse in progress is a value: the POINT it has
  reached within one expression, and a stack of FRAMES, one for each expression around that one.
  `State.step` takes one token from state to state.  Each point accepts a fixed set of tokens,
  which is what an error at that point reports (`Point.expected`).
-/
import Caret.Parse.Error

namespace Caret.Parse

/-! ## States -/

/-- An expression that was opened and waits for one inside it to close. -/
inductive Frame where
  | negation
  /-- A group with the children it has so far, the last one first. -/
  | group (op : Connective) (children : List Condition)

/-- The operator of a test that takes a comparand. -/
inductive ComparandOp where
  | equality (op : EqualityOp)
  | order (op : OrderOp)
  | text (op : TextOp)

/-- How far the innermost open expression has come. -/
inductive Point where
  /-- An expression is due. -/
  | expr
  /-- Its parenthesis is open. -/
  | node
  /-- A property was read. -/
  | property (property : String)
  /-- A property and its separator were read. -/
  | operator (property : String)
  /-- The operator of a test was read, whose comparand is still to come. -/
  | test (property : String) (op : ComparandOp)
  /-- The separator before the comparand was read. -/
  | comparand (property : String) (op : ComparandOp)
  /-- The connective of a group was read. -/
  | group (op : Connective)
  /-- The bracket of a group was opened. -/
  | firstChild (op : Connective)
  /-- A group has these children, the last one first, and may go on. -/
  | furtherChild (op : Connective) (last : Condition) (earlier : List Condition)
  /-- Only the closing parenthesis is missing. -/
  | close (condition : Condition)

structure State where
  /-- The expressions around the innermost open one, from the inside out. -/
  frames : List Frame
  point : Point
  /-- How many parentheses are open. -/
  depth : Nat

/-- An expression is due, with `depth` parentheses open around it. -/
def State.start (depth : Nat) : State := ⟨[], .expr, depth⟩

/-- What comes after a token: more of the expression, or its end. -/
inductive Progress where
  | pending (state : State)
  | complete (condition : Condition) (depth : Nat)

/-- What can stand at a point. -/
def Point.expected : Point → Expected
  | expr => .kind .openParen
  | node => .nodeStart
  | property _ => .kind .separator
  | operator _ => .leafOperator
  | test _ _ => .kind .separator
  | comparand _ _ => .kind .operand
  | group _ => .kind .openBracket
  | firstChild _ => .kind .openParen
  | furtherChild _ _ _ => .delimiterOrClose
  | close _ => .kind .closeParen

/-! ## One token -/

/-- The error of a token that cannot stand at a point. -/
def refuse (point : Point) (t : Token) : ParseError :=
  .unexpectedToken point.expected t.display t.offset

/-- Open the parenthesis of an expression inside the given frames. -/
def openExpr (limit : Nat) (frames : List Frame) (depth : Nat) (t : Token) :
    Except ParseError Progress :=
  if t.kind = .openParen then
    if limit ≤ depth then .error (.tooDeep limit t.offset)
    else .ok (.pending ⟨frames, .node, depth + 1⟩)
  else .error (refuse .expr t)

/-- Close an expression: hand its condition to the expression around it. -/
def closeExpr (frames : List Frame) (depth : Nat) (c : Condition) : Progress :=
  match frames with
  | [] => .complete c depth
  | .negation :: frames => .pending ⟨frames, .close (.negation c), depth⟩
  | .group op children :: frames => .pending ⟨frames, .furtherChild op c children, depth⟩

/-- The start of a node: a property, or the keyword of a group or negation. -/
def startNode (frames : List Frame) (depth : Nat) (t : Token) : Except ParseError Progress :=
  match t.kind with
  | .operand => .ok (.pending ⟨frames, .property t.text, depth⟩)
  | .operator =>
    match Operator.ofKeyword? t.text with
    | some (.connective op) => .ok (.pending ⟨frames, .group op, depth⟩)
    | some .not => .ok (.pending ⟨.negation :: frames, .expr, depth⟩)
    | _ => .error (.unknownOperator t.text .nodeStart t.offset)
  | _ => .error (refuse .node t)

/-- The operator of a leaf: after a presence test the leaf is whole, the other tests go on. -/
def leafOperator (frames : List Frame) (depth : Nat) (property : String) (t : Token) :
    Except ParseError Progress :=
  let pending (point : Point) : Except ParseError Progress := .ok (.pending ⟨frames, point, depth⟩)
  if t.kind = .operator then
    match Operator.ofKeyword? t.text with
    | some (.presence op) => pending (.close (.presence property op))
    | some (.equality op) => pending (.test property (.equality op))
    | some (.order op) => pending (.test property (.order op))
    | some (.text op) => pending (.test property (.text op))
    | _ => .error (.unknownOperator t.text .leafOperator t.offset)
  else .error (refuse (.operator property) t)

/-- The leaf of a property, an operator and the text of its comparand.  An equality test keeps the
    text as it is, an ordering test needs a number. -/
def leafOf (property : String) (op : ComparandOp) (comparand : String) :
    Except ConstructionError Condition :=
  match op with
  | .equality op => .ok (.equality property op (.string comparand))
  | .order op => Condition.order property op (.string comparand)
  | .text op => .ok (.text property op comparand)

/-- The comparand of a leaf. -/
def leafComparand (frames : List Frame) (depth : Nat) (property : String) (op : ComparandOp)
    (t : Token) : Except ParseError Progress :=
  if t.kind = .operand then
    match leafOf property op t.text with
    | .ok c => .ok (.pending ⟨frames, .close c, depth⟩)
    | .error cause => .error (.invalidOperand t.offset cause)
  else .error (refuse (.comparand property op) t)

/-- Take one token, with at most `limit` parentheses open. -/
def State.step (limit : Nat) (s : State) (t : Token) : Except ParseError Progress :=
  -- move on to `next` if the token has this kind
  let shift (kind : Token.Kind) (next : Point) : Except ParseError Progress :=
    if t.kind = kind then .ok (.pending ⟨s.frames, next, s.depth⟩) else .error (refuse s.point t)
  match s.point with
  | .expr => openExpr limit s.frames s.depth t
  | .node => startNode s.frames s.depth t
  | .property property => shift .separator (.operator property)
  | .operator property => leafOperator s.frames s.depth property t
  | .test property op => shift .separator (.comparand property op)
  | .comparand property op => leafComparand s.frames s.depth property op t
  | .group op => shift .openBracket (.firstChild op)
  | .firstChild op =>
    if t.kind = .closeBracket then .error (.emptyGroup op (.kind .openParen) t.offset)
    else openExpr limit (.group op [] :: s.frames) s.depth t
  | .furtherChild op last earlier =>
    match t.kind with
    | .delimiter => .ok (.pending ⟨.group op (last :: earlier) :: s.frames, .expr, s.depth⟩)
    | .closeBracket =>
      .ok (.pending ⟨s.frames, .close (.group op (last :: earlier).reverse), s.depth⟩)
    | _ => .error (refuse s.point t)
  | .close c =>
    if t.kind = .closeParen then .ok (closeExpr s.frames (s.depth - 1) c)
    else .error (refuse s.point t)

end Caret.Parse
