/-
  Values, records and conditions as JSON.

  1. A VALUE is a JSON value without structure; numbers that JSON cannot write become `null`.
  2. A RECORD is an object.
  3. A CONDITION is a string in caret notation.  Only a tree whose written form reads back can be
     encoded, so nothing is lost on the way; decoding goes through the parser and its checks.
-/
import Caret.Number.Scientific
import Caret.Parse
import Caret.Record
import Caret.Text.Quoted

namespace Caret

/-! ## JSON values -/

/-- A JSON value.  Numbers written as integers of 64 bits are told apart from all others. -/
inductive Json where
  | null
  | bool (b : Bool)
  | integer (i : Int)
  | float (x : Number)
  | string (s : String)
  | array (items : List Json)
  | object (fields : List (String × Json))

namespace Json

/-- A JSON value in messages. -/
def describe : Json → String
  | null => "null"
  | bool b => "boolean `" ++ toString b ++ "`"
  | integer i => "integer `" ++ toString i ++ "`"
  | float x => "floating point `" ++ x.compact ++ "`"
  | string s => "string " ++ Text.quoted s
  | array _ => "sequence"
  | object _ => "map"

end Json

/-! ## Decoding -/

/-- Why a JSON value could not be decoded. -/
inductive DecodeError where
  /-- An array or object where a value was due. -/
  | notAValue
  /-- Something else than an object where a record was due. -/
  | notARecord (found : Json)
  /-- Something else than a string where a condition was due. -/
  | notNotation (found : Json)
  | parse (cause : ParseError)

def DecodeError.message : DecodeError → String
  | notAValue => "data did not match any variant of untagged enum Value"
  | notARecord found => "invalid type: " ++ found.describe ++ ", expected a map"
  | notNotation found =>
    "invalid type: " ++ found.describe ++ ", expected a condition in caret notation"
  | parse cause => cause.message

/-- Decode a value; integers become the nearest number. -/
def Value.ofJson : Json → Except DecodeError Value
  | .null => .ok .null
  | .bool b => .ok (.bool b)
  | .integer i => .ok (.number (.ofInt i))
  | .float x => .ok (.number x)
  | .string s => .ok (.string s)
  | .array _ => .error .notAValue
  | .object _ => .error .notAValue

namespace Record

/-- Insert decoded fields in order. -/
def ofFields (r : Record) : List (String × Json) → Except DecodeError Record
  | [] => .ok r
  | (name, json) :: fields =>
    match Value.ofJson json with
    | .ok v => ofFields (r.insert name v) fields
    | .error e => .error e

/-- Decode a record; the last field of one name counts. -/
def ofJson : Json → Except DecodeError Record
  | .object fields => ofFields empty fields
  | found => .error (.notARecord found)

end Record

/-- Decode a condition from its notation. -/
def Condition.ofJson : Json → Except DecodeError Condition
  | .string s =>
    match ofText Parse.defaultLimit s with
    | .ok c => .ok c
    | .error e => .error (.parse e)
  | found => .error (.notNotation found)

/-- What is decoded was read from some text. -/
theorem Condition.exists_text_of_ofJson {j : Json} {c : Condition} (h : ofJson j = .ok c) :
    ∃ text, ofText Parse.defaultLimit text = .ok c := by
  cases j with
  | string s =>
    rw [ofJson] at h
    cases hs : ofText Parse.defaultLimit s with
    | ok d =>
      rw [hs] at h
      obtain rfl := Except.ok.inj h
      exact ⟨s, hs⟩
    | error e =>
      rw [hs] at h
      cases h
  | _ => cases h

/-! ## Encoding -/

/-- The written form of a condition would not read back. -/
structure EncodeError where
  written : String

def EncodeError.message (e : EncodeError) : String :=
  "condition " ++ e.written ++ " has no exact notation"

def Value.toJson : Value → Json
  | null => .null
  | bool b => .bool b
  | number x => if x.isFinite then .float x else .null
  | string s => .string s

/-- The fields are in ascending order of their names. -/
def Record.toJson (r : Record) : Json := .object (r.entries.map fun e => (e.1, e.2.toJson))

def Condition.toJson (c : Condition) : Except EncodeError Json :=
  match c.exactText? with
  | some text => .ok (.string text)
  | none => .error ⟨c.written⟩

end Caret
