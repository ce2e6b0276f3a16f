import Freeflow.Json.Value

/-!
# `Json.Parser` — the parser of `json.cpp`

One definition per function, in the source's order. The cursor `first` is the list of the bytes from `first` to `last`.
A routine that reads `*first` or steps over it without comparing with `last` uses `peek` or `advance`,
which overrun at the end. `parse_value` and the routines that call it back take the recursive call as a parameter;
`parseValue` ties the knot with a bound on the nesting depth, and `parse` supplies the length of the input.

## Contents
- `parseIdentifier`, `parseNumber`, `parseString`, `parseKey`.
- `parsePair`, `parseArray`, `parseObject`, `parseValue`, `parse`.
-/

namespace Freeflow
namespace Json

open Freeflow.Parser

/-- `parse_identifier`. -/
def parseIdentifier : Parser Byte Value := do
  let c ← advance
  let cs ← eat isident
  allocate
  return .identifier (c :: cs)

/-- `parse_number`. -/
def parseNumber : Parser Byte Value := do
  let c ← advance
  let cs ← eat isnum
  allocate
  return .number (c :: cs)

/-- The loop of `parse_string` and the closing quote. -/
def stringBody : Parser Byte Text
  | [] => .thrown "unterminated string" [] 0
  | c :: s =>
      if c = quote then .value [] s 0
      else if c = backslash then
        match s with
        -- a backslash before `last`: `first` steps over `last`, which the loop test does not notice
        | [] => .overrun
        | d :: s => (stringBody s).map fun text => c :: d :: text
      else (stringBody s).map fun text => c :: text

@[simp] theorem stringBody_quote (s : Text) : stringBody (quote :: s) = .value [] s 0 := by
  rw [stringBody.eq_def]
  simp only [if_true]

@[simp] theorem stringBody_backslash : stringBody [backslash] = .overrun := by
  rw [stringBody.eq_def]
  simp only [show backslash ≠ quote by decide, if_true, if_false]

@[simp] theorem stringBody_escape (d : Byte) (s : Text) :
    stringBody (backslash :: d :: s) = (stringBody s).map fun text => backslash :: d :: text := by
  rw [stringBody.eq_def]
  simp only [show backslash ≠ quote by decide, if_true, if_false]

theorem stringBody_other {c : Byte} (hq : c ≠ quote) (hb : c ≠ backslash) (s : Text) :
    stringBody (c :: s) = (stringBody s).map fun text => c :: text := by
  rw [stringBody.eq_def]
  simp only [hq, hb, if_false]

/-- `parse_string`. -/
def parseString : Parser Byte Text := do
  let _ ← advance
  let text ← stringBody
  allocate
  return text

/-- `parse_key`. -/
def parseKey : Parser Byte Text := padded isspace do
  let c ← peek
  if c = quote then parseString else throw "ill-formed key"

/-- `parse_pair`. -/
def parsePair (value : Parser Byte Value) : Parser Byte Pair := do
  let k ← parseKey
  if ← accept colon then do
    let v ← value
    allocate
    return .mk k v
  else throw "ill-formed key/value pair"

/-- The loops of `parse_array` and `parse_object`: items between commas, with a node for each. -/
def elements {α : Type} (item : Parser Byte α) : Parser Byte (List α) := fun s =>
  separated comma (do let a ← item; allocate; return a) (s.length + 1) s

/-- The common text of `parse_array` and `parse_object`. -/
def container {α : Type} (close : Byte) (item : Parser Byte α) (make : List α → Value) (what : String) :
    Parser Byte Value := do
  let _ ← advance
  let _ ← eat isspace
  if ← accept close then return make []
  else do
    let xs ← elements item
    if ← accept close then return make xs else throw what

/-- `parse_array`. -/
def parseArray (value : Parser Byte Value) : Parser Byte Value :=
  container closeBracket value .array "ill-formed array"

/-- `parse_object`. -/
def parseObject (value : Parser Byte Value) : Parser Byte Value :=
  container closeBrace (parsePair value) .object "ill-formed object"

/-- The `switch` of `parse_value`. -/
def dispatch (value : Parser Byte Value) : Parser Byte Value := do
  let c ← peek
  if c = minus ∨ isdigit c then parseNumber
  else if c = quote then do let text ← parseString; return .string text
  else if c = openBracket then parseArray value
  else if c = openBrace then parseObject value
  else parseIdentifier

/-- `parse_value`, at most `depth` containers deep. -/
def parseValue : Nat → Parser Byte Value
  | 0 => fun _ => .outOfFuel
  | depth + 1 => padded isspace (dispatch (parseValue depth))

/-- `Document::parse`. -/
def parse : Parser Byte Value := fun s => parseValue (s.length + 1) s

end Json
end Freeflow
