import Freeflow.Lib.Parser

/-!
# `Json.Value` — JSON values and their printing

A `char` is a byte, and the text a terminal refers to is a list of bytes. A chain of `Array` or `Object` nodes is
the list of what its nodes hold; `[]` is the empty node, whose pointers are null.

## Contents
- The bytes the grammar names.
- `Value`, `Pair`, and `printValue`.
-/

namespace Freeflow
namespace Json

/-- A `char`. -/
abbrev Byte := UInt8

/-- The text of a terminal. -/
abbrev Text := List Byte

/-! ## Characters -/

def quote : Byte := 34
def comma : Byte := 44
def minus : Byte := 45
def colon : Byte := 58
def openBracket : Byte := 91
def backslash : Byte := 92
def closeBracket : Byte := 93
def openBrace : Byte := 123
def closeBrace : Byte := 125

/-- `std::isdigit` in the C locale. -/
def isdigit (c : Byte) : Bool := 48 ≤ c && c ≤ 57

/-- `std::isalnum` in the C locale. -/
def isalnum (c : Byte) : Bool := isdigit c || (65 ≤ c && c ≤ 90) || (97 ≤ c && c ≤ 122)

/-- `std::isspace` in the C locale. -/
def isspace (c : Byte) : Bool := c = 32 || (9 ≤ c && c ≤ 13)

/-- `isident`: alphanumeric characters and `_`. -/
def isident (c : Byte) : Bool := isalnum c || c = 95

/-- `isnum`: digits, `.`, `e`, and `E`. -/
def isnum (c : Byte) : Bool := isdigit c || c = 46 || c = 101 || c = 69

/-! ## Values -/

mutual

/-- The JSON values. -/
inductive Value where
  | identifier (text : Text)
  | number (text : Text)
  | string (text : Text)
  | array (elements : List Value)
  | object (pairs : List Pair)

/-- A key value pair in an object. -/
inductive Pair where
  | mk (key : Text) (value : Value)

end

/-- The key of a pair. -/
def Pair.key : Pair → Text
  | .mk key _ => key

/-- The value of a pair. -/
def Pair.value : Pair → Value
  | .mk _ value => value

/-! ## Printing -/

/-- `print_string`. -/
def printString (text : Text) : Text := quote :: (text ++ [quote])

mutual

/-- `print_value`. -/
def printValue : Value → Text
  | .identifier text => text
  | .number text => text
  | .string text => printString text
  | .array elements => openBracket :: (joined comma (printElements elements) ++ [closeBracket])
  | .object pairs => openBrace :: (joined comma (printPairs pairs) ++ [closeBrace])

/-- `print_pair`. -/
def printPair : Pair → Text
  | .mk key value => printString key ++ colon :: printValue value

/-- The printed elements of an array. -/
def printElements : List Value → List Text
  | [] => []
  | v :: vs => printValue v :: printElements vs

/-- The printed pairs of an object. -/
def printPairs : List Pair → List Text
  | [] => []
  | p :: ps => printPair p :: printPairs ps

end

theorem printElements_eq_map (vs : List Value) : printElements vs = vs.map printValue := by
  induction vs with
  | nil => rfl
  | cons v vs ih => rw [printElements, ih, List.map_cons]

theorem printPairs_eq_map (ps : List Pair) : printPairs ps = ps.map printPair := by
  induction ps with
  | nil => rfl
  | cons p ps ih => rw [printPairs, ih, List.map_cons]

end Json
end Freeflow
