import Freeflow.Json.Map

/-!
# `Json.Object` — looking into an object, and building the text of one

`find` walks the nodes of an object, and a pointer to the value of a pair is the position of its node. A key is a view into
the text that was parsed, without a NUL behind it, and its size is taken to fit the `int` that `Terminal::size` returns;
`str` is a C string, without a NUL in it.
`make_object` puts its strings into the text as they are.

## Contents
- `terminalEq`, `find`, `objectGet`.
- `formatPair`, `makeObject`.
-/

namespace Freeflow
namespace Json

/-! ## Lookup -/

/-- `operator==(Terminal const&, char const*)`: compares as many characters as the terminal has. -/
def terminalEq (t str : Text) : Bool := strncmpEq t.length t str

/-- `find`: the position of the pair whose value is returned. -/
def find : List Pair → Text → Option Nat
  | [], _ => none
  | p :: ps, str => if terminalEq p.key str then some 0 else (find ps str).map Nat.succ

/-- `Object::operator[]`. -/
def objectGet (ps : List Pair) (str : Text) : Option Value :=
  (find ps str).bind fun i => ps[i]?.map Pair.value

/-! ## Construction -/

/-- `"{}":"{}"` with a key and a value for the braces. -/
def formatPair (e : Text × Text) : Text := printString e.1 ++ colon :: printString e.2

/-- `make_object`: a comma stands behind every pair but the last. -/
def makeObject (map : List (Text × Text)) : Text :=
  openBrace :: (joined comma (map.map formatPair) ++ [closeBrace])

end Json
end Freeflow
