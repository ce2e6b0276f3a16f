import Freeflow.Lib.Chain
import Freeflow.Lib.StateParser
import Freeflow.Json.Parser

/-!
# `Json.Document` — the nodes that a parse builds

The parser of `json.cpp` once more, with the nodes that it allocates and links: `Json.Parser` returns the tree that they
stand for. All values are nodes of one heap, and a `Value*` is an address in it. An allocator returns an address at which no
node is. What it returns may depend on everything that there is; that is as much as a state of its own could say, because
no two of its calls see the same nodes.

## Contents
- `Node`, the static nodes, `Allocator`.
- `make_array` and the other routines that allocate.
- `parseArray` and the other parsing routines, `parse`.
- `count`, `valueAt`, and the operations of `Array` and `Object` that they are for.
-/

namespace Freeflow
namespace Json

/-- The nodes. The first pointer of an `Array` or `Object` is its `value`, the second its `next`. -/
inductive Node where
  | identifier (text : Text)
  | number (text : Text)
  | string (text : Text)
  | pair (key value : Ptr)
  | array (value next : Ptr)
  | object (value next : Ptr)
deriving DecidableEq, Repr

/-- `Array`. -/
def arrayLinking : Linking Node Ptr where
  node := .array
  link
    | .array value next => some (value, next)
    | _ => none
  link_node _ _ := rfl

/-- `Object`. -/
def objectLinking : Linking Node Ptr where
  node := .object
  link
    | .object value next => some (value, next)
    | _ => none
  link_node _ _ := rfl

/-- `empty_array_`. -/
def emptyArray : Nat := 0

/-- `empty_object_`. -/
def emptyObject : Nat := 1

/-- The nodes of a program that has not parsed anything: the static ones. -/
def staticNodes : Heap Node := (Heap.empty.place emptyArray (.array none none)).place emptyObject (.object none none)

/-- An `Allocator`, which returns fresh memory for a node. -/
structure Allocator where
  allocate : Heap Node → Nat
  fresh : ∀ h : Heap Node, h.cells (allocate h) = none

/-- The allocator that goes from one address to the next. -/
def Allocator.sequential : Allocator := ⟨Heap.next, Heap.cells_next⟩

/-- A routine of `Document`. -/
abbrev Builder (α : Type) := StateParser (Heap Node) Byte α

namespace Document

open StateParser Freeflow.Parser

variable (alloc : Allocator)

/-! ## Allocating -/

/-- `new (allocate())` of a node. -/
def make (n : Node) : Builder Ptr := update fun h => .ok (h.place (alloc.allocate h) n, some (alloc.allocate h))

/-- `make_identifier`. -/
def makeIdentifier (text : Text) : Builder Ptr := make alloc (.identifier text)

/-- `make_number`. -/
def makeNumber (text : Text) : Builder Ptr := make alloc (.number text)

/-- `make_string`. -/
def makeString (text : Text) : Builder Ptr := make alloc (.string text)

/-- `make_pair`. -/
def makePair (k v : Ptr) : Builder Ptr := make alloc (.pair k v)

/-- The common text of `make_array` and `make_object`: a node, which becomes the next one of `prev` if that is one. -/
def makeLink (L : Linking Node Ptr) (v prev : Ptr) : Builder Ptr :=
  update fun h => do
    let a := alloc.allocate h
    let h ← L.append h a v prev
    return (h, some a)

/-- `make_array`. -/
def makeArray (v prev : Ptr) : Builder Ptr := makeLink alloc arrayLinking v prev

/-- `make_object`. -/
def makeObject (p prev : Ptr) : Builder Ptr := makeLink alloc objectLinking p prev

/-! ## Parsing -/

/-- `parse_identifier`. -/
def parseIdentifier : Builder Ptr := do
  let c ← lift advance
  let cs ← lift (eat isident)
  makeIdentifier alloc (c :: cs)

/-- `parse_number`. -/
def parseNumber : Builder Ptr := do
  let c ← lift advance
  let cs ← lift (eat isnum)
  makeNumber alloc (c :: cs)

/-- `parse_string`. -/
def parseString : Builder Ptr := do
  let _ ← lift advance
  let text ← lift stringBody
  makeString alloc text

/-- `parse_key`. -/
def parseKey : Builder Ptr := padded isspace do
  let c ← lift peek
  if c = quote then parseString alloc else lift (throw "ill-formed key")

/-- `parse_pair`. -/
def parsePair (value : Builder Ptr) : Builder Ptr := do
  let k ← parseKey alloc
  if ← lift (accept colon) then do
    let v ← value
    makePair alloc k v
  else lift (throw "ill-formed key/value pair")

/-- The local variables of `parse_array` and `parse_object`: the last node and the first one. -/
structure Ends where
  last : Ptr
  first : Ptr

/-- One round of the loops of `parse_array` and `parse_object`. -/
def round (item : Builder Ptr) (make : Ptr → Ptr → Builder Ptr) (ends : Ends) : Builder Ends := do
  let v ← item
  let a ← make v ends.last
  return ⟨a, if ends.first.isNone then a else ends.first⟩

/-- The common text of `parse_array` and `parse_object`. -/
def container (close : Byte) (empty : Nat) (item : Builder Ptr) (make : Ptr → Ptr → Builder Ptr) (what : String) :
    Builder Ptr := do
  let _ ← lift advance
  let _ ← lift (eat isspace)
  if ← lift (accept close) then return some empty
  else do
    let ends ← fun h s => repeated comma (round item make) (s.length + 1) ⟨none, none⟩ h s
    if ← lift (accept close) then return ends.first else lift (throw what)

/-- `parse_array`. -/
def parseArray (value : Builder Ptr) : Builder Ptr :=
  container closeBracket emptyArray value (makeArray alloc) "ill-formed array"

/-- `parse_object`. -/
def parseObject (value : Builder Ptr) : Builder Ptr :=
  container closeBrace emptyObject (parsePair alloc value) (makeObject alloc) "ill-formed object"

/-- The `switch` of `parse_value`. -/
def dispatch (value : Builder Ptr) : Builder Ptr := do
  let c ← lift peek
  if c = minus ∨ isdigit c then parseNumber alloc
  else if c = quote then parseString alloc
  else if c = openBracket then parseArray alloc value
  else if c = openBrace then parseObject alloc value
  else parseIdentifier alloc

/-- `parse_value`, at most `depth` containers deep. -/
def parseValue : Nat → Builder Ptr
  | 0 => fun _ _ => .error .outOfFuel
  | depth + 1 => padded isspace (dispatch alloc (parseValue depth))

/-- `Document::parse`. -/
def parse : Builder Ptr := fun h s => parseValue alloc (s.length + 1) h s

end Document

/-- A document and the text that it is to parse. -/
structure ParseCall where
  alloc : Allocator
  text : Text

/-- One parse after others. -/
def parseStep (h : Heap Node) (c : ParseCall) : Checked (Heap Node × Ending Byte Ptr) :=
  Document.parse c.alloc h c.text

/-! ## Counting and indexing -/

/-- The loop of `count`, from the node `p` on. It counts in an `int`, so that `++n` overflows before it has gone round
    `fuel` times if `fuel` is more than an `int` can count. -/
def countFrom (L : Linking Node Ptr) (h : Heap Node) : Nat → Ptr → Int → Checked Int
  | _, none, n => .ok n
  | 0, some _, _ => .error .outOfFuel
  | fuel + 1, some a, n => do
      let (_, next) ← L.load h (some a)
      let n ← checkInt (n + 1)
      countFrom L h fuel next n

/-- `count`. -/
def count (L : Linking Node Ptr) (h : Heap Node) (p : Ptr) : Checked Int := do
  let (value, _) ← L.load h p
  if value.isNone then return 0 else countFrom L h (intMax.toNat + 1) p 0

/-- The loop of `at`, with `n` steps to go, and what is behind it. -/
def valueFrom (h : Heap Node) : Nat → Ptr → Checked Ptr
  | 0, a => do
      let (value, _) ← arrayLinking.load h a
      return value
  | n + 1, a => do
      let (_, next) ← arrayLinking.load h a
      if next.isNone then return none else valueFrom h n next

/-- `at`. -/
def valueAt (h : Heap Node) (a : Ptr) (n : Int) : Checked Ptr := do
  if n < 0 then return none
  else do
    let (value, _) ← arrayLinking.load h a
    if value.isNone then return none else valueFrom h n.toNat a

/-- `Array::size`. -/
def arraySize (h : Heap Node) (a : Ptr) : Checked Int := count arrayLinking h a

/-- `Array::operator[]`. -/
def arrayGet (h : Heap Node) (a : Ptr) (n : Int) : Checked Ptr := valueAt h a n

/-- `Object::size`. -/
def objectSize (h : Heap Node) (o : Ptr) : Checked Int := count objectLinking h o

end Json
end Freeflow
