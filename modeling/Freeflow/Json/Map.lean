import Freeflow.Json.Value

/-!
# `Json.Map` — the argument map of a parsed object

`Map` is an `unordered_map` from `String*` to values. Its hash and its comparison look at the texts, so the
keys are texts here; `String::hash` goes through `boost::hash_combine` and is a parameter. `Terminal::size` is an
`int`, and the length of a terminal is taken to fit one. The entries are kept in the order of insertion. A lookup
compares hash codes first and then asks `String_eq`.

## Contents
- `strncmpEq`, `stringEq`.
- `Map.insert`, `Object.map`, `Map.find`.
- `Search`, `Map.insertIn`, `objectMapIn`: the same for any layout of the container.
-/

namespace Freeflow
namespace Json

/-- The bytes of a string literal. -/
def ascii (s : String) : Text := s.toList.map Char.toUInt8

/-- `!std::strncmp(a, b, n)`, for arrays followed by a NUL. -/
def strncmpEq : Nat → Text → Text → Bool
  | 0, _, _ => true
  | n + 1, a, b => a.headD 0 == b.headD 0 && (a.headD 0 == 0 || strncmpEq n a.tail b.tail)

/-- `String_eq`: the comparison of terminals stops at the end of the shorter one. -/
def stringEq (a b : Text) : Bool := strncmpEq (min a.length b.length) a b

/-- `Map`. -/
abbrev Map := List (Text × Value)

variable (hash : Text → Nat)

/-- The entry whose key has the same hash code and compares equal. -/
def Map.find (m : Map) (k : Text) : Option Value :=
  (m.find? (fun e => hash e.1 == hash k && stringEq e.1 k)).map Prod.snd

/-- `m.insert({k, v})`: an equivalent key keeps the value it has. -/
def Map.insert (m : Map) (k : Text) (v : Value) : Map :=
  if (m.find hash k).isSome then m else m ++ [(k, v)]

/-- `Object::map`. -/
def objectMap (pairs : List Pair) : Map :=
  pairs.foldl (fun m p => m.insert hash p.key p.value) []

/-! ## Layouts -/

/-- How a container with this hash looks for a key: the entries that it compares with the key are entries of the map,
    and every entry with the key's hash code is one of them. Which others are depends on the number of buckets, and on
    whether the hash codes are compared first. -/
structure Search where
  among : Map → Text → Map
  sub : ∀ m k e, e ∈ among m k → e ∈ m
  complete : ∀ m k e, e ∈ m → hash e.1 = hash k → e ∈ among m k

variable {hash}

/-- `m.insert({k, v})`, in a container that looks for keys in this way. -/
def Map.insertIn (s : Search hash) (m : Map) (k : Text) (v : Value) : Map :=
  if (s.among m k).any (fun e => stringEq e.1 k) then m else m ++ [(k, v)]

/-- `Object::map`, in a container that looks for keys in this way. -/
def objectMapIn (s : Search hash) (pairs : List Pair) : Map :=
  pairs.foldl (fun m p => m.insertIn s p.key p.value) []

variable (hash)

/-- The container that compares hash codes first. -/
def Search.byCode : Search hash where
  among m k := m.filter (fun e => hash e.1 == hash k)
  sub _ _ _ he := List.mem_of_mem_filter he
  complete _ _ _ he hcode := List.mem_filter.mpr ⟨he, beq_iff_eq.mpr hcode⟩

end Json
end Freeflow
