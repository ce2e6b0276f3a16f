import Freeflow.Flowctl.Command

/-!
# `Flowctl.SearchPath` — the module path of flowctl

`parse_search_path` of `main.cpp`, which reads the list of directories in `FREEFLOW_MODULE_PATH`, and the whole of `main`
with it. Positions in a string are numbers; `npos` is `none`.

## Contents
- `findFirstOf`, `substr`: members of `std::string`.
- `searchLoop`, `parseSearchPath`.
- `parseEnvironmentOptions`, `flowctl`.
-/

namespace Freeflow
namespace Flowctl

open Json (Text Byte)

/-- `':'`. -/
def colon : Byte := 58

/-- `find_first_of`: the first position from `n` on that holds the character. -/
def findFirstOf (str : Text) (c : Byte) (n : Nat) : Option Nat := ((str.drop n).findIdx? (· == c)).map (n + ·)

/-- `substr`, which throws if the position is not in the string. -/
def substr (str : Text) (n : Nat) (count : Option Nat) : Checked Text :=
  if n ≤ str.length then
    match count with
    | some count => .ok ((str.drop n).take count)
    | none => .ok (str.drop n)
  else .error .outOfBounds

/-- The loop of `parse_search_path`, for at most so many rounds: the list, and the position that is reached. The position
    behind a colon is never `npos`. -/
def searchLoop (str : Text) : Nat → Nat → List Text → Checked (List Text × Nat)
  | 0, _, _ => .error .outOfFuel
  | fuel + 1, n, ret =>
      match findFirstOf str colon n with
      | none => return (ret, n)
      | some m => do
          let segment ← substr str n (some (m - n))
          searchLoop str fuel (m + 1) (ret ++ [segment])

/-- `parse_search_path`. -/
def parseSearchPath (str : Text) : Checked (List Text) := do
  let (ret, n) ← searchLoop str (str.length + 1) 0 []
  let segment ← substr str n none
  return ret ++ [segment]

/-- `parse_environment_options`, for the value of `FREEFLOW_MODULE_PATH`, if it has one. -/
def parseEnvironmentOptions (access : Text → Bool) (env : Option Text) : Checked Config :=
  match env with
  | some path => do
      let modulePath ← parseSearchPath path
      return ⟨modulePath, access⟩
  | none => return ⟨[], access⟩

/-- `main`, with the options from the environment. -/
def flowctl (access : Text → Bool) (env : Option Text) (argv : List Text) : Checked Result := do
  let cfg ← parseEnvironmentOptions access env
  main cfg argv

end Flowctl
end Freeflow
