import Freeflow.Flowpath.Manage
import Freeflow.Json.Map
import Mathlib.Tactic.IntervalCases

/-!
# `Flowpath.Error` — the result of a request, and its text

`fp_strerror` of `error.c`, and the result in a reply. A result is the code of one of ten errors, or a negative error
number of the system; `fp_strerror` does not look whether it is in its table. `fp_mgr_incoming` looks the text up for its
diagnostics, and so does `flowmgr` for the client.

## Contents
- `errors`, `fpStrerror`.
- `resultOffset`, `loadInt`, `loadInt_storeInt`: the result in a reply.
- `describe`, `Incoming.describe`: the text is looked up, and not kept.
-/

namespace Freeflow
namespace Flowpath

open Json (Text ascii)

/-- `errors`. -/
def errors : List Text := [
  ascii "Success",
  ascii "Unknown error",
  ascii "Bad request type",
  ascii "Bad reply type",
  ascii "Bad operation",
  ascii "Bad data plane",
  ascii "Data plane already exists",
  ascii "Too many data planes",
  ascii "Cannot load pipeline",
  ascii "Cannot load pipeline symbols"]

/-- `fp_strerror`. The texts of negative codes are those of the system. -/
def fpStrerror (strerror : Int → Text) (n : Int) : Checked Text :=
  if n < 0 then do
    let n ← checkInt (-n)
    return strerror n
  else load errors n

/-- The offset of `result` in `struct fp_reply`. -/
def resultOffset : Nat := 4

/-- A 32-bit `int` at index `i`, least significant byte first. -/
def loadInt (buf : List UInt8) (i : Nat) : Int :=
  let byte := fun k => (buf.getD (i + k) 0).toNat
  Int.bmod ((byte 0 + 256 * byte 1 + 65536 * byte 2 + 16777216 * byte 3 : Nat) : Int) 4294967296

/-- A byte of an `int`. -/
theorem getD_storeInt {buf : List UInt8} {i k : Nat} (h : i + 4 ≤ buf.length) (hk : k < 4) (x : Int) :
    (storeInt buf i x).getD (i + k) 0 = UInt8.ofNat ((BitVec.ofInt 32 x).toNat / 256 ^ k) := by
  have hi : i < buf.length := by omega
  have hlt : i + k < buf.length := by omega
  interval_cases k <;> simp [storeInt, hi, hlt]

/-- **What is stored is loaded again**, as far as it is an `int`. -/
theorem loadInt_storeInt {buf : List UInt8} {i : Nat} (h : i + 4 ≤ buf.length) (x : Int) :
    loadInt (storeInt buf i x) i = Int.bmod x 4294967296 := by
  have hw := (BitVec.ofInt 32 x).isLt
  have hbyte : ∀ k, k < 4 → ((storeInt buf i x).getD (i + k) 0).toNat =
      (BitVec.ofInt 32 x).toNat / 256 ^ k % 256 := by
    intro k hk
    rw [getD_storeInt h hk, UInt8.toNat_ofNat']
  have hsum : (BitVec.ofInt 32 x).toNat / 256 ^ 0 % 256 + 256 * ((BitVec.ofInt 32 x).toNat / 256 ^ 1 % 256) +
      65536 * ((BitVec.ofInt 32 x).toNat / 256 ^ 2 % 256) +
        16777216 * ((BitVec.ofInt 32 x).toNat / 256 ^ 3 % 256) = (BitVec.ofInt 32 x).toNat := by
    omega
  unfold loadInt
  simp only [hbyte 0 (by decide), hbyte 1 (by decide), hbyte 2 (by decide), hbyte 3 (by decide), hsum]
  rw [BitVec.toNat_ofInt, Int.toNat_of_nonneg (Int.emod_nonneg x (by decide))]
  exact Int.emod_bmod x 4294967296

/-! ## The diagnostics -/

/-- The call of `fp_strerror` whose text is only printed. -/
def describe (result : Int) : Checked Unit := do
  let _ ← fpStrerror (fun _ => []) result

/-- What `fp_strerror` is defined for does not depend on the texts of the system. -/
theorem fpStrerror_describe (strerror : Int → Text) (result : Int) :
    (fpStrerror strerror result >>= fun _ => .ok ()) = describe result := by
  unfold describe fpStrerror
  by_cases hneg : result < 0
  · rw [if_pos hneg, if_pos hneg]
    cases checkInt (-result) <;> rfl
  · rw [if_neg hneg, if_neg hneg]
    rfl

/-- `fp_mgr_incoming` looks up the result of the reply that it is about to send. -/
def Incoming.describe (inc : Incoming) : Checked Unit := Flowpath.describe (loadInt inc.reply resultOffset)

/-- The result of a reply is the one that it was made with. -/
theorem describe_makeReply {outbuf : List UInt8} (hlen : outbuf.length = messageLen) (kind : UInt8) (result : Int)
    (executed : Option Received) :
    Incoming.describe ⟨executed, makeReply outbuf kind result⟩ = describe (Int.bmod result 4294967296) := by
  have hroom : resultOffset + 4 ≤ ((outbuf.set 0 fpReply).set 1 kind).length := by
    rw [List.length_set, List.length_set, hlen]
    decide
  exact congrArg Flowpath.describe (loadInt_storeInt hroom result)

end Flowpath
end Freeflow
