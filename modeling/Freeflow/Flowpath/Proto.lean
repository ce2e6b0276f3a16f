import Freeflow.Lib.Fields

/-!
# `Flowpath.Proto` — the messages between `flowmgr` and `flowpath`

A message is a buffer of `messageLen` bytes: the type, the kind, and from byte `dataOffset` on the arguments. The
argument structs consist of `char[FP_STRING_MAX_LEN]` arrays, so they are adjacent fields of `stringMaxLen` bytes.

## Contents
- The constants of `proto.h` that the handlers use.
- `makeRequest`, `fillArguments`: the encoder's side.
- `readArguments`: the decoder's side.
-/

namespace Freeflow
namespace Flowpath

/-- `FP_MESSAGE_LEN`. -/
def messageLen : Nat := 1024

/-- `FP_STRING_MAX_LEN`. -/
def stringMaxLen : Nat := 128

/-- The offset of `data` in `struct fp_request`. -/
def dataOffset : Nat := 2

/-- `FP_REQUEST`. -/
def fpRequest : UInt8 := 0

/-- `FP_REPLY`. -/
def fpReply : UInt8 := 1

/-! ## The kinds of requests -/

def dataplaneAdd : UInt8 := 1
def dataplaneDel : UInt8 := 2
def decoderSet : UInt8 := 11
def portAdd : UInt8 := 20
def portDel : UInt8 := 21
def portList : UInt8 := 24
def tableAdd : UInt8 := 31
def tableDel : UInt8 := 32

/-! ## Messages -/

/-- `fp_make_request`, and the kind that the `fp_get_…_arguments` functions store. -/
def makeRequest (kind : UInt8) : List UInt8 :=
  ((List.replicate messageLen 0).set 0 fpRequest).set 1 kind

/-- The `std::copy` of each argument to the start of its array. An argument is a pointer that may be null. -/
def fillArguments : Nat → List (Option (List UInt8)) → List UInt8 → Checked (List UInt8)
  | _, [], buf => .ok buf
  | _, none :: _, _ => .error .nullDeref
  | i, some text :: args, buf => do
      let buf ← copyTo buf i text
      fillArguments (i + stringMaxLen) args buf

/-- A request with its arguments. -/
def encodeRequest (kind : UInt8) (args : List (Option (List UInt8))) : Checked (List UInt8) :=
  fillArguments dataOffset args (makeRequest kind)

/-- The first `n` arguments of a request, each read as a NUL-terminated string. -/
def readArguments (msg : List UInt8) (n : Nat) : Checked (List (List UInt8)) :=
  readFields 0 stringMaxLen msg dataOffset n

/-! ## Encoding -/

theorem makeRequest_eq (kind : UInt8) :
    makeRequest kind = [fpRequest, kind] ++ List.replicate (messageLen - dataOffset) 0 := rfl

@[simp] theorem length_makeRequest (kind : UInt8) : (makeRequest kind).length = messageLen := by
  rw [makeRequest, List.length_set, List.length_set, List.length_replicate]

theorem fillArguments_some : ∀ (texts : List (List UInt8)) (i : Nat) (buf : List UInt8),
    fillArguments i (texts.map some) buf = copyFields stringMaxLen i texts buf
  | [], _, _ => rfl
  | text :: texts, i, buf => by
      rw [List.map_cons, fillArguments, copyFields]
      congr 1
      funext buf'
      exact fillArguments_some texts _ buf'

/-- A null argument is dereferenced, unless an earlier copy has already left the buffer. -/
theorem fillArguments_none : ∀ (args : List (Option (List UInt8))) (i : Nat) (buf : List UInt8),
    none ∈ args → ∃ f, fillArguments i args buf = .error f
  | [], _, _, h => by simp at h
  | none :: _, _, _, _ => ⟨.nullDeref, rfl⟩
  | some text :: args, i, buf, h => by
      have hargs : none ∈ args := by simpa using h
      rw [fillArguments]
      cases hcopy : copyTo buf i text with
      | error f => exact ⟨f, rfl⟩
      | ok buf' => exact fillArguments_none args _ buf' hargs

/-- A list of pointers without a null one is a list of texts. -/
theorem exists_texts {args : List (Option (List UInt8))} (h : none ∉ args) :
    ∃ texts : List (List UInt8), args = texts.map some := by
  induction args with
  | nil => exact ⟨[], rfl⟩
  | cons arg args ih =>
      cases arg with
      | none => simp at h
      | some text =>
          obtain ⟨texts, rfl⟩ := ih (fun hmem => h (List.mem_cons_of_mem _ hmem))
          exact ⟨text :: texts, rfl⟩

/-- A request can be built: every argument is there, and the copies stay inside the message. -/
def Encodable (args : List (Option (List UInt8))) : Prop :=
  ∃ texts : List (List UInt8), args = texts.map some ∧ copiesFit stringMaxLen messageLen dataOffset texts = true

theorem encodeRequest_ok_iff (kind : UInt8) (args : List (Option (List UInt8))) :
    (∃ msg, encodeRequest kind args = .ok msg) ↔ Encodable args := by
  by_cases hnone : none ∈ args
  · obtain ⟨f, hf⟩ := fillArguments_none args dataOffset (makeRequest kind) hnone
    constructor
    · rintro ⟨msg, hmsg⟩
      rw [encodeRequest, hf] at hmsg
      cases hmsg
    · rintro ⟨texts, rfl, -⟩
      simp at hnone
  · obtain ⟨texts, rfl⟩ := exists_texts hnone
    rw [encodeRequest, fillArguments_some, copyFields_ok_iff, length_makeRequest]
    constructor
    · intro h
      exact ⟨texts, rfl, h⟩
    · rintro ⟨texts', heq, h⟩
      rwa [(List.map_inj_right (fun _ _ => Option.some.inj)).mp heq]

end Flowpath
end Freeflow
