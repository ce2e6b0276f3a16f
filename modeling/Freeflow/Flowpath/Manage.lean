import Freeflow.Flowpath.Proto
import Freeflow.Lib.Run

/-!
# `Flowpath.Manage` — one message from `flowmgr`

`fp_mgr_incoming` and `fp_on_request` of `manage.c`. The five request functions work on the state of the data planes;
they are the fields of `Handlers`. What `recv` does not overwrite of the stack buffer `inbuf` keeps its old contents,
which are an argument; so are those of `outbuf`.

## Contents
- `Received`, `recvInto`: a buffer after `recv`.
- `Handlers`, `onRequest`.
- `mgrIncoming`, `mgrStep`.
-/

namespace Freeflow
namespace Flowpath

/-- A message buffer after `recv`: its contents, and how many bytes of them were received. -/
structure Received where
  buf : List UInt8
  count : Nat
deriving DecidableEq, Repr

/-- `recv` of `chunk` into a buffer that held `stale`. -/
def recvInto (stale chunk : List UInt8) : Received :=
  ⟨chunk ++ stale.drop chunk.length, chunk.length⟩

/-- `FP_FAILURE`. -/
def fpFailure : Int := 1

/-- `FP_BAD_REQUEST`. -/
def fpBadRequest : Int := 2

/-- The functions behind the request kinds: the state after the request, and the result. -/
structure Handlers (σ : Type) where
  onDataplaneAdd : List UInt8 → σ → σ × Int
  onDataplaneDel : List UInt8 → σ → σ × Int
  onPortAdd : List UInt8 → σ → σ × Int
  onPortDel : List UInt8 → σ → σ × Int
  onPortList : List UInt8 → σ → σ × Int

variable {σ : Type} (h : Handlers σ)

/-- `req->type`. -/
def reqType (req : List UInt8) : UInt8 := req.getD 0 0

/-- `req->kind`. -/
def reqKind (req : List UInt8) : UInt8 := req.getD 1 0

/-- `fp_on_request`. -/
def onRequest (req : List UInt8) (s : σ) : σ × Int :=
  let kind := reqKind req
  if kind = dataplaneAdd then h.onDataplaneAdd req s
  else if kind = dataplaneDel then h.onDataplaneDel req s
  else if kind = portAdd then h.onPortAdd req s
  else if kind = portDel then h.onPortDel req s
  else if kind = portList then h.onPortList req s
  else if kind = decoderSet then (s, fpFailure)
  else if kind = tableAdd then (s, fpFailure)
  else if kind = tableDel then (s, fpFailure)
  else (s, 1)

/-- A 32-bit `int` stored at index `i`, least significant byte first. -/
def storeInt (buf : List UInt8) (i : Nat) (x : Int) : List UInt8 :=
  let w := (BitVec.ofInt 32 x).toNat
  (((buf.set i (UInt8.ofNat w)).set (i + 1) (UInt8.ofNat (w / 256))).set (i + 2)
    (UInt8.ofNat (w / 65536))).set (i + 3) (UInt8.ofNat (w / 16777216))

/-- The fields of `struct fp_reply` written to `outbuf`; `result` follows two bytes of padding. -/
def makeReply (outbuf : List UInt8) (kind : UInt8) (result : Int) : List UInt8 :=
  storeInt ((outbuf.set 0 fpReply).set 1 kind) 4 result

@[simp] theorem length_makeReply (outbuf : List UInt8) (kind : UInt8) (result : Int) :
    (makeReply outbuf kind result).length = outbuf.length := by
  simp [makeReply, storeInt]

/-- What a call of `fp_mgr_incoming` does besides changing the state: the request it executes, and the reply. -/
structure Incoming where
  executed : Option Received
  reply : List UInt8

/-- `fp_mgr_incoming`, from a successful `recv` to the reply. -/
def mgrIncoming (r : Received) (outbuf : List UInt8) (s : σ) : σ × Incoming :=
  let kind := reqKind r.buf
  if reqType r.buf = fpRequest then
    let (s', result) := onRequest h r.buf s
    (s', ⟨some r, makeReply outbuf kind result⟩)
  else (s, ⟨none, makeReply outbuf kind fpBadRequest⟩)

/-- What `recv` delivers in one call, and what the two stack buffers held before. -/
structure Delivery where
  chunk : List UInt8
  inbuf : List UInt8
  outbuf : List UInt8
  chunk_pos : 1 ≤ chunk.length
  chunk_le : chunk.length ≤ messageLen
  inbuf_len : inbuf.length = messageLen
  outbuf_len : outbuf.length = messageLen

/-- What `recv` delivers when both buffers held zeros. -/
def Delivery.intoZeros (chunk : List UInt8) (hpos : 1 ≤ chunk.length) (hle : chunk.length ≤ messageLen) : Delivery where
  chunk := chunk
  inbuf := List.replicate messageLen 0
  outbuf := List.replicate messageLen 0
  chunk_pos := hpos
  chunk_le := hle
  inbuf_len := List.length_replicate
  outbuf_len := List.length_replicate

/-- The buffer after the `recv`. -/
def Delivery.received (d : Delivery) : Received := recvInto d.inbuf d.chunk

/-- One call. -/
def mgrStep (s : σ) (d : Delivery) : Checked (σ × Incoming) :=
  .ok (mgrIncoming h d.received d.outbuf s)

end Flowpath
end Freeflow
