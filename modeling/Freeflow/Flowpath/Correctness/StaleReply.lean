import Freeflow.Flowpath.Correctness.Framing

/-!
# `Flowpath.Correctness.StaleReply` — what the stack buffers of `fp_mgr_incoming` show

`fp_mgr_incoming` enters with two buffers of indeterminate contents, receives into one, writes six bytes of the other
and sends all of it. Two calls from the same state on the same bytes are compared: `incoming` is a call as a function
of its stack. A call that sends a reply is never a function of the state and the received bytes (`no_stale_memory_iff`);
after a whole message the state change and the written bytes are (`incoming_of_whole`), so what differs then is what was
not written.
-/

namespace Freeflow
namespace Flowpath

/-- What `inbuf` and `outbuf` hold when `fp_mgr_incoming` is entered. -/
structure Stack where
  inbuf : List UInt8
  outbuf : List UInt8
  inbuf_len : inbuf.length = messageLen
  outbuf_len : outbuf.length = messageLen

/-- A stack on which both buffers hold the byte `x` throughout. -/
def Stack.filled (x : UInt8) : Stack where
  inbuf := List.replicate messageLen x
  outbuf := List.replicate messageLen x
  inbuf_len := List.length_replicate
  outbuf_len := List.length_replicate

theorem Stack.filled_outbuf {x : UInt8} {i : Nat} (hi : i < messageLen) :
    (Stack.filled x).outbuf[i]? = some x :=
  List.getElem?_replicate_of_lt hi

variable {σ : Type} (h : Handlers σ)

/-- A call of `fp_mgr_incoming`, by what `recv` returns: the state it leaves and the bytes it sends. A `recv` that fails
    ends the call. -/
def incoming (s : σ) (b : Stack) : Option (List UInt8) → σ × Option (List UInt8)
  | none => (s, none)
  | some chunk =>
      let (s', inc) := mgrIncoming h (recvInto b.inbuf chunk) b.outbuf s
      (s', some inc.reply)

/-- The call does the same whatever the stack held. -/
def NoStaleMemory (recv : Option (List UInt8)) (s : σ) : Prop :=
  ∀ b b' : Stack, incoming h s b recv = incoming h s b' recv

/-! ## The bytes of a reply -/

/-- The bytes that the fields of the reply occupy. -/
def Written (i : Nat) : Prop := i = 0 ∨ i = 1 ∨ (4 ≤ i ∧ i < 8)

/-- A byte that no field occupies is sent as it was. -/
theorem makeReply_getElem?_of_not_written (outbuf : List UInt8) (kind : UInt8) (result : Int) {i : Nat}
    (hi : ¬ Written i) : (makeReply outbuf kind result)[i]? = outbuf[i]? := by
  unfold Written at hi
  simp only [makeReply, storeInt]
  rw [List.getElem?_set_ne (by omega), List.getElem?_set_ne (by omega), List.getElem?_set_ne (by omega),
    List.getElem?_set_ne (by omega), List.getElem?_set_ne (by omega), List.getElem?_set_ne (by omega)]

/-- A byte of a field does not depend on what the buffer held. -/
theorem makeReply_getElem?_of_written {outbuf outbuf' : List UInt8} (hlen : outbuf.length = outbuf'.length)
    (kind : UInt8) (result : Int) {i : Nat} (hi : Written i) :
    (makeReply outbuf kind result)[i]? = (makeReply outbuf' kind result)[i]? := by
  simp only [makeReply, storeInt, List.getElem?_set, List.length_set, hlen]
  have hcases : i = 0 ∨ i = 1 ∨ i = 4 ∨ i = 5 ∨ i = 6 ∨ i = 7 := by
    unfold Written at hi
    omega
  rcases hcases with rfl | rfl | rfl | rfl | rfl | rfl <;> simp

/-- The reply of a call, as the reply that `makeReply` writes into its `outbuf`. -/
theorem incoming_reply (chunk : List UInt8) (s : σ) (b : Stack) :
    ∃ result, (incoming h s b (some chunk)).2
      = some (makeReply b.outbuf (reqKind (recvInto b.inbuf chunk).buf) result) := by
  unfold incoming mgrIncoming
  dsimp only
  by_cases htype : reqType (recvInto b.inbuf chunk).buf = fpRequest
  · exact ⟨_, by rw [if_pos htype]⟩
  · exact ⟨_, by rw [if_neg htype]⟩

/-- Every byte that no field occupies shows the stack. -/
theorem incoming_shows_stack (chunk : List UInt8) (s : σ) (b : Stack) {i : Nat} (hi : ¬ Written i) :
    (incoming h s b (some chunk)).2.map (fun reply => reply[i]?) = some b.outbuf[i]? := by
  obtain ⟨result, hreply⟩ := incoming_reply h chunk s b
  rw [hreply, Option.map_some, makeReply_getElem?_of_not_written _ _ _ hi]

/-- **After a whole message only unwritten bytes show the stack**: the state change and the fields of the reply are
    the same on every stack. -/
theorem incoming_of_whole {chunk : List UInt8} (hwhole : chunk.length = messageLen) (s : σ) (b b' : Stack) :
    (incoming h s b (some chunk)).1 = (incoming h s b' (some chunk)).1 ∧
    ∀ i, Written i → (incoming h s b (some chunk)).2.map (fun reply => reply[i]?)
      = (incoming h s b' (some chunk)).2.map (fun reply => reply[i]?) := by
  have hrecv : ∀ b : Stack, recvInto b.inbuf chunk = complete chunk := by
    intro b
    have hdrop : b.inbuf.drop chunk.length = [] := by rw [List.drop_eq_nil_iff, b.inbuf_len, hwhole]
    rw [recvInto, hdrop, List.append_nil, hwhole]
    rfl
  have hlen : b.outbuf.length = b'.outbuf.length := b.outbuf_len.trans b'.outbuf_len.symm
  unfold incoming mgrIncoming
  dsimp only
  rw [hrecv b, hrecv b']
  by_cases htype : reqType (complete chunk).buf = fpRequest
  · simp only [if_pos htype]
    exact ⟨trivial, fun i hi => congrArg some (makeReply_getElem?_of_written hlen _ _ hi)⟩
  · simp only [if_neg htype]
    exact ⟨trivial, fun i hi => congrArg some (makeReply_getElem?_of_written hlen _ _ hi)⟩

/-- A call that received bytes, or the end of the stream, sends back what its stack held. -/
theorem stale_of_received (chunk : List UInt8) (s : σ) : ¬ NoStaleMemory h (some chunk) s := by
  intro hsame
  -- byte 8 is the first one behind the fields
  have hbyte := congrArg (fun r => r.2.map (fun reply => reply[8]?)) (hsame (Stack.filled 0) (Stack.filled 1))
  have hunwritten : ¬ Written 8 := by unfold Written; omega
  simp only [incoming_shows_stack h chunk s _ hunwritten] at hbyte
  rw [Stack.filled_outbuf (by decide), Stack.filled_outbuf (by decide)] at hbyte
  exact absurd hbyte (by decide)

/-- **A reply carries no stale memory exactly when there is no reply**, in every state and whatever was received. -/
theorem no_stale_memory_iff (recv : Option (List UInt8)) (s : σ) : NoStaleMemory h recv s ↔ recv = none := by
  constructor
  · intro hsame
    cases recv with
    | none => rfl
    | some chunk => exact absurd hsame (stale_of_received h chunk s)
  · rintro rfl b b'
    rfl

/-- At the end of the stream the message sent back shows what the stack held. -/
theorem end_of_stream_leaks : ¬ NoStaleMemory noPlanes (some []) () := by
  intro hsame
  have hbyte := congrArg (fun r => r.2.map (fun reply => reply[1023]?)) (hsame (Stack.filled 0) (Stack.filled 7))
  have hunwritten : ¬ Written 1023 := by unfold Written; omega
  simp only [incoming_shows_stack noPlanes [] () _ hunwritten] at hbyte
  rw [Stack.filled_outbuf (by decide), Stack.filled_outbuf (by decide)] at hbyte
  exact absurd hbyte (by decide)

end Flowpath
end Freeflow
