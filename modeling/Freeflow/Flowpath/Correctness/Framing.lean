import Freeflow.Flowmgr.Switch
import Freeflow.Lib.Framing

/-!
# `Flowpath.Correctness.Framing` — when one `recv` is one message

Both ends of the channel treat what one `recv` returns as a message. `framing_iff` says that the receivers see the
sequence that was sent, each message from its own bytes, exactly when every `recv` returns `messageLen` bytes. A short
first piece is not made good by what the buffer happens to hold: the bytes of the messages are then used up
before the last one is complete (`Lib.Framing`).
-/

namespace Freeflow
namespace Flowpath

/-- A message received completely. -/
def complete (msg : List UInt8) : Received := ⟨msg, messageLen⟩

/-- Every `recv` returns a whole message. -/
def Whole (ds : List Delivery) : Prop := ∀ d ∈ ds, d.chunk.length = messageLen

/-- The deliveries carry the stream of the messages. -/
structure Carries (ds : List Delivery) (msgs : List (List UInt8)) : Prop where
  length : ∀ msg ∈ msgs, msg.length = messageLen
  stream : (ds.map Delivery.chunk).flatten = msgs.flatten

variable {ds : List Delivery} {msgs : List (List UInt8)}

theorem Carries.sum_eq (C : Carries ds msgs) :
    (ds.map (fun d => d.chunk.length)).sum = messageLen * msgs.length := by
  rw [← length_flatten_of_length C.length, ← C.stream, List.length_flatten, List.map_map]
  rfl

/-- Nothing of the old contents is left behind a whole message. -/
theorem received_of_whole {d : Delivery} (h : d.chunk.length = messageLen) :
    d.received = complete d.chunk := by
  have hdrop : d.inbuf.drop d.chunk.length = [] := by
    rw [List.drop_eq_nil_iff, d.inbuf_len, h]
  rw [Delivery.received, recvInto, hdrop, List.append_nil, h]
  rfl

theorem Carries.received_eq (C : Carries ds msgs) (hw : Whole ds) :
    ds.map Delivery.received = msgs.map complete := by
  have hchunks : ds.map Delivery.chunk = msgs := by
    refine eq_of_flatten_eq (N := messageLen) (by decide) (fun c hc => ?_) C.length C.stream
    obtain ⟨d, hd, rfl⟩ := List.mem_map.mp hc
    exact hw d hd
  rw [← hchunks, List.map_map]
  apply List.map_congr_left
  intro d hd
  exact received_of_whole (hw d hd)

/-- **What is picked out of the received buffers is what was sent if and only if every piece is a message**,
    for any criterion that the sent messages meet. -/
theorem Carries.filter_received_iff (C : Carries ds msgs) {p : Received → Bool}
    (hp : ∀ msg ∈ msgs, p (complete msg) = true) :
    (ds.map Delivery.received).filter p = msgs.map complete ↔ Whole ds := by
  constructor
  · intro h
    have hfilter : (ds.map Delivery.received).filter p
        = (ds.filter (fun d => p d.received)).map Delivery.received := List.filter_map
    rw [hfilter] at h
    refine length_of_filter (fun d : Delivery => d.chunk.length) (fun d => p d.received)
      (fun d _ => d.chunk_pos) C.sum_eq ?_ (fun d hd => ?_)
    · have hlen := congrArg List.length h
      simpa using hlen
    · have hmem : d.received ∈ msgs.map complete := by
        rw [← h]
        exact List.mem_map_of_mem hd
      obtain ⟨msg, -, hmsg⟩ := List.mem_map.mp hmem
      exact (congrArg Received.count hmsg).symm
  · intro hw
    rw [C.received_eq hw, List.filter_eq_self]
    intro r hr
    obtain ⟨msg, hmsg, rfl⟩ := List.mem_map.mp hr
    exact hp msg hmsg

/-! ## The two receivers -/

/-- The buffer holds a request. -/
def Received.isRequest (r : Received) : Bool := reqType r.buf = fpRequest

theorem mgrIncoming_executed {σ : Type} (h : Handlers σ) (r : Received) (outbuf : List UInt8) (s : σ) :
    (mgrIncoming h r outbuf s).2.executed = if r.isRequest then some r else none := by
  by_cases hr : reqType r.buf = fpRequest
  · simp [mgrIncoming, Received.isRequest, hr]
  · simp [mgrIncoming, Received.isRequest, hr]

/-- A run of `fp_mgr_incoming` executes the buffers that hold requests. -/
theorem mgr_run {σ : Type} (h : Handlers σ) : ∀ (ds : List Delivery) (s : σ),
    ∃ s' outs, runAll (mgrStep h) s ds = .ok (s', outs) ∧
      outs.filterMap Incoming.executed = (ds.map Delivery.received).filter Received.isRequest
  | [], s => ⟨s, [], rfl, rfl⟩
  | d :: ds, s => by
      obtain ⟨s', outs, hrun, houts⟩ := mgr_run h ds (mgrIncoming h d.received d.outbuf s).1
      have hstep : mgrStep h s d = .ok ((mgrIncoming h d.received d.outbuf s).1,
        (mgrIncoming h d.received d.outbuf s).2) := rfl
      refine ⟨s', (mgrIncoming h d.received d.outbuf s).2 :: outs, ?_, ?_⟩
      · rw [runAll_cons_ok hstep, hrun]
        rfl
      · rw [List.map_cons, List.filter_cons, List.filterMap_cons, mgrIncoming_executed, houts]
        by_cases hr : d.received.isRequest = true
        · rw [if_pos hr, if_pos hr]
        · rw [if_neg hr, if_neg hr]

open Flowmgr (switchStep switchOnInput)

theorem chunk_ne_nil (d : Delivery) : d.chunk ≠ [] := by
  intro h
  have := d.chunk_pos
  rw [h] at this
  exact absurd this (by decide)

/-- With a control channel, a run of `Switch_channel::on_input` passes every buffer on. -/
theorem switch_run : ∀ ds : List Delivery,
    runAll (switchStep true) () ds = .ok ((), ds.map (fun d => some d.received))
  | [] => rfl
  | d :: ds => by
      have hstep : switchStep true () d = .ok ((), some d.received) := by
        rw [switchStep, switchOnInput, if_neg (chunk_ne_nil d)]
        rfl
      rw [runAll_cons_ok hstep, switch_run ds]
      rfl

/-- Without one, the first reply is dispatched through a null pointer. -/
theorem switch_run_absent (d : Delivery) (ds : List Delivery) :
    runAll (switchStep false) () (d :: ds) = .error .nullDeref := by
  have hstep : switchStep false () d = .error .nullDeref := by
    rw [switchStep, switchOnInput, if_neg (chunk_ne_nil d)]
    rfl
  rw [runAll, hstep]
  rfl

theorem mgr_run_iff {σ : Type} (h : Handlers σ) (s : σ) (C : Carries ds msgs)
    (hreq : ∀ msg ∈ msgs, reqType msg = fpRequest) :
    (∃ s' outs, runAll (mgrStep h) s ds = .ok (s', outs) ∧
      outs.filterMap Incoming.executed = msgs.map complete) ↔ Whole ds := by
  obtain ⟨s', outs, hrun, houts⟩ := mgr_run h ds s
  have hp : ∀ msg ∈ msgs, (complete msg).isRequest = true := fun msg hmsg =>
    decide_eq_true (hreq msg hmsg)
  rw [← C.filter_received_iff hp, ← houts]
  constructor
  · rintro ⟨s₁, outs₁, hrun₁, h₁⟩
    rw [hrun] at hrun₁
    cases hrun₁
    exact h₁
  · intro h₁
    exact ⟨s', outs, hrun, h₁⟩

theorem switch_run_iff (ctrl : Bool) (C : Carries ds msgs) :
    (∃ outs, runAll (switchStep ctrl) () ds = .ok ((), outs) ∧ outs.filterMap id = msgs.map complete) ↔
      Whole ds ∧ (ctrl = true ∨ msgs = []) := by
  cases ctrl with
  | true =>
      have hall : (ds.map (fun d => some d.received)).filterMap id
          = (ds.map Delivery.received).filter (fun _ => true) := by
        rw [List.filter_eq_self.mpr (fun _ _ => rfl), List.filterMap_map]
        exact congrFun List.filterMap_eq_map' ds
      have hiff := C.filter_received_iff (p := fun _ => true) (fun _ _ => rfl)
      rw [← hall] at hiff
      rw [← hiff]
      constructor
      · rintro ⟨outs, hrun, houts⟩
        rw [switch_run] at hrun
        cases hrun
        exact ⟨houts, Or.inl rfl⟩
      · rintro ⟨houts, -⟩
        exact ⟨_, switch_run ds, houts⟩
  | false =>
      cases ds with
      | nil =>
          constructor
          · rintro ⟨outs, hrun, houts⟩
            cases hrun
            exact ⟨fun d hd => absurd hd (by simp), Or.inr (List.map_eq_nil_iff.mp houts.symm)⟩
          · rintro ⟨-, hmsgs⟩
            rw [hmsgs.resolve_left Bool.false_ne_true]
            exact ⟨[], rfl, rfl⟩
      | cons d ds =>
          constructor
          · rintro ⟨outs, hrun, -⟩
            rw [switch_run_absent] at hrun
            cases hrun
          · rintro ⟨-, hmsgs⟩
            -- no message makes no stream, and a delivery is not empty
            have hstream := C.stream
            rw [hmsgs.resolve_left Bool.false_ne_true, List.map_cons, List.flatten_cons, List.flatten_nil,
              List.append_eq_nil_iff] at hstream
            exact absurd hstream.1 (chunk_ne_nil d)

/-- **Framing.** `flowpath` executes the requests that were sent, and `flowmgr` passes on the replies that were
    sent, each once, in order and from its own bytes, if and only if every `recv` returns a whole message and a
    control channel is there for the replies. -/
theorem framing_iff {σ : Type} (h : Handlers σ) (s : σ) (ctrl : Bool) {ds ds' : List Delivery}
    {reqs reps : List (List UInt8)} (C : Carries ds reqs) (C' : Carries ds' reps)
    (hreq : ∀ msg ∈ reqs, reqType msg = fpRequest) :
    ((∃ s' outs, runAll (mgrStep h) s ds = .ok (s', outs) ∧
        outs.filterMap Incoming.executed = reqs.map complete) ∧
      ∃ outs, runAll (switchStep ctrl) () ds' = .ok ((), outs) ∧ outs.filterMap id = reps.map complete) ↔
    Whole ds ∧ Whole ds' ∧ (ctrl = true ∨ reps = []) := by
  rw [mgr_run_iff h s C hreq, switch_run_iff ctrl C']

/-- Handlers of a state without data planes, for the examples below. -/
def noPlanes : Handlers Unit where
  onDataplaneAdd _ s := (s, 1)
  onDataplaneDel _ s := (s, 5)
  onPortAdd _ s := (s, 5)
  onPortDel _ s := (s, 5)
  onPortList _ s := (s, 0)

/-- A message of a type and a kind, with nothing in its other fields. -/
def bare (head : UInt8 × UInt8) : List UInt8 := head.1 :: head.2 :: List.replicate (messageLen - 2) 0

theorem length_bare (head : UInt8 × UInt8) : (bare head).length = messageLen := by
  rw [bare, List.length_cons, List.length_cons, List.length_replicate]
  rfl

/-- Its delivery at once. -/
def bareDelivery (head : UInt8 × UInt8) : Delivery :=
  Delivery.intoZeros (bare head) (by rw [length_bare]; decide) (length_bare head).le

theorem carries_bare (heads : List (UInt8 × UInt8)) : Carries (heads.map bareDelivery) (heads.map bare) where
  length msg hmsg := by
    obtain ⟨head, -, rfl⟩ := List.mem_map.mp hmsg
    exact length_bare head
  stream := by
    rw [List.map_map]
    rfl

theorem whole_bare (heads : List (UInt8 × UInt8)) : Whole (heads.map bareDelivery) := by
  intro d hd
  obtain ⟨head, -, rfl⟩ := List.mem_map.mp hd
  exact length_bare head

/-- A data plane is deleted, and the ports are listed; the two replies come back. -/
theorem framing_iff_two :
    (∃ s' outs, runAll (mgrStep noPlanes) () ([(fpRequest, dataplaneDel), (fpRequest, portList)].map bareDelivery) =
        .ok (s', outs) ∧
      outs.filterMap Incoming.executed = ([(fpRequest, dataplaneDel), (fpRequest, portList)].map bare).map complete) ∧
    ∃ outs, runAll (switchStep true) () ([(fpReply, dataplaneDel), (fpReply, portList)].map bareDelivery) =
        .ok ((), outs) ∧
      outs.filterMap id = ([(fpReply, dataplaneDel), (fpReply, portList)].map bare).map complete := by
  have hreq : ∀ msg ∈ [(fpRequest, dataplaneDel), (fpRequest, portList)].map bare, reqType msg = fpRequest := by
    intro msg hmsg
    simp only [List.map_cons, List.map_nil, List.mem_cons, List.not_mem_nil, or_false] at hmsg
    rcases hmsg with rfl | rfl <;> rfl
  exact (framing_iff noPlanes () true (carries_bare _) (carries_bare _) hreq).mpr
    ⟨whole_bare _, whole_bare _, Or.inl rfl⟩

/-- A delivery of `n` zero bytes into zeroed buffers. -/
def zeroDelivery (n : Nat) (hpos : 1 ≤ n) (hle : n ≤ messageLen) : Delivery :=
  Delivery.intoZeros (List.replicate n 0) (by rwa [List.length_replicate]) (by rwa [List.length_replicate])

/-- A request of zero bytes in two halves is taken for two requests. -/
theorem framing_halves :
    Carries [zeroDelivery 512 (by decide) (by decide), zeroDelivery 512 (by decide) (by decide)]
      [List.replicate messageLen 0] ∧
    ¬ ∃ s' outs, runAll (mgrStep noPlanes) ()
        [zeroDelivery 512 (by decide) (by decide), zeroDelivery 512 (by decide) (by decide)] = .ok (s', outs) ∧
      outs.filterMap Incoming.executed = [List.replicate messageLen 0].map complete := by
  have C : Carries [zeroDelivery 512 (by decide) (by decide), zeroDelivery 512 (by decide) (by decide)]
      [List.replicate messageLen 0] := by
    refine ⟨fun m hm => by rw [List.mem_singleton.mp hm, List.length_replicate], ?_⟩
    show (List.replicate 512 (0 : UInt8) ++ (List.replicate 512 0 ++ [])) = List.replicate 1024 0 ++ []
    rw [List.append_nil, List.append_nil, List.replicate_append_replicate]
  refine ⟨C, fun h => ?_⟩
  have hw := (mgr_run_iff noPlanes () C (fun m hm => by rw [List.mem_singleton.mp hm]; rfl)).mp h
  have hlen : (List.replicate 512 (0 : UInt8)).length = messageLen := hw _ (List.mem_cons_self ..)
  rw [List.length_replicate] at hlen
  exact absurd hlen (by decide)

end Flowpath
end Freeflow
