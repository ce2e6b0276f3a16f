import Freeflow.Flowpath.Nadk
import Freeflow.Flowpath.Correctness.RingFifo

/-!
# `Flowpath.Correctness.NadkReceive` — receiving from a NADK device loses nothing

`fp_nadk_recv` asks for a batch when fewer than `rxBudget` packets are queued, and the batch has at most `rxBudget`
packets; so at most `2 * rxBudget - 1` are queued, which is what a ring of `2 * rxBudget` cells holds. `Receives` is
this bound together with the fact that no null pointer is queued, which makes a null result mean "nothing there", and
that the device has a handle: a batch is asked for through it.
-/

namespace Freeflow
namespace Flowpath
namespace Nadk

/-- The device has a handle, and its rx ring holds the packets `ps`. -/
def Queued (dev : Device) (ps : List Packet) : Prop :=
  dev.handle ≠ none ∧
    ∃ f : Fifo (Option Packet) (2 * rxBudget - 1), Ring.Refines dev.rxRing f ∧ f.items = ps.map some

/-- **The invariant of a device that receives.** -/
def Receives (dev : Device) : Prop := ∃ ps, Queued dev ps

variable {dev : Device} {ps : List Packet}

theorem Queued.count_eq (Q : Queued dev ps) : dev.rxRing.count = .ok (ps.length : Int) := by
  obtain ⟨-, f, ⟨-, h, H⟩, hitems⟩ := Q
  rw [H.count_eq, hitems, List.length_map]

theorem Queued.contents_eq (Q : Queued dev ps) : dev.rxRing.contents = ps.map some := by
  obtain ⟨-, f, ⟨-, h, H⟩, hitems⟩ := Q
  rw [H.contents_eq, hitems]

/-- A device that was opened got two new rings. -/
theorem nadkOpen_rings {state : State} {initialized : Bool} {ethDevCnt : Nat} {netDev : Slots Nat maxEthDev}
    {rx tx : RingMemory} {p : Int} (h : nadkOpen state initialized ethDevCnt netDev rx tx p = .ok (some dev)) :
    dev.rxRing = Ring.new (2 * rxBudget) rx.cells ∧ dev.txRing = Ring.new (2 * rxBudget) tx.cells := by
  unfold nadkOpen at h
  dsimp only at h
  generalize (if state = State.uninit then (if initialized then State.init else State.error) else state) = st at h
  by_cases herror : st = State.error
  · rw [if_pos herror] at h
    cases h
  · rw [if_neg herror] at h
    by_cases hbelow : p < 0 ∧ (ethDevCnt : Int) ≤ p % 4294967296
    · rw [if_pos hbelow] at h
      cases h
    · rw [if_neg hbelow] at h
      by_cases hp : 0 ≤ p ∧ p < maxEthDev
      · rw [if_pos hp] at h
        obtain ⟨handle, -, h⟩ := bind_eq_ok h
        cases h
        exact ⟨rfl, rfl⟩
      · rw [if_neg hp] at h
        cases h

/-- A new ring stands for the empty queue. -/
theorem newRing_refines (m : RingMemory) :
    Ring.Refines (Ring.new (2 * rxBudget) m.cells) (Fifo.empty : Fifo (Option Packet) (2 * rxBudget - 1)) := by
  have hlen := m.length
  have hbudget : rxBudget = 16 := rfl
  exact Ring.init_refines (r := { head := 0, tail := 0, num := 2 * rxBudget, ring := m.cells })
    (by dsimp only; omega) (by dsimp only; omega) (by dsimp only; omega)

/-- A device that was just opened has no packet queued. -/
theorem nadkOpen_queued {state : State} {initialized : Bool} {ethDevCnt : Nat} {netDev : Slots Nat maxEthDev}
    {rx tx : RingMemory} {p : Int} (h : nadkOpen state initialized ethDevCnt netDev rx tx p = .ok (some dev))
    (hhandle : dev.handle ≠ none) : Queued dev [] := by
  refine ⟨hhandle, Fifo.empty, ?_, rfl⟩
  rw [(nadkOpen_rings h).1]
  exact newRing_refines rx

/-- The first `i` iterations of the loop put the first `i` packets into `rx_batch`. -/
theorem batchLoop_eq (bufs : List Mbuf) (rxBatch : List (Option Packet)) :
    ∀ i, i ≤ bufs.length → i ≤ rxBatch.length →
      batchLoop bufs rxBatch i = .ok ((bufs.take i).map (fun m => some (packetOf m)) ++ rxBatch.drop i) := by
  intro i
  induction i with
  | zero => intro _ _; rfl
  | succ i ih =>
      intro hb hx
      have hlen : ((bufs.take i).map (fun m => some (packetOf m))).length = i := by
        rw [List.length_map, List.length_take]
        omega
      rw [batchLoop, ih (by omega) (by omega), ok_bind, load_natCast (List.getElem?_eq_getElem hb), ok_bind,
        store_natCast _ (by simp only [List.length_append, hlen, List.length_drop]; omega)]
      rw [List.set_append_right _ _ (by omega), hlen, Nat.sub_self, List.drop_eq_getElem_cons hx,
        List.set_cons_zero, List.take_succ_eq_append_getElem hb, List.map_append, List.append_assoc]
      rfl

/-- **A batch is queued whole** when fewer packets than the budget are queued. -/
theorem nadkRecvBatch_queued (Q : Queued dev ps) (hfew : ps.length < rxBudget) (r : Received) :
    ∃ dev', nadkRecvBatch dev r = .ok (dev', (r.bufs.length : Int)) ∧ Queued dev' (ps ++ r.bufs.map packetOf) := by
  have hret := r.ret_le
  have hbufs := r.bufs_len
  have hstale := r.stale_len
  obtain ⟨a, hderef⟩ := derefPtr_of_ne Q.1
  unfold nadkRecvBatch
  rw [hderef, ok_bind]
  by_cases hnone : r.ret ≤ 0
  · have hnil : r.bufs = [] := List.eq_nil_of_length_eq_zero (by omega)
    rw [if_pos hnone, hnil]
    exact ⟨dev, rfl, by simpa using Q⟩
  · obtain ⟨hhandle, f, R, hitems⟩ := Q
    have hlen : f.items.length = ps.length := by rw [hitems, List.length_map]
    have hroom : r.ret.toNat ≤ f.room := by simp only [Fifo.room]; omega
    obtain ⟨ring, hpush, R'⟩ := Ring.pushN_refines R (n := r.ret)
      (x := r.bufs.map (fun m => some (packetOf m)) ++ r.stale.drop r.ret.toNat) (by omega)
      (by simp only [List.length_append, List.length_map, List.length_drop]; omega)
    rw [if_neg hnone, batchLoop_eq _ _ _ (by omega) (by omega), List.take_of_length_le (by omega)]
    simp only [ok_bind, hpush, pure_eq_ok]
    refine ⟨{ dev with rxRing := ring }, ?_, hhandle, _, R', ?_⟩
    · rw [Nat.min_eq_left hroom, hbufs]
    · have hmap : (r.bufs.map (fun m => some (packetOf m))).length = r.ret.toNat := by
        rw [List.length_map, hbufs]
      rw [Fifo.items_pushMany, ← hmap, List.take_left, hitems, List.take_of_length_le (by omega), List.map_append,
        List.map_map]
      rfl

/-- Popping the ring takes the oldest packet. -/
theorem Queued.pop_eq (Q : Queued dev ps) :
    ∃ rxRing, dev.rxRing.pop = .ok (rxRing, ps.head?) ∧ Queued { dev with rxRing } ps.tail := by
  obtain ⟨hhandle, f, R, hitems⟩ := Q
  obtain ⟨ring, hpop, R'⟩ := Ring.pop_refines R
  refine ⟨ring, ?_, hhandle, f.discard 1, R', ?_⟩
  · rw [hpop, hitems]
    cases ps <;> rfl
  · rw [Fifo.items_discard, hitems]
    cases ps <;> rfl

/-- **One call of `fp_nadk_recv`** takes the oldest packet after queueing all that was delivered. -/
theorem nadkRecv_conserves (R : Receives dev) (r : Received) :
    ∃ dev' o, nadkRecv dev r = .ok (dev', o) ∧ Receives dev' ∧ o.pushed = o.delivered.length ∧
      o.packet.toList.map some ++ dev'.rxRing.contents
        = dev.rxRing.contents ++ o.delivered.map (fun m => some (packetOf m)) := by
  obtain ⟨ps, Q⟩ := R
  have htake : ∀ ps : List Packet, ps.head?.toList.map some ++ ps.tail.map some = ps.map some := by
    intro ps
    cases ps <;> rfl
  unfold nadkRecv
  rw [Q.count_eq, ok_bind]
  by_cases hfew : ps.length < rxBudget
  -- a batch is asked for, and whatever it holds there is room for it
  · obtain ⟨dev₁, hbatch, Q₁⟩ := nadkRecvBatch_queued Q hfew r
    obtain ⟨ring, hpop, Q₂⟩ := Q₁.pop_eq
    rw [if_pos (by omega), hbatch]
    simp only [ok_bind, hpop, pure_eq_ok]
    refine ⟨_, _, rfl, ⟨_, Q₂⟩, rfl, ?_⟩
    rw [Q₂.contents_eq, Q.contents_eq, htake, List.map_append, List.map_map]
    rfl
  · obtain ⟨ring, hpop, Q₂⟩ := Q.pop_eq
    rw [if_neg (by omega)]
    simp only [ok_bind, hpop, pure_eq_ok]
    refine ⟨_, _, rfl, ⟨_, Q₂⟩, rfl, ?_⟩
    rw [Q₂.contents_eq, Q.contents_eq, htake]
    simp

/-- **Nothing that was received is lost.** Along every run of `fp_nadk_recv` on a device that was just opened, with a
    handle, the packets returned, followed by the contents of the rx ring, are the packets that `nadk_receive`
    delivered, in order; and every batch was accepted whole. -/
theorem nadkRecv_lossless {state : State} {initialized : Bool} {ethDevCnt : Nat} {netDev : Slots Nat maxEthDev}
    {rx tx : RingMemory} {p : Int} (hopen : nadkOpen state initialized ethDevCnt netDev rx tx p = .ok (some dev))
    (hhandle : dev.handle ≠ none) (rs : List Received) :
    ∃ dev' outs, runAll nadkRecv dev rs = .ok (dev', outs) ∧ (∀ o ∈ outs, o.pushed = o.delivered.length) ∧
      outs.flatMap (fun o => o.packet.toList.map some) ++ dev'.rxRing.contents
        = outs.flatMap (fun o => o.delivered.map (fun m => some (packetOf m))) := by
  have Q := nadkOpen_queued hopen hhandle
  obtain ⟨dev', outs, hrun, hpushed, hall⟩ := runAll_conserves Receives
    (fun o : Outcome => o.pushed = o.delivered.length) (fun dev => dev.rxRing.contents)
    (fun o => o.packet.toList.map some) (fun o => o.delivered.map (fun m => some (packetOf m)))
    (fun dev r R => nadkRecv_conserves R r) rs dev ⟨[], Q⟩
  refine ⟨dev', outs, hrun, hpushed, ?_⟩
  rw [hall, Q.contents_eq]
  rfl

/-- Memory for a ring, with null pointers left in it. -/
def nullCells : RingMemory := ⟨List.replicate (2 * rxBudget) none, List.length_replicate⟩

/-- `nadk_receive` delivers two buffers. -/
def twoBuffers : Received where
  ret := 2
  bufs := [⟨4096, 4224, 60, 0⟩, ⟨8192, 8320, 1500, 1⟩]
  stale := List.replicate rxBudget none
  ret_le := by decide
  bufs_len := rfl
  stale_len := List.length_replicate

/-- The only device that was discovered, in the table of devices. -/
def oneDevice : Slots Nat maxEthDev := Slots.empty.put 0 (some 7)

/-- That device, just opened. -/
def openDevice : Device :=
  ⟨some 7, Ring.new (2 * rxBudget) nullCells.cells, Ring.new (2 * rxBudget) nullCells.cells, 0⟩

/-- Two batches of two on port 0 of the only device. -/
theorem nadkRecv_lossless_two : ∃ dev' outs,
    runAll nadkRecv openDevice [twoBuffers, twoBuffers] = .ok (dev', outs) ∧
      (∀ o ∈ outs, o.pushed = o.delivered.length) ∧
      outs.flatMap (fun o => o.packet.toList.map some) ++ dev'.rxRing.contents
        = outs.flatMap (fun o => o.delivered.map (fun m => some (packetOf m))) :=
  nadkRecv_lossless (rfl : nadkOpen .uninit true 1 oneDevice nullCells nullCells 0 = .ok (some openDevice)) (by simp)
    [twoBuffers, twoBuffers]

end Nadk
end Flowpath
end Freeflow
