import Freeflow.Flowpath.NadkDirect

/-!
# `Flowpath.Correctness.NadkDirect` — what comes from a NADK device goes back to one

The functions that pass buffers on without rings keep nothing: after each call, the mbufs that were received are those that
were transmitted or freed, each once and in order, and the packets that were created are those that were deleted. The
exceptions are undefined behaviour: a device has no handle; `nadk_send` fails in a loopback, and its result is taken for
an index; and it succeeds in `fp_nadk_send_single`, which then reads the size of the packet that it deleted. `Counts` is
that none of them is met, for each call.
-/

namespace Freeflow
namespace Flowpath
namespace Nadk

variable {D : Type} {handle : D → Option Nat}

/-! ## What is asked of the log -/

/-- The mbuf that is received. -/
def Act.taken : Act D → Option MbufPtr
  | .receive _ m => some m
  | _ => none

/-- The mbuf that is given back. -/
def Act.given : Act D → Option MbufPtr
  | .transmit _ m => some m
  | .freeMbuf m => some m
  | _ => none

def Act.created : Act D → Option Packet
  | .create pkt => some pkt
  | _ => none

def Act.deleted : Act D → Option Packet
  | .delete pkt => some pkt
  | _ => none

/-- **All mbufs are given back**, each once, in the order they were received; and all packets are deleted. -/
structure Settled (log : List (Act D)) : Prop where
  mbufs : log.filterMap Act.given = log.filterMap Act.taken
  packets : log.filterMap Act.deleted = log.filterMap Act.created

theorem Settled.nil : Settled ([] : List (Act D)) := ⟨rfl, rfl⟩

theorem Settled.append {log acts : List (Act D)} (h : Settled log) (h' : Settled acts) : Settled (log ++ acts) where
  mbufs := by rw [List.filterMap_append, List.filterMap_append, h.mbufs, h'.mbufs]
  packets := by rw [List.filterMap_append, List.filterMap_append, h.packets, h'.packets]

/-! ## The calls -/

/-- The buffers are freed. -/
def freed (bufs : List Mbuf) : List (Act D) := bufs.map fun m => .freeMbuf (.handle m.address)

/-- The loop frees the buffers from its index on. -/
theorem freeLoop_eq (bufs : List Mbuf) : ∀ (left i : Nat), i + left = bufs.length →
    freeLoop (D := D) bufs left i = .ok (freed (bufs.drop i)) := by
  intro left
  induction left with
  | zero =>
      intro i hi
      rw [List.drop_of_length_le (by omega)]
      rfl
  | succ left ih =>
      intro i hi
      have hlt : i < bufs.length := by omega
      have hrest : freeLoop (D := D) bufs left ((i : Int) + 1) = .ok (freed (bufs.drop (i + 1))) := ih (i + 1) (by omega)
      rw [freeLoop, load_natCast (List.getElem?_eq_getElem hlt), ok_bind, hrest, List.drop_eq_getElem_cons hlt]
      rfl

/-- Nothing is picked out of a list. -/
theorem filterMap_nothing {α β : Type} (xs : List α) : xs.filterMap (fun _ => (none : Option β)) = [] :=
  List.filterMap_eq_nil_iff.mpr fun _ _ => rfl

/-- Buffers of which the first are transmitted and the others freed. -/
theorem settled_loop (src dst : D) (bufs : List Mbuf) (n : Nat) :
    Settled (received src bufs ++ transmittedTo dst (bufs.take n) ++ freed (bufs.drop n)) := by
  constructor
  · simp only [received, transmittedTo, freed, List.filterMap_append, List.filterMap_map, Function.comp_def, Act.given,
      Act.taken, filterMap_nothing, List.nil_append, List.append_nil, List.filterMap_eq_map']
    rw [← List.map_append, List.take_append_drop]
  · simp only [received, transmittedTo, freed, List.filterMap_append, List.filterMap_map, Function.comp_def, Act.deleted,
      Act.created, filterMap_nothing]

/-- The devices have a handle where it is used, and `nadk_send` does not fail. -/
def LoopDriver.Counts (handle : D → Option Nat) (src dst : D) (a : LoopDriver) : Prop :=
  handle src ≠ none ∧ (0 < a.receipt.ret → handle dst ≠ none ∧ 0 ≤ a.sent)

/-- A loopback whose `nadk_send` does not fail transmits the first of the buffers and frees the others. -/
theorem xloopback_settles (s : Direct D) {src dst : D} {a : LoopDriver} (h : a.Counts handle src dst) :
    ∃ acts n, xloopback handle s src dst a = .ok (s.note acts, n) ∧ Settled acts := by
  obtain ⟨hsrc, hcount⟩ := h
  obtain ⟨x, hx⟩ := derefPtr_of_ne hsrc
  unfold xloopback
  rw [hx, ok_bind]
  by_cases hret : a.receipt.ret ≤ 0
  · exact ⟨[], 0, by simp [hret], .nil⟩
  · obtain ⟨hdst, hsent⟩ := hcount (not_le.mp hret)
    obtain ⟨y, hy⟩ := derefPtr_of_ne hdst
    have hle := a.sent_le
    have hlen := a.receipt.bufs_len
    have hsettled := settled_loop src dst a.receipt.bufs a.sent.toNat
    refine ⟨_, a.sent, ?_, hsettled⟩
    simp only [if_neg hret, hy, ok_bind]
    by_cases heq : a.sent = a.receipt.ret
    · have hdrop : a.receipt.bufs.drop a.sent.toNat = [] := by
        rw [heq, ← hlen, List.drop_length]
      simp [if_neg (not_not.mpr heq), hdrop, freed]
    · have hfree := freeLoop_eq (D := D) a.receipt.bufs (a.receipt.ret - a.sent).toNat a.sent.toNat (by omega)
      rw [Int.toNat_of_nonneg hsent] at hfree
      simp [heq, hfree]

/-- A device without a handle is undefined to use, and if `nadk_send` fails, the first buffer to be freed is taken from in
    front of the array. -/
theorem xloopback_faults (s : Direct D) {src dst : D} {a : LoopDriver} (h : ¬ a.Counts handle src dst) :
    ∃ f, xloopback handle s src dst a = .error f := by
  unfold xloopback
  by_cases hsrc : handle src = none
  · exact ⟨.nullDeref, by rw [derefPtr_null hsrc]; rfl⟩
  obtain ⟨x, hx⟩ := derefPtr_of_ne hsrc
  have hpos : 0 < a.receipt.ret := by
    by_contra hnone
    exact h ⟨hsrc, fun hpos => absurd hpos hnone⟩
  rw [hx, ok_bind]
  simp only [if_neg (not_le.mpr hpos)]
  by_cases hdst : handle dst = none
  · exact ⟨.nullDeref, by rw [derefPtr_null hdst]; rfl⟩
  obtain ⟨y, hy⟩ := derefPtr_of_ne hdst
  have hneg : a.sent < 0 := by
    by_contra hsent
    exact h ⟨hsrc, fun _ => ⟨hdst, not_lt.mp hsent⟩⟩
  obtain ⟨left, hleft⟩ : ∃ left, (a.receipt.ret - a.sent).toNat = left + 1 := Nat.exists_eq_succ_of_ne_zero (by omega)
  have hload : load a.receipt.bufs a.sent = .error .outOfBounds := load_error (by omega)
  have hne : a.sent ≠ a.receipt.ret := by omega
  refine ⟨.outOfBounds, ?_⟩
  simp only [hy, ok_bind, ne_eq, hne, not_false_eq_true, if_true, hleft, freeLoop, hload, error_bind]

/-- The devices have a handle where it is used, and a packet that was received is not sent. -/
def SingleDriver.Refuses (handle : D → Option Nat) (src dst : D) (r : Receipt 1) (a : SingleDriver) : Prop :=
  handle src ≠ none ∧ (0 < r.ret → handle dst ≠ none ∧ a.ret ≠ 1)

/-- What is received is one buffer. -/
theorem Receipt.bufs_eq (r : Receipt 1) (hpos : 0 < r.ret) : ∃ m, r.bufs = [m] := by
  have hlen := r.bufs_len
  have hle := r.ret_le
  exact List.length_eq_one_iff.mp (by omega)

/-- A packet that was received goes to `fp_nadk_send_single` with its mbuf. -/
theorem passSingle_eq (s : Direct D) {src : D} (dst : D) {r : Receipt 1} (a : SingleDriver) (hsrc : handle src ≠ none)
    (hpos : 0 < r.ret) : ∃ m, passSingle handle s src dst r a =
      transmitSingle handle (s.note (received src [m] ++ [.create (packetOf m)])) dst (packetOf m) (.handle m.address)
        a.ret := by
  obtain ⟨x, hx⟩ := derefPtr_of_ne hsrc
  obtain ⟨m, hm⟩ := r.bufs_eq hpos
  refine ⟨m, ?_⟩
  unfold passSingle recvSingle
  simp only [hx, ok_bind, if_neg (not_le.mpr hpos), hm]
  rfl

/-- A packet that is received, and cannot be sent on without rings. -/
theorem passSingle_settles (s : Direct D) {src dst : D} {r : Receipt 1} {a : SingleDriver}
    (h : a.Refuses handle src dst r) : ∃ acts n, passSingle handle s src dst r a = .ok (s.note acts, n) ∧ Settled acts := by
  obtain ⟨hsrc, hsent⟩ := h
  by_cases hpos : 0 < r.ret
  · obtain ⟨hdst, hret⟩ := hsent hpos
    obtain ⟨y, hy⟩ := derefPtr_of_ne hdst
    obtain ⟨m, hpass⟩ := passSingle_eq s dst a hsrc hpos
    refine ⟨received src [m] ++ [.create (packetOf m)] ++ [.freeMbuf (.handle m.address), .delete (packetOf m)], 0, ?_,
      rfl, rfl⟩
    rw [hpass, transmitSingle, hy, ok_bind, if_pos hret, abortSend, Direct.note_note]
    rfl
  · obtain ⟨x, hx⟩ := derefPtr_of_ne hsrc
    refine ⟨[], 0, ?_, .nil⟩
    simp [passSingle, recvSingle, hx, if_pos (not_lt.mp hpos)]

/-- If it is sent on, the size is read of the packet that was deleted. -/
theorem passSingle_faults (s : Direct D) {src dst : D} {r : Receipt 1} {a : SingleDriver}
    (h : ¬ a.Refuses handle src dst r) : ∃ f, passSingle handle s src dst r a = .error f := by
  by_cases hsrc : handle src = none
  · refine ⟨.nullDeref, ?_⟩
    unfold passSingle recvSingle
    rw [derefPtr_null hsrc]
    rfl
  have hpos : 0 < r.ret := by
    by_contra hnone
    exact h ⟨hsrc, fun hpos => absurd hpos hnone⟩
  obtain ⟨m, hpass⟩ := passSingle_eq s dst a hsrc hpos
  by_cases hdst : handle dst = none
  · exact ⟨.nullDeref, by rw [hpass, transmitSingle, derefPtr_null hdst]; rfl⟩
  obtain ⟨y, hy⟩ := derefPtr_of_ne hdst
  have hret : a.ret = 1 := by
    by_contra hne
    exact h ⟨hsrc, fun _ => ⟨hdst, hne⟩⟩
  exact ⟨.useAfterFree, by rw [hpass, transmitSingle, hy, ok_bind, if_neg (not_not.mpr hret)]; rfl⟩

/-! ## Runs -/

/-- The devices of the call have a handle where it is used, `nadk_send` does not fail in a loopback, and it does not succeed
    in `fp_nadk_send_single`. -/
def DirectOp.Counts (handle : D → Option Nat) : DirectOp D → Prop
  | .loopback d a => a.Counts handle d d
  | .xloopback src dst a => a.Counts handle src dst
  | .single src dst r a => a.Refuses handle src dst r

theorem directStep_settles (s : Direct D) {op : DirectOp D} (h : op.Counts handle) :
    ∃ acts n, directStep handle s op = .ok (s.note acts, n) ∧ Settled acts := by
  cases op with
  | loopback d a => exact xloopback_settles s h
  | xloopback src dst a => exact xloopback_settles s h
  | single src dst r a => exact passSingle_settles s h

theorem directStep_faults (s : Direct D) {op : DirectOp D} (h : ¬ op.Counts handle) :
    ∃ f, directStep handle s op = .error f := by
  cases op with
  | loopback d a => exact xloopback_faults s h
  | xloopback src dst a => exact xloopback_faults s h
  | single src dst r a => exact passSingle_faults s h

/-- A run from a log that is settled. -/
theorem direct_run_iff : ∀ (ops : List (DirectOp D)) (s : Direct D), Settled s.log →
    ((∃ t outs, runAll (directStep handle) s ops = .ok (t, outs) ∧ Settled t.log) ↔ ∀ op ∈ ops, op.Counts handle) := by
  intro ops
  induction ops with
  | nil => exact fun s hs => ⟨fun _ => by simp, fun _ => ⟨s, [], rfl, hs⟩⟩
  | cons op ops ih =>
      intro s hs
      rw [List.forall_mem_cons]
      by_cases hop : op.Counts handle
      · obtain ⟨acts, n, hstep, hacts⟩ := directStep_settles s hop
        have hrest := ih (s.note acts) (hs.append hacts)
        rw [and_iff_right hop, ← hrest]
        constructor
        · rintro ⟨t, outs, hrun, ht⟩
          obtain ⟨s', o, os', hstep', hrun', -⟩ := runAll_cons_inv hrun
          rw [hstep] at hstep'
          cases hstep'
          exact ⟨t, os', hrun', ht⟩
        · rintro ⟨t, outs, hrun, ht⟩
          exact ⟨t, n :: outs, by rw [runAll_cons_ok hstep, hrun]; rfl, ht⟩
      · refine iff_of_false ?_ (fun h => hop h.1)
        rintro ⟨t, outs, hrun, -⟩
        obtain ⟨s', o, os', hstep', -⟩ := runAll_cons_inv hrun
        obtain ⟨f, hf⟩ := directStep_faults s hop
        rw [hf] at hstep'
        cases hstep'

/-- **What comes from a NADK device goes back to one.** A run of loopbacks, and of packets that are received and sent on one
    by one, over any devices, is defined exactly if the devices have a handle where it is used, no `nadk_send` of a loopback
    fails, and none of `fp_nadk_send_single` succeeds; and then every mbuf that was received was transmitted or freed, once
    and in order, and every packet that was created was deleted. -/
theorem direct_settles_iff (handle : D → Option Nat) (ops : List (DirectOp D)) :
    (∃ s outs, runAll (directStep handle) Direct.start ops = .ok (s, outs) ∧ Settled s.log) ↔
      ∀ op ∈ ops, op.Counts handle :=
  direct_run_iff ops _ .nil

end Nadk
end Flowpath
end Freeflow
