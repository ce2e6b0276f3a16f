import Freeflow.Flowpath.Correctness.NadkTransmit

/-!
# `Flowpath.Correctness.BufferRelease` — when the NADK transmit path releases buffers once

`fp_nadk_send_batch` frees the data of a packet as soon as the mbuf has the copy, before it knows whether the driver takes
the mbuf. What the driver leaves behind stays in the ring with its data freed, and nothing points at its mbuf any
more; the next batch copies from the freed data. `buffers_released_iff` says that this is the only way to go wrong:
buffers are released once exactly in the runs whose driver takes every batch whole.
-/

namespace Freeflow
namespace Flowpath
namespace Nadk

/-! ## What is asked of the log -/

/-- The event copies from, or frees, this data. -/
def Event.Uses (data : Nat) : Event → Prop
  | .copy data' _ => data' = data
  | .freeData data' => data' = data
  | _ => False

/-- The event is the end of this mbuf: it is freed or transmitted. -/
def Event.releases (m : MbufPtr) : Event → Bool
  | .freeMbuf m' => m' = m
  | .transmit m' _ => m' = m
  | _ => false

/-- Data that was freed is neither copied from nor freed afterwards. -/
def DataSafe (log : List Event) : Prop :=
  log.Pairwise (fun e e' => ∀ data, e = .freeData data → ¬ e'.Uses data)

/-- Every mbuf that was allocated was transmitted or freed, exactly once. -/
def MbufsSettled (log : List Event) : Prop :=
  ∀ k, .alloc k ∈ log → log.countP (Event.releases (.allocated k)) = 1

/-- **Buffers are released once.** -/
def Released (log : List Event) : Prop := DataSafe log ∧ MbufsSettled log

theorem DataSafe.append {log log' : List Event} (h : DataSafe log) (h' : DataSafe log')
    (hdata : ∀ data, .freeData data ∈ log → ∀ e ∈ log', ¬ e.Uses data) : DataSafe (log ++ log') :=
  List.pairwise_append.mpr ⟨h, h', fun _ he e' he' data heq => hdata data (heq ▸ he) e' he'⟩

/-! ## Packets without an mbuf of their own -/

/-- How many of the `n` positions of a batch from `i` on get their mbuf. -/
def Driver.ready (d : Driver) : Nat → Nat → Nat
  | _, 0 => 0
  | i, n + 1 => if d.mbuf i = .ready then d.ready (i + 1) n + 1 else 0

/-- The driver takes all that it is offered, if the call leads to a batch. -/
def TakesAll (s : SendState) (sub : Submission) : Prop :=
  rxBudget ≤ s.dev.txRing.contents.length + 1 →
    sub.driver.sent (sub.driver.ready 0 rxBudget) = sub.driver.ready 0 rxBudget

variable {d : Driver} {ps : List Packet}

theorem ready_le (d : Driver) : ∀ n i, d.ready i n ≤ n := by
  intro n
  induction n with
  | zero => intro i; exact Nat.le_refl _
  | succ n ih =>
      intro i
      rw [Driver.ready]
      split
      · exact Nat.succ_le_succ (ih _)
      · exact Nat.zero_le _

/-- What the first loop does to packets that have no mbuf: it gives an mbuf to the first `r` of them. -/
inductive Prepares : Nat → List Packet → Nat → Prepared → Prop where
  | stop (k : Nat) (ps : List Packet) : Prepares k ps 0 ⟨[], k, []⟩
  | copyFails (k : Nat) (p : Packet) (ps : List Packet) :
      Prepares k (p :: ps) 0 ⟨[], k + 1, [.alloc k, .copy p.data (.allocated k), .freeMbuf (.allocated k)]⟩
  | ready {k r : Nat} (p : Packet) {ps : List Packet} {P : Prepared} : Prepares (k + 1) ps r P →
      Prepares k (p :: ps) (r + 1)
        (P.cons (.allocated k) [.alloc k, .copy p.data (.allocated k), .freeData p.data])

theorem prepared_prepares (d : Driver) : ∀ (ps : List Packet) (i k : Nat), (∀ p ∈ ps, p.bufDev ≠ .nadk) →
    Prepares k ps (d.ready i ps.length) (prepared d i k ps) := by
  intro ps
  induction ps with
  | nil => intro i k _; exact .stop k []
  | cons p ps ih =>
      intro i k hdev
      have hps := ih (i + 1) (k + 1) (fun q hq => hdev q (List.mem_cons_of_mem p hq))
      rw [prepared, if_neg (hdev p (by simp)), List.length_cons, Driver.ready]
      cases d.mbuf i with
      | allocFails => exact .stop k _
      | copyFails => exact .copyFails k p ps
      | ready => exact .ready p hps

variable {k r : Nat} {P : Prepared}

theorem Prepares.bufs_eq (h : Prepares k ps r P) : P.bufs = (List.range' k r).map .allocated := by
  induction h with
  | stop k ps => rfl
  | copyFails k p ps => rfl
  | ready p _ ih => rw [Prepared.cons, ih, List.range'_succ, List.map_cons]

theorem Prepares.le_mbufs (h : Prepares k ps r P) : k + r ≤ P.mbufs := by
  induction h with
  | stop k ps => exact Nat.le_refl _
  | copyFails k p ps => exact Nat.le_succ k
  | ready p _ ih =>
      rw [Prepared.cons]
      dsimp only
      omega

/-- The mbufs are numbered as they are allocated. -/
theorem Prepares.alloc_iff (h : Prepares k ps r P) (j : Nat) : .alloc j ∈ P.log ↔ k ≤ j ∧ j < P.mbufs := by
  induction h with
  | stop k ps => simp
  | copyFails k p ps =>
      simp only [List.mem_cons, Event.alloc.injEq, reduceCtorEq, List.not_mem_nil, or_false]
      omega
  | @ready k r p ps P hP ih =>
      have hle := hP.le_mbufs
      simp only [Prepared.cons, List.mem_append, List.mem_cons, Event.alloc.injEq, reduceCtorEq, List.not_mem_nil,
        or_false, ih]
      omega

/-- Of the mbufs that are not ready one at most was allocated, and this one is freed. -/
theorem Prepares.countP_releases (h : Prepares k ps r P) (j : Nat) :
    P.log.countP (Event.releases (.allocated j)) = if k + r ≤ j ∧ j < P.mbufs then 1 else 0 := by
  induction h with
  | stop k ps =>
      rw [if_neg (by dsimp only; omega)]
      rfl
  | copyFails k p ps =>
      by_cases hj : k = j
      · rw [if_pos (by dsimp only; omega)]
        simp [Event.releases, hj]
      · rw [if_neg (by dsimp only; omega)]
        simp [Event.releases, hj]
  | @ready k r p ps P hP ih =>
      rw [Prepared.cons, List.countP_append, ih]
      simp only [List.countP_cons, List.countP_nil, Event.releases, Bool.false_eq_true, if_false, Nat.zero_add,
        Nat.add_assoc, Nat.add_comm 1]

/-- Only data of the batch is used. -/
theorem Prepares.uses (h : Prepares k ps r P) {e : Event} (he : e ∈ P.log) {data : Nat} (hu : e.Uses data) :
    data ∈ ps.map Packet.data := by
  induction h with
  | stop k ps => cases he
  | copyFails k p ps =>
      simp only [List.mem_cons, List.not_mem_nil, or_false] at he
      rcases he with rfl | rfl | rfl
      · cases hu
      · cases hu
        simp
      · cases hu
  | ready p _ ih =>
      simp only [Prepared.cons, List.mem_append, List.mem_cons, List.not_mem_nil, or_false] at he
      rw [List.map_cons, List.mem_cons]
      rcases he with (rfl | rfl | rfl) | he
      · cases hu
      · exact Or.inl hu.symm
      · exact Or.inl hu.symm
      · exact Or.inr (ih he)

/-- Data is freed of the packets whose mbuf is ready. -/
theorem Prepares.frees (h : Prepares k ps r P) {data : Nat} (hf : .freeData data ∈ P.log) :
    data ∈ (ps.take r).map Packet.data := by
  induction h with
  | stop k ps => cases hf
  | copyFails k p ps => simp at hf
  | ready p _ ih =>
      simp only [Prepared.cons, List.mem_append, List.mem_cons, reduceCtorEq, Event.freeData.injEq, List.not_mem_nil,
        or_false, false_or] at hf
      rw [List.take_succ_cons, List.map_cons, List.mem_cons]
      exact hf.imp id ih

/-- A batch of packets with data of their own uses no data that it has freed. -/
theorem Prepares.dataSafe (h : Prepares k ps r P) (hown : (ps.map Packet.data).Nodup) : DataSafe P.log := by
  induction h with
  | stop k ps => exact List.Pairwise.nil
  | copyFails k p ps => simp [DataSafe]
  | @ready k r p ps P hP ih =>
      obtain ⟨hp, hps⟩ := List.nodup_cons.mp hown
      have hrest := ih hps
      unfold DataSafe at hrest ⊢
      rw [Prepared.cons, List.pairwise_append]
      refine ⟨by simp [Event.Uses], hrest, ?_⟩
      rintro e he e' he' data rfl hu
      simp only [List.mem_cons, reduceCtorEq, Event.freeData.injEq, List.not_mem_nil, or_false, false_or] at he
      rw [he] at hu
      exact hp (hP.uses he' hu)

/-! ## One call -/

/-- Each of the buffers that are taken is released by the transmission. -/
theorem countP_transmits {bufs : List MbufPtr} (h : bufs.length ≤ ps.length) (m : MbufPtr) :
    (transmits bufs ps).countP (Event.releases m) = bufs.count m := by
  have hfst : bufs = (bufs.zip ps).map Prod.fst := (List.map_fst_zip h).symm
  rw [transmits, List.countP_map]
  conv_rhs => rw [hfst, List.count, List.countP_map]
  rfl

theorem uses_transmits {bufs : List MbufPtr} {e : Event} (he : e ∈ transmits bufs ps) (data : Nat) : ¬ e.Uses data := by
  obtain ⟨x, -, rfl⟩ := List.mem_map.mp he
  exact id

theorem DataSafe.append_transmits {log : List Event} {bufs : List MbufPtr} (h : DataSafe log) :
    DataSafe (log ++ transmits bufs ps) := by
  apply h.append
  · exact List.pairwise_of_forall_mem_list (fun e _ e' he' data _ => uses_transmits he' data)
  · exact fun data _ e he => uses_transmits he data

theorem count_allocated (k n j : Nat) :
    ((List.range' k n).map MbufPtr.allocated).count (.allocated j) = if k ≤ j ∧ j < k + n then 1 else 0 := by
  have hnodup : ((List.range' k n).map MbufPtr.allocated).Nodup :=
    List.Nodup.map (fun a b h => by cases h; rfl) List.nodup_range'
  rw [hnodup.count]
  simp only [List.mem_map, MbufPtr.allocated.injEq, exists_eq_right, List.mem_range'_1]

/-- **What a call does when no packet has an mbuf of its own** and it copies live data: of the batch the first `r` get one,
    the driver takes `n` of these, and `n = r` is what `TakesAll` asks. -/
theorem nadkSend_prepares {s : SendState} {sub : Submission} (Q : TxQueued s ps) (hps : ∀ p ∈ ps, p.bufDev ≠ .nadk)
    (hdev : sub.pkt.bufDev ≠ .nadk) (hlive : CopiesLive s sub) :
    ∃ s' o r n P, nadkSend s sub = .ok (s', o) ∧ Prepares s.mbufs (batchFor (offered ps sub.pkt)) r P ∧ n ≤ r ∧
      r ≤ (batchFor (offered ps sub.pkt)).length ∧ (TakesAll s sub ↔ n = r) ∧
      TxQueued s' ((offered ps sub.pkt).drop n) ∧ s'.mbufs = P.mbufs ∧
      s'.log = s.log ++ P.log ++ transmits (P.bufs.take n) ((batchFor (offered ps sub.pkt)).take n) := by
  obtain ⟨s', hsend, hspec⟩ := nadkSend_eq Q hlive
  have hlen := length_offered Q.length_le sub.pkt
  have hoffered : ∀ p ∈ offered ps sub.pkt, p.bufDev ≠ .nadk := by
    intro p hp
    rcases mem_offered hp with hp | rfl
    · exact hps p hp
    · exact hdev
  have htake : TakesAll s sub ↔ (rxBudget ≤ ps.length + 1 →
      sub.driver.sent (sub.driver.ready 0 rxBudget) = sub.driver.ready 0 rxBudget) := by
    rw [TakesAll, Q.contents_eq, List.length_map]
  rw [htake]
  dsimp only at hspec
  by_cases hmany : rxBudget ≤ (offered ps sub.pkt).length
  · rw [if_pos hmany] at hspec
    have hbatch : batchFor (offered ps sub.pkt) = batchOf (offered ps sub.pkt) := if_pos hmany
    have hfull : (batchOf (offered ps sub.pkt)).length = rxBudget := by
      rw [batchOf, List.length_take, Nat.min_eq_left hmany]
    have hprep := prepared_prepares sub.driver (batchOf (offered ps sub.pkt)) 0 s.mbufs
      (fun p hp => hoffered p (List.mem_of_mem_take hp))
    have hbufs : (prepared sub.driver 0 s.mbufs (batchOf (offered ps sub.pkt))).bufs.length
        = sub.driver.ready 0 rxBudget := by
      rw [hprep.bufs_eq, List.length_map, List.length_range', hfull]
    rw [hfull] at hprep
    rw [hbufs] at hspec
    rw [hbatch]
    refine ⟨s', _, _, _, _, hsend, hprep, sub.driver.sent_le _, ?_, ?_, hspec⟩
    · rw [hfull]
      exact ready_le _ _ _
    · constructor
      · intro h
        exact h (by omega)
      · intro h _
        exact h
  · rw [if_neg hmany] at hspec
    obtain ⟨Q', hmbufs, hlog⟩ := hspec
    have hbatch : batchFor (offered ps sub.pkt) = [] := if_neg hmany
    rw [hbatch]
    refine ⟨s', _, 0, 0, _, hsend, .stop s.mbufs [], Nat.le_refl _, Nat.zero_le _, ?_, Q', hmbufs, ?_⟩
    · constructor
      · intro _
        rfl
      · intro _ h
        exact absurd h (by simp only [rxBudget] at *; omega)
    · rw [hlog]
      simp [transmits]

/-- **What holds between the calls** while the driver takes all: buffers are released once, the packets in the ring have
    data of their own, which is not freed, and no mbuf is known beyond those allocated. -/
structure Clean (s : SendState) (ps : List Packet) : Prop where
  queued : TxQueued s ps
  dev : ∀ p ∈ ps, p.bufDev ≠ .nadk
  own : (ps.map Packet.data).Nodup
  live : ∀ data ∈ ps.map Packet.data, .freeData data ∉ s.log
  released : Released s.log
  allocs : ∀ j, .alloc j ∈ s.log → j < s.mbufs
  known : ∀ j, s.mbufs ≤ j → s.log.countP (Event.releases (.allocated j)) = 0

/-- The data of the packet is its own: no packet in the ring has it, and it was not freed. -/
def Owns (s : SendState) (sub : Submission) : Prop :=
  sub.pkt.bufDev ≠ .nadk ∧ (∀ p, some p ∈ s.dev.txRing.contents → p.data ≠ sub.pkt.data) ∧
    .freeData sub.pkt.data ∉ s.log

/-- The packets in the ring and the one that is offered have data of their own, none of it freed. -/
theorem Clean.offered {s : SendState} {sub : Submission} (C : Clean s ps) (hown : Owns s sub) :
    ((offered ps sub.pkt).map Packet.data).Nodup ∧
      ∀ data ∈ (offered ps sub.pkt).map Packet.data, .freeData data ∉ s.log := by
  obtain ⟨-, hring, hlog⟩ := hown
  rw [C.queued.contents_eq] at hring
  unfold Nadk.offered
  split
  · rw [List.map_append, List.map_singleton]
    constructor
    · rw [List.nodup_append]
      refine ⟨C.own, List.nodup_singleton _, ?_⟩
      rintro data hdata data' hdata' rfl
      obtain ⟨p, hp, rfl⟩ := List.mem_map.mp hdata
      exact hring p (List.mem_map_of_mem hp) (List.mem_singleton.mp hdata')
    · intro data hdata
      rcases List.mem_append.mp hdata with hdata | hdata
      · exact C.live data hdata
      · rw [List.mem_singleton.mp hdata]
        exact hlog
  · exact ⟨C.own, C.live⟩

theorem copiedData_sublist (d : Driver) : ∀ (ps : List Packet) (i : Nat),
    (copiedData d i ps).Sublist (ps.map Packet.data) := by
  intro ps
  induction ps with
  | nil => intro i; exact List.Sublist.refl _
  | cons p ps ih =>
      intro i
      rw [copiedData, List.map_cons]
      split
      · exact (ih _).cons _
      · cases d.mbuf i with
        | allocFails => exact List.nil_sublist _
        | copyFails => exact (List.nil_sublist _).cons_cons _
        | ready => exact (ih _).cons_cons _

/-- So the call copies live data only. -/
theorem Clean.copiesLive {s : SendState} {sub : Submission} (C : Clean s ps) (hown : Owns s sub) : CopiesLive s sub := by
  obtain ⟨hnodup, hlive⟩ := C.offered hown
  obtain ⟨n, hbatch⟩ := batchFor_eq_take (Nadk.offered ps sub.pkt)
  have hsub : (copiedData sub.driver 0 (batchFor (Nadk.offered ps sub.pkt))).Sublist
      ((Nadk.offered ps sub.pkt).map Packet.data) := by
    rw [hbatch]
    exact (copiedData_sublist _ _ _).trans ((List.take_sublist _ _).map _)
  rw [CopiesLive, C.queued.waiting_eq]
  exact ⟨hnodup.sublist hsub, fun data hdata => hlive data (hsub.subset hdata)⟩

/-- How often an mbuf is released, once the driver took the first `n` of the `r` that are ready. -/
theorem Prepares.countP_log {mbufs n : Nat} (h : Prepares mbufs ps r P) (log : List Event) (hn : n ≤ r)
    (hr : r ≤ ps.length) (j : Nat) :
    (log ++ P.log ++ transmits (P.bufs.take n) (ps.take n)).countP (Event.releases (.allocated j))
      = log.countP (Event.releases (.allocated j)) + (if mbufs + r ≤ j ∧ j < P.mbufs then 1 else 0)
        + (if mbufs ≤ j ∧ j < mbufs + n then 1 else 0) := by
  have hbufs : P.bufs.take n = (List.range' mbufs n).map .allocated := by
    rw [h.bufs_eq, ← List.map_take, List.take_range'_of_length_ge hn]
  have hlen : (P.bufs.take n).length ≤ (ps.take n).length := by
    rw [hbufs, List.length_map, List.length_range', List.length_take]
    omega
  rw [List.countP_append, List.countP_append, h.countP_releases, countP_transmits hlen, hbufs, count_allocated]

/-- The mbufs of a batch are settled if and only if the driver takes all of them. -/
theorem settled_iff {log : List Event} {mbufs n : Nat} (h : Prepares mbufs ps r P) (hn : n ≤ r) (hr : r ≤ ps.length)
    (hlog : MbufsSettled log) (hallocs : ∀ j, .alloc j ∈ log → j < mbufs)
    (hknown : ∀ j, mbufs ≤ j → log.countP (Event.releases (.allocated j)) = 0) :
    MbufsSettled (log ++ P.log ++ transmits (P.bufs.take n) (ps.take n)) ↔ n = r := by
  have hcount := h.countP_log log hn hr
  have halloc : ∀ j, .alloc j ∈ log ++ P.log ++ transmits (P.bufs.take n) (ps.take n)
      ↔ .alloc j ∈ log ∨ (mbufs ≤ j ∧ j < P.mbufs) := by
    intro j
    rw [List.mem_append, List.mem_append, h.alloc_iff]
    apply or_iff_left
    intro hj
    obtain ⟨x, -, hx⟩ := List.mem_map.mp hj
    cases hx
  have hle := h.le_mbufs
  constructor
  · -- otherwise the first mbuf that the driver leaves has no end
    intro hsettled
    by_contra hne
    have hone := hsettled (mbufs + n) ((halloc _).mpr (Or.inr (by omega)))
    rw [hcount, hknown _ (by omega), if_neg (by omega), if_neg (by omega)] at hone
    cases hone
  · rintro rfl j hj
    rw [hcount]
    rcases (halloc j).mp hj with hold | ⟨hlo, hhi⟩
    · have hj := hallocs j hold
      rw [hlog j hold, if_neg (by omega), if_neg (by omega)]
    · rw [hknown j hlo, Nat.zero_add]
      by_cases hready : j < mbufs + n
      · rw [if_neg (by omega), if_pos (by omega)]
      · rw [if_pos (by omega), if_neg (by omega)]

/-- **A call that keeps buffers released once** is one whose driver takes all; it leaves the state clean. -/
theorem nadkSend_clean {s s' : SendState} {sub : Submission} {o : Sent} (C : Clean s ps) (hown : Owns s sub)
    (h : nadkSend s sub = .ok (s', o)) :
    (TakesAll s sub → ∃ ps', Clean s' ps') ∧ (Released s'.log → TakesAll s sub) := by
  obtain ⟨hnodup, hlive⟩ := C.offered hown
  obtain ⟨s'', o', r, n, P, hsend, hprep, hn, hr, htake, Q', hmbufs, hlog⟩ :=
    nadkSend_prepares C.queued C.dev hown.1 (C.copiesLive hown)
  rw [h] at hsend
  cases hsend
  have hiff := settled_iff hprep hn hr C.released.2 C.allocs C.known
  rw [← hlog] at hiff
  refine ⟨fun hall => ?_, fun hreleased => htake.mpr (hiff.mp hreleased.2)⟩
  have hnr : n = r := htake.mp hall
  subst hnr
  obtain ⟨m, hbatch⟩ := batchFor_eq_take (offered ps sub.pkt)
  rw [hbatch] at hprep hr hlog
  have hsub : ∀ data, data ∈ ((offered ps sub.pkt).take m).map Packet.data → data ∈ (offered ps sub.pkt).map Packet.data :=
    fun data hdata => List.map_subset _ (List.take_subset _ _) hdata
  have hle := hprep.le_mbufs
  have hrest : ∀ p ∈ (offered ps sub.pkt).drop n, p.bufDev ≠ .nadk := by
    intro p hp
    rcases mem_offered (List.mem_of_mem_drop hp) with hp | rfl
    · exact C.dev p hp
    · exact hown.1
  refine ⟨_, Q', hrest, hnodup.sublist ((List.drop_sublist _ _).map _), ?_, ⟨?_, hiff.mpr rfl⟩, ?_, ?_⟩
  · -- what stays in the ring comes after the packets whose data is freed
    intro data hdata hfree
    rw [hlog, List.mem_append, List.mem_append] at hfree
    rcases hfree with (hfree | hfree) | hfree
    · exact hlive data (List.map_subset _ (List.drop_subset _ _) hdata) hfree
    · have hfreed := hprep.frees hfree
      rw [List.take_take] at hfreed
      rw [← List.take_append_drop n (offered ps sub.pkt), List.map_append, List.nodup_append] at hnodup
      refine hnodup.2.2 data ?_ data hdata rfl
      exact List.map_subset _ (List.take_subset_take_left _ (Nat.min_le_left _ _)) hfreed
    · exact uses_transmits hfree data rfl
  · show DataSafe s'.log
    rw [hlog]
    apply DataSafe.append_transmits
    apply DataSafe.append C.released.1 (hprep.dataSafe (hnodup.sublist ((List.take_sublist _ _).map _)))
    intro data hfree e he hu
    exact hlive data (hsub data (hprep.uses he hu)) hfree
  · intro j hj
    rw [hlog, List.mem_append, List.mem_append] at hj
    rw [hmbufs]
    rcases hj with (hj | hj) | hj
    · have hold := C.allocs j hj
      omega
    · exact ((hprep.alloc_iff j).mp hj).2
    · obtain ⟨x, -, hx⟩ := List.mem_map.mp hj
      cases hx
  · intro j hj
    rw [hmbufs] at hj
    rw [hlog, hprep.countP_log _ (Nat.le_refl _) hr, C.known j (by omega), if_neg (by omega),
      if_neg (by omega)]

/-! ## Runs -/

/-- Packets with data of their own are submitted so, whatever the driver does. -/
theorem owns_guarded : ∀ (subs : List Submission) (s : SendState) (ps : List Packet), TxQueued s ps →
    (∀ p ∈ ps, p.bufDev ≠ .nadk) → (∀ sub ∈ subs, sub.pkt.bufDev ≠ .nadk) →
    (subs.map (fun sub => sub.pkt.data)).Nodup →
    (∀ sub ∈ subs, sub.pkt.data ∉ ps.map Packet.data ∧ .freeData sub.pkt.data ∉ s.log) →
    Guarded nadkSend Owns s subs := by
  intro subs
  induction subs with
  | nil => intro s ps _ _ _ _ _; trivial
  | cons sub subs ih =>
      intro s ps Q hps hdev hnodup hfresh
      obtain ⟨hring, hlog⟩ := hfresh sub (by simp)
      obtain ⟨hsub, hnodup⟩ := List.nodup_cons.mp hnodup
      refine ⟨⟨hdev sub (by simp), ?_, hlog⟩, ?_⟩
      · intro p hp heq
        rw [Q.contents_eq] at hp
        obtain ⟨q, hq, hpq⟩ := List.mem_map.mp hp
        cases hpq
        exact hring (heq ▸ List.mem_map_of_mem hq)
      intro s'' o' h
      obtain ⟨s', o, r, n, P, hsend, hprep, -, -, -, Q', -, hlog'⟩ :=
        nadkSend_prepares Q hps (hdev sub (by simp)) ((nadkSend_ok_iff ⟨ps, Q⟩ sub).mp ⟨_, h⟩)
      rw [hsend] at h
      cases h
      -- data in the ring or freed belongs to an earlier packet
      have hheld : ∀ p ∈ offered ps sub.pkt, ∀ sub' ∈ subs, sub'.pkt.data ≠ p.data := by
        intro p hp sub' hsub' heq
        rcases mem_offered hp with hp | rfl
        · exact (hfresh sub' (List.mem_cons_of_mem _ hsub')).1 (heq ▸ List.mem_map_of_mem hp)
        · exact hsub (List.mem_map.mpr ⟨sub', hsub', heq⟩)
      refine ih s'' _ Q' ?_ (fun sub' hsub' => hdev sub' (List.mem_cons_of_mem _ hsub')) hnodup
        (fun sub' hsub' => ⟨?_, ?_⟩)
      · intro p hp
        rcases mem_offered (List.mem_of_mem_drop hp) with hp | rfl
        · exact hps p hp
        · exact hdev sub (by simp)
      · intro hdata
        obtain ⟨p, hp, heq⟩ := List.mem_map.mp hdata
        exact hheld p (List.mem_of_mem_drop hp) sub' hsub' heq.symm
      · intro hfree
        rw [hlog', List.mem_append, List.mem_append] at hfree
        rcases hfree with (hfree | hfree) | hfree
        · exact (hfresh sub' (List.mem_cons_of_mem _ hsub')).2 hfree
        · obtain ⟨p, hp, heq⟩ := List.mem_map.mp (hprep.frees hfree)
          obtain ⟨m, hbatch⟩ := batchFor_eq_take (offered ps sub.pkt)
          rw [hbatch] at hp
          exact hheld p (List.mem_of_mem_take (List.mem_of_mem_take hp)) sub' hsub' heq.symm
        · exact uses_transmits hfree _ rfl

/-- A device that was just opened is clean. -/
theorem nadkOpen_clean {dev : Device} (Q : TxQueued ⟨dev, 0, []⟩ []) : Clean ⟨dev, 0, []⟩ [] where
  queued := Q
  dev := by simp
  own := List.nodup_nil
  live := by simp
  released := ⟨List.Pairwise.nil, by simp [MbufsSettled]⟩
  allocs := by simp
  known := by simp

/-- **Buffers are released once exactly when the driver takes all that it is offered.** On a device that was just opened,
    with a handle, and with packets that have data of their own: every beginning of the run returns with buffers
    released once if and only if the driver takes every batch whole. -/
theorem buffers_released_iff {state : State} {initialized : Bool} {ethDevCnt : Nat} {netDev : Slots Nat maxEthDev}
    {rx tx : RingMemory} {p : Int} {dev : Device}
    (hopen : nadkOpen state initialized ethDevCnt netDev rx tx p = .ok (some dev)) (hhandle : dev.handle ≠ none)
    (subs : List Submission) (hdev : ∀ sub ∈ subs, sub.pkt.bufDev ≠ .nadk)
    (hdata : (subs.map (fun sub => sub.pkt.data)).Nodup) :
    (∀ n, ∃ s outs, runAll nadkSend ⟨dev, 0, []⟩ (subs.take n) = .ok (s, outs) ∧ Released s.log) ↔
      Guarded nadkSend TakesAll ⟨dev, 0, []⟩ subs := by
  have Q := nadkOpen_txQueued hopen hhandle 0 []
  have hown : Guarded nadkSend Owns ⟨dev, 0, []⟩ subs :=
    owns_guarded subs _ [] Q (by simp) hdev hdata (fun sub _ => by simp)
  have C := nadkOpen_clean Q
  have hgood := runAll_good_iff_of Owns (fun s => ∃ ps, Clean s ps) (fun s => Released s.log)
    (fun s ⟨ps, C⟩ => C.released)
    (fun s sub s' o ⟨ps, C⟩ hown h htake => (nadkSend_clean C hown h).1 htake)
    (fun s sub s' o ⟨ps, C⟩ hown h hgood => (nadkSend_clean C hown h).2 hgood) subs _ ⟨[], C⟩ hown
  constructor
  · intro hall
    -- each call returned, as the whole run did
    have hreturns : Guarded nadkSend (fun s sub => ∃ r, nadkSend s sub = .ok r) ⟨dev, 0, []⟩ subs := by
      rw [← runAll_ok_iff (fun _ _ => Iff.rfl)]
      obtain ⟨s, outs, hrun, -⟩ := hall subs.length
      rw [List.take_length] at hrun
      exact ⟨_, hrun⟩
    have hreleased : ∀ n t os, runAll nadkSend ⟨dev, 0, []⟩ (subs.take n) = .ok (t, os) → Released t.log := by
      intro n t os h
      obtain ⟨s, outs, hrun, hs⟩ := hall n
      rw [h] at hrun
      cases hrun
      exact hs
    exact (hreturns.and (hgood.mp hreleased)).mono fun s sub h => h.2 h.1
  · intro htakes n
    obtain ⟨s, outs, hrun, ps, C'⟩ := runAll_returns (fun s => ∃ ps, Clean s ps)
      (fun s sub ⟨ps, C⟩ (h : Owns s sub ∧ TakesAll s sub) => by
        obtain ⟨s', o, hsend, -⟩ := nadkSend_conserves ⟨ps, C.queued⟩ (C.copiesLive h.1)
        exact ⟨s', o, hsend, (nadkSend_clean C h.1 hsend).1 h.2⟩)
      (subs.take n) _ ⟨[], C⟩ ((hown.and htakes).take n)
    exact ⟨s, outs, hrun, C'.released⟩

/-- Seventeen packets: the sixteenth call leads to a batch, and the driver takes it whole. -/
theorem buffers_released_iff_seventeen :
    (∀ n, ∃ s outs, runAll nadkSend ⟨openDevice, 0, []⟩ ((seventeenSubmissions 16).take n) = .ok (s, outs) ∧
      Released s.log) ↔
      Guarded nadkSend TakesAll ⟨openDevice, 0, []⟩ (seventeenSubmissions 16) :=
  buffers_released_iff (rfl : nadkOpen .uninit true 1 oneDevice nullCells nullCells 0 = .ok (some openDevice)) (by simp)
    (seventeenSubmissions 16) (by simp [seventeenSubmissions, allocPacket, packetCreate]) (by decide)

/-- **Mbufs are lost, and data is used after it was freed.** The driver takes nothing of the batch of the sixteenth call;
    the data of the first packet is freed by then, and its mbuf has no end. The seventeenth call copies from it. -/
theorem buffers_released_twice : nadkOpen .uninit true 1 oneDevice nullCells nullCells 0 = .ok (some openDevice) ∧
    openDevice.handle ≠ none ∧ (∀ sub ∈ seventeenSubmissions 0, sub.pkt.bufDev ≠ .nadk) ∧
    ((seventeenSubmissions 0).map (fun sub => sub.pkt.data)).Nodup ∧
    (∃ s outs, runAll nadkSend ⟨openDevice, 0, []⟩ ((seventeenSubmissions 0).take 16) = .ok (s, outs) ∧
      .freeData 0 ∈ s.log ∧ some (allocPacket 0) ∈ s.dev.txRing.contents ∧ ¬ MbufsSettled s.log) ∧
    runAll nadkSend ⟨openDevice, 0, []⟩ (seventeenSubmissions 0) = .error .useAfterFree ∧
    ¬ ∀ n, ∃ s outs, runAll nadkSend ⟨openDevice, 0, []⟩ ((seventeenSubmissions 0).take n) = .ok (s, outs) ∧
      Released s.log := by
  have hrun : (runAll nadkSend ⟨openDevice, 0, []⟩ ((seventeenSubmissions 0).take 16)).map (fun r =>
      (decide (.freeData 0 ∈ r.1.log), decide (some (allocPacket 0) ∈ r.1.dev.txRing.contents),
        decide (.alloc 0 ∈ r.1.log), r.1.log.countP (Event.releases (.allocated 0)))) = .ok (true, true, true, 0) := by
    decide +kernel
  obtain ⟨⟨s, outs⟩, hrun, hlog⟩ := map_eq_ok hrun
  simp only [Prod.mk.injEq, decide_eq_true_eq] at hlog
  obtain ⟨hfreed, hring, halloc, hnone⟩ := hlog
  have hfault : runAll nadkSend ⟨openDevice, 0, []⟩ (seventeenSubmissions 0) = .error .useAfterFree := by
    apply map_eq_error (f := fun _ => ())
    decide +kernel
  refine ⟨rfl, by simp [openDevice], by simp [seventeenSubmissions, allocPacket, packetCreate], by decide,
    ⟨s, outs, hrun, hfreed, hring, fun hsettled => ?_⟩, hfault, fun hall => ?_⟩
  · have hone := hsettled 0 halloc
    omega
  · obtain ⟨s, outs, h, -⟩ := hall 17
    have hwhole : (seventeenSubmissions 0).take 17 = seventeenSubmissions 0 := rfl
    rw [hwhole, hfault] at h
    cases h

end Nadk
end Flowpath
end Freeflow
