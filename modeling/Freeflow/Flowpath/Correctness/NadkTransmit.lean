import Mathlib.Data.List.Nodup
import Mathlib.Data.List.ReduceOption
import Freeflow.Flowpath.NadkSend
import Freeflow.Flowpath.Correctness.NadkReceive

/-!
# `Flowpath.Correctness.NadkTransmit` — when sending through a NADK device is a FIFO

A batch is the beginning of the tx ring, cut short where an mbuf cannot be had and again where the driver stops; what was
not sent stays in the ring. `prepared` says what the first loop of `fp_nadk_send_batch` makes of a batch, and
`nadkSend_eq` what a call does. The data of a packet is freed as soon as it was copied, though the packet may stay: a
batch that meets it again copies from freed data, and `copiedData` is what a batch copies from. So exactly in the runs
that copy live data only, the packets transmitted followed by those in the ring are those that were accepted:
`nadkSend_fifo_iff`.
-/

namespace Freeflow
namespace Flowpath
namespace Nadk

/-- The device has a handle, and its tx ring holds the packets `ps`. -/
def TxQueued (s : SendState) (ps : List Packet) : Prop :=
  s.dev.handle ≠ none ∧
    ∃ f : Fifo (Option Packet) (2 * rxBudget - 1), Ring.Refines s.dev.txRing f ∧ f.items = ps.map some

variable {s : SendState} {ps : List Packet}

theorem TxQueued.contents_eq (Q : TxQueued s ps) : s.dev.txRing.contents = ps.map some := by
  obtain ⟨-, f, ⟨-, h, H⟩, hitems⟩ := Q
  rw [H.contents_eq, hitems]

theorem TxQueued.count_eq (Q : TxQueued s ps) : s.dev.txRing.count = .ok (ps.length : Int) := by
  obtain ⟨-, f, ⟨-, h, H⟩, hitems⟩ := Q
  rw [H.count_eq, hitems, List.length_map]

theorem TxQueued.length_le (Q : TxQueued s ps) : ps.length ≤ 2 * rxBudget - 1 := by
  obtain ⟨-, f, -, hitems⟩ := Q
  have hbound := f.bound
  rwa [hitems, List.length_map] at hbound

/-- A device that was just opened has no packet to send. -/
theorem nadkOpen_txQueued {state : State} {initialized : Bool} {ethDevCnt : Nat} {netDev : Slots Nat maxEthDev}
    {rx tx : RingMemory} {p : Int} {dev : Device}
    (h : nadkOpen state initialized ethDevCnt netDev rx tx p = .ok (some dev)) (hhandle : dev.handle ≠ none)
    (mbufs : Nat) (log : List Event) : TxQueued ⟨dev, mbufs, log⟩ [] := by
  refine ⟨hhandle, Fifo.empty, ?_, rfl⟩
  show Ring.Refines dev.txRing _
  rw [(nadkOpen_rings h).2]
  exact newRing_refines tx

/-! ## Preparing a batch -/

/-- What the first loop makes of the packets it has yet to look at: the mbufs that are ready, the number of mbufs
    allocated, and what it logs. -/
structure Prepared where
  bufs : List MbufPtr
  mbufs : Nat
  log : List Event

/-- One mbuf more. -/
def Prepared.cons (m : MbufPtr) (es : List Event) (P : Prepared) : Prepared := ⟨m :: P.bufs, P.mbufs, es ++ P.log⟩

/-- The first loop, from index `i` on, with `k` mbufs allocated before. -/
def prepared (d : Driver) : Nat → Nat → List Packet → Prepared
  | _, k, [] => ⟨[], k, []⟩
  | i, k, p :: ps =>
      if p.bufDev = .nadk then (prepared d (i + 1) k ps).cons (.handle p.bufHandle) []
      else
        match d.mbuf i with
        | .allocFails => ⟨[], k, []⟩
        | .copyFails => ⟨[], k + 1, [.alloc k, .copy p.data (.allocated k), .freeMbuf (.allocated k)]⟩
        | .ready =>
            (prepared d (i + 1) (k + 1) ps).cons (.allocated k)
              [.alloc k, .copy p.data (.allocated k), .freeData p.data]

/-- The data that the first loop copies from, from index `i` on. -/
def copiedData (d : Driver) : Nat → List Packet → List Nat
  | _, [] => []
  | i, p :: ps =>
      if p.bufDev = .nadk then copiedData d (i + 1) ps
      else
        match d.mbuf i with
        | .allocFails => []
        | .copyFails => [p.data]
        | .ready => p.data :: copiedData d (i + 1) ps

/-- The data is copied from live: none of it was freed, and none of it is named twice, to be freed in between. -/
def Live (log : List Event) (datas : List Nat) : Prop := datas.Nodup ∧ ∀ data ∈ datas, .freeData data ∉ log

theorem live_nil (log : List Event) : Live log [] := ⟨List.nodup_nil, by simp⟩

/-- The first of the data is live, and the rest still is when the first was copied and freed. -/
theorem live_cons {log : List Event} {data : Nat} {datas : List Nat} (k : Nat) (m : MbufPtr) :
    Live log (data :: datas) ↔
      .freeData data ∉ log ∧ Live (log ++ [.alloc k, .copy data m, .freeData data]) datas := by
  rw [Live, List.nodup_cons, List.forall_mem_cons, Live]
  simp only [List.mem_append, List.mem_cons, reduceCtorEq, Event.freeData.injEq, List.not_mem_nil, or_false, false_or,
    not_or]
  constructor
  · rintro ⟨⟨hnot, hnodup⟩, hdata, hall⟩
    exact ⟨hdata, hnodup, fun x hx => ⟨hall x hx, fun heq => hnot (heq ▸ hx)⟩⟩
  · rintro ⟨hdata, hnodup, hall⟩
    exact ⟨⟨fun hmem => (hall data hmem).2 rfl, hnodup⟩, hdata, fun x hx => (hall x hx).1⟩

theorem useData_ok {data : Nat} (h : .freeData data ∉ s.log) : useData s data = .ok () := if_neg h

theorem useData_error {data : Nat} (h : .freeData data ∈ s.log) : useData s data = .error .useAfterFree := if_pos h

/-- **What the first loop does.** It has seen as many packets as it has mbufs, and the packets `ps` are left: it prepares
    them, unless it copies from data that was freed. -/
theorem prepareLoop_eq (d : Driver) : ∀ (ps : List Packet) (seen rest : List (Option Packet)) (bufs : List MbufPtr)
    (stale : List (Option MbufPtr)) (s : SendState), seen.length = bufs.length → ps.length ≤ stale.length →
    (Live s.log (copiedData d bufs.length ps) → ∃ stale',
      prepareLoop d (seen ++ (ps.map some ++ rest)) ps.length bufs.length (bufs.map some ++ stale) s
        = .ok (bufs.length + (prepared d bufs.length s.mbufs ps).bufs.length,
          (bufs ++ (prepared d bufs.length s.mbufs ps).bufs).map some ++ stale',
          { s with
            mbufs := (prepared d bufs.length s.mbufs ps).mbufs
            log := s.log ++ (prepared d bufs.length s.mbufs ps).log })) ∧
    (¬ Live s.log (copiedData d bufs.length ps) →
      prepareLoop d (seen ++ (ps.map some ++ rest)) ps.length bufs.length (bufs.map some ++ stale) s
        = .error .useAfterFree) := by
  intro ps
  induction ps with
  | nil =>
      intro seen rest bufs stale s _ _
      exact ⟨fun _ => ⟨stale, by simp [prepareLoop, prepared]⟩, fun h => absurd (live_nil _) h⟩
  | cons p ps ih =>
      intro seen rest bufs stale s hseen hstale
      cases stale with
      | nil => exact absurd hstale (Nat.not_succ_le_zero _)
      | cons old stale =>
          have hload : load (seen ++ ((p :: ps).map some ++ rest)) (bufs.length : Int) = .ok (some p) :=
            load_append hseen (some p) _
          have hstore : ∀ m : Option MbufPtr, store (bufs.map some ++ old :: stale) (bufs.length : Int) m
              = .ok (bufs.map some ++ m :: stale) :=
            fun m => store_append (List.length_map some) m old stale
          -- the rest of the loop, once the packet `p` has the mbuf `m`
          have hnext := fun (m : MbufPtr) (s : SendState) =>
            ih (seen ++ [some p]) rest (bufs ++ [m]) stale s (by simp [hseen]) (Nat.le_of_succ_le_succ hstale)
          simp only [List.append_assoc, List.singleton_append, List.length_append, List.length_singleton,
            List.map_append, List.map_cons, List.map_nil] at hnext
          rw [List.length_cons, prepareLoop, hload, ok_bind, derefPtr, ok_bind, copiedData]
          by_cases hnadk : p.bufDev = .nadk
          · obtain ⟨hlive, hdead⟩ := hnext (.handle p.bufHandle) s
            rw [if_pos hnadk, if_pos hnadk, hstore, ok_bind, prepared, if_pos hnadk]
            refine ⟨fun h => ?_, hdead⟩
            obtain ⟨stale', h⟩ := hlive h
            refine ⟨stale', h.trans ?_⟩
            simp [Prepared.cons, Nat.add_assoc, Nat.add_comm 1]
          · rw [if_neg hnadk, if_neg hnadk, prepared, if_neg hnadk]
            cases hmbuf : d.mbuf bufs.length with
            | allocFails =>
                exact ⟨fun _ => ⟨none :: stale, by simp [hstore]⟩, fun h => absurd (live_nil _) h⟩
            | copyFails =>
                refine ⟨fun h => ⟨some (.allocated s.mbufs) :: stale, ?_⟩, fun h => ?_⟩
                · simp [hstore, useData_ok (h.2 p.data (by simp))]
                · have hfreed : .freeData p.data ∈ s.log := by
                    by_contra hfresh
                    exact h ⟨List.nodup_singleton _, by simpa using hfresh⟩
                  simp [useData_error hfreed]
            | ready =>
                obtain ⟨hlive, hdead⟩ := hnext (.allocated s.mbufs) { s with
                  mbufs := s.mbufs + 1
                  log := s.log ++ [.alloc s.mbufs, .copy p.data (.allocated s.mbufs), .freeData p.data] }
                dsimp only
                rw [live_cons s.mbufs (.allocated s.mbufs)]
                by_cases hfresh : .freeData p.data ∈ s.log
                · rw [useData_error hfresh]
                  exact ⟨fun h => absurd hfresh h.1, fun _ => rfl⟩
                · rw [useData_ok hfresh, ok_bind, hstore, ok_bind]
                  refine ⟨fun h => ?_, fun h => hdead (fun hrest => h ⟨hfresh, hrest⟩)⟩
                  obtain ⟨stale', h⟩ := hlive h.2
                  refine ⟨stale', h.trans ?_⟩
                  simp [Prepared.cons, Nat.add_assoc, Nat.add_comm 1]

theorem length_prepared_le (d : Driver) : ∀ (ps : List Packet) (i k : Nat),
    (prepared d i k ps).bufs.length ≤ ps.length := by
  intro ps
  induction ps with
  | nil => intro i k; rfl
  | cons p ps ih =>
      intro i k
      rw [prepared]
      split
      · exact Nat.succ_le_succ (ih _ _)
      · cases d.mbuf i with
        | allocFails => exact Nat.zero_le _
        | copyFails => exact Nat.zero_le _
        | ready => exact Nat.succ_le_succ (ih _ _)

/-- The events of a transmission. -/
def transmits (bufs : List MbufPtr) (ps : List Packet) : List Event :=
  (bufs.zip ps).map (fun e => .transmit e.1 e.2)

/-- `nadk_send` takes the first buffers. -/
theorem transmitLoop_eq (bufs : List MbufPtr) (ps : List Packet) (stale : List (Option MbufPtr))
    (rest : List (Option Packet)) : ∀ n, n ≤ bufs.length → n ≤ ps.length →
    transmitLoop (bufs.map some ++ stale) (ps.map some ++ rest) n = .ok (transmits (bufs.take n) (ps.take n)) := by
  intro n
  induction n with
  | zero => intro _ _; rfl
  | succ n ih =>
      intro hb hp
      have hbuf : (bufs.map some ++ stale)[n]? = some (some bufs[n]) := by
        rw [List.getElem?_append_left (by rwa [List.length_map]), List.getElem?_map, List.getElem?_eq_getElem hb]
        rfl
      have hpkt : (ps.map some ++ rest)[n]? = some (some ps[n]) := by
        rw [List.getElem?_append_left (by rwa [List.length_map]), List.getElem?_map, List.getElem?_eq_getElem hp]
        rfl
      rw [transmitLoop, ih (by omega) (by omega), ok_bind, load_natCast hbuf, ok_bind, derefPtr, ok_bind,
        load_natCast hpkt, ok_bind, derefPtr, ok_bind, List.take_succ_eq_append_getElem hb,
        List.take_succ_eq_append_getElem hp, transmits, transmits, List.zip_append (by simp; omega), List.map_append]
      rfl

/-! ## One batch, one call -/

/-- The packets that a batch looks at. -/
def batchOf (ps : List Packet) : List Packet := ps.take rxBudget

theorem length_batchOf_le (ps : List Packet) : (batchOf ps).length ≤ rxBudget := by
  rw [batchOf, List.length_take]
  exact Nat.min_le_left _ _

/-- `fp_ring_top_n` copies the packets of the batch into the local array. -/
theorem TxQueued.topN_eq (Q : TxQueued s ps) (d : Driver) : ∃ rest, s.dev.txRing.topN d.staleBatch rxBudget
    = .ok (((batchOf ps).length : Int), (batchOf ps).map some ++ rest) := by
  obtain ⟨-, f, R, hitems⟩ := Q
  have htop := Ring.topN_refines R (n := (rxBudget : Int)) (x := d.staleBatch) (by omega)
    (by rw [d.staleBatch_len])
  have holdest : f.oldest (rxBudget : Int).toNat = (batchOf ps).map some := by
    rw [Fifo.oldest, hitems, Int.toNat_natCast, batchOf, List.map_take]
  rw [holdest, List.length_map] at htop
  exact ⟨_, htop⟩

/-- **What a batch does** when it copies live data: the driver takes the first `d.sent` of the mbufs that are ready, and
    their packets leave the ring. -/
theorem nadkSendBatch_eq (Q : TxQueued s ps) {d : Driver} (hlive : Live s.log (copiedData d 0 (batchOf ps))) :
    ∃ s' r, nadkSendBatch d s = .ok (s', r) ∧
      let P := prepared d 0 s.mbufs (batchOf ps)
      let n := d.sent P.bufs.length
      TxQueued s' (ps.drop n) ∧ s'.mbufs = P.mbufs ∧
        s'.log = s.log ++ P.log ++ transmits (P.bufs.take n) ((batchOf ps).take n) := by
  obtain ⟨rest, htop⟩ := Q.topN_eq d
  obtain ⟨a, hderef⟩ := derefPtr_of_ne Q.1
  obtain ⟨hhandle, f, R, hitems⟩ := Q
  obtain ⟨stale', hprep⟩ := (prepareLoop_eq d (batchOf ps) [] rest [] d.staleBuf s rfl
    (by rw [d.staleBuf_len]; exact length_batchOf_le ps)).1 hlive
  simp only [List.nil_append, List.length_nil, Nat.zero_add, List.map_nil] at hprep
  have hready := length_prepared_le d (batchOf ps) 0 s.mbufs
  generalize prepared d 0 s.mbufs (batchOf ps) = P at hprep hready
  have hsent := d.sent_le P.bufs.length
  unfold nadkSendBatch
  rw [htop, ok_bind]
  dsimp only
  rw [Int.toNat_natCast, hprep, ok_bind]
  dsimp only
  by_cases hzero : P.bufs.length = 0
  · have hn : d.sent P.bufs.length = 0 := by omega
    rw [if_pos hzero, hn]
    exact ⟨_, _, rfl, ⟨hhandle, f, R, hitems⟩, rfl, by simp [transmits]⟩
  · obtain ⟨ring, hremove, R'⟩ := Ring.removeN_refines R (n := (d.sent P.bufs.length : Int)) (by omega)
    rw [if_neg hzero, hderef, ok_bind, transmitLoop_eq _ _ _ _ _ hsent (Nat.le_trans hsent hready), ok_bind, hremove,
      ok_bind]
    refine ⟨_, _, rfl, ⟨hhandle, _, R', ?_⟩, rfl, rfl⟩
    rw [Fifo.items_discard, hitems, Int.toNat_natCast, List.map_drop]

/-- A batch that copies from data that was freed is undefined. -/
theorem nadkSendBatch_error (Q : TxQueued s ps) {d : Driver} (hdead : ¬ Live s.log (copiedData d 0 (batchOf ps))) :
    nadkSendBatch d s = .error .useAfterFree := by
  obtain ⟨rest, htop⟩ := Q.topN_eq d
  have hprep := (prepareLoop_eq d (batchOf ps) [] rest [] d.staleBuf s rfl
    (by rw [d.staleBuf_len]; exact length_batchOf_le ps)).2 hdead
  simp only [List.nil_append, List.length_nil, List.map_nil] at hprep
  unfold nadkSendBatch
  rw [htop, ok_bind]
  dsimp only
  rw [Int.toNat_natCast, hprep]
  rfl

/-- The packets in the ring after a packet was offered to it. -/
def offered (ps : List Packet) (pkt : Packet) : List Packet :=
  if ps.length < 2 * rxBudget - 1 then ps ++ [pkt] else ps

theorem mem_offered {p pkt : Packet} (h : p ∈ offered ps pkt) : p ∈ ps ∨ p = pkt := by
  unfold offered at h
  split at h
  · exact (List.mem_append.mp h).imp_right List.mem_singleton.mp
  · exact Or.inl h

theorem length_offered (hps : ps.length ≤ 2 * rxBudget - 1) (pkt : Packet) :
    (offered ps pkt).length = min (ps.length + 1) (2 * rxBudget - 1) := by
  unfold offered
  split
  · rw [List.length_append, List.length_singleton]
    omega
  · omega

/-- The packets of the batch that a call sends: none if the ring holds too few. -/
def batchFor (qs : List Packet) : List Packet := if rxBudget ≤ qs.length then batchOf qs else []

theorem batchFor_eq_take (qs : List Packet) : ∃ n, batchFor qs = qs.take n := by
  unfold batchFor
  split
  · exact ⟨rxBudget, rfl⟩
  · exact ⟨0, rfl⟩

theorem batchFor_subset (qs : List Packet) : batchFor qs ⊆ qs := by
  obtain ⟨n, h⟩ := batchFor_eq_take qs
  rw [h]
  exact List.take_subset n qs

/-- The packets that wait in the tx ring. -/
def waiting (s : SendState) : List Packet := s.dev.txRing.contents.reduceOption

/-- **The call copies live data only**, in the batch that it leads to. -/
def CopiesLive (s : SendState) (sub : Submission) : Prop :=
  Live s.log (copiedData sub.driver 0 (batchFor (offered (waiting s) sub.pkt)))

theorem TxQueued.waiting_eq (Q : TxQueued s ps) : waiting s = ps := by
  rw [waiting, Q.contents_eq, List.reduceOption, List.filterMap_map]
  exact List.filterMap_some

/-- A call offers its packet to the ring, and sends a batch when there are enough. -/
theorem nadkSend_push (Q : TxQueued s ps) (sub : Submission) :
    ∃ s₁, TxQueued s₁ (offered ps sub.pkt) ∧ s₁.mbufs = s.mbufs ∧ s₁.log = s.log ∧
      nadkSend s sub = (if rxBudget ≤ (offered ps sub.pkt).length then (nadkSendBatch sub.driver s₁).map Prod.fst
        else .ok s₁).map (fun s' => (s', ⟨sub.pkt, if ps.length < 2 * rxBudget - 1 then 1 else 0⟩)) := by
  obtain ⟨hhandle, f, R, hitems⟩ := Q
  have hlen : f.items.length = ps.length := by rw [hitems, List.length_map]
  obtain ⟨ring, hpush, R'⟩ := Ring.push_refines R (some sub.pkt)
  have Q' : TxQueued { s with dev := { s.dev with txRing := ring } } (offered ps sub.pkt) := by
    refine ⟨hhandle, _, R', ?_⟩
    rw [Fifo.push, Fifo.items_pushMany, hitems, offered]
    by_cases hroom : ps.length < 2 * rxBudget - 1
    · rw [if_pos hroom, List.take_of_length_le (by simp only [Fifo.room, List.length_singleton]; omega),
        List.map_append]
      rfl
    · rw [if_neg hroom, show f.room = 0 by simp only [Fifo.room]; omega, List.take_zero, List.append_nil]
  refine ⟨_, Q', rfl, rfl, ?_⟩
  unfold nadkSend
  rw [hpush, ok_bind]
  dsimp only
  rw [Q'.count_eq, ok_bind, hlen]
  by_cases hmany : rxBudget ≤ (offered ps sub.pkt).length
  · have hcount : (rxBudget : Int) ≤ (offered ps sub.pkt).length := by exact_mod_cast hmany
    rw [if_pos hcount, if_pos hmany]
    cases nadkSendBatch sub.driver { s with dev := { s.dev with txRing := ring } } <;> rfl
  · have hcount : ¬ (rxBudget : Int) ≤ (offered ps sub.pkt).length := by exact_mod_cast hmany
    rw [if_neg hcount, if_neg hmany]
    rfl

/-- **What a call does** when it copies live data: it offers the packet to the ring, and sends a batch when there are
    enough. -/
theorem nadkSend_eq (Q : TxQueued s ps) {sub : Submission} (hlive : CopiesLive s sub) :
    ∃ s', nadkSend s sub = .ok (s', ⟨sub.pkt, if ps.length < 2 * rxBudget - 1 then 1 else 0⟩) ∧
      let qs := offered ps sub.pkt
      if rxBudget ≤ qs.length then
        let P := prepared sub.driver 0 s.mbufs (batchOf qs)
        let n := sub.driver.sent P.bufs.length
        TxQueued s' (qs.drop n) ∧ s'.mbufs = P.mbufs ∧
          s'.log = s.log ++ P.log ++ transmits (P.bufs.take n) ((batchOf qs).take n)
      else TxQueued s' qs ∧ s'.mbufs = s.mbufs ∧ s'.log = s.log := by
  rw [CopiesLive, Q.waiting_eq, batchFor] at hlive
  obtain ⟨s₁, Q', hmbufs, hlog, hsend⟩ := nadkSend_push Q sub
  rw [← hmbufs, ← hlog]
  rw [← hlog] at hlive
  by_cases hmany : rxBudget ≤ (offered ps sub.pkt).length
  · rw [if_pos hmany] at hlive hsend
    obtain ⟨s', r, hbatch, hspec⟩ := nadkSendBatch_eq Q' hlive
    rw [hbatch] at hsend
    refine ⟨s', hsend, ?_⟩
    rw [if_pos hmany]
    exact hspec
  · rw [if_neg hmany] at hsend
    refine ⟨s₁, hsend, ?_⟩
    rw [if_neg hmany]
    exact ⟨Q', rfl, rfl⟩

/-- A call that copies from data that was freed is undefined. -/
theorem nadkSend_error (Q : TxQueued s ps) {sub : Submission} (hdead : ¬ CopiesLive s sub) :
    nadkSend s sub = .error .useAfterFree := by
  rw [CopiesLive, Q.waiting_eq, batchFor] at hdead
  obtain ⟨s₁, Q', -, hlog, hsend⟩ := nadkSend_push Q sub
  rw [← hlog] at hdead
  by_cases hmany : rxBudget ≤ (offered ps sub.pkt).length
  · rw [if_pos hmany] at hdead hsend
    rw [hsend, nadkSendBatch_error Q' hdead]
    rfl
  · rw [if_neg hmany] at hdead
    exact absurd (live_nil _) hdead

/-! ## Runs -/

/-- The packets that were transmitted. -/
def transmitted (log : List Event) : List Packet :=
  log.filterMap (fun e => match e with
    | .transmit _ pkt => some pkt
    | _ => none)

/-- The packets for which `fp_nadk_send` returned 1. -/
def accepted (outs : List Sent) : List Packet := (outs.filter (fun o => o.ret = 1)).map Sent.pkt

@[simp] theorem transmitted_append (log log' : List Event) :
    transmitted (log ++ log') = transmitted log ++ transmitted log' :=
  List.filterMap_append

/-- Preparing a batch transmits nothing. -/
theorem transmitted_prepared (d : Driver) : ∀ (ps : List Packet) (i k : Nat),
    transmitted (prepared d i k ps).log = [] := by
  intro ps
  induction ps with
  | nil => intro i k; rfl
  | cons p ps ih =>
      intro i k
      rw [prepared]
      split
      · exact ih _ _
      · cases d.mbuf i with
        | allocFails => rfl
        | copyFails => rfl
        | ready => exact ih _ _

theorem transmitted_transmits {bufs : List MbufPtr} {ps : List Packet} (h : bufs.length = ps.length) :
    transmitted (transmits bufs ps) = ps := by
  unfold transmitted transmits
  rw [List.filterMap_map]
  have hsnd : ((fun e => match e with
      | .transmit _ pkt => some pkt
      | _ => none) ∘ fun e : MbufPtr × Packet => Event.transmit e.1 e.2) = fun e => some e.2 := rfl
  rw [hsnd, List.filterMap_eq_map']
  exact List.map_snd_zip (Nat.le_of_eq h.symm)

/-- A device that can send. -/
def Sends (s : SendState) : Prop := ∃ ps, TxQueued s ps

/-- A call returns exactly if it copies live data only. -/
theorem nadkSend_ok_iff (S : Sends s) (sub : Submission) : (∃ r, nadkSend s sub = .ok r) ↔ CopiesLive s sub := by
  obtain ⟨ps, Q⟩ := S
  constructor
  · rintro ⟨r, h⟩
    by_contra hdead
    rw [nadkSend_error Q hdead] at h
    cases h
  · intro hlive
    obtain ⟨s', h, -⟩ := nadkSend_eq Q hlive
    exact ⟨_, h⟩

/-- The packets transmitted, followed by those in the ring. -/
def passage (s : SendState) : List (Option Packet) := (transmitted s.log).map some ++ s.dev.txRing.contents

/-- **One call of `fp_nadk_send`** adds the packet at the end if it returns 1, and nothing else changes. -/
theorem nadkSend_conserves (S : Sends s) {sub : Submission} (hlive : CopiesLive s sub) :
    ∃ s' o, nadkSend s sub = .ok (s', o) ∧ Sends s' ∧ (o.ret = 0 ∨ o.ret = 1) ∧
      [] ++ passage s' = passage s ++ (accepted [o]).map some := by
  obtain ⟨ps, Q⟩ := S
  obtain ⟨s', hsend, hspec⟩ := nadkSend_eq Q hlive
  have hret : (if ps.length < 2 * rxBudget - 1 then (1 : Int) else 0) = 0 ∨
      (if ps.length < 2 * rxBudget - 1 then (1 : Int) else 0) = 1 := by
    split
    · exact Or.inr rfl
    · exact Or.inl rfl
  have hoffered : offered ps sub.pkt
      = ps ++ accepted [⟨sub.pkt, if ps.length < 2 * rxBudget - 1 then 1 else 0⟩] := by
    unfold offered accepted
    split
    · rfl
    · simp
  generalize (if ps.length < 2 * rxBudget - 1 then (1 : Int) else 0) = ret at hsend hret hoffered
  refine ⟨s', _, hsend, ?_⟩
  dsimp only at hspec
  by_cases hmany : rxBudget ≤ (offered ps sub.pkt).length
  · rw [if_pos hmany] at hspec
    obtain ⟨Q', -, hlog⟩ := hspec
    have hready := length_prepared_le sub.driver (batchOf (offered ps sub.pkt)) 0 s.mbufs
    have hsent := sub.driver.sent_le (prepared sub.driver 0 s.mbufs (batchOf (offered ps sub.pkt))).bufs.length
    have hprepared := transmitted_prepared sub.driver (batchOf (offered ps sub.pkt)) 0 s.mbufs
    generalize prepared sub.driver 0 s.mbufs (batchOf (offered ps sub.pkt)) = P at Q' hlog hready hsent hprepared
    generalize sub.driver.sent P.bufs.length = n at Q' hlog hsent
    refine ⟨⟨_, Q'⟩, hret, ?_⟩
    have hlen : (batchOf (offered ps sub.pkt)).length ≤ rxBudget := by
      rw [batchOf, List.length_take]
      exact Nat.min_le_left _ _
    have hfirst : (batchOf (offered ps sub.pkt)).take n = (offered ps sub.pkt).take n := by
      rw [batchOf, List.take_take, Nat.min_eq_left (by omega)]
    have hzip : (P.bufs.take n).length = ((batchOf (offered ps sub.pkt)).take n).length := by
      simp only [List.length_take]
      omega
    have hsplit := List.take_append_drop n (offered ps sub.pkt)
    unfold passage
    rw [hlog, Q'.contents_eq, Q.contents_eq, transmitted_append, transmitted_append, hprepared,
      transmitted_transmits hzip, hfirst, List.append_nil, List.nil_append, List.map_append, List.append_assoc,
      ← List.map_append, hsplit, hoffered, List.map_append, List.append_assoc]
  · rw [if_neg hmany] at hspec
    obtain ⟨Q', -, hlog⟩ := hspec
    refine ⟨⟨_, Q'⟩, hret, ?_⟩
    unfold passage
    rw [hlog, Q'.contents_eq, Q.contents_eq, hoffered, List.nil_append, List.map_append, List.append_assoc]

theorem accepted_eq_flatMap (outs : List Sent) : accepted outs = outs.flatMap (fun o => accepted [o]) := by
  induction outs with
  | nil => rfl
  | cons o outs ih =>
      rw [List.flatMap_cons, ← ih]
      unfold accepted
      rw [← List.map_append, ← List.filter_append]
      rfl

/-- What a call that returns does. -/
theorem nadkSend_passes {s' : SendState} {sub : Submission} {o : Sent} (S : Sends s)
    (h : nadkSend s sub = .ok (s', o)) :
    Sends s' ∧ (o.ret = 0 ∨ o.ret = 1) ∧ [] ++ passage s' = passage s ++ (accepted [o]).map some := by
  obtain ⟨s'', o', hsend, hall⟩ := nadkSend_conserves S ((nadkSend_ok_iff S sub).mp ⟨_, h⟩)
  rw [h] at hsend
  cases hsend
  exact hall

/-- Runs that return are those whose calls copy live data only. -/
theorem nadkSend_run_ok_iff (S : Sends s) (subs : List Submission) :
    (∃ r, runAll nadkSend s subs = .ok r) ↔ Guarded nadkSend CopiesLive s subs := by
  have hreturns : (∃ r, runAll nadkSend s subs = .ok r) ↔
      Guarded nadkSend (fun s sub => ∃ r, nadkSend s sub = .ok r) s subs := runAll_ok_iff (fun _ _ => Iff.rfl) subs s
  rw [hreturns]
  exact Guarded.congr Sends (fun s sub s' o S h => (nadkSend_passes S h).1) (fun s sub S => nadkSend_ok_iff S sub)
    subs s S

/-- The outputs are those of the packets submitted. -/
theorem nadkSend_pkts {t : SendState} {outs : List Sent} {subs : List Submission}
    (hrun : runAll nadkSend s subs = .ok (t, outs)) : outs.map Sent.pkt = subs.map Submission.pkt := by
  refine runAll_outputs (fun s sub s' o h => ?_) subs s t outs hrun
  obtain ⟨⟨ring, num⟩, -, h⟩ := bind_eq_ok h
  obtain ⟨count, -, h⟩ := bind_eq_ok h
  split at h
  · obtain ⟨⟨s'', r⟩, -, h⟩ := bind_eq_ok h
    cases h
    rfl
  · cases h
    rfl

/-- **Sending is first in, first out exactly while live data is copied.** On a device that was just opened, with a handle,
    and whatever the driver answers: a run returns, and the packets transmitted followed by those in the tx ring are
    the packets for which a call returned 1, in order, so that a packet that was refused is never transmitted if none
    is submitted twice, if and only if no call copies from data that an earlier one freed. -/
theorem nadkSend_fifo_iff {state : State} {initialized : Bool} {ethDevCnt : Nat} {netDev : Slots Nat maxEthDev}
    {rx tx : RingMemory} {p : Int} {dev : Device}
    (hopen : nadkOpen state initialized ethDevCnt netDev rx tx p = .ok (some dev)) (hhandle : dev.handle ≠ none)
    (subs : List Submission) :
    (∃ s outs, runAll nadkSend ⟨dev, 0, []⟩ subs = .ok (s, outs) ∧ outs.map Sent.pkt = subs.map Submission.pkt ∧
      (∀ o ∈ outs, o.ret = 0 ∨ o.ret = 1) ∧
      (transmitted s.log).map some ++ s.dev.txRing.contents = (accepted outs).map some ∧
      ((subs.map Submission.pkt).Nodup → ∀ o ∈ outs, o.ret = 0 → o.pkt ∉ transmitted s.log)) ↔
      Guarded nadkSend CopiesLive ⟨dev, 0, []⟩ subs := by
  have Q := nadkOpen_txQueued hopen hhandle 0 []
  have hstart : passage ⟨dev, 0, []⟩ = [] := Q.contents_eq
  rw [← nadkSend_run_ok_iff ⟨[], Q⟩]
  refine ⟨fun ⟨s, outs, hrun, _⟩ => ⟨_, hrun⟩, fun ⟨⟨s, outs⟩, hrun⟩ => ?_⟩
  have hpkts := nadkSend_pkts hrun
  have hrets := runAll_forall Sends (fun o : Sent => o.ret = 0 ∨ o.ret = 1)
    (fun s sub s' o S h => ⟨(nadkSend_passes S h).1, (nadkSend_passes S h).2.1⟩) subs _ s outs ⟨[], Q⟩ hrun
  have hall := runAll_queue Sends passage (fun _ => []) (fun o => (accepted [o]).map some)
    (fun s sub s' o S _ h => ⟨(nadkSend_passes S h).1, (nadkSend_passes S h).2.2⟩) subs _ s outs ⟨[], Q⟩
    (Guarded.of_mem subs _ (fun _ _ _ => trivial)) hrun
  have hpassed : passage s = (accepted outs).map some := by
    rw [hstart, List.nil_append, List.flatMap_eq_nil_iff.mpr (fun _ _ => rfl), List.nil_append] at hall
    rw [accepted_eq_flatMap, List.map_flatMap, hall]
  refine ⟨s, outs, hrun, hpkts, hrets, hpassed, fun hnodup o ho hzero hsent => ?_⟩
  -- a packet transmitted was accepted, and by another call than the one that refused it
  have hmem : some o.pkt ∈ passage s := List.mem_append_left _ (List.mem_map_of_mem hsent)
  rw [hpassed, List.mem_map] at hmem
  obtain ⟨pkt, hpkt, heq⟩ := hmem
  cases heq
  obtain ⟨o', ho', heq⟩ := List.mem_map.mp hpkt
  obtain ⟨ho', hone⟩ := List.mem_filter.mp ho'
  rw [← hpkts] at hnodup
  obtain rfl := List.inj_on_of_nodup_map hnodup ho' ho heq
  rw [hzero] at hone
  exact absurd hone (by decide)

/-- An array of null pointers, for a batch. -/
theorem length_nulls (α : Type) : (List.replicate rxBudget (none : Option α)).length = rxBudget := List.length_replicate

/-- Every packet gets its mbuf, and the driver takes at most `limit` buffers of a batch. -/
def readyDriver (limit : Nat) : Driver where
  mbuf := fun _ => .ready
  sent := fun num => min limit num
  staleBuf := List.replicate rxBudget none
  staleBatch := List.replicate rxBudget none
  sent_le := fun num => Nat.min_le_right limit num
  staleBuf_len := length_nulls MbufPtr
  staleBatch_len := length_nulls Packet

/-- A packet with the data `data` of its own. -/
def allocPacket (data : Nat) : Packet := packetCreate data 60 0 0 .alloc

/-- Seventeen packets with data of their own, and a driver that takes at most `limit` buffers of a batch. -/
def seventeenSubmissions (limit : Nat) : List Submission :=
  (List.range 17).map (fun i => ⟨allocPacket i, readyDriver limit⟩)

/-- Seventeen packets on port 0 of the only device, whose driver takes all. -/
theorem nadkSend_fifo_iff_seventeen :
    (∃ s outs, runAll nadkSend ⟨openDevice, 0, []⟩ (seventeenSubmissions 16) = .ok (s, outs) ∧
      outs.map Sent.pkt = (seventeenSubmissions 16).map Submission.pkt ∧
      (∀ o ∈ outs, o.ret = 0 ∨ o.ret = 1) ∧
      (transmitted s.log).map some ++ s.dev.txRing.contents = (accepted outs).map some ∧
      (((seventeenSubmissions 16).map Submission.pkt).Nodup →
        ∀ o ∈ outs, o.ret = 0 → o.pkt ∉ transmitted s.log)) ↔
      Guarded nadkSend CopiesLive ⟨openDevice, 0, []⟩ (seventeenSubmissions 16) :=
  nadkSend_fifo_iff (rfl : nadkOpen .uninit true 1 oneDevice nullCells nullCells 0 = .ok (some openDevice)) (by simp)
    (seventeenSubmissions 16)

/-- **The driver takes nothing**, and the seventeenth call copies from the data that the sixteenth freed. -/
theorem nadkSend_copies_freed : nadkOpen .uninit true 1 oneDevice nullCells nullCells 0 = .ok (some openDevice) ∧
    openDevice.handle ≠ none ∧
    runAll nadkSend ⟨openDevice, 0, []⟩ (seventeenSubmissions 0) = .error .useAfterFree ∧
    ¬ ∃ s outs, runAll nadkSend ⟨openDevice, 0, []⟩ (seventeenSubmissions 0) = .ok (s, outs) ∧
      outs.map Sent.pkt = (seventeenSubmissions 0).map Submission.pkt ∧
      (∀ o ∈ outs, o.ret = 0 ∨ o.ret = 1) ∧
      (transmitted s.log).map some ++ s.dev.txRing.contents = (accepted outs).map some ∧
      (((seventeenSubmissions 0).map Submission.pkt).Nodup →
        ∀ o ∈ outs, o.ret = 0 → o.pkt ∉ transmitted s.log) := by
  have hrun : runAll nadkSend ⟨openDevice, 0, []⟩ (seventeenSubmissions 0) = .error .useAfterFree := by
    apply map_eq_error (f := fun _ => ())
    decide +kernel
  refine ⟨rfl, by simp [openDevice], hrun, ?_⟩
  rintro ⟨s, outs, h, -⟩
  rw [hrun] at h
  cases h

end Nadk
end Flowpath
end Freeflow
