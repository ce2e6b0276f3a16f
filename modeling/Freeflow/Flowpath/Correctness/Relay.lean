import Mathlib.Data.List.Flatten
import Freeflow.Flowpath.Relay
import Freeflow.Flowpath.Correctness.NadkTransmit

/-!
# `Flowpath.Correctness.Relay` — a relay of NADK devices is a bundle of wires

Packets are received from NADK devices and sent on others, in any order. `Holding` says what a device holds meanwhile, and
`hop_step` what one packet changes. Along every run, what comes out at the other end of a route is what went in, in order:
all of it exactly if no call of `fp_nadk_send` returned 0 (`relay_lossless_iff`), and none does while the driver takes at
least one buffer of each batch (`relay_never_full`).
-/

namespace Freeflow
namespace Flowpath
namespace Nadk

/-! ## One device -/

/-- **What a device holds**: packets that were received, and packets to be sent. Each came with an mbuf, and only such
    mbufs were ever given to the driver. -/
structure Holding (sd : SendState) (rxs txs : List Packet) : Prop where
  rx : Queued sd.dev rxs
  tx : TxQueued sd txs
  own : ∀ pkt ∈ rxs ++ txs, pkt.bufDev = .nadk
  handed : ∀ e ∈ sd.log, ∃ pkt : Packet, e = .transmit (.handle pkt.bufHandle) pkt

variable {sd : SendState} {rxs txs : List Packet}

/-- A device that was just opened holds nothing. -/
theorem holding_nadkOpen {state : State} {initialized : Bool} {ethDevCnt : Nat} {netDev : Slots Nat maxEthDev}
    {rx tx : RingMemory} {p : Int} {dev : Device}
    (h : nadkOpen state initialized ethDevCnt netDev rx tx p = .ok (some dev)) (hhandle : dev.handle ≠ none) :
    Holding ⟨dev, 0, []⟩ [] [] where
  rx := nadkOpen_queued h hhandle
  tx := nadkOpen_txQueued h hhandle 0 []
  own := by simp
  handed := by simp

/-- Receiving does not touch the tx ring. -/
theorem nadkRecvBatch_txRing {dev dev' : Device} {r : Received} {n : Int} (h : nadkRecvBatch dev r = .ok (dev', n)) :
    dev'.txRing = dev.txRing := by
  obtain ⟨a, -, h⟩ := bind_eq_ok h
  split at h
  · cases h
    rfl
  · obtain ⟨rxBatch, -, h⟩ := bind_eq_ok h
    obtain ⟨⟨ring, m⟩, -, h⟩ := bind_eq_ok h
    cases h
    rfl

theorem nadkRecv_txRing {dev dev' : Device} {r : Received} {o : Outcome} (h : nadkRecv dev r = .ok (dev', o)) :
    dev'.txRing = dev.txRing := by
  obtain ⟨count, -, h⟩ := bind_eq_ok h
  split at h
  · obtain ⟨⟨dev₁, n⟩, hbatch, h⟩ := bind_eq_ok h
    obtain ⟨⟨ring, pkt⟩, -, h⟩ := bind_eq_ok h
    cases h
    show dev₁.txRing = _
    exact nadkRecvBatch_txRing hbatch
  · obtain ⟨⟨ring, pkt⟩, -, h⟩ := bind_eq_ok h
    cases h
    rfl

/-- Preparing a batch does not touch the device. -/
theorem prepareLoop_dev {d : Driver} {rxBatch : List (Option Packet)} : ∀ (left : Nat) {i num : Nat}
    {bufs bufs' : List (Option MbufPtr)} {s s' : SendState},
    prepareLoop d rxBatch left i bufs s = .ok (num, bufs', s') → s'.dev = s.dev := by
  intro left
  induction left with
  | zero =>
      intro i num bufs bufs' s s' h
      cases h
      rfl
  | succ left ih =>
      intro i num bufs bufs' s s' h
      obtain ⟨ptr, -, h⟩ := bind_eq_ok h
      obtain ⟨pkt, -, h⟩ := bind_eq_ok h
      split at h
      · obtain ⟨bufs₁, -, h⟩ := bind_eq_ok h
        exact ih h
      · split at h
        · obtain ⟨bufs₁, -, h⟩ := bind_eq_ok h
          cases h
          rfl
        · obtain ⟨_, -, h⟩ := bind_eq_ok h
          obtain ⟨bufs₁, -, h⟩ := bind_eq_ok h
          cases h
          rfl
        · obtain ⟨_, -, h⟩ := bind_eq_ok h
          obtain ⟨bufs₁, -, h⟩ := bind_eq_ok h
          have hdev := ih h
          exact hdev

/-- Sending does not touch the rx ring. -/
theorem nadkSendBatch_rxRing {d : Driver} {s s' : SendState} {r : Int} (h : nadkSendBatch d s = .ok (s', r)) :
    s'.dev.rxRing = s.dev.rxRing := by
  obtain ⟨⟨top, rxBatch⟩, -, h⟩ := bind_eq_ok h
  obtain ⟨⟨num, bufs, s₁⟩, hloop, h⟩ := bind_eq_ok h
  have hdev := prepareLoop_dev _ hloop
  dsimp only at h
  by_cases hnum : num = 0
  · rw [if_pos hnum] at h
    cases h
    rw [hdev]
  · rw [if_neg hnum] at h
    obtain ⟨a, -, h⟩ := bind_eq_ok h
    obtain ⟨es, -, h⟩ := bind_eq_ok h
    obtain ⟨⟨ring, m⟩, -, h⟩ := bind_eq_ok h
    cases h
    show s₁.dev.rxRing = _
    rw [hdev]

theorem nadkSend_rxRing {s s' : SendState} {sub : Submission} {o : Sent} (h : nadkSend s sub = .ok (s', o)) :
    s'.dev.rxRing = s.dev.rxRing := by
  obtain ⟨⟨ring, num⟩, -, h⟩ := bind_eq_ok h
  obtain ⟨count, -, h⟩ := bind_eq_ok h
  split at h
  · obtain ⟨⟨s₁, r⟩, hbatch, h⟩ := bind_eq_ok h
    cases h
    have hrx := nadkSendBatch_rxRing hbatch
    exact hrx
  · cases h
    rfl

/-- A packet that was received came with an mbuf. -/
theorem packetOf_own (m : Mbuf) : (packetOf m).bufDev = .nadk := rfl

/-- A call of `fp_nadk_recv`. -/
theorem Holding.recv (H : Holding sd rxs txs) (r : Received) :
    ∃ dev' o rxs', nadkRecv sd.dev r = .ok (dev', o) ∧ Holding { sd with dev := dev' } rxs' txs ∧
      o.packet.toList ++ rxs' = rxs ++ o.delivered.map packetOf ∧ ∀ pkt ∈ o.packet, pkt.bufDev = .nadk := by
  obtain ⟨dev', o, hrecv, ⟨rxs', Q'⟩, -, hall⟩ := nadkRecv_conserves ⟨rxs, H.rx⟩ r
  have heq : o.packet.toList ++ rxs' = rxs ++ o.delivered.map packetOf := by
    rw [Q'.contents_eq, H.rx.contents_eq, ← List.map_append] at hall
    have hmap : o.delivered.map (fun m => some (packetOf m)) = (o.delivered.map packetOf).map some := by
      rw [List.map_map]
      rfl
    rw [hmap, ← List.map_append] at hall
    exact List.map_injective_iff.mpr (Option.some_injective _) hall
  have hown : ∀ pkt ∈ o.packet.toList ++ rxs', pkt.bufDev = .nadk := by
    intro pkt hpkt
    rw [heq, List.mem_append] at hpkt
    rcases hpkt with hpkt | hpkt
    · exact H.own pkt (List.mem_append_left _ hpkt)
    · obtain ⟨m, -, rfl⟩ := List.mem_map.mp hpkt
      exact packetOf_own m
  refine ⟨dev', o, rxs', hrecv, ⟨Q', ?_, fun pkt hpkt => ?_, H.handed⟩, heq, fun pkt hpkt => ?_⟩
  · obtain ⟨-, f, R, hitems⟩ := H.tx
    refine ⟨Q'.1, f, ?_, hitems⟩
    show Ring.Refines dev'.txRing f
    rwa [nadkRecv_txRing hrecv]
  · rcases List.mem_append.mp hpkt with hpkt | hpkt
    · exact hown pkt (List.mem_append_right _ hpkt)
    · exact H.own pkt (List.mem_append_right _ hpkt)
  · exact hown pkt (List.mem_append_left _ (Option.mem_toList.mpr hpkt))

/-- Packets that have an mbuf need no other. -/
theorem prepared_own (d : Driver) : ∀ (ps : List Packet) (i k : Nat), (∀ pkt ∈ ps, pkt.bufDev = .nadk) →
    prepared d i k ps = ⟨ps.map (fun pkt => .handle pkt.bufHandle), k, []⟩ := by
  intro ps
  induction ps with
  | nil => intro i k _; rfl
  | cons p ps ih =>
      intro i k hown
      rw [prepared, if_pos (hown p (by simp)), ih _ _ (fun pkt hpkt => hown pkt (List.mem_cons_of_mem p hpkt))]
      rfl

/-- And their data is not copied. -/
theorem copiedData_own (d : Driver) : ∀ (ps : List Packet) (i : Nat), (∀ pkt ∈ ps, pkt.bufDev = .nadk) →
    copiedData d i ps = [] := by
  intro ps
  induction ps with
  | nil => intro i _; rfl
  | cons p ps ih =>
      intro i hown
      rw [copiedData, if_pos (hown p (by simp)), ih _ (fun pkt hpkt => hown pkt (List.mem_cons_of_mem p hpkt))]

/-- The mbufs of packets are transmitted for these packets. -/
theorem transmits_own (ps : List Packet) :
    transmits (ps.map fun pkt => .handle pkt.bufHandle) ps =
      ps.map fun pkt => .transmit (.handle pkt.bufHandle) pkt := by
  unfold transmits
  rw [List.zip_map_left, List.map_map]
  induction ps with
  | nil => rfl
  | cons p ps ih => simp_all

/-- How many buffers of a batch leave the device in a call that finds `txs` to be sent. -/
def leaving (driver : Driver) (qs : List Packet) : Nat := if rxBudget ≤ qs.length then driver.sent rxBudget else 0

/-- A call of `fp_nadk_send`. -/
theorem Holding.send (H : Holding sd rxs txs) {pkt : Packet} (hpkt : pkt.bufDev = .nadk) (driver : Driver) :
    let qs := offered txs pkt
    ∃ sd', nadkSend sd ⟨pkt, driver⟩ = .ok (sd', ⟨pkt, if txs.length < 2 * rxBudget - 1 then 1 else 0⟩) ∧
      Holding sd' rxs (qs.drop (leaving driver qs)) ∧
      transmitted sd'.log = transmitted sd.log ++ qs.take (leaving driver qs) := by
  intro qs
  have hown : ∀ p ∈ qs, p.bufDev = .nadk := by
    intro p hp
    rcases mem_offered hp with hp | rfl
    · exact H.own p (List.mem_append_right _ hp)
    · exact hpkt
  have hlive : CopiesLive sd ⟨pkt, driver⟩ := by
    rw [CopiesLive, H.tx.waiting_eq, copiedData_own _ _ _ fun p hp => hown p (batchFor_subset _ hp)]
    exact live_nil _
  obtain ⟨sd', hsend, hspec⟩ := nadkSend_eq H.tx hlive
  have hrx : Queued sd'.dev rxs := by
    obtain ⟨-, f, R, hitems⟩ := H.rx
    obtain ⟨⟨_, Q'⟩, -⟩ := nadkSend_passes ⟨txs, H.tx⟩ hsend
    refine ⟨Q'.1, f, ?_, hitems⟩
    rwa [nadkSend_rxRing hsend]
  have hholding : ∀ n, TxQueued sd' (qs.drop n) →
      sd'.log = sd.log ++ (qs.take n).map (fun pkt => .transmit (.handle pkt.bufHandle) pkt) →
      Holding sd' rxs (qs.drop n) ∧ transmitted sd'.log = transmitted sd.log ++ qs.take n := by
    intro n Q hlog
    have htransmitted : transmitted ((qs.take n).map fun pkt => Event.transmit (.handle pkt.bufHandle) pkt)
        = qs.take n := by
      rw [← transmits_own, transmitted_transmits (by simp)]
    refine ⟨⟨hrx, Q, fun p hp => ?_, fun e he => ?_⟩, by rw [hlog, transmitted_append, htransmitted]⟩
    · rcases List.mem_append.mp hp with hp | hp
      · exact H.own p (List.mem_append_left _ hp)
      · exact hown p (List.mem_of_mem_drop hp)
    · rw [hlog, List.mem_append] at he
      rcases he with he | he
      · exact H.handed e he
      · obtain ⟨p, -, rfl⟩ := List.mem_map.mp he
        exact ⟨p, rfl⟩
  refine ⟨sd', hsend, ?_⟩
  unfold leaving
  dsimp only at hspec
  by_cases hmany : rxBudget ≤ qs.length
  · have hlen : (batchOf qs).length = rxBudget := by
      rw [batchOf, List.length_take]
      exact Nat.min_eq_left hmany
    have hprepared := prepared_own driver (batchOf qs) 0 sd.mbufs (fun p hp => hown p (List.mem_of_mem_take hp))
    rw [if_pos hmany, hprepared] at hspec
    simp only [List.length_map, hlen, List.append_nil] at hspec
    obtain ⟨Q, -, hlog⟩ := hspec
    have hn := driver.sent_le rxBudget
    rw [if_pos hmany]
    refine hholding _ Q ?_
    rw [hlog, ← List.map_take, transmits_own, batchOf, List.take_take, Nat.min_eq_left hn]
  · rw [if_neg hmany] at hspec
    obtain ⟨Q, -, hlog⟩ := hspec
    rw [if_neg hmany]
    refine hholding 0 ?_ ?_
    · rwa [List.drop_zero]
    · simpa using hlog

/-! ## One packet -/

section
variable {D : Type} [DecidableEq D] {s : D → SendState} {rxs txs : D → List Packet} (route : D → D)

/-- What was delivered to a device. -/
def deliveredTo (d : D) (o : Hopped D Outcome) : List Packet :=
  if o.src = d then o.received.delivered.map packetOf else []

/-- The packet that was received from a device. -/
def takenFrom (d : D) (o : Hopped D Outcome) : List Packet := if o.src = d then o.received.packet.toList else []

/-- The packet that was sent on a device, unless `fp_nadk_send` returned 0. -/
def passedTo (d : D) (o : Hopped D Outcome) : List Packet :=
  if route o.src = d ∧ o.sent = some 1 then o.received.packet.toList else []

/-- **What one packet changes**, from the packets `rxs` and `txs` of the devices to `rxs'` and `txs'`. -/
structure Moved (s s' : D → SendState) (rxs txs rxs' txs' : D → List Packet) (driver : Driver)
    (o : Hopped D Outcome) : Prop where
  holding : ∀ d, Holding (s' d) (rxs' d) (txs' d)
  rx : ∀ d, takenFrom d o ++ rxs' d = rxs d ++ deliveredTo d o
  tx : ∀ d, transmitted (s' d).log ++ txs' d = transmitted (s d).log ++ txs d ++ passedTo route d o
  answer : o.sent = o.received.packet.map fun _ => if (txs (route o.src)).length < 2 * rxBudget - 1 then 1 else 0
  few : 0 < driver.sent rxBudget → (∀ d, (txs d).length < rxBudget) → ∀ d, (txs' d).length < rxBudget

/-- What one device holds changes. -/
theorem holding_update (H : ∀ d, Holding (s d) (rxs d) (txs d)) (a : D) {sd : SendState} {rx tx : List Packet}
    (Ha : Holding sd rx tx) :
    ∀ d, Holding (Function.update s a sd d) (Function.update rxs a rx d) (Function.update txs a tx d) := by
  intro d
  by_cases hd : d = a
  · subst hd
    simpa only [Function.update_self] using Ha
  · simpa only [Function.update_of_ne hd] using H d

/-- A packet that was offered to a ring is behind the others, if there was room. -/
theorem offered_eq (ps : List Packet) (pkt : Packet) :
    offered ps pkt = ps ++ if ps.length < 2 * rxBudget - 1 then [pkt] else [] := by
  unfold offered
  split
  · rfl
  · rw [List.append_nil]

/-- A driver that takes some of each batch keeps the ring below a batch. -/
theorem length_left_lt {driver : Driver} {ps : List Packet} (pkt : Packet) (hdriver : 0 < driver.sent rxBudget)
    (hps : ps.length < rxBudget) :
    ((offered ps pkt).drop (leaving driver (offered ps pkt))).length < rxBudget := by
  have hroom : ps.length ≤ 2 * rxBudget - 1 := by omega
  have hlen := length_offered hroom pkt
  have hbudget : rxBudget = 16 := rfl
  rw [List.length_drop]
  unfold leaving
  split
  · omega
  · omega

/-- **A packet is received from one device and sent on another.** -/
theorem hop_step (H : ∀ d, Holding (s d) (rxs d) (txs d)) (h : Hop D Received Driver) :
    ∃ s' o rxs' txs', hop vtbl route s h = .ok (s', o) ∧ o.src = h.src ∧
      Moved route s s' rxs txs rxs' txs' h.answers.send o := by
  obtain ⟨dev', out, rx', hrecv, H₁, hrx, hown⟩ := (H h.src).recv h.answers.recv
  have hall := holding_update H h.src H₁
  rw [Function.update_eq_self] at hall
  have hrecv' : vtbl.recv s h.src h.answers.recv = .ok (Function.update s h.src { s h.src with dev := dev' }, out) := by
    show (nadkRecv (s h.src).dev h.answers.recv >>= _) = _
    rw [hrecv]
    rfl
  generalize hs₁ : Function.update s h.src { s h.src with dev := dev' } = s₁ at hrecv' hall
  have hlog : ∀ d, (s₁ d).log = (s d).log := by
    intro d
    rw [← hs₁]
    by_cases hd : d = h.src
    · rw [hd, Function.update_self]
    · rw [Function.update_of_ne hd]
  have hconserve : ∀ d n, takenFrom d ⟨h.src, out, n⟩ ++ Function.update rxs h.src rx' d =
      rxs d ++ deliveredTo d ⟨h.src, out, n⟩ := by
    intro d n
    unfold takenFrom deliveredTo
    by_cases hd : h.src = d
    · subst hd
      simpa using hrx
    · have hd' : d ≠ h.src := fun heq => hd heq.symm
      simp [hd, hd']
  cases hpacket : out.packet with
  | none =>
      refine ⟨s₁, _, _, txs, forward_none hrecv' hpacket, rfl, hall, fun d => hconserve d none, fun d => ?_,
        by rw [hpacket]; rfl, fun _ hfew => hfew⟩
      simp [hlog, passedTo]
  | some pkt =>
      obtain ⟨sd', hsend, H₂, hsent⟩ := (hall (route h.src)).send (hown pkt hpacket) h.answers.send
      have hsend' : vtbl.send s₁ (route h.src) pkt h.answers.send =
          .ok (Function.update s₁ (route h.src) sd', if (txs (route h.src)).length < 2 * rxBudget - 1 then 1 else 0) := by
        show (nadkSend (s₁ (route h.src)) _ >>= _) = _
        rw [hsend]
        rfl
      have hall' := holding_update hall (route h.src) H₂
      rw [Function.update_eq_self] at hall'
      refine ⟨_, _, _, _, forward_some hrecv' hpacket hsend', rfl, hall', fun d => hconserve d _, fun d => ?_,
        by rw [hpacket]; rfl, fun hdriver hfew d => ?_⟩
      · by_cases hd : d = route h.src
        · subst hd
          rw [Function.update_self, Function.update_self, hsent, List.append_assoc, List.take_append_drop, hlog,
            offered_eq, List.append_assoc, passedTo, hpacket]
          by_cases hroom : (txs (route h.src)).length < 2 * rxBudget - 1
          · rw [if_pos hroom, if_pos hroom, if_pos ⟨rfl, rfl⟩, Option.toList_some]
          · rw [if_neg hroom, if_neg hroom, if_neg (by simp)]
        · have hd' : ¬ route h.src = d := fun heq => hd heq.symm
          rw [Function.update_of_ne hd, Function.update_of_ne hd, hlog]
          simp [passedTo, hd']
      · by_cases hd : d = route h.src
        · rw [hd, Function.update_self]
          exact length_left_lt pkt hdriver (hfew _)
        · rw [Function.update_of_ne hd]
          exact hfew d

/-! ## Runs -/

/-- The devices hold packets, fewer than a batch to be sent if `small`. -/
def Held (small : Prop) (s : D → SendState) : Prop :=
  ∃ rxs txs : D → List Packet, (∀ d, Holding (s d) (rxs d) (txs d)) ∧ (small → ∀ d, (txs d).length < rxBudget)

/-- The devices were just opened, on ports that were discovered. -/
def JustOpened (s : D → SendState) : Prop :=
  ∀ d, ∃ state initialized ethDevCnt netDev rx tx p dev,
    nadkOpen state initialized ethDevCnt netDev rx tx p = .ok (some dev) ∧ dev.handle ≠ none ∧ s d = ⟨dev, 0, []⟩

omit [DecidableEq D] in
theorem JustOpened.held {s : D → SendState} (h : JustOpened s) (small : Prop) : Held small s := by
  refine ⟨fun _ => [], fun _ => [], fun d => ?_, fun _ _ => by simp [rxBudget]⟩
  obtain ⟨_, _, _, _, _, _, _, dev, hopen, hhandle, hs⟩ := h d
  rw [hs]
  exact holding_nadkOpen hopen hhandle

/-- A packet that was received was sent on, and `fp_nadk_send` returned 0 or 1, always 1 if `small`. -/
def Answered (small : Prop) (o : Hopped D Outcome) : Prop :=
  ∃ n : Int, o.sent = o.received.packet.map (fun _ => n) ∧ (n = 0 ∨ n = 1) ∧ (small → n = 1)

/-- The driver takes at least one buffer of a batch. -/
def TakesSome (h : Hop D Received Driver) : Prop := 0 < h.answers.send.sent rxBudget

variable {small : Prop}

/-- One packet, on what the devices hold. -/
theorem hop_held {s : D → SendState} (hs : Held small s) (h : Hop D Received Driver) (hsmall : small → TakesSome h) :
    ∃ s' o, hop vtbl route s h = .ok (s', o) ∧ Held small s' ∧ Answered small o ∧ o.src = h.src ∧ ∀ d,
      (takenFrom d o).map some ++ (s' d).dev.rxRing.contents =
        (s d).dev.rxRing.contents ++ (deliveredTo d o).map some ∧
      passage (s' d) = passage (s d) ++ (passedTo route d o).map some := by
  obtain ⟨rxs, txs, H, hfew⟩ := hs
  obtain ⟨s', o, rxs', txs', hstep, hsrc, M⟩ := hop_step route H h
  refine ⟨s', o, hstep, ⟨rxs', txs', M.holding, fun h => M.few (hsmall h) (hfew h)⟩, ?_, hsrc, fun d => ⟨?_, ?_⟩⟩
  · refine ⟨_, M.answer, ?_, fun h => if_pos ?_⟩
    · split
      · exact Or.inr rfl
      · exact Or.inl rfl
    · have hlt := hfew h (route o.src)
      have hbudget : rxBudget = 16 := rfl
      omega
  · rw [(M.holding d).rx.contents_eq, (H d).rx.contents_eq, ← List.map_append, ← List.map_append, M.rx]
  · unfold passage
    rw [(M.holding d).tx.contents_eq, (H d).tx.contents_eq, ← List.map_append, M.tx, List.map_append, List.map_append]

/-- **A run.** It returns, and of each device the packets received and the packets passed on are conserved. -/
theorem relay_run {s : D → SendState} (hs : Held small s) (hops : List (Hop D Received Driver))
    (hsmall : small → ∀ h ∈ hops, TakesSome h) :
    ∃ t outs, runAll (hop vtbl route) s hops = .ok (t, outs) ∧ Held small t ∧ (∀ o ∈ outs, Answered small o) ∧ ∀ d,
      (outs.flatMap (takenFrom d)).map some ++ (t d).dev.rxRing.contents =
        (s d).dev.rxRing.contents ++ (outs.flatMap (deliveredTo d)).map some ∧
      passage (t d) = passage (s d) ++ (outs.flatMap (passedTo route d)).map some := by
  obtain ⟨t, outs, hrun, ht, hall, hqueues⟩ := runAll_conserves_each (Held small) (Answered small)
    (fun h : Hop D Received Driver => small → TakesSome h)
    (Sum.elim (fun d s => (s d).dev.rxRing.contents) (fun d s => passage (s d)))
    (Sum.elim (fun d o => (takenFrom d o).map some) (fun _ _ => []))
    (Sum.elim (fun d o => (deliveredTo d o).map some) (fun d o => (passedTo route d o).map some))
    (fun s h hs hg => by
      obtain ⟨s', o, hstep, hs', hans, -, hone⟩ := hop_held route hs h hg
      refine ⟨s', o, hstep, hs', hans, fun k => ?_⟩
      cases k with
      | inl d => exact (hone d).1
      | inr d => exact (hone d).2)
    hops s hs (fun h hmem hsm => hsmall hsm h hmem)
  refine ⟨t, outs, hrun, ht, hall, fun d => ?_⟩
  have hrx := hqueues (.inl d)
  have htx := hqueues (.inr d)
  simp only [Sum.elim_inl, Sum.elim_inr, ← List.map_flatMap] at hrx htx
  rw [List.flatMap_eq_nil_iff.mpr (fun _ _ => rfl), List.nil_append] at htx
  exact ⟨hrx, htx⟩

/-- Lists with the same concatenation, each a part of its counterpart, are the same one by one. -/
theorem eq_of_flatMap_eq {α β : Type} {f g : α → List β} : ∀ (xs : List α), (∀ x ∈ xs, (f x).Sublist (g x)) →
    xs.flatMap f = xs.flatMap g → ∀ x ∈ xs, f x = g x := by
  intro xs
  induction xs with
  | nil => simp
  | cons x xs ih =>
      intro hsub heq
      have hone := hsub x (by simp)
      have hrest : (xs.flatMap f).Sublist (xs.flatMap g) :=
        List.Sublist.flatMap_right xs (fun y hy => hsub y (List.mem_cons_of_mem x hy))
      have hlen := congrArg List.length heq
      simp only [List.flatMap_cons, List.length_append] at hlen
      have hle := hone.length_le
      have hle' := hrest.length_le
      refine List.forall_mem_cons.mpr ⟨hone.eq_of_length (by omega), ?_⟩
      exact ih (fun y hy => hsub y (List.mem_cons_of_mem x hy)) (hrest.eq_of_length (by omega))

/-- What is passed on at the end of a route was taken from its beginning. -/
theorem passedTo_eq (hroute : Function.Injective route) (d : D) (o : Hopped D Outcome) :
    passedTo route (route d) o = if o.sent = some 1 then takenFrom d o else [] := by
  unfold passedTo takenFrom
  by_cases hd : o.src = d
  · simp [hd]
  · have hne : route o.src ≠ route d := fun h => hd (hroute h)
    simp [hd, hne]

/-- A call of `fp_nadk_send` returned 0. -/
theorem Answered.refused_iff {o : Hopped D Outcome} (h : Answered small o) :
    o.sent = some 0 ↔ ¬ ∀ d, (if o.sent = some 1 then takenFrom d o else []) = takenFrom d o := by
  obtain ⟨n, hsent, hn, -⟩ := h
  cases hpacket : o.received.packet with
  | none =>
      rw [hpacket] at hsent
      simp [hsent, takenFrom, hpacket]
  | some pkt =>
      rw [hpacket] at hsent
      rcases hn with rfl | rfl
      · refine iff_of_true hsent fun hall => ?_
        have hsrc := hall o.src
        simp [hsent, takenFrom, hpacket] at hsrc
      · simp [hsent]

/-- A part of what was taken from a device is passed on. -/
theorem passed_sublist (d : D) (o : Hopped D Outcome) :
    (if o.sent = some 1 then takenFrom d o else []).Sublist (takenFrom d o) := by
  split
  · exact List.Sublist.refl _
  · exact List.nil_sublist _

/-- A run from devices that were just opened. -/
theorem relay_conserves (hroute : Function.Injective route) {s : D → SendState} (hopen : JustOpened s)
    (hops : List (Hop D Received Driver)) (hsmall : small → ∀ h ∈ hops, TakesSome h) :
    ∃ t outs, runAll (hop vtbl route) s hops = .ok (t, outs) ∧ Held small t ∧ (∀ o ∈ outs, Answered small o) ∧ ∀ d,
      (outs.flatMap (takenFrom d)).map some ++ (t d).dev.rxRing.contents =
        (outs.flatMap (deliveredTo d)).map some ∧
      passage (t (route d)) = (outs.flatMap fun o => if o.sent = some 1 then takenFrom d o else []).map some := by
  obtain ⟨t, outs, hrun, ht, hall, hends⟩ := relay_run route (hopen.held small) hops hsmall
  have hstart : ∀ d, (s d).dev.rxRing.contents = [] ∧ passage (s d) = [] := by
    intro d
    obtain ⟨_, _, _, _, _, _, _, dev, h, hhandle, hs⟩ := hopen d
    have H := holding_nadkOpen h hhandle
    rw [hs]
    exact ⟨H.rx.contents_eq, H.tx.contents_eq⟩
  refine ⟨t, outs, hrun, ht, hall, fun d => ⟨?_, ?_⟩⟩
  · rw [(hends d).1, (hstart d).1, List.nil_append]
  · rw [(hends (route d)).2, (hstart (route d)).2, List.nil_append, funext (passedTo_eq route hroute d)]

/-- **A relay of NADK devices is a bundle of wires.** From devices that were just opened on ports that were discovered,
    packets are received and sent on along a route that joins no two devices, in any order. No call faults. What was
    transmitted at the end of a route, followed by what is in the tx ring there and in the rx ring at its beginning, is
    a part of what was delivered at the beginning, in order; each packet was handed on with the mbuf it came with,
    without a copy. Nothing is missing exactly if no call of `fp_nadk_send` returned 0. -/
theorem relay_lossless_iff (hroute : Function.Injective route) {s : D → SendState} (hopen : JustOpened s)
    (hops : List (Hop D Received Driver)) :
    ∃ t outs, runAll (hop vtbl route) s hops = .ok (t, outs) ∧
      (∀ d, (passage (t (route d)) ++ (t d).dev.rxRing.contents).Sublist ((outs.flatMap (deliveredTo d)).map some)) ∧
      (∀ d, ∀ e ∈ (t d).log, ∃ pkt : Packet, e = .transmit (.handle pkt.bufHandle) pkt) ∧
      ((∀ d, passage (t (route d)) ++ (t d).dev.rxRing.contents = (outs.flatMap (deliveredTo d)).map some) ↔
        ∀ o ∈ outs, o.sent ≠ some 0) := by
  have hsmall : False → ∀ h ∈ hops, TakesSome h := False.elim
  obtain ⟨t, outs, hrun, ⟨rxs, txs, H, -⟩, hall, hends⟩ := relay_conserves route hroute hopen hops hsmall
  refine ⟨t, outs, hrun, fun d => ?_, fun d => (H d).handed, ?_⟩
  · rw [(hends d).2, ← (hends d).1]
    exact ((List.Sublist.flatMap_right outs (fun o _ => passed_sublist d o)).map some).append_right _
  -- nothing is missing exactly if every packet taken was passed on
  · have hequal : ∀ d, passage (t (route d)) ++ (t d).dev.rxRing.contents = (outs.flatMap (deliveredTo d)).map some ↔
        ∀ o ∈ outs, (if o.sent = some 1 then takenFrom d o else []) = takenFrom d o := by
      intro d
      rw [(hends d).2, ← (hends d).1, List.append_left_inj,
        (List.map_injective_iff.mpr (Option.some_injective Packet)).eq_iff]
      exact ⟨eq_of_flatMap_eq outs (fun o _ => passed_sublist d o), fun h => List.flatMap_congr h⟩
    constructor
    · intro h o ho hzero
      exact (hall o ho).refused_iff.mp hzero (fun d => (hequal d).mp (h d) o ho)
    · intro h d
      refine (hequal d).mpr fun o ho => ?_
      by_contra hne
      exact h o ho ((hall o ho).refused_iff.mpr fun hd => hne (hd d))

/-- Two devices that were just opened, and the packets of one go to the other. -/
def twoDevices (_ : Bool) : SendState := ⟨openDevice, 0, []⟩

theorem twoDevices_justOpened : JustOpened twoDevices :=
  fun _ => ⟨.uninit, true, 1, oneDevice, nullCells, nullCells, 0, openDevice, rfl, by simp [openDevice], rfl⟩

/-- A device is asked for packets and has two; the driver of the other takes at most `limit` buffers. -/
def twoPackets (limit : Nat) (d : Bool) : Hop Bool Received Driver := ⟨d, ⟨twoBuffers, readyDriver limit, 0⟩⟩

theorem relay_lossless_two : ∃ t outs,
    runAll (hop vtbl not) twoDevices [twoPackets 8 false, twoPackets 8 true] = .ok (t, outs) ∧
      (∀ d, (passage (t (!d)) ++ (t d).dev.rxRing.contents).Sublist ((outs.flatMap (deliveredTo d)).map some)) ∧
      (∀ d, ∀ e ∈ (t d).log, ∃ pkt : Packet, e = .transmit (.handle pkt.bufHandle) pkt) ∧
      ((∀ d, passage (t (!d)) ++ (t d).dev.rxRing.contents = (outs.flatMap (deliveredTo d)).map some) ↔
        ∀ o ∈ outs, o.sent ≠ some 0) :=
  relay_lossless_iff not (fun _ _ => Bool.not_inj) twoDevices_justOpened _

/-- The driver takes nothing: the last of 32 packets is refused. -/
example : (runAll (hop vtbl not) twoDevices (List.replicate 32 (twoPackets 0 false))).map
    (fun r => r.2.map Hopped.sent) = .ok (List.replicate 31 (some 1) ++ [some 0]) := by
  decide +kernel

end

end Nadk
end Flowpath
end Freeflow
