import Freeflow.Lib.Agree
import Freeflow.Flowpath.UdpPackets

/-!
# `Flowpath.Correctness.UdpPackets` — who frees the packets of a UDP device

Whoever calls `fp_udp_recv`, `fp_udp_send` and `fp_udp_drop` keeps a ledger: a packet is his from the call that gave it to
him until he drops it or something of it was sent. The memory is a faithful account of the ledger (`udp_is_ledger`): a
call is undefined exactly if it is about a packet that is not at hand, and nothing else is allocated. A program that
sends on what it receives, and looks at no result, is always defined, and keeps each packet whose sending failed
(`udp_relay_leaks`).
-/

namespace Freeflow
namespace Flowpath

/-! ## Devices that agree -/

/-- Two tables of functions that cannot be told apart, on states that are related by `R`. -/
structure VtblAgree {σ τ D Pkt ρ R κ : Type} (Rel : σ → τ → Prop) (V : Vtbl σ D Pkt ρ R κ) (V' : Vtbl τ D Pkt ρ R κ) :
    Prop where
  recv : ∀ s t d a, Rel s t → Agree Rel (V.recv s d a) (V'.recv t d a)
  packet : V.packet = V'.packet
  send : ∀ s t d pkt a, Rel s t → Agree Rel (V.send s d pkt a) (V'.send t d pkt a)

/-- Packets are sent on alike. -/
theorem VtblAgree.hop_agree {σ τ D Pkt ρ R κ : Type} {Rel : σ → τ → Prop} {V : Vtbl σ D Pkt ρ R κ}
    {V' : Vtbl τ D Pkt ρ R κ} (A : VtblAgree Rel V V') (route : D → D) {s : σ} {t : τ} (h : Rel s t) (i : Hop D ρ κ) :
    Agree Rel (hop V route s i) (hop V' route t i) := by
  unfold hop forward
  apply (A.recv s t i.src i.answers.recv h).bind
  intro s' t' r h'
  cases hpkt : V.packet r with
  | none =>
      have hpkt' : V'.packet r = none := by rw [← A.packet, hpkt]
      simp only [hpkt, hpkt']
      exact .ok h' _
  | some pkt =>
      have hpkt' : V'.packet r = some pkt := by rw [← A.packet, hpkt]
      simp only [hpkt, hpkt']
      apply (A.send s' t' (route i.src) pkt i.answers.send h').bind
      intro s'' t'' n h''
      exact .ok h'' _

namespace Udp

open Nadk (Packet packetCreate)

/-- **The memory accounts for the ledger**: the live packets are those at hand, and each has bytes of its own, which are
    the only live objects besides. -/
structure Backed (m : UdpMemory) (l : Ledger) : Prop where
  calls : m.calls = l.calls
  next : m.packets.next = l.next
  live : ∀ a p, m.packets.cells a = some p → ∃ bytes, l.owned a = some bytes ∧ m.data.cells p.data = some bytes ∧
    p.size = (bytes.length : Int)
  dead : ∀ a, m.packets.cells a = none → l.owned a = none
  apart : ∀ a b p q, m.packets.cells a = some p → m.packets.cells b = some q → p.data = q.data → a = b
  used : ∀ d bytes, m.data.cells d = some bytes → ∃ a p, m.packets.cells a = some p ∧ p.data = d

theorem backed_start : Backed UdpMemory.start Ledger.start where
  calls := rfl
  next := rfl
  live := by simp [UdpMemory.start]
  dead := fun _ _ => rfl
  apart := by simp [UdpMemory.start]
  used := by simp [UdpMemory.start]

section
variable {m : UdpMemory} {l : Ledger}

theorem Ledger.look_none {a : Nat} (ha : l.owned a = none) : l.look (some a) = .error .useAfterFree := by
  simp only [look, ha]

theorem Ledger.look_some {a : Nat} {bytes : List UInt8} (ha : l.owned a = some bytes) : l.look (some a) = .ok bytes := by
  simp only [look, ha]

/-- A packet is taken in. -/
theorem Backed.accept (B : Backed m l) (bytes : List UInt8) :
    Backed { m with
      data := m.data.alloc bytes
      packets := m.packets.alloc (packetCreate m.data.next bytes.length 0 0 .alloc) } (l.accept bytes) := by
  -- the bytes of a packet that was there are not the new ones
  have hold : ∀ a p, m.packets.cells a = some p → a ≠ m.packets.next ∧ p.data ≠ m.data.next := by
    intro a p ha
    obtain ⟨text, -, htext, -⟩ := B.live a p ha
    exact ⟨(Heap.lt_next ha).ne, (Heap.lt_next htext).ne⟩
  have hcases : ∀ a p, (m.packets.alloc (packetCreate m.data.next bytes.length 0 0 .alloc)).cells a = some p →
      a = m.packets.next ∧ p = packetCreate m.data.next bytes.length 0 0 .alloc ∨
      a ≠ m.packets.next ∧ m.packets.cells a = some p := by
    intro a p ha
    rw [Heap.cells_alloc] at ha
    by_cases hnew : a = m.packets.next
    · rw [hnew, Function.update_self] at ha
      exact Or.inl ⟨hnew, (Option.some.inj ha).symm⟩
    · rw [Function.update_of_ne hnew] at ha
      exact Or.inr ⟨hnew, ha⟩
  refine ⟨B.calls, ?_, fun a p ha => ?_, fun a ha => ?_, fun a b p q ha hb heq => ?_, fun d text hd => ?_⟩
  · show m.packets.next + 1 = l.next + 1
    rw [B.next]
  · rcases hcases a p ha with ⟨rfl, rfl⟩ | ⟨hne, ha⟩
    · refine ⟨bytes, ?_, ?_, rfl⟩
      · show Function.update l.owned l.next (some bytes) m.packets.next = some bytes
        rw [B.next, Function.update_self]
      · show Function.update m.data.cells m.data.next (some bytes) m.data.next = some bytes
        rw [Function.update_self]
    · obtain ⟨text, howned, htext, hsize⟩ := B.live a p ha
      refine ⟨text, ?_, ?_, hsize⟩
      · show Function.update l.owned l.next (some bytes) a = some text
        rw [← B.next, Function.update_of_ne hne, howned]
      · show Function.update m.data.cells m.data.next (some bytes) p.data = some text
        rw [Function.update_of_ne (hold a p ha).2, htext]
  · show Function.update l.owned l.next (some bytes) a = none
    rw [Heap.cells_alloc] at ha
    by_cases hnew : a = m.packets.next
    · rw [hnew, Function.update_self] at ha
      cases ha
    · rw [Function.update_of_ne hnew] at ha
      rw [← B.next, Function.update_of_ne hnew, B.dead a ha]
  · rcases hcases a p ha with ⟨rfl, rfl⟩ | ⟨-, ha⟩
    · rcases hcases b q hb with ⟨rfl, -⟩ | ⟨-, hb⟩
      · rfl
      · exact absurd heq.symm (hold b q hb).2
    · rcases hcases b q hb with ⟨rfl, rfl⟩ | ⟨-, hb⟩
      · exact absurd heq (hold a p ha).2
      · exact B.apart a b p q ha hb heq
  · change Function.update m.data.cells m.data.next (some bytes) d = some text at hd
    by_cases hnew : d = m.data.next
    · refine ⟨m.packets.next, packetCreate m.data.next bytes.length 0 0 .alloc, ?_, hnew.symm⟩
      rw [Heap.cells_alloc, Function.update_self]
    · rw [Function.update_of_ne hnew] at hd
      obtain ⟨a, p, ha, hp⟩ := B.used d text hd
      refine ⟨a, p, ?_, hp⟩
      rw [Heap.cells_alloc, Function.update_of_ne (hold a p ha).1, ha]

/-- The call of `sendto` is recorded. -/
theorem Backed.call (B : Backed m l) (c : Sendto) :
    Backed { m with calls := m.calls ++ [c] } { l with calls := l.calls ++ [c] } :=
  ⟨by rw [B.calls], B.next, B.live, B.dead, B.apart, B.used⟩

/-- A packet is deleted. -/
theorem Backed.delete (B : Backed m l) {a : Nat} {p : Packet} (ha : m.packets.cells a = some p) :
    ∃ m', deletePacket m (some a) = .ok m' ∧ Backed m' (l.release (some a)) := by
  obtain ⟨text, -, htext, -⟩ := B.live a p ha
  obtain ⟨data, hdata, hcells, hnext⟩ := Heap.free_eq htext
  obtain ⟨packets, hpackets, hcells', hnext'⟩ := Heap.free_eq ha
  have hdelete : deletePacket m (some a) = .ok { m with data, packets } := by
    show (m.packets.deref a >>= _) = _
    rw [Heap.deref_eq ha, ok_bind, hdata, ok_bind, hpackets]
    rfl
  refine ⟨_, hdelete, B.calls, hnext'.trans B.next, fun b q hb => ?_, fun b hb => ?_, fun b c q r hb hc heq => ?_,
    fun d bytes hd => ?_⟩
  · obtain ⟨hne, hb⟩ := Heap.live_of_freed hcells' hb
    obtain ⟨bytes, howned, hbytes, hsize⟩ := B.live b q hb
    have hdata : q.data ≠ p.data := fun heq => hne (B.apart b a q p hb ha heq)
    refine ⟨bytes, ?_, ?_, hsize⟩
    · show Function.update l.owned a none b = some bytes
      rw [Function.update_of_ne hne, howned]
    · show data.cells q.data = some bytes
      rw [hcells, Function.update_of_ne hdata, hbytes]
  · change packets.cells b = none at hb
    show Function.update l.owned a none b = none
    by_cases hne : b = a
    · rw [hne, Function.update_self]
    · rw [hcells', Function.update_of_ne hne] at hb
      rw [Function.update_of_ne hne, B.dead b hb]
  · exact B.apart b c q r (Heap.live_of_freed hcells' hb).2 (Heap.live_of_freed hcells' hc).2 heq
  · obtain ⟨hne, hd⟩ := Heap.live_of_freed hcells hd
    obtain ⟨b, q, hb, rfl⟩ := B.used d bytes hd
    refine ⟨b, q, ?_, rfl⟩
    show packets.cells b = some q
    have hba : b ≠ a := by
      rintro rfl
      rw [ha] at hb
      cases hb
      exact hne rfl
    rw [hcells', Function.update_of_ne hba, hb]

/-- A packet is live exactly if it is at hand. -/
theorem Backed.live_of_owned (B : Backed m l) {a : Nat} {bytes : List UInt8} (ha : l.owned a = some bytes) :
    ∃ p, m.packets.cells a = some p ∧ m.data.cells p.data = some bytes ∧ p.size = (bytes.length : Int) := by
  cases hc : m.packets.cells a with
  | none =>
      rw [B.dead a hc] at ha
      cases ha
  | some p =>
      obtain ⟨text, howned, htext, hsize⟩ := B.live a p hc
      rw [ha] at howned
      cases howned
      exact ⟨p, rfl, htext, hsize⟩

theorem Backed.derefPtr_none (B : Backed m l) {a : Nat} (ha : l.owned a = none) :
    m.packets.derefPtr (some a) = .error .useAfterFree := by
  show m.packets.deref a = _
  unfold Heap.deref
  cases hc : m.packets.cells a with
  | none => rfl
  | some p =>
      obtain ⟨text, howned, -⟩ := B.live a p hc
      rw [ha] at howned
      cases howned

/-- All bytes of an object. -/
theorem readBytes_length (bytes : List UInt8) : readBytes bytes bytes.length = .ok bytes := by
  simp [readBytes]

/-! ## The calls -/

theorem Backed.recv_agree (B : Backed m l) (dev : UdpDevice) (datagram : Option (List UInt8)) :
    Agree Backed (udpRecv m dev datagram) (.ok (ledgerRecv l datagram)) := by
  cases datagram with
  | none => exact .ok B none
  | some text =>
      unfold udpRecv ledgerRecv packetIn
      cases hbytes : text.take initBufSize with
      | nil => simpa [hbytes, Option.filter] using Agree.ok B (none : Ptr)
      | cons c rest =>
          simp only [hbytes, Option.map_some, List.length_cons, Nat.add_one_ne_zero, if_false, B.next]
          have h := B.accept (c :: rest)
          exact .ok h (some l.next)

theorem Backed.send_agree (B : Backed m l) (dev : UdpDevice) (pkt : Ptr) (n : Int) :
    Agree Backed (udpSend m dev pkt n) (ledgerSend l dev pkt n) := by
  cases pkt with
  | none => exact .fault .nullDeref
  | some a =>
      unfold udpSend ledgerSend
      cases ha : l.owned a with
      | none =>
          rw [B.derefPtr_none ha, Ledger.look_none ha]
          exact .fault .useAfterFree
      | some bytes =>
          obtain ⟨p, hp, hbytes, hsize⟩ := B.live_of_owned ha
          have B' := B.call ⟨dev.addr, bytes, n⟩
          obtain ⟨m', hdelete, B''⟩ := B'.delete hp
          have hderef : m.packets.derefPtr (some a) = .ok p := Heap.deref_eq hp
          rw [hderef, ok_bind, Heap.deref_eq hbytes, ok_bind, hsize, readBytes_length, ok_bind, Ledger.look_some ha,
            ok_bind]
          rcases lt_trichotomy n 0 with hneg | rfl | hpos
          · simp only [if_pos hneg, if_neg (not_lt_of_gt hneg)]
            exact .ok B' n
          · simp only [lt_irrefl, if_false, if_true]
            exact .ok B' 0
          · simp only [if_pos hpos, if_neg (not_lt_of_gt hpos), if_neg hpos.ne', hdelete]
            exact .ok B'' n

theorem Backed.drop_agree (B : Backed m l) (dev : UdpDevice) (pkt : Ptr) :
    Agree Backed (udpDrop m dev pkt >>= fun m => .ok (m, UdpAnswer.dropped))
      (ledgerDrop l pkt >>= fun l => .ok (l, UdpAnswer.dropped)) := by
  cases pkt with
  | none => exact .fault .nullDeref
  | some a =>
      unfold udpDrop ledgerDrop
      cases ha : l.owned a with
      | none =>
          unfold deletePacket
          rw [B.derefPtr_none ha, Ledger.look_none ha]
          exact .fault .useAfterFree
      | some bytes =>
          obtain ⟨p, hp, -⟩ := B.live_of_owned ha
          obtain ⟨m', hdelete, B'⟩ := B.delete hp
          rw [hdelete, Ledger.look_some ha]
          exact .ok B' _

/-- One call. -/
theorem Backed.step_agree (B : Backed m l) (op : UdpOp) : Agree Backed (udpStep m op) (ledgerStep l op) := by
  cases op with
  | recv dev datagram =>
      show Agree Backed (udpRecv m dev datagram >>= _) (Except.ok (ledgerRecv l datagram) >>= fun r =>
        .ok (r.1, UdpAnswer.received r.2))
      apply (B.recv_agree dev datagram).bind
      intro m' l' pkt B'
      exact .ok B' _
  | send dev pkt n =>
      apply (B.send_agree dev pkt n).bind
      intro m' l' k B'
      exact .ok B' _
  | drop dev pkt => exact B.drop_agree dev pkt

/-- **The memory accounts for the ledger on every run**, whatever is called: the same answers, a fault exactly where
    something is done to a packet that is not at hand, and in the end the packets at hand with their bytes are all that is
    allocated. -/
theorem udp_is_ledger (ops : List UdpOp) :
    Agree Backed (runAll udpStep UdpMemory.start ops) (runAll ledgerStep Ledger.start ops) :=
  runAll_agree (fun _ _ op B => B.step_agree op) ops _ _ backed_start

end

/-! ## A program that sends on what it receives -/

/-- A device over the memory and one over the ledger. -/
theorem vtbl_agree : VtblAgree Backed udpVtbl ledgerVtbl where
  recv := fun _ _ dev datagram B => B.recv_agree dev datagram
  packet := rfl
  send := fun _ _ dev pkt n B => B.send_agree dev (some pkt) n

/-- The packet was received, and its sending failed or sent nothing. -/
def Unsent (a : Nat) (o : Hopped UdpDevice Ptr) : Prop := o.received = some a ∧ ∃ n ≤ 0, o.sent = some n

section
variable (route : UdpDevice → UdpDevice) {l : Ledger}

/-- The packets at hand have names that were given. -/
def Ledger.Named (l : Ledger) : Prop := ∀ a, l.next ≤ a → l.owned a = none

/-- What is handed to `sendto` for a packet that is sent on. -/
def callsOf (h : Hop UdpDevice (Option (List UInt8)) Int) : List Sendto :=
  (packetIn h.answers.recv).toList.map fun bytes => ⟨(route h.src).addr, bytes, h.answers.send⟩

/-- One packet, over the ledger. -/
theorem ledger_hop (hl : l.Named) (h : Hop UdpDevice (Option (List UInt8)) Int) :
    ∃ l' o, hop ledgerVtbl route l h = .ok (l', o) ∧ l'.Named ∧ l'.calls = l.calls ++ callsOf route h ∧
      ∀ a, l'.owned a ≠ none ↔ l.owned a ≠ none ∨ Unsent a o := by
  unfold hop callsOf
  cases hpkt : packetIn h.answers.recv with
  | none =>
      have hrecv : ledgerRecv l h.answers.recv = (l, none) := by simp only [ledgerRecv, hpkt]
      have hhop : forward ledgerVtbl l h.src (route h.src) h.answers = .ok (l, ⟨h.src, none, none⟩) :=
        forward_none (congrArg Except.ok hrecv) rfl
      exact ⟨l, _, hhop, hl, by simp, fun a => by simp [Unsent]⟩
  | some bytes =>
      have hrecv : ledgerRecv l h.answers.recv = (l.accept bytes, some l.next) := by simp only [ledgerRecv, hpkt]
      -- the new packet is at hand, and the only one with its name
      have hself : (l.accept bytes).owned l.next = some bytes := Function.update_self ..
      have hother : ∀ a, a ≠ l.next → (l.accept bytes).owned a = l.owned a := fun a ha => Function.update_of_ne ha ..
      have hnext : l.owned l.next = none := hl _ (Nat.le_refl _)
      generalize hl₁ : ({ l.accept bytes with
        calls := l.calls ++ [⟨(route h.src).addr, bytes, h.answers.send⟩] } : Ledger) = l₁
      have howned : ∀ a, l₁.owned a = (l.accept bytes).owned a := fun a => by rw [← hl₁]
      have hsend : ledgerVtbl.send (l.accept bytes) (route h.src) l.next h.answers.send =
          .ok (if 0 < h.answers.send then l₁.release (some l.next) else l₁, h.answers.send) := by
        show ledgerSend _ _ _ _ = _
        rw [ledgerSend, Ledger.look_some hself, ← hl₁]
        rfl
      have hnamed : ∀ a, l.next + 1 ≤ a → l₁.owned a = none := by
        intro a ha
        rw [howned, hother a (by omega), hl a (by omega)]
      refine ⟨_, _, forward_some (congrArg Except.ok hrecv) rfl hsend, ?_⟩
      by_cases hpos : 0 < h.answers.send
      · rw [if_pos hpos]
        have hreleased : ∀ a, (l₁.release (some l.next)).owned a = l.owned a := by
          intro a
          show Function.update l₁.owned l.next none a = _
          by_cases ha : a = l.next
          · rw [ha, Function.update_self, hnext]
          · rw [Function.update_of_ne ha, howned, hother a ha]
        refine ⟨fun a ha => ?_, by rw [← hl₁]; rfl, fun a => ?_⟩
        · rw [hreleased]
          rw [← hl₁] at ha
          exact hl a (Nat.le_of_succ_le ha)
        · rw [hreleased]
          simp [Unsent, hpos]
      · rw [if_neg hpos]
        refine ⟨fun a ha => ?_, by rw [← hl₁]; rfl, fun a => ?_⟩
        · rw [← hl₁] at ha
          exact hnamed a ha
        · rw [howned]
          by_cases ha : a = l.next
          · rw [ha, hself]
            simp [Unsent, not_lt.mp hpos]
          · rw [hother a ha]
            simp [Unsent, Ne.symm ha]

/-- A run over the ledger. -/
theorem ledger_run : ∀ (hops : List (Hop UdpDevice (Option (List UInt8)) Int)) (l : Ledger), l.Named →
    ∃ l' outs, runAll (hop ledgerVtbl route) l hops = .ok (l', outs) ∧
      l'.calls = l.calls ++ hops.flatMap (callsOf route) ∧
      ∀ a, l'.owned a ≠ none ↔ l.owned a ≠ none ∨ ∃ o ∈ outs, Unsent a o := by
  intro hops
  induction hops with
  | nil => exact fun l _ => ⟨l, [], rfl, by simp, by simp⟩
  | cons h hops ih =>
      intro l hl
      obtain ⟨l₁, o, hstep, hl₁, hcalls, howned⟩ := ledger_hop route hl h
      obtain ⟨l', outs, hrun, hcalls', howned'⟩ := ih l₁ hl₁
      refine ⟨l', o :: outs, by rw [runAll_cons_ok hstep, hrun]; rfl, ?_, fun a => ?_⟩
      · rw [hcalls', hcalls, List.append_assoc, List.flatMap_cons]
      · rw [howned', howned, or_assoc, List.exists_mem_cons_iff]

/-- **What a program that only passes packets on leaves behind.** It receives from UDP devices and sends on others, in any
    order, and looks at no result. It is always defined. Each datagram that is not empty is handed to `sendto` once, up to
    the size of the buffer, in the order of arrival; and the packets whose sending did not succeed are exactly those that
    are still allocated, each with its bytes. -/
theorem udp_relay_leaks (hops : List (Hop UdpDevice (Option (List UInt8)) Int)) :
    ∃ m outs, runAll (hop udpVtbl route) UdpMemory.start hops = .ok (m, outs) ∧
      m.calls = hops.flatMap (callsOf route) ∧
      (∀ a, m.packets.cells a ≠ none ↔ ∃ o ∈ outs, Unsent a o) ∧
      ∀ d, m.data.cells d ≠ none ↔ ∃ a p, m.packets.cells a = some p ∧ p.data = d := by
  obtain ⟨l, outs, hrun, hcalls, howned⟩ := ledger_run route hops Ledger.start (fun _ _ => rfl)
  have hagree := runAll_agree (fun _ _ h B => vtbl_agree.hop_agree route B h) hops _ _ backed_start
  rw [hrun] at hagree
  obtain ⟨m, hm, B⟩ := hagree.symm.of_ok
  refine ⟨m, outs, hm, by rw [B.calls, hcalls]; rfl, fun a => ?_, fun d => ⟨fun hd => ?_, ?_⟩⟩
  · have hlive : m.packets.cells a ≠ none ↔ l.owned a ≠ none := by
      constructor
      · intro ha
        obtain ⟨p, hp⟩ := Option.ne_none_iff_exists'.mp ha
        obtain ⟨bytes, hbytes, -⟩ := B.live a p hp
        simp [hbytes]
      · exact fun ha hdead => ha (B.dead a hdead)
    rw [hlive, howned]
    simp [Ledger.start]
  · obtain ⟨bytes, hbytes⟩ := Option.ne_none_iff_exists'.mp hd
    exact B.used d bytes hbytes
  · rintro ⟨a, p, ha, rfl⟩
    obtain ⟨bytes, -, hbytes, -⟩ := B.live a p ha
    simp [hbytes]

end

end Udp
end Flowpath
end Freeflow
