import Freeflow.Flowpath.Correctness.WirePorts

/-!
# `Flowpath.Correctness.Forwarding` — when the wire forwards across

`wire_insert` ignores the result of `wire_route` and sends through whatever `fp_dataplane_get_port` finds, so nothing is
ever dropped: `wireInsert_ne_nil`. `forwards_iff` says that a packet is treated as a wire treats it exactly when the wire
is fully configured, with ends of different ids, and the packet arrives at one of them.
-/

namespace Freeflow
namespace Flowpath
namespace Dataplane

variable {ν D Pkt : Type} (heap : Heap (Port D))

/-- The slots hold the ports `p` and `q`, in this order. -/
def Ends (w : Wire) (p q : Port D) : Prop :=
  ∃ a b, w.port0 = some a ∧ w.port1 = some b ∧ heap.cells a = some p ∧ heap.cells b = some q

/-- The port `q` is the end across from the end with the id `id`. -/
def Across (w : Wire) (id : PortId) (q : Port D) : Prop :=
  ∃ p, (Ends heap w p q ∨ Ends heap w q p) ∧ p.id ≠ q.id ∧ p.id = id

/-- **Every port in a slot is registered under its id**: the lookup gives a port in a slot with this id. -/
def Registered (dp : Dataplane ν Wire) (w : Wire) : Prop :=
  ∀ a, w.Holds a → ∃ p, heap.cells a = some p ∧
    ∃ b q, dp.getPort p.id = .ok (some b) ∧ w.Holds b ∧ heap.cells b = some q ∧ q.id = p.id

/-- **The wire forwards across**: a packet that arrives at an end goes to the other one, and any other is dropped. -/
def ForwardsAcross (dp : Dataplane ν Wire) (w : Wire) (pkt : Pkt) (arr : Arrival) (raw : PortId) : Prop :=
  (∀ q, Across heap w arr.inPort q → wireInsert heap dp pkt arr raw = .ok [⟨q.device, pkt⟩]) ∧
  ((¬ ∃ q, Across heap w arr.inPort q) → wireInsert heap dp pkt arr raw = .ok [])

variable {heap} {dp : Dataplane ν Wire} {w : Wire} {t : PtrTable} {p q : Port D}

/-- Nothing is dropped: an insertion that returns has sent. -/
theorem wireInsert_ne_nil (pkt : Pkt) (arr : Arrival) (raw : PortId) : wireInsert heap dp pkt arr raw ≠ .ok [] := by
  intro h
  obtain ⟨pl, -, h⟩ := bind_eq_ok h
  obtain ⟨⟨cxt, err⟩, -, h⟩ := bind_eq_ok h
  obtain ⟨sent, -, h⟩ := bind_eq_ok h
  cases h

/-! ## Routing between two ends -/

/-- A packet from the first end is routed to the second. -/
theorem wireRoute_first (h : Ends heap w p q) {cxt : Context Pkt} (hin : p.id = cxt.inPort) :
    wireRoute heap w cxt = .ok ({ cxt with outPort := q.id }, fpOk) := by
  obtain ⟨a, b, h0, h1, hp, hq⟩ := h
  unfold wireRoute
  rw [if_neg (by simp [h0, h1]), h0, h1]
  show (heap.deref a >>= _) = _
  rw [Heap.deref_eq hp, ok_bind, if_pos hin.symm]
  show (heap.deref b >>= _) = _
  rw [Heap.deref_eq hq]
  rfl

/-- A packet from elsewhere is routed to the first end. -/
theorem wireRoute_other (h : Ends heap w p q) {cxt : Context Pkt} (hin : p.id ≠ cxt.inPort) :
    wireRoute heap w cxt = .ok ({ cxt with outPort := p.id }, fpOk) := by
  obtain ⟨a, b, h0, h1, hp, hq⟩ := h
  unfold wireRoute
  rw [if_neg (by simp [h0, h1]), h0]
  show (heap.deref a >>= _) = _
  rw [Heap.deref_eq hp, ok_bind, if_neg (fun h => hin h.symm)]
  rfl

/-- A port in a slot is one of the two ends. -/
theorem Ends.eq_or (h : Ends heap w p q) {b : Nat} {r : Port D} (hb : w.Holds b) (hr : heap.cells b = some r) :
    r = p ∨ r = q := by
  obtain ⟨a, b', h0, h1, hp, hq⟩ := h
  rcases hb with hb | hb
  · rw [h0] at hb
    cases hb
    rw [hp] at hr
    cases hr
    exact Or.inl rfl
  · rw [h1] at hb
    cases hb
    rw [hq] at hr
    cases hr
    exact Or.inr rfl

theorem Ends.holds (h : Ends heap w p q) :
    (∃ a, w.Holds a ∧ heap.cells a = some p) ∧ ∃ b, w.Holds b ∧ heap.cells b = some q := by
  obtain ⟨a, b, h0, h1, hp, hq⟩ := h
  exact ⟨⟨a, Or.inl h0, hp⟩, ⟨b, Or.inr h1, hq⟩⟩

/-- **What is routed to an end is sent on the device of this end**, if its id is not the other's. -/
theorem wireEgress_end (R : Registered heap dp w) {a : Nat} (ha : w.Holds a) (hq : heap.cells a = some q)
    (honly : ∀ b r, w.Holds b → heap.cells b = some r → r.id = q.id → r = q) {cxt : Context Pkt}
    (hout : cxt.outPort = q.id) : wireEgress heap dp cxt = .ok ⟨q.device, cxt.packet⟩ := by
  obtain ⟨q', hq', b, r, hget, hb, hr, hid⟩ := R a ha
  rw [hq] at hq'
  cases hq'
  have heq := honly b r hb hr hid
  subst heq
  unfold wireEgress
  rw [hout, hget, ok_bind]
  show (heap.deref b >>= _) = _
  rw [Heap.deref_eq hr]
  rfl

/-- A packet that was routed is sent by the egress. -/
theorem wireInsert_eq {pkt : Pkt} {arr : Arrival} {raw : PortId} {cxt : Context Pkt} {err : Int} {sent : Send D Pkt}
    (W : Wired dp w t) (hroute : wireRoute heap w (contextCreate pkt arr raw) = .ok (cxt, err))
    (hegress : wireEgress heap dp cxt = .ok sent) : wireInsert heap dp pkt arr raw = .ok [sent] := by
  have hobject : w.pipeline.object = w := rfl
  unfold wireInsert
  rw [W.derefPipeline_eq, ok_bind]
  simp only [hobject, hroute, ok_bind, hegress]
  rfl

/-- **Between two ends of different ids the wire forwards across.** -/
theorem wireInsert_across (W : Wired dp w t) (R : Registered heap dp w) (pkt : Pkt) (arr : Arrival) (raw : PortId)
    (h : Across heap w arr.inPort q) : wireInsert heap dp pkt arr raw = .ok [⟨q.device, pkt⟩] := by
  obtain ⟨p, hends, hne, hin⟩ := h
  -- the id is not the other end's, so the lookup cannot give the port the packet came from
  have honly : ∀ b r, w.Holds b → heap.cells b = some r → r.id = q.id → r = q := by
    intro b r hb hr hid
    rcases hends with hends | hends
    · rcases hends.eq_or hb hr with rfl | heq
      · exact absurd hid hne
      · exact heq
    · rcases hends.eq_or hb hr with heq | rfl
      · exact heq
      · exact absurd hid hne
  rcases hends with hends | hends
  · obtain ⟨-, b, hb, hq⟩ := hends.holds
    exact wireInsert_eq W (wireRoute_first hends hin) (wireEgress_end R hb hq honly rfl)
  · obtain ⟨⟨b, hb, hq⟩, -⟩ := hends.holds
    have hother : q.id ≠ arr.inPort := fun h => hne (hin.trans h.symm)
    exact wireInsert_eq W (wireRoute_other hends hother) (wireEgress_end R hb hq honly rfl)

/-- **The wire forwards across exactly when there is an end across**: both slots hold ports, their ids differ, and the
    packet arrives at one of them. -/
theorem forwards_iff (W : Wired dp w t) (R : Registered heap dp w) (pkt : Pkt) (arr : Arrival) (raw : PortId) :
    ForwardsAcross heap dp w pkt arr raw ↔ ∃ q, Across heap w arr.inPort q := by
  constructor
  · rintro ⟨-, hdrop⟩
    by_contra hnone
    exact wireInsert_ne_nil pkt arr raw (hdrop hnone)
  · intro hacross
    exact ⟨fun q hq => wireInsert_across W R pkt arr raw hq, fun hnone => absurd hacross hnone⟩

/-- Two ports were added to an empty wire; a packet arrives at the first. -/
theorem forwards_two : ∃ dp os,
    runAll (step twoPorts) emptyWire [.addPort (some 0), .addPort (some 1)] = .ok (dp, os) ∧
      (ForwardsAcross twoPorts dp ⟨some 0, some 1⟩ () ⟨1, 1, 0⟩ 0 ↔
        ∃ q, Across twoPorts ⟨some 0, some 1⟩ 1 q) := by
  have hrun : (runAll (step twoPorts) emptyWire [.addPort (some 0), .addPort (some 1)] >>= fun r =>
      r.1.getPort 1 >>= fun first => (r.1.getPort 2).map (fun second => (first, second)))
        = .ok (some 0, some 1) := by
    decide +kernel
  obtain ⟨⟨dp, os⟩, h, hget⟩ := bind_eq_ok hrun
  obtain ⟨first, hfirst, hget⟩ := bind_eq_ok hget
  obtain ⟨second, hsecond, hseen⟩ := map_eq_ok hget
  cases hseen
  obtain ⟨t, W, -⟩ := wired_of_two h
  refine ⟨dp, os, h, forwards_iff W ?_ () ⟨1, 1, 0⟩ 0⟩
  rintro a (ha | ha)
  · cases ha
    exact ⟨⟨1, 5000⟩, rfl, 0, ⟨1, 5000⟩, hfirst, Or.inl rfl, rfl, rfl⟩
  · cases ha
    exact ⟨⟨2, 5001⟩, rfl, 1, ⟨2, 5001⟩, hsecond, Or.inr rfl, rfl, rfl⟩

/-- A packet is inserted into a wire without ports: the port looked up for it is null, and it is sent through. -/
theorem unconfigured_derefs_null : Registered twoPorts emptyWire Wire.load ∧
    wireInsert twoPorts emptyWire () ⟨1, 1, 0⟩ 0 = .error .nullDeref ∧
    ¬ ForwardsAcross twoPorts emptyWire Wire.load () ⟨1, 1, 0⟩ 0 := by
  have hfault : wireInsert twoPorts emptyWire () ⟨1, 1, 0⟩ 0 = .error .nullDeref := by decide +kernel
  refine ⟨?_, hfault, ?_⟩
  · rintro a (ha | ha)
    · cases ha
    · cases ha
  · rintro ⟨-, hdrop⟩
    have hnone : ¬ ∃ q, Across twoPorts Wire.load 1 q := by
      rintro ⟨q, p, (⟨a, b, h0, -⟩ | ⟨a, b, h0, -⟩), -⟩
      · cases h0
      · cases h0
    rw [hdrop hnone] at hfault
    cases hfault

end Dataplane
end Flowpath
end Freeflow
