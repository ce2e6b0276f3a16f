import Freeflow.Flowpath.Correctness.DataplaneSteps

/-!
# `Flowpath.Correctness.ActiveWire` — when an active wire has two ends

`wire_start` looks at the slots, and nobody looks again: once the data plane is up, `fp_dataplane_stop` leaves it up,
and a removal empties a slot. `active_wire_iff` says which runs keep the promise that an active wire has two end points.
Its guard is read off the calls: a start may not find one port in both slots, and a removal while the wire is up may
not find its port there.
-/

namespace Freeflow
namespace Flowpath
namespace Dataplane

variable {ν D : Type} (heap : Heap (Port D))

/-- Both slots hold a port, and not the same one. -/
def TwoEnds (w : Wire) : Prop := ∃ a b, w.port0 = some a ∧ w.port1 = some b ∧ a ≠ b

/-- **An active wire has two ends.** -/
def ActiveHasTwoEnds (dp : Dataplane ν Wire) : Prop :=
  dp.isUp = true → ∃ w, dp.wireOf = some w ∧ TwoEnds w

/-- The call does not break the promise: a start that takes the data plane up does not find one port in both slots, and
    while the data plane is up the port to be removed is in no slot. -/
def KeepsEnds (dp : Dataplane ν Wire) : Call → Prop
  | .start => dp.isUp = false → ∀ w a, dp.wireOf = some w → ¬ (w.port0 = some a ∧ w.port1 = some a)
  | .removePort port => dp.isUp = true → ∀ w, dp.wireOf = some w → w.port0 ≠ port ∧ w.port1 ≠ port
  | .addPort _ | .stop => True

variable {heap} {dp dp' : Dataplane ν Wire} {w : Wire} {t : PtrTable}

/-- A wire starts exactly when both slots hold a port. -/
theorem wire_start_ok_iff : w.start.2 = fpOk ↔ w.port0 ≠ none ∧ w.port1 ≠ none := by
  unfold Wire.start
  by_cases h : w.port0 = none ∨ w.port1 = none
  · rw [if_pos h]
    exact ⟨fun hc => absurd hc (by simp [fpError, fpOk]), fun hc => (h.elim hc.1 hc.2).elim⟩
  · rw [if_neg h]
    exact ⟨fun _ => not_or.mp h, fun _ => rfl⟩

/-- Between two ends there is no room for a third port. -/
theorem TwoEnds.addPort_eq (h : TwoEnds w) (p : Ptr) : (w.addPort p).1 = w := by
  obtain ⟨a, b, h0, h1, -⟩ := h
  unfold Wire.addPort
  rw [if_neg (by rw [h0]; simp), if_neg (by rw [h1]; simp)]

/-- Removing one of two ends leaves fewer. -/
theorem not_twoEnds_delPort {port : Ptr} (h : TwoEnds w) (hport : w.port0 = port ∨ w.port1 = port) :
    ¬ TwoEnds (w.delPort port).1 := by
  obtain ⟨a, b, h0, h1, -⟩ := h
  rintro ⟨a', b', h0', h1', -⟩
  unfold Wire.delPort at h0' h1'
  by_cases hp0 : w.port0 = port
  · rw [if_pos hp0] at h0'
    cases h0'
  · rw [if_neg hp0, if_pos (hport.resolve_left hp0)] at h1'
    cases h1'

theorem delPort_eq_of_ne {port : Ptr} (h : w.port0 ≠ port ∧ w.port1 ≠ port) : (w.delPort port).1 = w := by
  unfold Wire.delPort
  rw [if_neg h.1, if_neg h.2]

/-- **The invariant of the runs**: the data plane runs the wire, and keeps the promise. -/
def SoundWire (dp : Dataplane ν Wire) : Prop := (∃ w t, Wired dp w t) ∧ ActiveHasTwoEnds dp

/-- The promise, for a data plane whose wire is known. -/
theorem Wired.active_iff (W : Wired dp w t) : ActiveHasTwoEnds dp ↔ (dp.isUp = true → TwoEnds w) := by
  constructor
  · intro h hup
    obtain ⟨w', hw', hends⟩ := h hup
    obtain rfl := W.eq_of_wireOf hw'
    exact hends
  · intro h hup
    exact ⟨w, W.wireOf_eq, h hup⟩

/-- **One call keeps the promise exactly when it is guarded.** -/
theorem step_active_iff {c : Call} {err : Int} (hs : SoundWire dp) (h : dp.step heap c = .ok (dp', err)) :
    (∃ w t, Wired dp' w t) ∧ (ActiveHasTwoEnds dp' ↔ KeepsEnds dp c) := by
  obtain ⟨⟨w, t, W⟩, hactive⟩ := hs
  have hends := W.active_iff.mp hactive
  cases c with
  | addPort port =>
      obtain ⟨a, p, t', chain, rfl, -, -, W', -, hup⟩ := W.addPort_cases h
      refine ⟨⟨_, _, W'⟩, ?_⟩
      rw [W'.active_iff, hup]
      refine iff_of_true (fun hu => ?_) trivial
      rw [(hends hu).addPort_eq]
      exact hends hu
  | removePort port =>
      obtain ⟨W', -, hup⟩ := W.removePort_cases h
      refine ⟨⟨_, _, W'⟩, ?_⟩
      rw [W'.active_iff, hup]
      constructor
      · intro hkept hu w' hw'
        obtain rfl := W.eq_of_wireOf hw'
        constructor
        · exact fun h0 => not_twoEnds_delPort (hends hu) (Or.inl h0) (hkept hu)
        · exact fun h1 => not_twoEnds_delPort (hends hu) (Or.inr h1) (hkept hu)
      · intro hguard hu
        rw [delPort_eq_of_ne (hguard hu w W.wireOf_eq)]
        exact hends hu
  | start =>
      obtain ⟨W', herr, hup⟩ := W.start_cases h
      refine ⟨⟨_, _, W'⟩, ?_⟩
      rw [W'.active_iff, hup]
      rcases herr with ⟨hu, rfl⟩ | ⟨hdown, rfl⟩
      · exact iff_of_true (fun _ => hends hu) (fun hd => absurd hu (by rw [hd]; decide))
      · rw [hdown, Bool.or_false, decide_eq_true_iff, wire_start_ok_iff]
        constructor
        · rintro hkept - w' a hw' ⟨h0, h1⟩
          obtain rfl := W.eq_of_wireOf hw'
          obtain ⟨a', b', h0', h1', hne⟩ := hkept ⟨by rw [h0]; simp, by rw [h1]; simp⟩
          rw [h0] at h0'
          rw [h1] at h1'
          cases h0'
          cases h1'
          exact hne rfl
        · rintro hguard ⟨h0, h1⟩
          obtain ⟨a, ha⟩ := Option.ne_none_iff_exists'.mp h0
          obtain ⟨b, hb⟩ := Option.ne_none_iff_exists'.mp h1
          refine ⟨a, b, ha, hb, ?_⟩
          rintro rfl
          exact hguard hdown w a W.wireOf_eq ⟨ha, hb⟩
  | stop =>
      obtain ⟨W', hup⟩ := W.stop_cases h
      refine ⟨⟨_, _, W'⟩, ?_⟩
      rw [W'.active_iff, hup]
      exact iff_of_true hends trivial

/-- **Active wires have two ends exactly in the guarded runs**, from any data plane with an empty wire that is down. -/
theorem active_wire_iff (W : Wired dp Wire.load t) (hdown : dp.isUp = false) (calls : List Call) :
    (∀ n dp' os, runAll (step heap) dp (calls.take n) = .ok (dp', os) → ActiveHasTwoEnds dp') ↔
      Guarded (step heap) (fun dp c => (∃ r, dp.step heap c = .ok r) → KeepsEnds dp c) dp calls := by
  refine runAll_good_iff SoundWire ActiveHasTwoEnds (fun dp hs => hs.2) ?_ ?_ calls dp
    ⟨⟨_, _, W⟩, fun hup => absurd hup (by rw [hdown]; decide)⟩
  · intro dp c dp' err hs h hguard
    have hiff := step_active_iff hs h
    exact ⟨hiff.1, hiff.2.mpr hguard⟩
  · intro dp c dp' err hs h hgood
    exact (step_active_iff hs h).2.mp hgood

/-- Two ports, a start and a stop, which leaves the wire up. -/
theorem active_wire_two_ports :
    (∀ n dp' os, runAll (step twoPorts) emptyWire ([.addPort (some 0), .addPort (some 1), .start, .stop].take n)
        = .ok (dp', os) → ActiveHasTwoEnds dp') ↔
      Guarded (step twoPorts) (fun dp c => (∃ r, dp.step twoPorts c = .ok r) → KeepsEnds dp c) emptyWire
        [.addPort (some 0), .addPort (some 1), .start, .stop] :=
  active_wire_iff emptyWire_wired rfl _

/-- A port is removed from a wire that is up: the wire stays up with one end. -/
theorem remove_leaves_one_end : ∃ dp' os,
    runAll (step twoPorts) emptyWire [.addPort (some 0), .addPort (some 1), .start, .removePort (some 0)]
      = .ok (dp', os) ∧ ¬ ActiveHasTwoEnds dp' := by
  have hrun : (runAll (step twoPorts) emptyWire
      [.addPort (some 0), .addPort (some 1), .start, .removePort (some 0)]).map
        (fun r => (r.1.isUp, r.1.wireOf)) = .ok (true, some ⟨none, some 1⟩) := by
    decide +kernel
  obtain ⟨⟨dp', os⟩, h, hseen⟩ := map_eq_ok hrun
  refine ⟨dp', os, h, fun hactive => ?_⟩
  simp only [Prod.mk.injEq] at hseen
  obtain ⟨w, hw, a, b, h0, -⟩ := hactive hseen.1
  rw [hseen.2] at hw
  cases hw
  cases h0

end Dataplane
end Flowpath
end Freeflow
