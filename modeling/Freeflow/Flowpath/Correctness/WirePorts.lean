import Freeflow.Flowpath.Correctness.DataplaneSteps
import Freeflow.Flowpath.Correctness.HashSafety

/-!
# `Flowpath.Correctness.WirePorts` — the port table beside the wire's slots

A data plane with a wire keeps its ports twice: in the table that `fp_dataplane_get_port` searches, and in the slots that
the pipeline looks at. An addition goes to the table first and to the pipeline second; a removal goes to the pipeline
only. `ports_agree_iff` says in which runs the two agree, and `failure_harmless_iff` which failed calls change nothing.
-/

namespace Freeflow
namespace Flowpath

/-! ## The slots -/

namespace Wire

variable {w : Wire} {a b : Nat}

/-- One of the two slots holds the port at `a`. -/
def Holds (w : Wire) (a : Nat) : Prop := w.port0 = some a ∨ w.port1 = some a

/-- Both slots hold the port at `a`. -/
def HoldsTwice (w : Wire) (a : Nat) : Prop := w.port0 = some a ∧ w.port1 = some a

/-- There is room for a port. -/
def HasRoom (w : Wire) : Prop := w.port0 = none ∨ w.port1 = none

theorem addPort_ok_iff (p : Ptr) : (w.addPort p).2 = fpOk ↔ w.HasRoom := by
  unfold addPort HasRoom
  by_cases h0 : w.port0 = none
  · simp [h0]
  · by_cases h1 : w.port1 = none
    · simp [h0, h1]
    · simp [h0, h1, fpError, fpOk]

/-- A port that was taken is in a slot, beside those that were there. -/
theorem holds_addPort (h : w.HasRoom) : (w.addPort (some a)).1.Holds b ↔ w.Holds b ∨ b = a := by
  unfold addPort Holds
  by_cases h0 : w.port0 = none
  · rw [if_pos h0, h0]
    simp only [Option.some.injEq, reduceCtorEq, false_or]
    exact or_comm.trans (or_congr Iff.rfl eq_comm)
  · rw [if_neg h0, if_pos (h.resolve_left h0), h.resolve_left h0]
    simp only [Option.some.injEq, reduceCtorEq, or_false]
    exact or_congr Iff.rfl eq_comm

/-- A wire without room refuses the port. -/
theorem addPort_eq_of_not (h : ¬ w.HasRoom) (p : Ptr) : w.addPort p = (w, fpError) := by
  rw [HasRoom, not_or] at h
  unfold addPort
  rw [if_neg h.1, if_neg h.2]

/-- Removing a null pointer empties no slot. -/
theorem delPort_none : (w.delPort none).1 = w := by
  unfold delPort
  by_cases h0 : w.port0 = none
  · rw [if_pos h0, ← h0]
  · by_cases h1 : w.port1 = none
    · rw [if_neg h0, if_pos h1, ← h1]
    · rw [if_neg h0, if_neg h1]

/-- A port that was removed had a slot. -/
theorem holds_of_delPort_ok (h : (w.delPort (some a)).2 = fpOk) : w.Holds a := by
  unfold delPort at h
  by_cases h0 : w.port0 = some a
  · exact Or.inl h0
  · by_cases h1 : w.port1 = some a
    · exact Or.inr h1
    · rw [if_neg h0, if_neg h1] at h
      exact absurd h (by simp [fpError, fpOk])

/-- A removal empties one slot, so only a port that had both keeps one. -/
theorem holds_delPort : (w.delPort (some a)).1.Holds b ↔ w.Holds b ∧ (b = a → w.HoldsTwice a) := by
  unfold delPort Holds HoldsTwice
  by_cases h0 : w.port0 = some a
  · by_cases hb : b = a
    · simp [h0, hb]
    · have hne : ¬ a = b := fun h => hb h.symm
      simp [h0, hb, hne]
  · by_cases h1 : w.port1 = some a
    · by_cases hb : b = a
      · simp [h0, h1, hb]
      · have hne : ¬ a = b := fun h => hb h.symm
        simp [h0, h1, hb, hne]
    · by_cases hb : b = a
      · simp [h0, h1, hb]
      · simp [h0, h1, hb]

/-- A removal that failed changes nothing. -/
theorem delPort_eq_of_err {p : Ptr} (h : (w.delPort p).2 ≠ fpOk) : (w.delPort p).1 = w := by
  unfold delPort at h ⊢
  by_cases h0 : w.port0 = p
  · rw [if_pos h0] at h
    exact absurd rfl h
  · by_cases h1 : w.port1 = p
    · rw [if_neg h0, if_pos h1] at h
      exact absurd rfl h
    · rw [if_neg h0, if_neg h1]

end Wire

/-! ## The table -/

/-- **A port table**: its keys are compared as numbers, every entry is in its bucket, and no null pointer is stored. -/
structure PortTable (t : PtrTable) : Prop where
  placed : t.Placed
  hash_eq : t.hash = uintHash
  comp_eq : t.comp = uintEq
  values : ∀ e ∈ t.data.flatten, e.value ≠ none

/-- The table has an entry with the key `k`. -/
def HasKey (t : PtrTable) (k : Nat) : Prop := ∃ e ∈ t.data.flatten, e.key = k

theorem uintEq_iff (a b : Nat) : uintEq a b = true ↔ a = b := by
  unfold uintEq
  exact beq_iff_eq

/-- The table that `fp_dataplane_create` makes. -/
theorem newTable_portTable : PortTable (ChainedHashTable.new 17 uintHash uintEq) :=
  ⟨ChainedHashTable.newUint_placed, rfl, rfl, by decide⟩

/-- An insertion that grows the table safely adds one key. -/
theorem PortTable.insert {t t' : PtrTable} {k a : Nat} {c : List (HashEntry Nat Ptr)} (T : PortTable t)
    (hgrow : t.GrowsSafely (.insert k (some a))) (h : t.insert k (some a) = .ok (t', c)) :
    PortTable t' ∧ ∀ n, HasKey t' n ↔ HasKey t n ∨ n = k := by
  obtain ⟨t₁, c₁, h₁, I₁⟩ := ChainedHashTable.insertFuel_placed (primes.length + 1) t k (some a) T.placed
    (Nat.lt_succ_of_le (primesAbove_length_le t.buckets)) hgrow
  have I := of_exists_ok (P := fun r => ChainedHashTable.Inserted t k (some a) r.1) ⟨(t₁, c₁), h₁, I₁⟩ h
  have hmem : ∀ e, e ∈ t'.data.flatten ↔ e = ⟨k, some a⟩ ∨ e ∈ t.data.flatten := fun e => by
    rw [I.contents.mem_iff, List.mem_cons]
  refine ⟨⟨I.placed, I.hash.trans T.hash_eq, I.comp.trans T.comp_eq, fun e he => ?_⟩, fun n => ?_⟩
  · rcases (hmem e).mp he with rfl | he
    · simp
    · exact T.values e he
  · constructor
    · rintro ⟨e, he, rfl⟩
      rcases (hmem e).mp he with rfl | he
      · exact Or.inr rfl
      · exact Or.inl ⟨e, he, rfl⟩
    · rintro (⟨e, he, rfl⟩ | rfl)
      · exact ⟨e, (hmem e).mpr (Or.inr he), rfl⟩
      · exact ⟨⟨n, some a⟩, (hmem _).mpr (Or.inl rfl), rfl⟩

namespace Dataplane

variable {ν ω D : Type}

theorem getPort_of_nil {dp : Dataplane ν ω} {t : PtrTable} {id : PortId} (ht : dp.ports = .owned t)
    (h : t.find id.toNat = .ok []) : dp.getPort id = .ok none := by
  unfold getPort
  rw [ht, Owner.deref_owned, ok_bind, h]
  rfl

theorem getPort_of_cons {dp : Dataplane ν ω} {t : PtrTable} {id : PortId} {e : HashEntry Nat Ptr}
    {rest : List (HashEntry Nat Ptr)} (ht : dp.ports = .owned t) (h : t.find id.toNat = .ok (e :: rest)) :
    dp.getPort id = .ok e.value := by
  unfold getPort
  rw [ht, Owner.deref_owned, ok_bind, h]
  rfl

/-- **`fp_dataplane_get_port` returns a port exactly for the keys of the table.** -/
theorem getPort_iff {dp : Dataplane ν ω} {t : PtrTable} (T : PortTable t) (ht : dp.ports = .owned t) (id : PortId) :
    ∃ r, dp.getPort id = .ok r ∧ (r ≠ none ↔ HasKey t id.toNat) := by
  have hcong : ∀ a b, t.comp a b = true → t.hash a = t.hash b := by
    intro a b hab
    rw [T.comp_eq, uintEq_iff] at hab
    rw [hab]
  rcases T.placed.find_cases hcong id.toNat with ⟨hfind, hnone⟩ | ⟨e, rest, hfind, he, hk⟩
  · refine ⟨none, getPort_of_nil ht hfind, iff_of_false (fun h => h rfl) ?_⟩
    rintro ⟨e, he, hk⟩
    have hne := hnone e he
    rw [T.comp_eq, hk] at hne
    simp [uintEq] at hne
  · rw [T.comp_eq, uintEq_iff] at hk
    exact ⟨e.value, getPort_of_cons ht hfind, iff_of_true (T.values e he) ⟨e, he, hk⟩⟩

/-! ## Agreement -/

variable (heap : Heap (Port D))

/-- A port in one of the slots has this id. -/
def HeldId (w : Wire) (id : PortId) : Prop := ∃ a p, w.Holds a ∧ heap.cells a = some p ∧ p.id = id

/-- **The port table and the wire agree**: the ids that `fp_dataplane_get_port` knows are those of the ports in the
    slots. -/
def TableMatchesWire (dp : Dataplane ν Wire) : Prop :=
  ∀ id, ∃ r, dp.getPort id = .ok r ∧ (r ≠ none ↔ ∃ w, dp.wireOf = some w ∧ HeldId heap w id)

/-- The ports `named` have different ids. -/
def DistinctIds (named : Nat → Prop) : Prop :=
  ∀ a b p q, named a → named b → heap.cells a = some p → heap.cells b = some q → p.id = q.id → a = b

/-- The port at `a` is added by one of the calls. -/
def Added (calls : List Call) (a : Nat) : Prop := .addPort (some a) ∈ calls

/-- The call reports `FP_OK`. -/
def ReportsOk (dp : Dataplane ν Wire) (c : Call) : Prop := ∀ dp' err, dp.step heap c = .ok (dp', err) → err = fpOk

/-- If the call resizes the port table, the residues of the stored ids do not depend on the prime. -/
def GrowsSafely (dp : Dataplane ν Wire) (c : Call) : Prop :=
  ∀ a p t, c = .addPort (some a) → heap.cells a = some p → dp.ports = .owned t →
    t.GrowsSafely (.insert p.id.toNat (some a))

/-- A port is removed only if it is in both slots. -/
def RemovesTwin (dp : Dataplane ν Wire) (c : Call) : Prop :=
  ∀ a w, c = .removePort (some a) → dp.wireOf = some w → w.HoldsTwice a

/-- **The invariant of the runs**: the data plane runs the wire, keeps a port table, has only ports from `named` in its
    slots, and their ids are the keys of the table. -/
def Agreeing (named : Nat → Prop) (dp : Dataplane ν Wire) : Prop :=
  ∃ w t, Wired dp w t ∧ PortTable t ∧ (∀ a, w.Holds a → named a ∧ ∃ p, heap.cells a = some p) ∧
    ∀ id : PortId, HasKey t id.toNat ↔ HeldId heap w id

variable {heap} {named : Nat → Prop} {dp dp' : Dataplane ν Wire} {w w' : Wire} {t : PtrTable}

/-- The agreement, for a data plane whose wire and table are known. -/
theorem Wired.matches_iff (W : Wired dp w t) (T : PortTable t) :
    TableMatchesWire heap dp ↔ ∀ id : PortId, HasKey t id.toNat ↔ HeldId heap w id := by
  have hwire : ∀ id, (∃ w', dp.wireOf = some w' ∧ HeldId heap w' id) ↔ HeldId heap w id := by
    intro id
    rw [W.wireOf_eq]
    constructor
    · rintro ⟨w', hw', hheld⟩
      cases hw'
      exact hheld
    · exact fun hheld => ⟨w, rfl, hheld⟩
  apply forall_congr'
  intro id
  obtain ⟨r, hr, hkey⟩ := getPort_iff T W.ports id
  constructor
  · rintro ⟨r', hr', hiff⟩
    rw [hr] at hr'
    cases hr'
    exact hkey.symm.trans (hiff.trans (hwire id))
  · intro hiff
    exact ⟨r, hr, hkey.trans (hiff.trans (hwire id).symm)⟩

theorem Agreeing.matches (A : Agreeing heap named dp) : TableMatchesWire heap dp := by
  obtain ⟨w, t, W, T, -, hkeys⟩ := A
  exact (W.matches_iff T).mpr hkeys

/-- An addition that reports `FP_OK` brings the id into the table and the port into a slot. -/
theorem Agreeing.addPort {a : Nat} {err : Int} (A : Agreeing heap named dp) (hnamed : named a)
    (hgrow : GrowsSafely heap dp (.addPort (some a))) (h : dp.step heap (.addPort (some a)) = .ok (dp', err))
    (hok : err = fpOk) : Agreeing heap named dp' := by
  obtain ⟨w, t, W, T, hlive, hkeys⟩ := A
  obtain ⟨_, p, t', chain, hport, hp, hins, W', rfl, -⟩ := W.addPort_cases h
  cases hport
  have hroom := (Wire.addPort_ok_iff _).mp hok
  obtain ⟨T', hkeys'⟩ := T.insert (hgrow a p t rfl hp W.ports) hins
  refine ⟨_, _, W', T', fun b hb => ?_, fun id => ?_⟩
  · rcases (Wire.holds_addPort hroom).mp hb with hb | rfl
    · exact hlive b hb
    · exact ⟨hnamed, p, hp⟩
  · rw [hkeys', hkeys]
    constructor
    · rintro (⟨b, q, hb, hq, rfl⟩ | hid)
      · exact ⟨b, q, (Wire.holds_addPort hroom).mpr (Or.inl hb), hq, rfl⟩
      · exact ⟨a, p, (Wire.holds_addPort hroom).mpr (Or.inr rfl), hp, (UInt32.toNat_inj.mp hid).symm⟩
    · rintro ⟨b, q, hb, hq, rfl⟩
      rcases (Wire.holds_addPort hroom).mp hb with hb | rfl
      · exact Or.inl ⟨b, q, hb, hq, rfl⟩
      · rw [hp] at hq
        cases hq
        exact Or.inr rfl

/-- **A removal keeps the agreement exactly when the port was in both slots.** -/
theorem Agreeing.removePort {a : Nat} {err : Int} (A : Agreeing heap named dp) (hids : DistinctIds heap named)
    (h : dp.step heap (.removePort (some a)) = .ok (dp', err)) (hok : err = fpOk) :
    (RemovesTwin dp (.removePort (some a)) → Agreeing heap named dp') ∧
    (TableMatchesWire heap dp' → RemovesTwin dp (.removePort (some a))) := by
  obtain ⟨w, t, W, T, hlive, hkeys⟩ := A
  obtain ⟨W', rfl, -⟩ := W.removePort_cases h
  constructor
  · intro htwin
    have hsame : ∀ b, (w.delPort (some a)).1.Holds b ↔ w.Holds b := by
      intro b
      rw [Wire.holds_delPort]
      exact ⟨fun hb => hb.1, fun hb => ⟨hb, fun _ => htwin a w rfl W.wireOf_eq⟩⟩
    refine ⟨_, _, W', T, fun b hb => hlive b ((hsame b).mp hb), fun id => ?_⟩
    rw [hkeys]
    simp only [HeldId, hsame]
  · intro hmatch b w' hb hw'
    cases hb
    obtain rfl := W.eq_of_wireOf hw'
    -- the id stays in the table, so a port with this id is still in a slot, and it is the one removed
    have hheld := Wire.holds_of_delPort_ok hok
    obtain ⟨hnamed, p, hp⟩ := hlive a hheld
    have hkey : HasKey t p.id.toNat := (hkeys p.id).mpr ⟨a, p, hheld, hp, rfl⟩
    obtain ⟨b, q, hb, hq, hid⟩ := ((W'.matches_iff T).mp hmatch p.id).mp hkey
    obtain ⟨hbold, htwice⟩ := Wire.holds_delPort.mp hb
    exact htwice (hids b a q p (hlive b hbold).1 hnamed hq hp hid)

/-- A call that leaves wire and table alone keeps the agreement. -/
theorem Agreeing.of_same (A : Agreeing heap named dp) (hsame : ∀ w t, Wired dp w t → Wired dp' w t) :
    Agreeing heap named dp' := by
  obtain ⟨w, t, W, T, hlive, hkeys⟩ := A
  exact ⟨w, t, hsame w t W, T, hlive, hkeys⟩

/-- **One call keeps the agreement exactly when it is guarded.** -/
theorem step_agreeing {c : Call} {err : Int} (A : Agreeing heap named dp) (hids : DistinctIds heap named)
    (hnamed : ∀ a, c = .addPort (some a) → named a) (hgrow : GrowsSafely heap dp c)
    (h : dp.step heap c = .ok (dp', err)) (hok : err = fpOk) :
    (RemovesTwin dp c → Agreeing heap named dp') ∧ (TableMatchesWire heap dp' → RemovesTwin dp c) := by
  have hother : (∀ a, c ≠ .removePort (some a)) → RemovesTwin dp c := fun hne a w hc _ => absurd hc (hne a)
  cases c with
  | addPort port =>
      cases port with
      | none =>
          obtain ⟨p, hp, -⟩ := bind_eq_ok h
          cases hp
      | some a =>
          exact ⟨fun _ => A.addPort (hnamed a rfl) hgrow h hok, fun _ => hother (by simp)⟩
  | removePort port =>
      cases port with
      | none =>
          refine ⟨fun _ => A.of_same (fun w t W => ?_), fun _ => hother (by simp)⟩
          have W' := (W.removePort_cases h).1
          rwa [Wire.delPort_none] at W'
      | some a => exact A.removePort hids h hok
  | start => exact ⟨fun _ => A.of_same (fun w t W => (W.start_cases h).1), fun _ => hother (by simp)⟩
  | stop => exact ⟨fun _ => A.of_same (fun w t W => (W.stop_cases h).1), fun _ => hother (by simp)⟩

/-- **Table and wire agree exactly in the runs that remove a port only while it is in both slots**, from a data plane
    with an empty wire and a table without entries. The ports added have different ids, every call reports `FP_OK`, and
    the table grows safely. -/
theorem ports_agree_iff (W : Wired dp Wire.load t) (S : t.Shaped) (hhash : t.hash = uintHash)
    (hcomp : t.comp = uintEq) (hempty : t.data.flatten = []) (calls : List Call)
    (hids : DistinctIds heap (Added calls)) (hok : Guarded (step heap) (ReportsOk heap) dp calls)
    (hgrow : Guarded (step heap) (GrowsSafely heap) dp calls) :
    (∀ n dp' os, runAll (step heap) dp (calls.take n) = .ok (dp', os) → TableMatchesWire heap dp') ↔
      Guarded (step heap) (fun dp c => (∃ r, dp.step heap c = .ok r) → RemovesTwin dp c) dp calls := by
  have hnamed : Guarded (step heap) (fun _ c => ∀ a, c = .addPort (some a) → Added calls a) dp calls :=
    Guarded.of_mem calls dp (fun c hc _ a ha => by rw [ha] at hc; exact hc)
  have hstart : Agreeing heap (Added calls) dp := by
    refine ⟨_, _, W, ⟨S.placed_of_flatten_eq_nil hempty, hhash, hcomp, by simp [hempty]⟩, ?_, fun id => ?_⟩
    · rintro a (h0 | h1)
      · cases h0
      · cases h1
    · refine iff_of_false (by simp [HasKey, hempty]) ?_
      rintro ⟨a, p, h0 | h1, -⟩
      · cases h0
      · cases h1
  refine runAll_good_iff_of
    (fun dp c => (ReportsOk heap dp c ∧ GrowsSafely heap dp c) ∧ ∀ a, c = .addPort (some a) → Added calls a)
    (Agreeing heap (Added calls)) (TableMatchesWire heap) (fun dp A => A.matches) ?_ ?_ calls dp hstart
    ((hok.and hgrow).and hnamed)
  · rintro dp c dp' err A ⟨⟨hok, hgrow⟩, hadd⟩ h hguard
    exact (step_agreeing A hids hadd hgrow h (hok dp' err h)).1 hguard
  · rintro dp c dp' err A ⟨⟨hok, hgrow⟩, hadd⟩ h hgood
    exact (step_agreeing A hids hadd hgrow h (hok dp' err h)).2 hgood

/-- Ids below the least prime are their own residues, so with such ports the table always grows safely. -/
theorem growsSafely_of_small (hsmall : ∀ a p, heap.cells a = some p → p.id.toNat < 53) (W : Wired dp w t)
    (T : PortTable t) (hkeys : ∀ k, HasKey t k → k < 53) (calls : List Call) :
    Guarded (step heap) (GrowsSafely heap) dp calls := by
  have hgrows : ∀ {t : PtrTable}, PortTable t → (∀ k, HasKey t k → k < 53) → ∀ k v, t.GrowsSafely (.insert k v) := by
    intro t T hkeys k v _ e he
    exact ChainedHashTable.Agrees.of_lt (by rw [T.hash_eq]; exact hkeys e.key ⟨e, he, rfl⟩)
  refine Guarded.of_invariant
    (fun dp => ∃ w t, Wired dp w t ∧ PortTable t ∧ ∀ k, HasKey t k → k < 53) ?_ ?_ calls dp ⟨w, t, W, T, hkeys⟩
  · rintro dp c dp' err ⟨w, t, W, T, hkeys⟩ h
    cases c with
    | addPort port =>
        obtain ⟨a, p, t', chain, rfl, hp, hins, W', -⟩ := W.addPort_cases h
        obtain ⟨T', hkeys'⟩ := T.insert (hgrows T hkeys _ _) hins
        refine ⟨_, t', W', T', fun k hk => ?_⟩
        rcases (hkeys' k).mp hk with hk | rfl
        · exact hkeys k hk
        · exact hsmall a p hp
    | removePort port => exact ⟨_, t, (W.removePort_cases h).1, T, hkeys⟩
    | start => exact ⟨w, t, (W.start_cases h).1, T, hkeys⟩
    | stop => exact ⟨w, t, (W.stop_cases h).1, T, hkeys⟩
  · rintro dp c ⟨w, t, W, T, hkeys⟩ a p t₀ - - ht
    rw [W.ports] at ht
    cases ht
    exact hgrows T hkeys _ _

/-- The ids of the two ports of the examples are different. -/
theorem twoPorts_distinct (named : Nat → Prop) : DistinctIds twoPorts named := by
  intro a b p q _ _ ha hb hid
  have hcells : ∀ a p, twoPorts.cells a = some p → p.id = 1 ∧ a = 0 ∨ p.id = 2 ∧ a = 1 := by
    intro a p h
    match a with
    | 0 => cases h; exact Or.inl ⟨rfl, rfl⟩
    | 1 => cases h; exact Or.inr ⟨rfl, rfl⟩
    | _ + 2 => cases h
  rcases hcells a p ha with ⟨hp, rfl⟩ | ⟨hp, rfl⟩
  · rcases hcells b q hb with ⟨hq, rfl⟩ | ⟨hq, rfl⟩
    · rfl
    · rw [hp, hq] at hid
      exact absurd hid (by decide)
  · rcases hcells b q hb with ⟨hq, rfl⟩ | ⟨hq, rfl⟩
    · rw [hp, hq] at hid
      exact absurd hid (by decide)
    · rfl

theorem twoPorts_small (a : Nat) (p : Port Nat) (h : twoPorts.cells a = some p) : p.id.toNat < 53 := by
  match a with
  | 0 => cases h; decide
  | 1 => cases h; decide
  | _ + 2 => cases h

/-- Both ports are added, and the wire is full. -/
theorem ports_agree_two :
    (∀ n dp' os, runAll (step twoPorts) emptyWire ([.addPort (some 0), .addPort (some 1)].take n) = .ok (dp', os) →
      TableMatchesWire twoPorts dp') ↔
    Guarded (step twoPorts) (fun dp c => (∃ r, dp.step twoPorts c = .ok r) → RemovesTwin dp c) emptyWire
      [.addPort (some 0), .addPort (some 1)] := by
  have T := newTable_portTable
  refine ports_agree_iff emptyWire_wired T.placed.shaped rfl rfl (by decide) _ (twoPorts_distinct _) ?_
    (growsSafely_of_small twoPorts_small emptyWire_wired T (fun k hk => ?_) _)
  · refine ⟨fun dp' err h => ?_, fun dp₁ err₁ h₁ => ⟨fun dp' err h => ?_, fun _ _ _ => trivial⟩⟩
    · obtain ⟨_, _, _, _, hport, -, -, -, herr, -⟩ := emptyWire_wired.addPort_cases h
      cases hport
      exact herr
    · obtain ⟨_, _, _, _, hport₁, -, -, W₁, -⟩ := emptyWire_wired.addPort_cases h₁
      cases hport₁
      obtain ⟨_, _, _, _, hport, -, -, -, herr, -⟩ := W₁.addPort_cases h
      cases hport
      exact herr
  · obtain ⟨e, he, -⟩ := hk
    cases he

/-- A port that was added and removed again is still found. -/
theorem removed_port_is_found : ∃ dp',
    runAll (step twoPorts) emptyWire [.addPort (some 0), .removePort (some 0)] = .ok (dp', [fpOk, fpOk]) ∧
      ¬ TableMatchesWire twoPorts dp' := by
  have hrun : (runAll (step twoPorts) emptyWire [.addPort (some 0), .removePort (some 0)] >>= fun r =>
      (r.1.getPort 1).map (fun port => (r.2, port, r.1.wireOf))) = .ok ([fpOk, fpOk], some 0, some ⟨none, none⟩) := by
    decide +kernel
  obtain ⟨⟨dp', os⟩, h, hget⟩ := bind_eq_ok hrun
  obtain ⟨port, hport, hseen⟩ := map_eq_ok hget
  simp only [Prod.mk.injEq] at hseen
  obtain ⟨rfl, rfl, hwire⟩ := hseen
  refine ⟨dp', h, fun hmatch => ?_⟩
  obtain ⟨r, hr, hiff⟩ := hmatch 1
  rw [hport] at hr
  cases hr
  obtain ⟨w, hw, a, p, hheld, -⟩ := hiff.mp (by simp)
  rw [hwire] at hw
  cases hw
  rcases hheld with h0 | h1
  · cases h0
  · cases h1

/-! ## Failed calls -/

/-- **If the call fails, it changes nothing** that can be seen of the ports. -/
def Unharmed (heap : Heap (Port D)) (dp : Dataplane ν Wire) (c : Call) : Prop :=
  ∀ dp' err, dp.step heap c = .ok (dp', err) → err ≠ fpOk →
    dp'.wireOf = dp.wireOf ∧ ∀ id, dp'.getPort id = dp.getPort id

/-- With the same wire and the same table nothing can be seen to differ. -/
theorem Wired.same (W : Wired dp w t) (W' : Wired dp' w t) :
    dp'.wireOf = dp.wireOf ∧ ∀ id, dp'.getPort id = dp.getPort id := by
  refine ⟨W'.wireOf_eq.trans W.wireOf_eq.symm, fun id => ?_⟩
  unfold getPort
  rw [W.ports, W'.ports]

/-- An addition whose insertion returns, returns what the wire says. -/
theorem Wired.addPort_eq {a : Nat} {p : Port D} {t' : PtrTable} {c : List (HashEntry Nat Ptr)} (W : Wired dp w t)
    (hp : heap.cells a = some p) (hins : t.insert p.id.toNat (some a) = .ok (t', c)) :
    ∃ dp', dp.addPort heap (some a) = .ok (dp', (w.addPort (some a)).2) ∧ dp'.ports = .owned t' := by
  have hderef : heap.derefPtr (some a) = .ok p := Heap.deref_eq hp
  unfold Dataplane.addPort
  rw [hderef, ok_bind, W.ports, Owner.deref_owned, ok_bind, hins, ok_bind, W.derefPipeline_eq]
  exact ⟨_, rfl, rfl⟩

/-- **A full wire refuses a port that is found from then on**: the table takes it before the wire is asked. -/
theorem Wired.not_unharmed {a : Nat} {p : Port D} (W : Wired dp w t) (S : t.Shaped) (hcomp : t.comp = uintEq)
    (hfull : ¬ w.HasRoom) (hp : heap.cells a = some p) (hnone : dp.getPort p.id = .ok none) :
    ¬ Unharmed heap dp (.addPort (some a)) := by
  intro hunharmed
  -- the insertion succeeds before the wire is asked, and its entry is the first in the bucket of the id
  obtain ⟨t', chain, hins, P⟩ := S.insert_prepended p.id.toNat (some a)
  obtain ⟨dp', hadd, hports⟩ := W.addPort_eq hp hins
  rw [Wire.addPort_eq_of_not hfull] at hadd
  obtain ⟨rest, hfind⟩ := P.find_eq (by rw [hcomp]; exact (uintEq_iff _ _).mpr rfl)
  have hfound := getPort_of_cons hports hfind
  rw [(hunharmed dp' fpError hadd (by decide)).2 p.id, hnone] at hfound
  cases hfound

/-- **A failed call changes nothing, unless it is an addition to a full wire.** The port to be added is live and its id
    is not in the table. -/
theorem failure_harmless_iff (W : Wired dp w t) (S : t.Shaped) (hcomp : t.comp = uintEq) (c : Call)
    (hnew : ∀ port, c = .addPort port →
      ∃ a p, port = some a ∧ heap.cells a = some p ∧ dp.getPort p.id = .ok none) :
    Unharmed heap dp c ↔ ∀ port, c = .addPort port → w.HasRoom := by
  constructor
  · intro hunharmed port hc
    subst hc
    by_contra hfull
    obtain ⟨a, p, rfl, hp, hnone⟩ := hnew port rfl
    exact W.not_unharmed S hcomp hfull hp hnone hunharmed
  · intro hroom dp' err h hne
    cases c with
    | addPort port =>
        obtain ⟨a, p, t', chain, rfl, -, -, -, rfl, -⟩ := W.addPort_cases h
        exact absurd ((Wire.addPort_ok_iff _).mpr (hroom _ rfl)) hne
    | removePort port =>
        obtain ⟨W', rfl, -⟩ := W.removePort_cases h
        rw [Wire.delPort_eq_of_err hne] at W'
        exact W.same W'
    | start => exact W.same (W.start_cases h).1
    | stop => exact W.same (W.stop_cases h).1

/-- The port with the id 1 is added to the empty wire. -/
theorem failure_harmless_add : Unharmed twoPorts emptyWire (.addPort (some 0)) ↔
    ∀ port, Call.addPort (some 0) = .addPort port → Wire.load.HasRoom := by
  have hnone : emptyWire.getPort 1 = .ok none := by decide +kernel
  apply failure_harmless_iff emptyWire_wired newTable_portTable.placed.shaped rfl
  intro port hc
  cases hc
  exact ⟨0, _, rfl, rfl, hnone⟩

/-- Three ports, with the ids 1, 2 and 3. -/
def threePorts : Heap (Port Nat) := twoPorts.alloc ⟨3, 5002⟩

/-- Adding the ports at 0 and 1 to the empty wire makes them its ends. -/
theorem wired_of_two {heap : Heap (Port Nat)} {dp : Dataplane Unit Wire} {os : List Int}
    (h : runAll (step heap) emptyWire [.addPort (some 0), .addPort (some 1)] = .ok (dp, os)) :
    ∃ t, Wired dp ⟨some 0, some 1⟩ t ∧ t.Shaped ∧ t.comp = uintEq := by
  obtain ⟨dp₁, _, _, h₁, hrest, -⟩ := runAll_cons_inv h
  obtain ⟨dp₂, _, _, h₂, hnil, -⟩ := runAll_cons_inv hrest
  cases hnil
  obtain ⟨_, _, t₁, _, hport₁, -, hins₁, W₁, -⟩ := emptyWire_wired.addPort_cases h₁
  cases hport₁
  obtain ⟨_, _, t₂, _, hport₂, -, hins₂, W₂, -⟩ := W₁.addPort_cases h₂
  cases hport₂
  have P₁ := newTable_portTable.placed.shaped.prepended_of_eq hins₁
  have P₂ := P₁.shaped.prepended_of_eq hins₂
  exact ⟨t₂, W₂, P₂.shaped, P₂.comp.trans P₁.comp⟩

/-- A third port is refused by the wire, and found in the table. -/
theorem refused_port_is_found : ∃ dp os,
    runAll (step threePorts) emptyWire [.addPort (some 0), .addPort (some 1)] = .ok (dp, os) ∧
      dp.getPort 3 = .ok none ∧ ¬ Unharmed threePorts dp (.addPort (some 2)) := by
  have hrun : (runAll (step threePorts) emptyWire [.addPort (some 0), .addPort (some 1)] >>= fun r =>
      r.1.getPort 3) = .ok none := by
    decide +kernel
  obtain ⟨⟨dp, os⟩, h, hnone⟩ := bind_eq_ok hrun
  obtain ⟨t, W, S, hcomp⟩ := wired_of_two h
  have hfull : ¬ (Wire.mk (some 0) (some 1)).HasRoom := by
    rintro (h0 | h1)
    · cases h0
    · cases h1
  exact ⟨dp, os, h, hnone, W.not_unharmed S hcomp hfull (p := ⟨3, 5002⟩) rfl hnone⟩

end Dataplane

end Flowpath
end Freeflow
