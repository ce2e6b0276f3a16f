import Freeflow.Flowpath.Wire

/-!
# `Flowpath.Correctness.DataplaneSteps` — what a call does to a data plane

One inversion lemma for each function that changes a data plane: which of its fields a call that returned has changed,
and how. `Wired` knows the wire and the table of a data plane that runs the wire pipeline, and has the same lemmas for it;
the invariants of ports, wire and state are derived from them.
-/

namespace Freeflow
namespace Flowpath
namespace Dataplane

variable {ν ω D : Type} {heap : Heap (Port D)}

/-! ## The state bit -/

theorem isUp_iff (dp : Dataplane ν ω) : dp.isUp = dp.state.getLsbD 0 := by
  unfold isUp upBit
  have h : dp.state &&& 1 = BitVec.ofNat 32 (dp.state.toNat % 2) := by
    apply BitVec.eq_of_toNat_eq
    simp [BitVec.toNat_and, Nat.and_one_is_mod]
    omega
  rw [h, BitVec.getLsbD, Nat.testBit_zero]
  rcases Nat.mod_two_eq_zero_or_one dp.state.toNat with h₀ | h₁
  · rw [h₀]; rfl
  · rw [h₁]; rfl

@[simp] theorem isUp_up (dp : Dataplane ν ω) : dp.up.isUp = true := by
  rw [isUp_iff]
  simp [up, upBit]

@[simp] theorem isUp_down (dp : Dataplane ν ω) : dp.down.isUp = false := by
  rw [isUp_iff]
  simp [down, upBit]

/-! ## One lemma per function -/

variable {dp dp' : Dataplane ν ω} {err : Int}

theorem derefPipeline_ok {pl : Pipeline ω} (h : dp.derefPipeline = .ok pl) : dp.pipeline = some pl := by
  unfold derefPipeline at h
  cases hp : dp.pipeline with
  | none => rw [hp] at h; cases h
  | some pl' => rw [hp] at h; cases h; rfl

/-- An addition that returned inserted the port into the table and told the pipeline. -/
theorem addPort_cases {port : Ptr} (h : dp.addPort heap port = .ok (dp', err)) :
    ∃ a p t t' c pl, port = some a ∧ heap.cells a = some p ∧ dp.ports = .owned t ∧
      t.insert p.id.toNat port = .ok (t', c) ∧ dp.pipeline = some pl ∧
      dp' = { dp with
        ports := .owned t'
        pipeline := some { pl with object := (pl.ops.addPort pl.object port).1 } } ∧
      err = (pl.ops.addPort pl.object port).2 := by
  obtain ⟨p, hp, h⟩ := bind_eq_ok h
  obtain ⟨a, hport, ha⟩ := Heap.derefPtr_ok hp
  obtain ⟨t, ht, h⟩ := bind_eq_ok h
  obtain ⟨⟨t', c⟩, hins, h⟩ := bind_eq_ok h
  obtain ⟨pl, hpl, h⟩ := bind_eq_ok h
  cases h
  refine ⟨a, p, t, t', c, pl, hport, ha, ?_, hins, derefPipeline_ok hpl, rfl, rfl⟩
  cases hports : dp.ports with
  | null => rw [hports] at ht; cases ht
  | wild => rw [hports] at ht; cases ht
  | owned t => rw [hports] at ht; cases ht; rfl

/-- A removal that returned told the pipeline, and nobody else. -/
theorem removePort_cases {port : Ptr} (h : dp.removePort port = .ok (dp', err)) :
    ∃ pl, dp.pipeline = some pl ∧
      dp' = { dp with pipeline := some { pl with object := (pl.ops.delPort pl.object port).1 } } ∧
      err = (pl.ops.delPort pl.object port).2 := by
  obtain ⟨pl, hpl, h⟩ := bind_eq_ok h
  cases h
  exact ⟨pl, derefPipeline_ok hpl, rfl, rfl⟩

/-- The state after a pipeline's `start` has returned `err`. -/
def settle (dp : Dataplane ν ω) (err : Int) : Dataplane ν ω := if err = fpOk then dp.up else dp

/-- A start finds the data plane up, or calls the pipeline's `start`. -/
theorem start_cases (h : dp.start = .ok (dp', err)) :
    (dp.isUp = true ∧ dp' = dp ∧ err = fpOk) ∨
    (dp.isUp = false ∧ ∃ pl, dp.pipeline = some pl ∧ err = (pl.ops.start pl.object).2 ∧
      dp' = settle { dp with pipeline := some { pl with object := (pl.ops.start pl.object).1 } } err) := by
  unfold start at h
  cases hup : dp.isUp with
  | true =>
      rw [hup, if_pos rfl] at h
      cases h
      exact Or.inl ⟨rfl, rfl, rfl⟩
  | false =>
      rw [hup, if_neg (by decide)] at h
      obtain ⟨pl, hpl, h⟩ := bind_eq_ok h
      cases h
      exact Or.inr ⟨rfl, pl, derefPipeline_ok hpl, rfl, rfl⟩

/-- A stop finds the data plane down, or calls the pipeline's `start` too. -/
theorem stop_cases (h : dp.stop = .ok (dp', err)) :
    (dp.isUp = false ∧ dp' = dp ∧ err = fpOk) ∨
    (dp.isUp = true ∧ ∃ pl, dp.pipeline = some pl ∧ err = (pl.ops.start pl.object).2 ∧
      dp' = settle { dp with pipeline := some { pl with object := (pl.ops.start pl.object).1 } } err) := by
  unfold stop at h
  cases hup : dp.isUp with
  | false =>
      rw [hup, if_pos (by decide)] at h
      cases h
      exact Or.inl ⟨rfl, rfl, rfl⟩
  | true =>
      rw [hup, if_neg (by decide)] at h
      obtain ⟨pl, hpl, h⟩ := bind_eq_ok h
      cases h
      exact Or.inr ⟨rfl, pl, derefPipeline_ok hpl, rfl, rfl⟩

@[simp] theorem ports_settle (dp : Dataplane ν ω) (err : Int) : (settle dp err).ports = dp.ports := by
  unfold settle; split <;> rfl

@[simp] theorem pipeline_settle (dp : Dataplane ν ω) (err : Int) : (settle dp err).pipeline = dp.pipeline := by
  unfold settle; split <;> rfl

theorem isUp_settle (dp : Dataplane ν ω) (err : Int) :
    (settle dp err).isUp = (decide (err = fpOk) || dp.isUp) := by
  unfold settle
  by_cases h : err = fpOk
  · simp [h]
  · simp [h]

/-! ## The wire pipeline -/

/-- The data plane runs the wire pipeline, its wire is `w` and its port table `t`. -/
structure Wired (dp : Dataplane ν Wire) (w : Wire) (t : PtrTable) : Prop where
  pipeline : dp.pipeline = some w.pipeline
  ports : dp.ports = .owned t

/-- The wire of a data plane. -/
def wireOf (dp : Dataplane ν Wire) : Option Wire := dp.pipeline.map Pipeline.object

theorem Wired.wireOf_eq {dp : Dataplane ν Wire} {w : Wire} {t : PtrTable} (W : Wired dp w t) :
    dp.wireOf = some w := by
  rw [wireOf, W.pipeline]
  rfl

/-- The wire that is found is the one that is known. -/
theorem Wired.eq_of_wireOf {dp : Dataplane ν Wire} {w w' : Wire} {t : PtrTable} (W : Wired dp w t)
    (h : dp.wireOf = some w') : w' = w := by
  rw [W.wireOf_eq] at h
  exact (Option.some.inj h).symm

theorem Wired.derefPipeline_eq {dp : Dataplane ν Wire} {w : Wire} {t : PtrTable} (W : Wired dp w t) :
    dp.derefPipeline = .ok w.pipeline := by
  unfold derefPipeline
  rw [W.pipeline]

section Calls

variable {dp dp' : Dataplane ν Wire} {w : Wire} {t : PtrTable} {err : Int}

theorem Wired.pipeline_eq (W : Wired dp w t) {pl : Pipeline Wire} (h : dp.pipeline = some pl) : pl = w.pipeline := by
  rw [W.pipeline] at h
  exact (Option.some.inj h).symm

/-- Starting a wire does not change it. -/
theorem wire_start_fst (w : Wire) : w.start.1 = w := by
  unfold Wire.start
  split <;> rfl

/-- A data plane with a wire still has it when the wire's `start` has been called. -/
theorem Wired.settle (W : Wired dp w t) (err : Int) :
    Wired (settle { dp with pipeline := some { w.pipeline with object := (w.pipeline.ops.start w.pipeline.object).1 } }
      err) w t := by
  refine ⟨?_, by rw [ports_settle]; exact W.ports⟩
  rw [pipeline_settle]
  show some (Pipeline.mk Wire.ops w.start.1) = _
  rw [wire_start_fst]
  rfl

theorem Wired.addPort_cases {port : Ptr} (W : Wired dp w t) (h : dp.addPort heap port = .ok (dp', err)) :
    ∃ a p t' chain, port = some a ∧ heap.cells a = some p ∧ t.insert p.id.toNat (some a) = .ok (t', chain) ∧
      Wired dp' (w.addPort (some a)).1 t' ∧ err = (w.addPort (some a)).2 ∧ dp'.isUp = dp.isUp := by
  obtain ⟨a, p, t₀, t', chain, pl, rfl, ha, ht, hins, hp, rfl, rfl⟩ := Dataplane.addPort_cases h
  rw [W.ports] at ht
  cases ht
  cases W.pipeline_eq hp
  exact ⟨a, p, t', chain, rfl, ha, hins, ⟨rfl, rfl⟩, rfl, rfl⟩

theorem Wired.removePort_cases {port : Ptr} (W : Wired dp w t) (h : dp.removePort port = .ok (dp', err)) :
    Wired dp' (w.delPort port).1 t ∧ err = (w.delPort port).2 ∧ dp'.isUp = dp.isUp := by
  obtain ⟨pl, hp, rfl, rfl⟩ := Dataplane.removePort_cases h
  cases W.pipeline_eq hp
  exact ⟨⟨rfl, W.ports⟩, rfl, rfl⟩

theorem Wired.start_cases (W : Wired dp w t) (h : dp.start = .ok (dp', err)) :
    Wired dp' w t ∧ (dp.isUp = true ∧ err = fpOk ∨ dp.isUp = false ∧ err = w.start.2) ∧
      dp'.isUp = (decide (err = fpOk) || dp.isUp) := by
  rcases Dataplane.start_cases h with ⟨hup, rfl, rfl⟩ | ⟨hdown, pl, hp, rfl, rfl⟩
  · exact ⟨W, Or.inl ⟨hup, rfl⟩, by simp [hup]⟩
  · cases W.pipeline_eq hp
    exact ⟨W.settle _, Or.inr ⟨hdown, rfl⟩, isUp_settle _ _⟩

theorem Wired.stop_cases (W : Wired dp w t) (h : dp.stop = .ok (dp', err)) :
    Wired dp' w t ∧ dp'.isUp = dp.isUp := by
  rcases Dataplane.stop_cases h with ⟨-, rfl, rfl⟩ | ⟨hup, pl, hp, rfl, rfl⟩
  · exact ⟨W, rfl⟩
  · cases W.pipeline_eq hp
    refine ⟨W.settle _, ?_⟩
    rw [isUp_settle]
    show (_ || dp.isUp) = _
    rw [hup, Bool.or_true]

end Calls

/-! ## A data plane for the examples -/

/-- A data plane as it is created over memory of zeros, with an empty wire. -/
def emptyWire : Dataplane Unit Wire where
  id := 0
  state := 0
  name := ()
  type := ()
  ports := .owned (ChainedHashTable.new 17 uintHash uintEq)
  tables := .owned (ChainedHashTable.new 17 uintHash uintEq)
  pipeline := some Wire.load.pipeline

theorem emptyWire_wired : Wired emptyWire Wire.load (ChainedHashTable.new 17 uintHash uintEq) := ⟨rfl, rfl⟩

/-- Two ports, with the ids 1 and 2, at the addresses 0 and 1. -/
def twoPorts : Heap (Port Nat) := (Heap.empty.alloc ⟨1, 5000⟩).alloc ⟨2, 5001⟩

end Dataplane
end Flowpath
end Freeflow
