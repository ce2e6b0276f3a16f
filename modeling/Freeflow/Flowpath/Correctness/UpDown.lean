import Freeflow.Flowpath.Correctness.DataplaneMap
import Freeflow.Flowpath.Correctness.DataplaneSteps

/-!
# `Flowpath.Correctness.UpDown` — when the up/down state follows start and stop

A pipeline is observed by recording: `Pipeline.recorded` is the same pipeline over objects that also keep the calls of
`start` and `stop` made so far. `up_follows_iff` compares what the calls do with what they are for, from a data plane
that was just created. `fp_dataplane_create` does not set the state bit, and `fp_dataplane_stop` repeats the body of
`fp_dataplane_start`, so the runs that behave begin over memory with the bit clear and never stop a data plane that is
up.
-/

namespace Freeflow
namespace Flowpath

variable {ν ω D : Type}

/-! ## Recording the calls of a pipeline -/

/-- The two methods of a pipeline that change its state. -/
inductive Method where
  | start
  | stop
deriving DecidableEq, Repr

/-- The same functions, over objects that keep the calls of `start` and `stop`. -/
def PipelineOps.recorded (ops : PipelineOps ω) : PipelineOps (ω × List Method) where
  addPort o p := (((ops.addPort o.1 p).1, o.2), (ops.addPort o.1 p).2)
  delPort o p := (((ops.delPort o.1 p).1, o.2), (ops.delPort o.1 p).2)
  start o := (((ops.start o.1).1, o.2 ++ [.start]), (ops.start o.1).2)
  stop o := (((ops.stop o.1).1, o.2 ++ [.stop]), (ops.stop o.1).2)

/-- The same pipeline, with no call recorded yet. -/
def Pipeline.recorded (pl : Pipeline ω) : Pipeline (ω × List Method) := ⟨pl.ops.recorded, (pl.object, [])⟩

namespace Dataplane

/-- The calls recorded by the data plane's pipeline. -/
def record (dp : Dataplane ν (ω × List Method)) : List Method :=
  match dp.pipeline with
  | some pl => pl.object.2
  | none => []

/-! ## What start and stop are for -/

/-- Between `dp` and `dp'` the pipeline's `m` was invoked and nothing else, and only if there was need. -/
def Invoked (m : Method) (need : Prop) (dp dp' : Dataplane ν (ω × List Method)) : Prop :=
  ∃ ms, dp'.record = dp.record ++ ms ∧ ∀ m' ∈ ms, m' = m ∧ need

/-- A call that returned `err` leaves the state bit as it was, or, with `FP_OK`, as `up` says. -/
def Leaves (up : Bool) (err : Int) (dp dp' : Dataplane ν (ω × List Method)) : Prop :=
  (err ≠ fpOk → dp'.isUp = dp.isUp) ∧ (err = fpOk → dp'.isUp = up)

/-- **The call does what it is for**, if it is one of start and stop. -/
def Follows (heap : Heap (Port D)) (dp : Dataplane ν (ω × List Method)) (c : Call) : Prop :=
  ∀ dp' err, dp.step heap c = .ok (dp', err) →
    match c with
    | .start => Invoked .start (dp.isUp = false) dp dp' ∧ Leaves true err dp dp'
    | .stop => Invoked .stop (dp.isUp = true) dp dp' ∧ Leaves false err dp dp'
    | .addPort _ | .removePort _ => True

/-- A stop finds the data plane down. -/
def StopsDown (dp : Dataplane ν (ω × List Method)) (c : Call) : Prop := c = .stop → dp.isUp = false

/-- The data plane runs the recorded form of a pipeline with the functions `ops`. -/
def Recorded (ops : PipelineOps ω) (dp : Dataplane ν (ω × List Method)) : Prop :=
  ∃ o, dp.pipeline = some ⟨ops.recorded, o⟩

variable {heap : Heap (Port D)} {ops : PipelineOps ω} {dp dp' : Dataplane ν (ω × List Method)} {err : Int}

/-- No call exchanges the pipeline's functions. -/
theorem step_recorded {c : Call} (hr : Recorded ops dp) (h : dp.step heap c = .ok (dp', err)) : Recorded ops dp' := by
  obtain ⟨o, ho⟩ := hr
  have hpl : ∀ pl, dp.pipeline = some pl → pl = ⟨ops.recorded, o⟩ := fun pl hp => by
    rw [ho] at hp
    exact (Option.some.inj hp).symm
  cases c with
  | addPort port =>
      obtain ⟨_, _, _, _, _, pl, -, -, -, -, hp, rfl, -⟩ := addPort_cases h
      cases hpl pl hp
      exact ⟨_, rfl⟩
  | removePort port =>
      obtain ⟨pl, hp, rfl, -⟩ := removePort_cases h
      cases hpl pl hp
      exact ⟨_, rfl⟩
  | start =>
      rcases start_cases h with ⟨-, rfl, -⟩ | ⟨-, pl, hp, -, rfl⟩
      · exact ⟨o, ho⟩
      · cases hpl pl hp
        exact ⟨_, pipeline_settle _ _⟩
  | stop =>
      rcases stop_cases h with ⟨-, rfl, -⟩ | ⟨-, pl, hp, -, rfl⟩
      · exact ⟨o, ho⟩
      · cases hpl pl hp
        exact ⟨_, pipeline_settle _ _⟩

/-- Nothing is invoked by a call that changes nothing. -/
theorem invoked_refl (m : Method) (need : Prop) : Invoked m need dp dp := ⟨[], by simp, by simp⟩

/-- The record after a call of the pipeline's `start`. -/
theorem record_settle (ho : dp.pipeline = some ⟨ops.recorded, o⟩) (err : Int) :
    (settle { dp with pipeline := some ⟨ops.recorded, (ops.recorded.start o).1⟩ } err).record
      = dp.record ++ [.start] := by
  unfold record
  rw [pipeline_settle, ho]
  rfl

/-- A start always does what it is for. -/
theorem start_follows (hr : Recorded ops dp) : Follows heap dp .start := by
  obtain ⟨o, ho⟩ := hr
  intro dp' err h
  rcases start_cases h with ⟨hup, rfl, rfl⟩ | ⟨hdown, pl, hp, herr, rfl⟩
  · exact ⟨invoked_refl _ _, fun hne => absurd rfl hne, fun _ => hup⟩
  · rw [ho] at hp
    cases hp
    refine ⟨⟨[.start], record_settle ho err, fun m hm => ⟨by simpa using hm, hdown⟩⟩, ?_, ?_⟩
    · intro hne
      rw [isUp_settle, decide_eq_false hne, Bool.false_or]
      rfl
    · intro hok
      rw [isUp_settle, decide_eq_true hok, Bool.true_or]

/-- **A stop does what it is for exactly when there is nothing to stop.** -/
theorem stop_follows_iff (hr : Recorded ops dp) : Follows heap dp .stop ↔ dp.isUp = false := by
  obtain ⟨o, ho⟩ := hr
  constructor
  · intro hfollows
    by_contra hup
    rw [Bool.not_eq_false] at hup
    have hstop : dp.stop = .ok (settle { dp with pipeline := some ⟨ops.recorded, (ops.recorded.start o).1⟩ }
        (ops.recorded.start o).2, (ops.recorded.start o).2) := by
      unfold stop derefPipeline
      rw [hup, ho]
      rfl
    obtain ⟨⟨ms, hrec, hms⟩, -⟩ := hfollows _ _ hstop
    rw [record_settle ho, List.append_cancel_left_eq] at hrec
    -- the one method recorded is `start`, where only `stop` may be
    have hstart := (hms .start (by rw [← hrec]; simp)).1
    cases hstart
  · intro hdown dp' err h
    rcases stop_cases h with ⟨-, rfl, rfl⟩ | ⟨hup, -⟩
    · exact ⟨invoked_refl _ _, fun hne => absurd rfl hne, fun _ => hdown⟩
    · rw [hdown] at hup
      cases hup

/-- One call does what it is for exactly when it is no stop of a data plane that is up. -/
theorem follows_iff (hr : Recorded ops dp) (c : Call) : Follows heap dp c ↔ StopsDown dp c := by
  cases c with
  | addPort port => exact iff_of_true (fun _ _ _ => trivial) (fun h => by cases h)
  | removePort port => exact iff_of_true (fun _ _ _ => trivial) (fun h => by cases h)
  | start => exact iff_of_true (start_follows hr) (fun h => by cases h)
  | stop => exact (stop_follows_iff hr).trans ⟨fun h _ => h, fun h => h rfl⟩

end Dataplane

/-! ## From the creation on -/

/-- A creation whose pipeline loads leaves the state bit that was in memory. -/
theorem Registry.create_loaded {same : ν → ν → Checked Bool} {r r' : Registry ν ω} {name type : ν} {raw : RawPlane}
    {pl : Pipeline ω} {a : Nat} {err : Int} (h : r.create same name type raw (.loaded pl) = .ok (r', some a, err)) :
    ∃ dp, r'.heap.cells a = some dp ∧ dp.pipeline = some pl ∧ dp.state = raw.state := by
  obtain ⟨found, hfound, -⟩ := bind_eq_ok h
  rw [Registry.create_eq hfound] at h
  cases found with
  | some b => cases h
  | none =>
      cases hfree : r.dps.firstFree with
      | none => rw [hfree] at h; cases h
      | some i =>
          rw [hfree] at h
          cases h
          exact ⟨_, Registry.added_cells_next _ _, rfl, rfl⟩

open Dataplane in
/-- **The state follows start and stop exactly in the runs that never stop a data plane that is up**, and that begin over
    memory whose state bit is clear. The calls are any calls of start and stop, and any of the functions for ports in
    between. -/
theorem up_follows_iff (heap : Heap (Port D)) {same : ν → ν → Checked Bool} {r r' : Registry ν (ω × List Method)}
    {name type : ν} {raw : RawPlane} {pl : Pipeline ω} {a : Nat} {err : Int} {dp : Dataplane ν (ω × List Method)}
    (hcreate : r.create same name type raw (.loaded pl.recorded) = .ok (r', some a, err))
    (hdp : r'.heap.cells a = some dp) (calls : List Call) :
    (dp.isUp = false ∧ Guarded (step heap) (Follows heap) dp calls) ↔
      (raw.state.getLsbD 0 = false ∧ Guarded (step heap) StopsDown dp calls) := by
  obtain ⟨dp₀, hdp₀, hpl, hstate⟩ := Registry.create_loaded hcreate
  rw [hdp] at hdp₀
  cases hdp₀
  rw [isUp_iff, hstate]
  apply and_congr Iff.rfl
  exact Guarded.congr (Recorded pl.ops) (fun dp c dp' err hr h => step_recorded hr h)
    (fun dp c hr => follows_iff hr c) calls dp ⟨_, hpl⟩

/-! ## A data plane that was just created -/

/-- The first data plane of a process, over memory with these state bits. -/
def firstPlane (state : BitVec 32) : Dataplane Unit (Unit × List Method) where
  id := 0
  state := state
  name := ()
  type := ()
  ports := .owned (ChainedHashTable.new 17 uintHash uintEq)
  tables := .owned (ChainedHashTable.new 17 uintHash uintEq)
  pipeline := some idle.recorded

/-- No ports. -/
def noPorts : Heap (Port Nat) := Heap.empty

/-- The registry with only that data plane. -/
def firstRegistry (state : BitVec 32) : Registry Unit (Unit × List Method) :=
  ⟨Heap.empty.alloc (firstPlane state), Slots.empty.put 0 (some 0)⟩

theorem create_firstPlane (state : BitVec 32) :
    Registry.empty.create (fun _ _ => .ok true) () () ⟨state, .wild, .wild⟩ (.loaded idle.recorded)
      = .ok (firstRegistry state, some 0, fpOk) := rfl

open Dataplane in
theorem up_follows_two_starts :
    ((firstPlane 0).isUp = false ∧
      Guarded (step noPorts) (Follows noPorts) (firstPlane 0) [.stop, .start, .start]) ↔
    ((0 : BitVec 32).getLsbD 0 = false ∧
      Guarded (step noPorts) StopsDown (firstPlane 0) [.stop, .start, .start]) :=
  up_follows_iff noPorts (create_firstPlane 0) rfl _

open Dataplane in
/-- A stop after a start: `FP_OK`, and the data plane is still up. -/
theorem stop_leaves_up :
    Registry.empty.create (fun _ _ => .ok true) () () ⟨0, .wild, .wild⟩ (.loaded idle.recorded)
      = .ok (firstRegistry 0, some 0, fpOk) ∧
    (firstRegistry 0).heap.cells 0 = some (firstPlane 0) ∧
    ¬ Guarded (step noPorts) (Follows noPorts) (firstPlane 0) [.start, .stop] := by
  refine ⟨rfl, rfl, fun hall => ?_⟩
  have hstop := (hall.2 _ _ rfl).1 _ _ rfl
  exact absurd (hstop.2.2 rfl) (by decide)

end Flowpath
end Freeflow
