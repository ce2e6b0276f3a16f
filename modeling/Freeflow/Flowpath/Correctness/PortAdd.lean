import Freeflow.Flowpath.Requests
import Freeflow.Flowpath.Wire

/-!
# `Flowpath.Correctness.PortAdd` — which requests to add a port have a device

`fp_on_port_add` opens a device for the type `udp` only. The bodies for the other types it knows are empty, and so is
the case of a type that it does not know; the device error stays 0, and a port is made from a pointer that was not set.
`port_add_iff`: that happens for every such type once the data plane is found, and a request with the type `udp` succeeds
only with its device.
-/

namespace Freeflow
namespace Flowpath

variable {ω D : Type}

/-! ## What the request is for -/

/-- The type of the request is `udp`, the one type with an opener. -/
def HasOpener (req : List UInt8) : Prop := strcmpEq (req.drop typeOffset) udpText = .ok true

/-- The type of the request is not `udp`. -/
def NoOpener (req : List UInt8) : Prop := strcmpEq (req.drop typeOffset) udpText = .ok false

/-- One new port, over the device that was opened, has been added to the data plane at `a`; nothing else has changed. -/
def AddedPort (e : Env ω D) (s s' : Managed ω D) (a : Nat) : Prop :=
  ∃ dp dp' id, s.registry.heap.deref a = .ok dp ∧
    s'.ports.heap.cells = Function.update s.ports.heap.cells s.ports.heap.next (some ⟨id, e.udp.1⟩) ∧
    dp.addPort s'.ports.heap (some s.ports.heap.next) = .ok (dp', fpOk) ∧
    s'.registry.heap.cells = Function.update s.registry.heap.cells a (some dp') ∧ s'.registry.dps = s.registry.dps

/-- **AddsWithDevice.** The result is `FP_OK` only if the data plane is found and the device of the type was opened, and
    then one port over it has been added. For a type without an opener the reply is an error, and no port is created. -/
def AddsWithDevice (e : Env ω D) (req : List UInt8) (s : Managed ω D) : Prop :=
  (∀ s', onPortAdd e req s = .ok (s', fpOk) →
    ∃ a, lookupName req s = .ok (some a) ∧ HasOpener req ∧ e.udp.2 = fpOk ∧ AddedPort e s s' a) ∧
  (NoOpener req → ∃ s' result, onPortAdd e req s = .ok (s', result) ∧ result ≠ fpOk ∧
    s'.ports.heap.cells = s.ports.heap.cells)

/-! ## One request -/

/-- The second half of `fp_on_port_add`: the port is created over `dev` and added. -/
def addPortOver (s : Managed ω D) (a : Nat) (dev : D) : Checked (Managed ω D × Int) := do
  let (ports, port) ← portCreate s.ports dev
  let dp ← s.registry.heap.deref a
  let (dp, err) ← dp.addPort ports.heap port
  let heap ← s.registry.heap.write a dp
  return (⟨{ s.registry with heap }, ports⟩, if err ≠ fpOk then -1 else err)

/-- What `fp_on_port_add` does with a data plane that it has found. -/
theorem onPortAdd_found {e : Env ω D} {req : List UInt8} {s : Managed ω D} {a : Nat} {udp : Bool}
    (hfound : lookupName req s = .ok (some a)) (htype : strcmpEq (req.drop typeOffset) udpText = .ok udp) :
    onPortAdd e req s =
      if udp ∧ e.udp.2 ≠ fpOk then .ok (s, -1) else addPortOver s a (if udp then e.udp.1 else e.dev) := by
  rw [onPortAdd, hfound, ok_bind]
  show (strcmpEq (req.drop typeOffset) udpText >>= _) = _
  rw [htype, ok_bind]
  cases udp with
  | false =>
      rw [if_neg (by simp)]
      rfl
  | true =>
      show (if e.udp.2 ≠ fpOk then _ else _) = _
      by_cases herr : e.udp.2 ≠ fpOk
      · rw [if_pos herr, if_pos ⟨rfl, herr⟩]
        rfl
      · rw [if_neg herr, if_neg (fun h => herr h.2)]
        rfl

theorem onPortAdd_absent {e : Env ω D} {req : List UInt8} {s : Managed ω D} (h : lookupName req s = .ok none) :
    onPortAdd e req s = .ok (s, fpBadDataplane) := by
  rw [onPortAdd, h]
  rfl

/-- What a port that was created and added leaves behind. -/
theorem addPortOver_ok {s s' : Managed ω D} {a : Nat} {dev : D} {result : Int}
    (h : addPortOver s a dev = .ok (s', result)) :
    ∃ dp dp' id err, s.registry.heap.deref a = .ok dp ∧
      s'.ports.heap.cells = Function.update s.ports.heap.cells s.ports.heap.next (some ⟨id, dev⟩) ∧
      dp.addPort s'.ports.heap (some s.ports.heap.next) = .ok (dp', err) ∧
      s'.registry.heap.cells = Function.update s.registry.heap.cells a (some dp') ∧
      s'.registry.dps = s.registry.dps ∧ result = if err ≠ fpOk then -1 else err := by
  obtain ⟨⟨ports, port⟩, hcreate, h⟩ := bind_eq_ok h
  obtain ⟨dp, hdp, h⟩ := bind_eq_ok h
  obtain ⟨⟨dp', err⟩, hadd, h⟩ := bind_eq_ok h
  obtain ⟨heap, hwrite, h⟩ := bind_eq_ok h
  cases h
  obtain ⟨id, -, hcreate⟩ := bind_eq_ok hcreate
  cases hcreate
  obtain ⟨heap', hwrite', hcells, -⟩ := Heap.write_eq (Heap.deref_ok hdp) dp'
  rw [hwrite] at hwrite'
  cases hwrite'
  exact ⟨dp, dp', id, err, hdp, rfl, hadd, hcells, rfl, rfl⟩

/-- The new port is at an address where no port was. -/
theorem addPortOver_creates {s s' : Managed ω D} {a : Nat} {dev : D} {result : Int}
    (h : addPortOver s a dev = .ok (s', result)) : s'.ports.heap.cells ≠ s.ports.heap.cells := by
  obtain ⟨dp, dp', id, err, -, hcells, -⟩ := addPortOver_ok h
  intro hsame
  have hnew := congrFun hsame s.ports.heap.next
  rw [hcells, Function.update_self, Heap.cells_next] at hnew
  cases hnew

/-- **When a request to add a port succeeds with a device only**: when its type is `udp`, or the data plane is not
    found. -/
theorem port_add_iff (e : Env ω D) (req : List UInt8) (s : Managed ω D) :
    AddsWithDevice e req s ↔ (NoOpener req → lookupName req s = .ok none) := by
  constructor
  · rintro ⟨-, hno⟩ htype
    obtain ⟨s', result, hrun, -, hcells⟩ := hno htype
    obtain ⟨found, hfound, -⟩ := bind_eq_ok hrun
    cases found with
    | none => exact hfound
    | some a =>
        -- no case has set `dev`, and nothing is checked before the port is created
        rw [onPortAdd_found hfound htype, if_neg (by simp)] at hrun
        exact absurd hcells (addPortOver_creates hrun)
  · intro hcond
    refine ⟨fun s' hrun => ?_, fun htype => ?_⟩
    · obtain ⟨found, hfound, hrest⟩ := bind_eq_ok hrun
      cases found with
      | none =>
          rw [onPortAdd_absent hfound] at hrun
          simp [fpBadDataplane, fpOk] at hrun
      | some a =>
          obtain ⟨udp, htype, -⟩ := bind_eq_ok hrest
          cases udp with
          | false =>
              rw [hcond htype] at hfound
              cases hfound
          | true =>
              rw [onPortAdd_found hfound htype] at hrun
              by_cases herr : e.udp.2 ≠ fpOk
              · rw [if_pos ⟨rfl, herr⟩] at hrun
                simp [fpOk] at hrun
              · rw [if_neg (fun h => herr h.2)] at hrun
                obtain ⟨dp, dp', id, err, hdp, hports, hadd, hcells, hdps, hresult⟩ := addPortOver_ok hrun
                have herr' : err = fpOk := by
                  by_contra hne
                  rw [if_pos hne] at hresult
                  exact absurd hresult (by decide)
                rw [herr'] at hadd
                exact ⟨a, hfound, htype, not_not.mp herr, dp, dp', id, hdp, hports, hadd, hcells, hdps⟩
    · exact ⟨s, fpBadDataplane, onPortAdd_absent (hcond htype), by decide, rfl⟩

/-- The process with one data plane, whose name is the one in the request, and this table `ports_`. -/
def onePlane (ports : Owner PtrTable) : Managed Wire Nat where
  registry := ⟨Heap.empty.alloc ⟨0, 0, nameOffset, typeOffset, .owned (ChainedHashTable.new 17 uintHash uintEq),
    .owned (ChainedHashTable.new 17 uintHash uintEq), some (Wire.pipeline Wire.load)⟩, Slots.empty.put 0 (some 0)⟩
  ports := ⟨Heap.empty, 1, ports⟩

/-- A request to add a port of the type `eth` to the data plane `a`. -/
def ethRequest : List UInt8 :=
  [fpRequest, portAdd, 97] ++ List.replicate 127 0 ++ [101, 116, 104] ++ List.replicate 891 0

/-- Memory in which the unset pointer is 99. -/
def unsetEnv : Env Wire Nat := ⟨⟨0, .wild, .wild⟩, .noModule, (0, fpOk), 99, 0⟩

/-- **A port over the unset pointer**: the request succeeds, and the port with the id 1 has the device 99. While `ports_`
    is null it ends at the search for an id. -/
theorem eth_port_is_created :
    ((onPortAdd unsetEnv ethRequest (onePlane (.owned (ChainedHashTable.new 17 uintHash uintEq)))).map
      (fun r => (r.2, r.1.ports.heap.cells 0)) = .ok (fpOk, some ⟨1, 99⟩)) ∧
    onPortAdd unsetEnv ethRequest (onePlane .null) = .error .nullDeref ∧
    ¬ AddsWithDevice unsetEnv ethRequest (onePlane (.owned (ChainedHashTable.new 17 uintHash uintEq))) ∧
    ¬ AddsWithDevice unsetEnv ethRequest (onePlane .null) := by
  have hrun : (onPortAdd unsetEnv ethRequest (onePlane (.owned (ChainedHashTable.new 17 uintHash uintEq)))).map
      (fun r => (r.2, r.1.ports.heap.cells 0)) = .ok (fpOk, some ⟨1, 99⟩) := by
    decide +kernel
  have hnull : onPortAdd unsetEnv ethRequest (onePlane .null) = .error .nullDeref := rfl
  have htype : NoOpener ethRequest := rfl
  refine ⟨hrun, hnull, ?_, ?_⟩
  · rintro ⟨-, hno⟩
    obtain ⟨s', result, h, hresult, -⟩ := hno htype
    rw [h] at hrun
    exact hresult (congrArg Prod.fst (Except.ok.inj hrun))
  · rintro ⟨-, hno⟩
    obtain ⟨s', result, h, -⟩ := hno htype
    rw [hnull] at h
    cases h

end Flowpath
end Freeflow
