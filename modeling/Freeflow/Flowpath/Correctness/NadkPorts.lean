import Freeflow.Flowpath.NadkInit
import Freeflow.Flowpath.Correctness.NadkReceive

/-!
# `Flowpath.Correctness.NadkPorts` — which device a NADK port is

The ports that `fp_nadk_open` gives are meant to be the network devices that the last initialization discovered. `History` is
that abstract machine; it also keeps every device found since the process started, for that is what the code keeps
(`Tracks`): its counter never goes back to 0, so the table fills up over all initializations. A run answers as the abstract
machine does exactly when each port that it opens is the same device in both lists (`ports_current_iff`).
-/

namespace Freeflow
namespace Flowpath
namespace Nadk

/-! ## What is discovered -/

/-- Whether an initialization gets as far as the list of devices. -/
def InitCalls.discovers (c : InitCalls) : Bool := c.nadkInit && c.ioContexts != 0

/-- A device, if it is a network device. -/
def nic (dev : ListedDev) : List Nat :=
  match dev.devType with
  | .nic => [dev.address]
  | _ => []

/-- The network devices in a list of devices. -/
def nics (devs : List ListedDev) : List Nat := devs.flatMap nic

/-- Whether an initialization succeeds, where `n` network devices have been found since the start. -/
def InitCalls.succeeds (c : InitCalls) (n : Nat) : Bool :=
  c.discovers && n != 0 && c.affine && c.poolList
    && (List.range (min n maxEthDev)).all (fun i => startDevice (c.device i))

/-- The network devices found since the start, those that the last initialization found if it succeeded, and whether a port
    that is opened next begins with an initialization. -/
structure History where
  found : List Nat
  last : Option (List Nat)
  pending : Bool

namespace History

/-- Before the first call. -/
def start : History := ⟨[], none, true⟩

def init (h : History) (c : InitCalls) : History :=
  let found := if c.discovers then h.found ++ nics c.deviceList else h.found
  ⟨found, if c.succeeds found.length then some (nics c.deviceList) else none, false⟩

def cleanup (h : History) : History := { h with pending := true }

/-- The initialization that opening a port begins with, if it does. -/
def ready (h : History) (c : InitCalls) : History := if h.pending then h.init c else h

/-- The `p`-th device of the last discovery. -/
def device (h : History) (p : Int) : Option Nat := if p < 0 then none else h.last.bind (fun ds => ds[p.toNat]?)

/-- The abstract machine: a port is a device of the last discovery. -/
def step (h : History) : Call → History × Answer
  | .init c => (h.init c, .init (h.init c).last.isSome)
  | .cleanup => (h.cleanup, .cleanup)
  | .openPort c _ _ p => (h.ready c, .openPort (((h.ready c).device p.toInt).map some))

/-- Port `p` is in the table, and the same device among all that were found and among those of the last discovery. -/
def Names (h : History) (p : Int) : Prop :=
  p < maxEthDev ∧ ∃ d, h.device p = some d ∧ h.found[p.toNat]? = some d

/-- The last initialization failed, or `p` is negative, or it is the same device in both lists. -/
def Current (h : History) : Call → Prop
  | .openPort c _ _ p => (h.ready c).last = none ∨ p.toInt < 0 ∨ (h.ready c).Names p.toInt
  | _ => True

/-- The state that the code is in. -/
def state (h : History) : State := if h.pending then .uninit else if h.last.isSome then .init else .error

end History

/-! ## The table of devices -/

/-- The table holds the devices found since the start, as far as there is room. -/
structure Fills (g : Globals) (found : List Nat) : Prop where
  count : g.ethDevCnt = min found.length maxEthDev
  slots : ∀ i < maxEthDev, g.netDev.cells[i]? = some found[i]?

variable {g g' : Globals} {found : List Nat} {h : History}

theorem Fills.get_eq (F : Fills g found) {i : Nat} (hi : i < maxEthDev) : g.netDev.get i = .ok found[i]? :=
  Slots.get_eq (F.slots i hi)

theorem Fills.congr (F : Fills g found) (hcount : g'.ethDevCnt = g.ethDevCnt) (hdev : g'.netDev = g.netDev) :
    Fills g' found :=
  ⟨hcount.trans F.count, by rw [hdev]; exact F.slots⟩

/-- The next device goes to the slot behind the last one. -/
theorem Fills.snoc (F : Fills g found) (d : Nat) (hroom : g.ethDevCnt < maxEthDev) :
    Fills { g with netDev := g.netDev.put g.ethDevCnt (some d), ethDevCnt := g.ethDevCnt + 1 } (found ++ [d]) := by
  have hlen : g.ethDevCnt = found.length := by
    have hcount := F.count
    omega
  constructor
  · rw [List.length_append, List.length_singleton, ← hlen]
    exact (min_eq_left hroom).symm
  · intro i hi
    rw [Slots.cells_put, hlen]
    by_cases hend : i = found.length
    · subst hend
      rw [List.getElem?_set_self (by rw [g.netDev.length_eq]; exact hi), List.getElem?_concat_length]
    · rw [List.getElem?_set_ne (Ne.symm hend), F.slots i hi]
      congr 1
      by_cases hlt : i < found.length
      · rw [List.getElem?_append_left hlt]
      · rw [List.getElem?_eq_none (by omega), List.getElem?_eq_none (by rw [List.length_append, List.length_singleton]; omega)]

/-- In a full table nothing changes. -/
theorem Fills.full (F : Fills g found) (ds : List Nat) (hfull : ¬ g.ethDevCnt < maxEthDev) : Fills g (found ++ ds) := by
  have hlen : maxEthDev ≤ found.length := by
    have hcount := F.count
    omega
  constructor
  · rw [F.count, List.length_append]
    omega
  · intro i hi
    rw [F.slots i hi, List.getElem?_append_left (by omega)]

/-- One iteration of the loop over `device_list`. -/
theorem Fills.discover (F : Fills g found) (dev : ListedDev) :
    ∃ g', Nadk.discover g dev = .ok g' ∧ Fills g' (found ++ nic dev) := by
  obtain ⟨address, devType⟩ := dev
  unfold Nadk.discover nic
  cases devType with
  | nic =>
      dsimp only
      by_cases hroom : g.ethDevCnt < maxEthDev
      · rw [if_pos hroom, g.netDev.assign_of_lt hroom, ok_bind]
        exact ⟨_, rfl, F.snoc address hroom⟩
      · rw [if_neg hroom]
        exact ⟨g, rfl, F.full _ hroom⟩
  | conc =>
      dsimp only
      rw [List.append_nil]
      by_cases hroom : g.concDevCnt < maxConcDev
      · rw [if_pos hroom, g.concDev.assign_of_lt hroom, ok_bind]
        exact ⟨_, rfl, F.congr rfl rfl⟩
      · rw [if_neg hroom]
        exact ⟨g, rfl, F⟩
  | other =>
      rw [List.append_nil]
      exact ⟨g, rfl, F⟩

/-- The loop. -/
theorem Fills.discoverAll (F : Fills g found) (devs : List ListedDev) :
    ∃ g', devs.foldlM Nadk.discover g = .ok g' ∧ Fills g' (found ++ nics devs) := by
  induction devs generalizing g found with
  | nil => exact ⟨g, rfl, by rw [nics, List.flatMap_nil, List.append_nil]; exact F⟩
  | cons dev devs ih =>
      obtain ⟨g₁, h₁, F₁⟩ := F.discover dev
      obtain ⟨g₂, h₂, F₂⟩ := ih F₁
      refine ⟨g₂, by rw [List.foldlM_cons, h₁, ok_bind, h₂], ?_⟩
      rw [nics, List.flatMap_cons, ← List.append_assoc]
      exact F₂

/-- The loop over the network devices reads inside the table. -/
theorem Fills.startDevices_eq (F : Fills g found) (c : InitCalls) :
    ∀ (is : List Nat), (∀ i ∈ is, i < maxEthDev) →
      startDevices g c is = .ok (is.all (fun i => startDevice (c.device i)))
  | [], _ => rfl
  | i :: is, h => by
      rw [List.forall_mem_cons] at h
      rw [startDevices, F.get_eq h.1, ok_bind, List.all_cons]
      cases hstart : startDevice (c.device i) with
      | false => rfl
      | true => exact F.startDevices_eq c is h.2

/-! ## The three functions -/

/-- The variables of the code, and what has been discovered. -/
structure Tracks (g : Globals) (h : History) : Prop where
  fills : Fills g h.found
  state_eq : g.state = h.state

theorem Tracks.start : Tracks Globals.start History.start :=
  ⟨⟨rfl, by intro i hi; rw [Globals.start, Slots.empty, List.getElem?_replicate, if_pos hi]; rfl⟩, rfl⟩

theorem History.last_init (h : History) (c : InitCalls) :
    (h.init c).last = if c.succeeds (h.init c).found.length then some (nics c.deviceList) else none := rfl

/-- An initialization that fails. -/
theorem Fills.fail {c : InitCalls} (F : Fills g (h.init c).found) (hfail : c.succeeds (h.init c).found.length = false) :
    ∃ g', failNadkInit g = .ok (g', (h.init c).last.isSome) ∧ Tracks g' (h.init c) := by
  have hlast : (h.init c).last = none := by rw [History.last_init, hfail]; rfl
  refine ⟨{ g with state := .error }, by rw [hlast]; rfl, F.congr rfl rfl, ?_⟩
  rw [History.state, hlast]
  rfl

/-- An initialization that does not get as far as the list of devices. -/
theorem Fills.nadkInit_undiscovered {c : InitCalls} (F : Fills g h.found) (hdisc : c.discovers = false) :
    ∃ g', Nadk.nadkInit g c = .ok (g', (h.init c).last.isSome) ∧ Tracks g' (h.init c) := by
  have hfail : ∀ n, c.succeeds n = false := by
    intro n
    rw [InitCalls.succeeds, hdisc, Bool.false_and, Bool.false_and, Bool.false_and, Bool.false_and]
  have hfound : (h.init c).found = h.found := if_neg (by rw [hdisc]; decide)
  rw [← hfound] at F
  unfold Nadk.nadkInit
  dsimp only
  cases hinit : c.nadkInit with
  | false => exact F.fail (hfail _)
  | true =>
      have Fctx : Fills { g with ioContextCnt := c.ioContexts } (h.init c).found := F.congr rfl rfl
      have hctx : c.ioContexts = 0 := by
        rw [InitCalls.discovers, hinit, Bool.true_and] at hdisc
        simpa using hdisc
      rw [if_neg (by decide), if_pos hctx]
      exact Fctx.fail (hfail _)

/-- An initialization adds the devices it discovers to the table, and succeeds if all of its calls do and the table is not
    empty. -/
theorem Fills.nadkInit (F : Fills g h.found) (c : InitCalls) :
    ∃ g', Nadk.nadkInit g c = .ok (g', (h.init c).last.isSome) ∧ Tracks g' (h.init c) := by
  cases hdisc : c.discovers with
  | false => exact F.nadkInit_undiscovered hdisc
  | true =>
      have Fctx : Fills { g with ioContextCnt := c.ioContexts } h.found := F.congr rfl rfl
      have hfound : (h.init c).found = h.found ++ nics c.deviceList := if_pos hdisc
      obtain ⟨hinit, hctx⟩ : c.nadkInit = true ∧ c.ioContexts ≠ 0 := by
        simpa [InitCalls.discovers] using hdisc
      obtain ⟨g₁, hloop, F₁⟩ := Fctx.discoverAll c.deviceList
      rw [← hfound] at F₁
      have hcount := F₁.count
      have hsucceeds : c.succeeds (h.init c).found.length
          = ((h.init c).found.length != 0 && c.affine && c.poolList
            && (List.range g₁.ethDevCnt).all (fun i => startDevice (c.device i))) := by
        rw [InitCalls.succeeds, hdisc, hcount, Bool.true_and]
      rw [Nadk.nadkInit, if_neg (by rw [hinit]; decide)]
      dsimp only
      rw [if_neg hctx, hloop, ok_bind]
      by_cases hzero : (h.init c).found.length = 0
      · rw [if_pos (by rw [hcount, hzero]; rfl)]
        exact F₁.fail (by rw [hsucceeds, hzero]; rfl)
      rw [if_neg (by unfold maxEthDev at hcount; omega)]
      cases haffine : c.affine with
      | false => exact F₁.fail (by rw [hsucceeds, haffine, Bool.and_false, Bool.false_and, Bool.false_and])
      | true =>
          cases hpool : c.poolList with
          | false => exact F₁.fail (by rw [hsucceeds, hpool, Bool.and_false, Bool.false_and])
          | true =>
              rw [haffine, hpool, bne_iff_ne.mpr hzero, Bool.true_and, Bool.true_and, Bool.true_and] at hsucceeds
              have hinside : ∀ i ∈ List.range g₁.ethDevCnt, i < maxEthDev := fun i hi => by
                rw [List.mem_range, hcount] at hi
                omega
              rw [if_neg (by decide), if_neg (by decide), F₁.startDevices_eq c _ hinside, ok_bind, ← hsucceeds]
              cases hall : c.succeeds (h.init c).found.length with
              | false => exact F₁.fail hall
              | true =>
                  have hlast : (h.init c).last = some (nics c.deviceList) := by rw [History.last_init, hall]; rfl
                  refine ⟨{ g₁ with state := .init }, by rw [hlast]; rfl, F₁.congr rfl rfl, ?_⟩
                  rw [History.state, hlast]
                  rfl

/-- A cleanup stops the devices in the table and leaves them there. -/
theorem Tracks.cleanup (T : Tracks g h) : ∃ g' stopped, nadkCleanup g = .ok (g', stopped) ∧ Tracks g' h.cleanup := by
  unfold nadkCleanup
  by_cases huninit : g.state = .uninit
  · rw [if_pos huninit]
    exact ⟨g, [], rfl, T.fills, huninit⟩
  · have hread : List.Forall₂ (fun (i : Nat) d => g.netDev.get (i : Int) = .ok d) (List.range g.ethDevCnt)
        ((List.range g.ethDevCnt).map (fun i => h.found[i]?)) := by
      rw [List.forall₂_map_right_iff, List.forall₂_same]
      intro i hi
      rw [List.mem_range, T.fills.count] at hi
      exact T.fills.get_eq (by omega)
    rw [if_neg huninit, mapM_eq_ok_iff.mpr hread]
    exact ⟨_, _, rfl, T.fills.congr rfl rfl, rfl⟩

/-- Before a port is opened, the driver is initialized if it is not. -/
theorem Tracks.ready (T : Tracks g h) (c : InitCalls) :
    ∃ g', makeReady g c = .ok g' ∧ Tracks g' (h.ready c) ∧ (h.ready c).pending = false := by
  rw [makeReady, T.state_eq, History.state, History.ready]
  cases hpending : h.pending with
  | true =>
      obtain ⟨g', hinit, T'⟩ := T.fills.nadkInit c
      refine ⟨g', ?_, T', rfl⟩
      rw [if_pos (by rfl), hinit]
      rfl
  | false => exact ⟨g, if_neg (by cases h.last <;> simp), T, hpending⟩

theorem Tracks.state_ready (T : Tracks g h) (hready : h.pending = false) :
    g.state = if h.last.isSome then .init else .error := by
  rw [T.state_eq, History.state, hready]
  rfl

section Open

variable {rx tx : RingMemory} {p : Int16}

/-- After a failed initialization no port is opened, and a negative one never is. -/
theorem Tracks.openReady_refused (T : Tracks g h) (hready : h.pending = false) (hp : h.last = none ∨ p.toInt < 0) :
    openReady g rx tx p.toInt = .ok (g, none) := by
  have hstate := T.state_ready hready
  unfold openReady
  cases hlast : h.last with
  | none =>
      rw [hlast] at hstate
      exact if_pos hstate
  | some ds =>
      have hshort : -32768 ≤ p.toInt := Int16.le_toInt p
      have hcount := T.fills.count
      have hneg : p.toInt < 0 := hp.resolve_left (by rw [hlast]; exact fun hnone => by cases hnone)
      unfold maxEthDev at hcount
      rw [hlast] at hstate
      rw [if_neg (by rw [hstate]; exact fun heq => by cases heq)]
      exact if_pos ⟨hneg, by omega⟩

/-- Any other port is taken for an index of the tables. -/
theorem Tracks.openReady_eq (T : Tracks g h) (hready : h.pending = false) (hlast : h.last ≠ none) (hp : 0 ≤ p.toInt) :
    openReady g rx tx p.toInt = (do
      let rxRings ← g.rxRings.assign p.toInt (some (Ring.new (2 * rxBudget) rx.cells))
      let txRings ← g.txRings.assign p.toInt (some (Ring.new (2 * rxBudget) tx.cells))
      let handle ← g.netDev.get p.toInt
      return ({ g with rxRings, txRings }, some {
        handle
        rxRing := Ring.new (2 * rxBudget) rx.cells
        txRing := Ring.new (2 * rxBudget) tx.cells
        dprcId := p.toInt })) := by
  have hstate := T.state_ready hready
  rw [if_pos (Option.isSome_iff_ne_none.mpr hlast)] at hstate
  rw [openReady, if_neg (by rw [hstate]; exact fun heq => by cases heq), if_neg (by omega)]

/-- A port inside the tables is opened, whatever is there. -/
theorem Tracks.openReady_inside (T : Tracks g h) (rx tx : RingMemory) (hready : h.pending = false) (hlast : h.last ≠ none)
    (hp : 0 ≤ p.toInt) (hlt : p.toInt < maxEthDev) :
    ∃ g', openReady g rx tx p.toInt = .ok (g', some {
        handle := h.found[p.toInt.toNat]?
        rxRing := Ring.new (2 * rxBudget) rx.cells
        txRing := Ring.new (2 * rxBudget) tx.cells
        dprcId := p.toInt }) ∧ Tracks g' h := by
  obtain ⟨n, hn⟩ : ∃ n : Nat, p.toInt = n := Int.eq_ofNat_of_zero_le hp
  have hnlt : n < maxEthDev := by omega
  rw [T.openReady_eq hready hlast hp, hn, Slots.assign_of_lt _ hnlt, ok_bind, Slots.assign_of_lt _ hnlt, ok_bind,
    T.fills.get_eq hnlt, ok_bind]
  exact ⟨_, rfl, T.fills.congr rfl rfl, T.state_eq⟩

/-- A port beyond the tables is written outside them. -/
theorem Tracks.openReady_beyond (T : Tracks g h) (hready : h.pending = false) (hlast : h.last ≠ none)
    (hp : (maxEthDev : Int) ≤ p.toInt) : openReady g rx tx p.toInt = .error .outOfBounds := by
  rw [T.openReady_eq hready hlast (by omega), Slots.assign_error _ (by omega)]
  rfl

/-- A port that is refused has no device. -/
theorem History.device_refused (hp : h.last = none ∨ p.toInt < 0) : h.device p.toInt = none := by
  unfold History.device
  rcases hp with hlast | hneg
  · rw [hlast]
    split <;> rfl
  · rw [if_pos hneg]

/-- **Opening a port** gives a device of the last discovery exactly when the port is the same device in both lists. -/
theorem Tracks.openPort_iff (T : Tracks g h) (c : InitCalls) (rx tx : RingMemory) (p : Int16) :
    ((h.ready c).last = none ∨ p.toInt < 0 ∨ (h.ready c).Names p.toInt ↔
      ∃ g' port, openPort g c rx tx p.toInt = .ok (g', port)
        ∧ port.map Device.handle = ((h.ready c).device p.toInt).map some)
    ∧ ∀ g' port, openPort g c rx tx p.toInt = .ok (g', port) → Tracks g' (h.ready c) := by
  obtain ⟨g₁, hg₁, T₁, hready⟩ := T.ready c
  have heq : openPort g c rx tx p.toInt = openReady g₁ rx tx p.toInt := by rw [openPort, hg₁, ok_bind]
  rw [heq]
  generalize h.ready c = h₁ at T₁ hready
  by_cases hrefused : h₁.last = none ∨ p.toInt < 0
  · rw [T₁.openReady_refused hready hrefused, History.device_refused hrefused]
    constructor
    · exact ⟨fun _ => ⟨g₁, none, rfl, rfl⟩, fun _ => by rw [← or_assoc]; exact Or.inl hrefused⟩
    · intro g' port hopen
      cases hopen
      exact T₁
  · obtain ⟨hlast, hpos⟩ := not_or.mp hrefused
    rw [or_iff_right hlast, or_iff_right hpos]
    by_cases hlt : p.toInt < maxEthDev
    · obtain ⟨g', hopen, T'⟩ := T₁.openReady_inside rx tx hready hlast (not_lt.mp hpos) hlt
      rw [hopen]
      constructor
      · constructor
        · rintro ⟨-, d, hdevice, hfound⟩
          exact ⟨g', _, rfl, by rw [hdevice, hfound]; rfl⟩
        · rintro ⟨g'', port, hport, hhandle⟩
          cases hport
          cases hdevice : h₁.device p.toInt with
          | none =>
              rw [hdevice] at hhandle
              cases hhandle
          | some d =>
              rw [hdevice] at hhandle
              exact ⟨hlt, d, hdevice, Option.some.inj hhandle⟩
      · intro g'' port hport
        cases hport
        exact T'
    · rw [T₁.openReady_beyond hready hlast (not_lt.mp hlt)]
      constructor
      · exact ⟨fun hnames => absurd hnames.1 hlt, fun ⟨_, _, hport, _⟩ => by cases hport⟩
      · intro g' port hport
        cases hport

end Open

/-! ## One call by itself -/

/-- After the initialization, `nadkOpen` is what a call does to the device. -/
theorem openReady_nadkOpen {rx tx : RingMemory} (hready : g.state ≠ .uninit) (initialized : Bool) (p : Int) :
    (openReady g rx tx p).map Prod.snd = nadkOpen g.state initialized g.ethDevCnt g.netDev rx tx p := by
  rw [openReady, nadkOpen, if_neg hready]
  by_cases herror : g.state = .error
  · rw [if_pos herror, if_pos herror]
    rfl
  rw [if_neg herror, if_neg herror]
  by_cases hneg : p < 0 ∧ (g.ethDevCnt : Int) ≤ p % 4294967296
  · rw [if_pos hneg, if_pos hneg]
    rfl
  rw [if_neg hneg, if_neg hneg]
  by_cases hinside : 0 ≤ p ∧ p < maxEthDev
  · obtain ⟨n, rfl⟩ : ∃ n : Nat, p = n := Int.eq_ofNat_of_zero_le hinside.1
    have hn : n < maxEthDev := by omega
    have hlen : n < g.netDev.cells.length := by rw [g.netDev.length_eq]; exact hn
    have hget : g.netDev.get n = .ok g.netDev.cells[n] := Slots.get_eq (List.getElem?_eq_getElem hlen)
    rw [if_pos hinside, Slots.assign_of_lt _ hn, ok_bind, Slots.assign_of_lt _ hn, ok_bind, hget, ok_bind, ok_bind]
    rfl
  · rw [if_neg hinside, Slots.assign_error _ hinside]
    rfl

/-- **A call of `fp_nadk_open` is `nadkOpen`**, for an initialization that succeeds as the abstract machine says, and with
    the table that it leaves. -/
theorem Tracks.openPort_nadkOpen {rx tx : RingMemory} (T : Tracks g h) (c : InitCalls) (p : Int) :
    ∃ g₁, makeReady g c = .ok g₁ ∧ Fills g₁ (h.ready c).found ∧ (openPort g c rx tx p).map Prod.snd
      = nadkOpen g.state (h.ready c).last.isSome (min (h.ready c).found.length maxEthDev) g₁.netDev rx tx p := by
  obtain ⟨g₁, hg₁, T₁, hready⟩ := T.ready c
  refine ⟨g₁, hg₁, T₁.fills, ?_⟩
  have hstate := T₁.state_ready hready
  have hopen : nadkOpen g.state (h.ready c).last.isSome g₁.ethDevCnt g₁.netDev rx tx p
      = nadkOpen g₁.state (h.ready c).last.isSome g₁.ethDevCnt g₁.netDev rx tx p := by
    cases hpending : h.pending with
    | true =>
        rw [hstate, T.state_eq, History.state, hpending]
        cases (h.ready c).last <;> rfl
    | false =>
        have hsame : h.ready c = h := by rw [History.ready, hpending]; rfl
        rw [hstate, hsame, T.state_ready hpending]
  have hne : g₁.state ≠ .uninit := by
    rw [hstate]
    cases (h.ready c).last <;> exact fun heq => by cases heq
  rw [openPort, hg₁, ok_bind, openReady_nadkOpen hne, ← T₁.fills.count, hopen]

/-! ## Runs -/

/-- A call that is always current. -/
theorem Tracks.call_current {i : Call} (hcurrent : h.Current i) (hcall : call g i = .ok (g', (h.step i).2))
    (T : Tracks g' (h.step i).1) :
    (h.Current i ↔ ∃ g', call g i = .ok (g', (h.step i).2))
    ∧ ∀ g' o, call g i = .ok (g', o) → Tracks g' (h.step i).1 := by
  refine ⟨⟨fun _ => ⟨g', hcall⟩, fun _ => hcurrent⟩, fun g'' o ho => ?_⟩
  rw [hcall] at ho
  cases ho
  exact T

/-- One call answers as the abstract machine exactly when the port it opens, if any, is current. -/
theorem Tracks.call_iff (T : Tracks g h) (i : Call) :
    (h.Current i ↔ ∃ g', call g i = .ok (g', (h.step i).2))
    ∧ ∀ g' o, call g i = .ok (g', o) → Tracks g' (h.step i).1 := by
  cases i with
  | init c =>
      obtain ⟨g', hinit, T'⟩ := T.fills.nadkInit c
      have hcall : call g (.init c) = .ok (g', .init (h.init c).last.isSome) := by
        rw [call, hinit]
        rfl
      exact Tracks.call_current trivial hcall T'
  | cleanup =>
      obtain ⟨g', stopped, hcleanup, T'⟩ := T.cleanup
      have hcall : call g .cleanup = .ok (g', .cleanup) := by
        rw [call, hcleanup]
        rfl
      exact Tracks.call_current trivial hcall T'
  | openPort c rx tx p =>
      obtain ⟨hiff, htracks⟩ := T.openPort_iff c rx tx p
      constructor
      · apply hiff.trans
        constructor
        · rintro ⟨g', port, hopen, hhandle⟩
          refine ⟨g', ?_⟩
          rw [call, hopen, ok_bind, History.step, ← hhandle]
          rfl
        · rintro ⟨g', hcall⟩
          obtain ⟨⟨g'', port⟩, hopen, hrest⟩ := bind_eq_ok hcall
          obtain ⟨-, hanswer⟩ := Prod.mk.inj (Except.ok.inj hrest)
          exact ⟨g'', port, hopen, Answer.openPort.inj hanswer⟩
      · intro g' o ho
        obtain ⟨⟨g'', port⟩, hopen, hrest⟩ := bind_eq_ok ho
        obtain ⟨rfl, -⟩ := Prod.mk.inj (Except.ok.inj hrest)
        exact htracks g'' port hopen

/-- **NADK ports are devices of the current discovery** in exactly the runs in which every port that is opened is current:
    then nothing outside the tables is accessed, and every call answers as the abstract machine does. -/
theorem ports_current_iff (calls : List Call) :
    (∃ g, runAll call Globals.start calls = .ok (g, (specAll History.step History.start calls).2)) ↔
      Guarded (fun h i => .ok (h.step i)) History.Current History.start calls :=
  runAll_refines_iff Tracks History.Current (fun _ _ i T => (T.call_iff i).1) (fun _ _ i g' o T ho => (T.call_iff i).2 g' o ho)
    calls Globals.start History.start Tracks.start

/-- After the first initialization the two lists are one, and the current ports are the devices in it that are in the
    table. -/
theorem History.names_first_iff {c : InitCalls} {p : Int} (hdone : (start.init c).last ≠ none) (hp : 0 ≤ p) :
    (start.init c).Names p ↔ p < maxEthDev ∧ p.toNat < (nics c.deviceList).length := by
  have hsucceeds : c.succeeds (start.init c).found.length = true := by
    by_contra hfail
    exact hdone (if_neg hfail)
  have hdisc : c.discovers = true := by
    rw [InitCalls.succeeds, Bool.and_eq_true, Bool.and_eq_true, Bool.and_eq_true, Bool.and_eq_true] at hsucceeds
    exact hsucceeds.1.1.1.1
  have hfound : (start.init c).found = nics c.deviceList := if_pos hdisc
  have hdevice : (start.init c).device p = (nics c.deviceList)[p.toNat]? := by
    rw [History.device, if_neg (not_lt.mpr hp), History.last_init, if_pos hsucceeds]
    rfl
  rw [History.Names, hdevice, hfound]
  apply and_congr_right
  intro _
  constructor
  · rintro ⟨d, hd, -⟩
    exact (List.getElem?_eq_some_iff.mp hd).1
  · exact fun hlt => ⟨_, List.getElem?_eq_getElem hlt, List.getElem?_eq_getElem hlt⟩

/-- An initialization in which everything succeeds, with one network device. -/
def oneNic (address : Nat) : InitCalls :=
  ⟨true, 1, [⟨address, .nic⟩], true, true, fun _ => ⟨true, 1, 1, some 1, true, true, true⟩⟩

/-- One device, and port 1 is opened. -/
def missing : List Call := [.init (oneNic 7), .openPort (oneNic 7) nullCells nullCells 1]

/-- After another initialization port 0 is opened. -/
def reopened : List Call :=
  [.init (oneNic 7), .cleanup, .init (oneNic 8), .openPort (oneNic 8) nullCells nullCells 0]

/-- The port that is missing is opened without a device, and the other one is the device of the first initialization; and
    port 16 is written outside the tables. -/
theorem stale_port :
    (runAll call Globals.start missing).map Prod.snd = .ok [.init true, .openPort (some none)]
      ∧ (specAll History.step History.start missing).2 = [.init true, .openPort none]
      ∧ (runAll call Globals.start reopened).map Prod.snd = .ok [.init true, .cleanup, .init true, .openPort (some (some 7))]
      ∧ (specAll History.step History.start reopened).2 = [.init true, .cleanup, .init true, .openPort (some (some 8))]
      ∧ (runAll call Globals.start [.openPort (oneNic 7) nullCells nullCells 16]).map Prod.snd = .error .outOfBounds
      ∧ ¬ ∃ g, runAll call Globals.start missing = .ok (g, (specAll History.step History.start missing).2) := by
  have hcode : (runAll call Globals.start missing).map Prod.snd = .ok [.init true, .openPort (some none)] := by rfl
  have hspec : (specAll History.step History.start missing).2 = [.init true, .openPort none] := by rfl
  refine ⟨hcode, hspec, by rfl, by rfl, by rfl, ?_⟩
  rintro ⟨g, hrun⟩
  rw [hrun, hspec] at hcode
  cases hcode

end Nadk
end Flowpath
end Freeflow
