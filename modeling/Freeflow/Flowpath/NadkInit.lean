import Freeflow.Lib.Run
import Freeflow.Lib.Slots
import Freeflow.Flowpath.Nadk

/-!
# `Flowpath.NadkInit` — the global state of the NADK driver

`fp_nadk_init`, `fp_nadk_cleanup` and `fp_nadk_open` of `port_nadk.c`, with the variables of that file that they share. What
the functions of NADK answer during one call of `fp_nadk_init` is an argument (`InitCalls`): whether each of them succeeds,
and the devices that `device_list` holds. `Nadk.nadkOpen` is one call of `fp_nadk_open` by itself.

## Contents
- `Globals`, `start`.
- `InitCalls`, `discover`, `startDevices`, `nadkInit`.
- `nadkCleanup`.
- `makeReady`, `openReady`, `openPort`.
- `Call`, `Answer`, `call`: any of the three functions.
-/

namespace Freeflow
namespace Flowpath
namespace Nadk

/-- `NADK_FP_MAX_CONC_DEV`. -/
def maxConcDev : Nat := 8

/-- `NADK_FP_MIN_REQ_VQ`. -/
def minReqVq : Nat := 1

/-- The variables of `port_nadk.c`: the state, the fields of `nadk_res`, and the tables. A device of NADK is its address. -/
structure Globals where
  state : State
  ioContextCnt : Nat
  ethDevCnt : Nat
  concDevCnt : Nat
  netDev : Slots Nat maxEthDev
  concDev : Slots Nat maxConcDev
  rxRings : Slots (Ring Packet) maxEthDev
  txRings : Slots (Ring Packet) maxEthDev

/-- Before the first call. -/
def Globals.start : Globals := ⟨.uninit, 0, 0, 0, .empty, .empty, .empty, .empty⟩

/-! ## Initialization -/

/-- `dev_type`. -/
inductive DevType where
  | nic
  | conc
  | other
deriving DecidableEq, Repr

/-- A device in `device_list`. -/
structure ListedDev where
  address : Nat
  devType : DevType
deriving DecidableEq, Repr

/-- What the calls for one network device answer: whether its buffer pool is attached, the numbers of its virtual queues,
    `num_tcs` of its configuration if there is one, and whether it is set up and started. -/
structure DeviceCalls where
  attach : Bool
  maxRxVq : Nat
  maxTxVq : Nat
  numTcs : Option Nat
  setupRxVq : Bool
  start : Bool
  setupTxVq : Bool

/-- What the calls of one `fp_nadk_init` answer. -/
structure InitCalls where
  nadkInit : Bool
  ioContexts : Nat
  deviceList : List ListedDev
  affine : Bool
  poolList : Bool
  device : Nat → DeviceCalls

/-- One iteration of the loop over `device_list`. -/
def discover (g : Globals) (dev : ListedDev) : Checked Globals :=
  match dev.devType with
  | .nic =>
      if g.ethDevCnt < maxEthDev then do
        let netDev ← g.netDev.assign g.ethDevCnt (some dev.address)
        return { g with netDev, ethDevCnt := g.ethDevCnt + 1 }
      else return g
  | .conc =>
      if g.concDevCnt < maxConcDev then do
        let concDev ← g.concDev.assign g.concDevCnt (some dev.address)
        return { g with concDev, concDevCnt := g.concDevCnt + 1 }
      else return g
  | .other => return g

/-- The body of the loop over the network devices: whether it goes on to the next one. A device without a configuration of
    its queues ends the loop; its message names `num_tcs`, which is taken not to be read. -/
def startDevice (d : DeviceCalls) : Bool :=
  if !d.attach then false
  else if d.maxRxVq < minReqVq ∨ d.maxTxVq < minReqVq then false
  else if d.numTcs.all (· < minReqVq) then false
  else if !d.setupRxVq then false
  else if !d.start then false
  else d.setupTxVq

/-- The loop over the network devices, from the ones at the given indices. -/
def startDevices (g : Globals) (c : InitCalls) : List Nat → Checked Bool
  | [] => return true
  | i :: is => do
      let _ ← g.netDev.get i
      if startDevice (c.device i) then startDevices g c is else return false

/-- `fail_nadk_init:`. -/
def failNadkInit (g : Globals) : Checked (Globals × Bool) := return ({ g with state := .error }, false)

/-- `fp_nadk_init`, and whether it returns the resources. -/
def nadkInit (g : Globals) (c : InitCalls) : Checked (Globals × Bool) :=
  if !c.nadkInit then failNadkInit g
  else
    let g := { g with ioContextCnt := c.ioContexts }
    if g.ioContextCnt = 0 then failNadkInit g
    else do
      let g ← c.deviceList.foldlM discover g
      if g.ethDevCnt = 0 then failNadkInit g
      else if !c.affine then failNadkInit g
      else if !c.poolList then failNadkInit g
      else do
        let started ← startDevices g c (List.range g.ethDevCnt)
        if started then return ({ g with state := .init }, true) else failNadkInit g

/-! ## Cleanup -/

/-- `fp_nadk_cleanup`, and the devices it stops and shuts down. -/
def nadkCleanup (g : Globals) : Checked (Globals × List (Option Nat)) :=
  if g.state = .uninit then return (g, [])
  else do
    let stopped ← (List.range g.ethDevCnt).mapM (fun (i : Nat) => g.netDev.get i)
    return ({ g with state := .uninit }, stopped)

/-! ## Opening a port -/

/-- `if (fp_nadk_state == NADK_UNINIT) fp_nadk_init("dprc.6");`. -/
def makeReady (g : Globals) (c : InitCalls) : Checked Globals :=
  if g.state = .uninit then (nadkInit g c).map Prod.fst else return g

/-- The part of `fp_nadk_open` that follows. -/
def openReady (g : Globals) (rx tx : RingMemory) (p : Int) : Checked (Globals × Option Device) :=
  if g.state = .error then return (g, none)
  -- as in `nadkOpen`, this refuses exactly the negative ports
  else if p < 0 ∧ (g.ethDevCnt : Int) ≤ p % 4294967296 then return (g, none)
  else do
    let rxRings ← g.rxRings.assign p (some (Ring.new (2 * rxBudget) rx.cells))
    let txRings ← g.txRings.assign p (some (Ring.new (2 * rxBudget) tx.cells))
    let handle ← g.netDev.get p
    return ({ g with rxRings, txRings }, some {
      handle
      rxRing := Ring.new (2 * rxBudget) rx.cells
      txRing := Ring.new (2 * rxBudget) tx.cells
      dprcId := p })

/-- `fp_nadk_open` of port `p`. The calls are those of the initialization, if there is one. -/
def openPort (g : Globals) (c : InitCalls) (rx tx : RingMemory) (p : Int) : Checked (Globals × Option Device) := do
  let g ← makeReady g c
  openReady g rx tx p

/-! ## Any sequence of calls -/

/-- A call of one of the three functions. The parameter of `fp_nadk_open` is a `short`. -/
inductive Call where
  | init (c : InitCalls)
  | cleanup
  | openPort (c : InitCalls) (rx tx : RingMemory) (p : Int16)

/-- What a call shows: whether an initialization succeeded, and the handle of the device that was opened, if one was. -/
inductive Answer where
  | init (done : Bool)
  | cleanup
  | openPort (handle : Option (Option Nat))
deriving DecidableEq, Repr

/-- A call. -/
def call (g : Globals) : Call → Checked (Globals × Answer)
  | .init c => do
      let (g, done) ← nadkInit g c
      return (g, .init done)
  | .cleanup => do
      let (g, _) ← nadkCleanup g
      return (g, .cleanup)
  | .openPort c rx tx p => do
      let (g, port) ← openPort g c rx tx p.toInt
      return (g, .openPort (port.map Device.handle))

end Nadk
end Flowpath
end Freeflow
