import Freeflow.Flowmgr.Request
import Freeflow.Flowmgr.Switch
import Mathlib.Logic.Function.Basic

/-!
# `Flowmgr.Loop` — the main loop of `flowmgr` and its four handlers

`main.cpp`, with the handlers of `control.cpp` and `switch.cpp`, `Io_map` of `async.hpp` and `Poll_set` of `poll.hpp`.
A pointer to a handler is a number, and `new` gives a number that was never in use, so a dangling pointer stays
dangling. What the system calls of one `on_input` answer is an argument (`Answers`), and so is what `poll` reports in
one iteration (`Turn`). A signal that ends the process ends the run.

## Contents
- `IoHandler`, `State`, the descriptor table and the heap.
- `registerHandler`, and `on_input` of the four handlers.
- `destroy`, `unregisterHandler`.
- `processEvents`, `turn`: one iteration of the loop; `State.start` and `finish` around it.
-/

namespace Freeflow
namespace Flowmgr

open Json (Text ascii)
open Flowpath (Received messageLen)

/-! ## The state -/

/-- The classes derived from `Io_handler`. -/
inductive Kind where
  | controlServer
  | switchServer
  | controlChannel
  | switchChannel
deriving DecidableEq, Repr

/-- `Io_handler`. -/
structure IoHandler where
  kind : Kind
  fd : Nat
deriving DecidableEq, Repr

/-- The process between two statements: its open descriptors, its live handlers and the next free address, the
    globals `ios`, `ps`, `ctrl_` and `switch_`. -/
structure State where
  openFds : List Nat
  heap : Nat → Option IoHandler
  next : Nat
  ios : Nat → Option Nat
  ps : List Nat
  ctrl : Option Nat
  switch : Option Nat

/-- What an iteration sends: an event of the channel's command, the message of `~Switch_channel`, or a call of
    `on_reply`. What is written to the socket is `Effect.text` of `Flowmgr.Reply`; there the call of `on_reply` may be
    undefined, with `fp_strerror`. -/
inductive Effect where
  | sent (c : Nat) (e : Event)
  | shutdown (c : Nat)
  | replied (c : Nat) (rep : Received)
deriving DecidableEq, Repr

/-- The answers of the system calls that one `on_input` may make: whether `accept` gives a descriptor, what `recv`
    reads (nothing at the end of the stream or on an error) into a buffer that held `inbuf`, and whether the switch's
    socket takes a message. -/
structure Answers where
  accepted : Bool
  chunk : List UInt8
  inbuf : List UInt8
  taken : Bool
deriving DecidableEq, Repr

/-- The lowest descriptor that is not open. -/
def lowestUnused (fds : List Nat) : Nat :=
  ((List.range (fds.length + 1)).find? (fun fd => fd ∉ fds)).getD 0

/-- `accept` succeeds. -/
def State.accept (s : State) : State := { s with openFds := lowestUnused s.openFds :: s.openFds }

/-- `close`, which does nothing to a descriptor that is not open. -/
def State.close (s : State) (fd : Nat) : State := { s with openFds := s.openFds.filter (· ≠ fd) }

/-- The handler behind a pointer. -/
def State.deref (s : State) (id : Nat) : Checked IoHandler :=
  match s.heap id with
  | some h => .ok h
  | none => .error .useAfterFree

/-- `register_handler`. The insertion keeps an entry that is there. -/
def State.registerHandler (s : State) (id fd : Nat) : State :=
  { s with
    ios := if (s.ios fd).isSome then s.ios else Function.update s.ios fd (some id)
    ps := s.ps ++ [fd] }

/-! ## `on_input` -/

/-- `new` of a handler for `fd`, and its registration. -/
def State.attach (s : State) (kind : Kind) (fd : Nat) : State :=
  State.registerHandler
    { s with heap := Function.update s.heap s.next (some ⟨kind, fd⟩), next := s.next + 1 } s.next fd

/-- The common text of `on_input` of the two servers: `current` is the global of its channel, `kind` the class of the
    channel. A connection that is not wanted stays open. -/
def serverOnInput (kind : Kind) (current : Option Nat) (a : Answers) (s : State) : State × Bool :=
  if a.accepted then
    match current with
    | some _ => (s.accept, false)
    | none => (s.accept.attach kind (lowestUnused s.openFds), true)
  else (s, false)

/-- `Control_server::on_input`. -/
def controlServerOnInput (a : Answers) (s : State) : State × Bool × List Effect :=
  match serverOnInput .controlChannel s.ctrl a s with
  | (s', false) => (s', false, [])
  | (s', true) =>
      -- `require_switch` tells the client, and its result is not looked at
      ({ s' with ctrl := some s.next }, true,
        if s.switch.isSome then [] else [.sent s.next (.error "flowpath is not running")])

/-- `Switch_server::on_input`. -/
def switchServerOnInput (a : Answers) (s : State) : State × Bool × List Effect :=
  match serverOnInput .switchChannel s.switch a s with
  | (s', false) => (s', false, [])
  | (s', true) => ({ s' with switch := some s.next }, true, [])

/-- `bufsize` of `Control_channel::on_input`. -/
def bufsize : Nat := 1024

/-- The `recv` of a control channel ends the connection: nothing was read, or a whole buffer. -/
def Answers.ends (a : Answers) : Bool :=
  (a.chunk.take bufsize).length = 0 ∨ (a.chunk.take bufsize).length = bufsize

/-- `switch_`, as a command finds it. -/
def State.link (s : State) (a : Answers) : Link :=
  match s.switch with
  | none => .absent
  | some _ => if a.taken then .accepting else .refusing

variable (hash : Text → Nat)

/-- `Control_channel::on_input`. -/
def controlChannelOnInput (c : Nat) (a : Answers) (s : State) : Checked (State × Bool × List Effect) :=
  if a.ends then .ok (s, false, [])
  else
    match request hash (s.link a) (a.chunk.take bufsize) [] with
    | .ok isOpen events => .ok (s, isOpen, events.map (.sent c))
    | .error f _ => .error f

/-- `Switch_channel::on_input`, up to the call of `on_reply`. -/
def switchChannelOnInput (a : Answers) (s : State) : Checked (State × Bool × List Effect) := do
  let (isOpen, rep) ← switchOnInput s.ctrl.isSome a.inbuf (a.chunk.take messageLen)
  match rep, s.ctrl with
  | some r, some flowctl => do
      let _ ← s.deref flowctl
      return (s, isOpen, [.replied flowctl r])
  | _, _ => return (s, isOpen, [])

/-- `io->on_input()`: the state, whether the handler stays, and what was sent. -/
def onInput (id : Nat) (io : IoHandler) (a : Answers) (s : State) : Checked (State × Bool × List Effect) :=
  match io.kind with
  | .controlServer => .ok (controlServerOnInput a s)
  | .switchServer => .ok (switchServerOnInput a s)
  | .controlChannel => controlChannelOnInput hash id a s
  | .switchChannel => switchChannelOnInput a s

/-! ## Removal -/

/-- `delete` without the destructor. -/
def State.free (s : State) (id : Nat) : State := { s with heap := Function.update s.heap id none }

/-- `delete io`. -/
def destroy (s : State) (id : Nat) (io : IoHandler) : Checked (State × List Effect) :=
  match io.kind with
  | .controlServer | .switchServer => .ok ((s.close io.fd).free id, [])
  | .controlChannel => .ok (State.free { s.close io.fd with ctrl := none } id, [])
  | .switchChannel =>
      match s.ctrl with
      | none => .ok (State.free { s.close io.fd with switch := none } id, [])
      | some c => do
          let flowctl ← s.deref c
          return (State.free { (s.close io.fd).close flowctl.fd with switch := none } id, [.shutdown c])

/-- `unregister_handler`. -/
def unregisterHandler (s : State) (id : Nat) : Checked (State × List Effect) := do
  let io ← s.deref id
  if io.fd ∈ s.ps then
    destroy { s with ios := Function.update s.ios io.fd none, ps := s.ps.erase io.fd } id io
  else .error .outOfBounds

/-- The removal loop. -/
def removeAll : State → List Nat → Checked (State × List Effect)
  | s, [] => .ok (s, [])
  | s, id :: rm => do
      let (s', es) ← unregisterHandler s id
      let (s'', es') ← removeAll s' rm
      return (s'', es ++ es')

/-! ## The loop -/

/-- The event loop between two calls of `process_events`: the remove set, and what was sent so far. -/
structure Pass where
  st : State
  rm : List Nat
  effects : List Effect

/-- `process_events`. `revents` has the answers for the descriptors that can be read. -/
def processEvents (revents : Nat → Option Answers) (p : Pass) (fd : Nat) : Checked Pass :=
  match p.st.ios fd with
  | none => .error .outOfBounds
  | some id =>
      match revents fd with
      | none => .ok p
      | some a => do
          let io ← p.st.deref id
          let (s, isOpen, es) ← onInput hash id io a p.st
          return ⟨s, if isOpen then p.rm else p.rm.insert id, p.effects ++ es⟩

/-- One iteration: which descriptors can be read and how the calls on them are answered, and the order in which the
    remove set is walked. -/
structure Turn where
  ready : Nat → Option Answers
  order : List Nat

/-- What `poll` reports: a closed descriptor is never readable. -/
def State.revents (s : State) (t : Turn) (fd : Nat) : Option Answers :=
  if fd ∈ s.openFds then t.ready fd else none

/-- The event loop over the poll set as it was when `poll` returned. -/
def events (s : State) (t : Turn) : Checked Pass :=
  s.ps.foldlM (processEvents hash (s.revents t)) ⟨s, [], []⟩

/-- The rest of the event loop: what was registered meanwhile comes last, with no event. -/
def lookups (n : Nat) (p : Pass) : Checked Pass :=
  (p.st.ps.drop n).foldlM (processEvents hash (fun _ => none)) p

/-- The order in which the remove set is walked. -/
def Turn.removals (t : Turn) (rm : List Nat) : List Nat := if t.order.isPerm rm then t.order else rm

/-- The body of the main loop. -/
def turn (s : State) (t : Turn) : Checked (State × List Effect) :=
  -- `poll` takes the address of `*ps.begin()`
  if s.ps = [] then .error .outOfBounds
  else do
    let p ← events hash s t
    let p ← lookups hash s.ps.length p
    let (s', es) ← removeAll p.st (t.removals p.rm)
    return (s', p.effects ++ es)

/-- `ctrl` of `main`. -/
def ctrlServer : Nat := 0

/-- `swi` of `main`. -/
def swiServer : Nat := 1

/-- `main` before its loop: beside the standard streams, the descriptors 3 and 4 are the listening sockets. -/
def State.start : State :=
  let heap := Function.update (Function.update (fun _ => none) ctrlServer (some ⟨.controlServer, 3⟩)) swiServer
    (some ⟨.switchServer, 4⟩)
  State.registerHandler
    (State.registerHandler ⟨[0, 1, 2, 3, 4], heap, 2, fun _ => none, [], none, none⟩ ctrlServer 3) swiServer 4

/-- `main` after its loop. -/
def finish (s : State) : Checked State := do
  let ctrl ← s.deref ctrlServer
  let (s, _) ← destroy s ctrlServer ctrl
  let swi ← s.deref swiServer
  let (s, _) ← destroy s swiServer swi
  return s

end Flowmgr
end Freeflow
