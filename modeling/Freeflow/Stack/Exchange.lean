import Freeflow.Flowmgr.Correctness.Replies
import Freeflow.Flowpath.Management
import Freeflow.Lib.Pipe

/-!
# `Stack.Exchange` — `flowmgr` and `flowpath` at the two ends of their socket

The two processes together, with what is under way between them. `flowmgr` sends a request to the switch without waiting
for the answer to the last one, so several requests and several replies may be under way; clients come and go meanwhile.
A `recv` gives the oldest message, and all of it.

## Contents
- `Exchange`, `Move`, `Shown`.
- `Exchange.step`: one iteration of the main loop of `flowmgr`, or one call of `fp_mgr_incoming`.
- `posted`, `askers`, `handled`, `passed`: what a move shows.
-/

namespace Freeflow
namespace Stack

open Flowmgr (Effect Action)
open Flowpath (Managed Message Delivery Incoming messageLen manageStep)

variable {ω D : Type}

/-- `flowmgr`, `flowpath`, and the messages under way in each direction, the oldest first. -/
structure Exchange (ω D : Type) where
  sys : Flowmgr.System
  requests : List (List UInt8)
  path : Managed ω D
  replies : List (List UInt8)

/-- What happens next. A call of `fp_mgr_incoming` and the delivery of a reply come with the `recv` they make. -/
inductive Move (ω D : Type) where
  | connect
  | command (text : Json.Text) (taken : Bool)
  | disconnect
  | serve (m : Message ω D)
  | deliver (d : Delivery)

/-- What a move shows: the effects of an iteration of `flowmgr`, what a call of `fp_mgr_incoming` did, or nothing when
    there was nothing to receive. -/
inductive Shown where
  | mgr (es : List Effect)
  | path (inc : Incoming)
  | quiet

/-- The requests among the effects. -/
def sentRequests (es : List Effect) : List (List UInt8) :=
  es.filterMap fun e =>
    match e with
    | .sent _ (.request msg) => some msg
    | _ => none

namespace Exchange

/-- The switch is connected, and nobody else; no data plane exists. -/
def start : Exchange ω D := ⟨Flowmgr.System.start, [], Managed.start, []⟩

/-- An iteration of `flowmgr`. -/
def act (hash : Json.Text → Nat) (x : Exchange ω D) (action : Action) : Checked (Exchange ω D × Shown) := do
  let (sys, es) ← Flowmgr.step hash x.sys action
  return ({ x with sys, requests := x.requests ++ sentRequests es }, .mgr es)

/-- One move. -/
def step (hash : Json.Text → Nat) (x : Exchange ω D) : Move ω D → Checked (Exchange ω D × Shown)
  | .connect => x.act hash .connect
  | .command text taken => x.act hash (.command text taken)
  | .disconnect => x.act hash .disconnect
  | .serve m =>
      match x.requests with
      | [] => return (x, .quiet)
      | req :: requests =>
          -- the two buffers on the stack are of the same length
          if m.received = ⟨req, messageLen⟩ ∧ m.outbuf.length = messageLen then do
            let (path, inc) ← manageStep x.path m
            return ({ x with requests, path, replies := x.replies ++ [inc.reply] }, .path inc)
          else return (x, .quiet)
  | .deliver d =>
      match x.replies with
      | [] => return (x, .quiet)
      | rep :: replies => if d.chunk = rep then { x with replies }.act hash (.reply d) else return (x, .quiet)

end Exchange

/-! ## What a move shows -/

/-- The requests that `flowmgr` sent. -/
def posted : Shown → List (List UInt8)
  | .mgr es => sentRequests es
  | _ => []

/-- The channels that they were sent for. -/
def askers : Shown → List Nat
  | .mgr es => Flowmgr.requesters es
  | _ => []

/-- The calls of `fp_mgr_incoming`. -/
def handled : Shown → List Incoming
  | .path inc => [inc]
  | _ => []

/-- The replies that were passed to a client, by its channel. -/
def passed : Shown → List (Nat × List UInt8)
  | .mgr es => es.filterMap fun e =>
      match e with
      | .replied c rep => some (c, rep.buf)
      | _ => none
  | _ => []

end Stack
end Freeflow
