import Freeflow.Flowmgr.Reply
import Freeflow.Stack.Command
import Freeflow.Stack.Exchange

/-!
# `Stack.Session` — one run of `flowctl` after the other

The three programs, used by one person at one terminal. A run of `flowctl` connects, sends its text, waits for one answer,
prints it and closes the connection (`send_command` of `util.cpp`); meanwhile the switch handles the request, if there is
one. A run that gets no answer is ended by hand.

Beside it stands what this comes to: a machine without messages, sockets and handlers, that takes the meaning of a command
line to the pipeline of the switch. That the one behaves like the other is shown in `Stack.Correctness.Session`.

## Contents
- `Session`, `Seen`.
- `Exchange.session`: the programs.
- `planeRequest`, `planeSession`: the machine.
- `Harmless`: the runs of `flowctl` that are defined.
-/

namespace Freeflow
namespace Stack

open Flowctl (Config Info)
open Flowpath (Env Plane fpOk fpBadDataplane fpDataplaneExists messageLen pipelineLoad udpText)
open Json (Text ascii)

variable {ω D : Type} {cfg : Config}

/-- A run of `flowctl`: a command line that it can handle, what the switch meets outside of its state, and the contents of
    the buffers of `fp_mgr_incoming` and `Switch_channel::on_input`. -/
structure Session (cfg : Config) (ω D : Type) where
  argv : List Text
  typable : Typable cfg argv
  env : Env ω D
  outbuf : List UInt8
  inbuf : List UInt8
  outbuf_len : outbuf.length = messageLen
  inbuf_len : inbuf.length = messageLen

/-- What the user sees: the command line is refused, `flowctl` answers itself, no answer comes, or the answer is printed. -/
inductive Seen where
  | usage
  | told (i : Info)
  | silence
  | printed (text : Text)
deriving DecidableEq, Repr

/-- What `send_command` prints of a result: nothing if all went well. -/
def printed (result : Text) : Text := if result ≠ ascii "ok" then result ++ [10] else []

/-! ## The programs -/

/-- What the `recv` of `send_command` makes of the texts that are there. -/
def seen : List Text → Seen
  | [] => .silence
  | texts => .printed (printed texts.flatten)

namespace Exchange

/-- The call of `fp_mgr_incoming` for the oldest request. -/
def serving (x : Exchange ω D) (s : Session cfg ω D) : List (Move ω D) :=
  match x.requests with
  | [] => []
  | req :: _ => if h : req.length = messageLen then [.serve ⟨⟨req, messageLen⟩, s.outbuf, s.env, h⟩] else []

/-- The delivery of the oldest reply. -/
def delivering (x : Exchange ω D) (s : Session cfg ω D) : List (Move ω D) :=
  match x.replies with
  | [] => []
  | rep :: _ =>
      if h : 1 ≤ rep.length ∧ rep.length ≤ messageLen then
        [.deliver ⟨rep, s.inbuf, s.outbuf, h.1, h.2, s.inbuf_len, s.outbuf_len⟩]
      else []

end Exchange

/-! ## The machine -/

/-- What a request does to the pipeline of the switch, and its result. -/
def planeRequest (e : Env ω D) : Flowmgr.Command → List Text → Plane ω → Checked (Plane ω × Int)
  | .dataplaneAdd, _, some pl => return (some pl, fpDataplaneExists)
  | .dataplaneAdd, _, none =>
      match pipelineLoad e.load with
      | (some pl, err) => return (some pl, err)
      | (none, err) => do
          e.raw.ports.delete
          e.raw.tables.delete
          return (none, err)
  | .dataplaneDel, _, some _ => return (none, fpOk)
  | .portAdd, args, some pl =>
      if args[1]? = some (ascii "udp") ∧ e.udp.2 ≠ fpOk then return (some pl, -1) else .error .nullDeref
  | .portDel, _, some pl =>
      let (object, err) := pl.ops.delPort pl.object none
      return (some { pl with object }, err)
  | .portList, _, p => return (p, fpOk)
  -- there is no data plane
  | _, _, none => return (none, fpBadDataplane)

end Stack
end Freeflow
