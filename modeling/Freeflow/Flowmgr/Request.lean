import Freeflow.Flowpath.Proto
import Freeflow.Json.Map
import Freeflow.Json.Parser

/-!
# `Flowmgr.Request` — the handling of one command from `flowctl`

`request.cpp`, `dataplane.cpp` and `port.cpp`, with `get_string_arg` and `send_error` of `utility.hpp`. A handler runs
in `Act`: it appends to the list of what the channels have seen, and may stop at undefined behaviour. The switch
channel is `absent` (a null pointer), or connected, and then the socket takes the message or not. The parser's
arena is taken to be large enough.

## Contents
- `Event`, `Link`, `Act`, `sendError`, `onRequest`.
- The handlers of `dp` and `port`, and their tables.
- `process`, `request`.
-/

namespace Freeflow
namespace Flowmgr

open Json (Text Value ascii objectMap)
open Flowpath (encodeRequest)

/-- What a command has caused: an error message on the control channel, or a message that the switch channel
    took. -/
inductive Event where
  | error (what : String)
  | request (msg : List UInt8)
deriving DecidableEq, Repr

/-- The switch channel. -/
inductive Link where
  | absent
  | refusing
  | accepting
deriving DecidableEq, Repr

/-- A computation of a handler. -/
abbrev Act (α : Type) := EStateM Fault (List Event) α

/-- Undefined behaviour inside a handler. -/
def Act.ofChecked {α : Type} (x : Checked α) : Act α := fun es =>
  match x with
  | .ok a => .ok a es
  | .error f => .error f es

/-- `send_error`. -/
def sendError (what : String) : Act Unit := fun es => .ok () (es ++ [.error what])

/-- `switch_channel()->on_request(req)`. -/
def onRequest (sw : Link) (msg : List UInt8) : Act Bool := fun es =>
  match sw with
  | .absent => .error .nullDeref es
  | .refusing => .ok false es
  | .accepting => .ok true (es ++ [.request msg])

variable (hash : Text → Nat) (sw : Link) (map : Json.Map)

/-- `get_string_arg`. -/
def getStringArg (arg : String) : Option Text :=
  match map.find hash (ascii arg) with
  | some (.string text) => some text
  | _ => none

/-- Build the message and hand it to the switch channel. -/
def forward (kind : UInt8) (args : List String) : Act Bool := do
  let msg ← Act.ofChecked (encodeRequest kind (args.map (getStringArg hash map)))
  onRequest sw msg

/-- An error message if there is no name, whatever `what` says. -/
def requireName (what : String) : Act Unit :=
  if (getStringArg hash map "dp").isNone then sendError what else pure ()

/-! ## Data planes -/

namespace Dataplane

/-- `add_request`. -/
def addRequest : Act Unit := do
  requireName hash map "missing name"
  if (getStringArg hash map "path").isNone then sendError "missing type"
  else do
    let res ← forward hash sw map Flowpath.dataplaneAdd ["dp", "path"]
    if res then pure () else sendError "request failed"

/-- `del_request`, which does not look at the result of `on_request`. -/
def delRequest : Act Unit := do
  requireName hash map "missing name"
  let _ ← forward hash sw map Flowpath.dataplaneDel ["dp"]

/-- `set_request`, `show_request`, `stat_request` and `list_request`. -/
def emptyRequest : Act Unit := pure ()

/-- `reqs_`. -/
def reqs : List (Text × Act Unit) := [
  (ascii "add", addRequest hash sw map),
  (ascii "del", delRequest hash sw map),
  (ascii "set", emptyRequest),
  (ascii "show", emptyRequest),
  (ascii "stat", emptyRequest),
  (ascii "list", emptyRequest)]

end Dataplane

/-! ## Ports -/

namespace Port

/-- The common text of the port handlers: one check for each argument, all of them about the name. -/
def portRequest (kind : UInt8) (args : List (String × String)) : Act Unit := do
  args.forM (fun arg => requireName hash map arg.2)
  let res ← forward hash sw map kind (args.map Prod.fst)
  if res then pure () else sendError "request failed"

/-- The arguments of `add_request` with the messages for their absence. -/
def addArgs : List (String × String) := [
  ("dp", "missing name"),
  ("type", "missing type"),
  ("device", "missing device"),
  ("options", "missing options")]

/-- The arguments of `del_request`. -/
def delArgs : List (String × String) := [
  ("dp", "missing name"),
  ("pid", "missing port id")]

/-- The argument of `list_request`. -/
def listArgs : List (String × String) := [("dp", "missing name")]

/-- `add_request`. -/
def addRequest : Act Unit := portRequest hash sw map Flowpath.portAdd addArgs

/-- `del_request`. -/
def delRequest : Act Unit := portRequest hash sw map Flowpath.portDel delArgs

/-- `list_request`. -/
def listRequest : Act Unit := portRequest hash sw map Flowpath.portList listArgs

/-- `reqs_`. -/
def reqs : List (Text × Act Unit) := [
  (ascii "add", addRequest hash sw map),
  (ascii "del", delRequest hash sw map),
  (ascii "list", listRequest hash sw map)]

end Port

/-! ## Dispatch -/

/-- The common text of `dataplane_request` and `port_request`. -/
def commandRequest (missing unknown : String) (reqs : List (Text × Act Unit)) : Act Unit :=
  match getStringArg hash map "command" with
  | none => sendError missing
  | some cmd =>
      match reqs.lookup cmd with
      | none => sendError unknown
      | some handler => handler

/-- `dataplane_request`. -/
def dataplaneRequest : Act Unit :=
  commandRequest hash map "missing dataplane command" "unknown dataplane command" (Dataplane.reqs hash sw map)

/-- `port_request`. -/
def portRequest : Act Unit :=
  commandRequest hash map "missing port command" "unknown port command" (Port.reqs hash sw map)

/-- `dispatch` of `process_target`. -/
def dispatch : List (Text × Act Unit) := [
  (ascii "dp", dataplaneRequest hash sw map),
  (ascii "port", portRequest hash sw map)]

/-- `process_target`. -/
def processTarget (tgt : Text) : Act Unit :=
  match (dispatch hash sw map).lookup tgt with
  | none => sendError "unsupported command"
  | some handler => handler

/-- `process`, on an argument map. -/
def processMap : Act Unit :=
  match getStringArg hash map "target" with
  | some tgt => processTarget hash sw map tgt
  | none => sendError "ill-formed command"

/-- `process`, on the parsed value. -/
def process (json : Value) : Act Unit :=
  match json with
  | .object pairs => processMap hash sw (objectMap hash pairs)
  | _ => sendError "ill-formed command"

/-- `request`. -/
def request (buf : Text) : Act Bool :=
  match Json.parse buf with
  | .value json _ _ => do
      process hash sw json
      return true
  -- after the error message `json` is still null, and the trace line prints `*json`
  | .thrown what _ _ => do
      sendError what
      throw .nullDeref
  | .overrun => throw .outOfBounds
  | .outOfFuel => throw .outOfFuel

end Flowmgr
end Freeflow
