import Freeflow.Flowctl.Correctness.Arguments
import Freeflow.Flowmgr.Correctness.Encoding

/-!
# `Stack.Command` — what a command line asks for

The commands of `flowctl` from the side of the user: which of them become a request to the switch, and with which
arguments, which ones `flowmgr` does not know, which ones it takes without a word, and which ones `flowctl` answers itself.
The two programs in between, with the JSON text that one of them writes and the other one parses, do not occur here;
`Stack.Correctness.Translation` is about them.

## Contents
- `Outcome`, `meaning`.
- `wire`: the message for the switch.
- `Typable`: the command lines that `flowctl` can send.
-/

namespace Freeflow
namespace Stack

open Json (Text ascii rawBody)
open Flowctl (AddsOptions Config Info TakesArguments resolveDataPlaneType typed)
open Flowpath (stringMaxLen)

/-- What comes of a command: a request with its arguments, an error message, nothing at all, or a text of `flowctl`. -/
inductive Outcome where
  | request (cmd : Flowmgr.Command) (args : List Text)
  | refused (what : String)
  | ignored
  | told (i : Info)
deriving DecidableEq, Repr

/-- The commands for data planes. -/
def dataplaneMeaning (cfg : Config) (name : Text) (args : List Text) : Option Outcome :=
  if name = ascii "add" then
    match args with
    | [dp, type] => (resolveDataPlaneType cfg type).map (fun path => .request .dataplaneAdd [dp, path])
    | _ => none
  else if name = ascii "del" then
    match args with
    | [dp] => some (.request .dataplaneDel [dp])
    | _ => none
  else if name = ascii "set" then
    -- with two arguments the command is called `mod`
    match args with
    | [_, _] => some (.refused "unknown dataplane command")
    | _ :: _ :: _ :: _ => some .ignored
    | _ => none
  else if name = ascii "show" ∨ name = ascii "stat" then
    match args with
    | [_] => some .ignored
    | _ => none
  else if name = ascii "list" ∧ args = [] then some .ignored
  else none

/-- The commands for ports. `flowmgr` has only three of them. -/
def portMeaning (name : Text) (args : List Text) : Option Outcome :=
  if name = ascii "add" then
    match args with
    | [dp, type, device] => some (.request .portAdd [dp, type, device, []])
    | _ => none
  else if name = ascii "del" then
    match args with
    | [dp, pid] => some (.request .portDel [dp, pid])
    | _ => none
  else if name = ascii "set" then
    match args with
    | _ :: _ :: _ => some (.refused "unknown port command")
    | _ => none
  else if name = ascii "show" ∨ name = ascii "stat" then
    match args with
    | [_] => some (.refused "unknown port command")
    | _ => none
  else if name = ascii "list" then
    match args with
    | [dp] => some (.request .portList [dp])
    | _ => none
  else none

/-- What a command line asks for, unless `flowctl` refuses it. `flowmgr` has no `ping`. -/
def meaning (cfg : Config) : List Text → Option Outcome
  | _ :: tgt :: args =>
      if tgt = ascii "help" then args.head?.map fun topic => .told (.help topic)
      else if tgt = ascii "version" then some (.told .version)
      else if tgt = ascii "ping" then some (.refused "ill-formed command")
      else if tgt = ascii "dp" then args.head?.bind fun name => dataplaneMeaning cfg name args.tail
      else if tgt = ascii "port" then args.head?.bind fun name => portMeaning name args.tail
      else none
  | _ => none

/-! ## The message -/

/-- The request on the wire: the header, each argument in a field of its own, and zeros. -/
def wire (cmd : Flowmgr.Command) (args : List Text) : List UInt8 :=
  [Flowpath.fpRequest, cmd.kind] ++ (args.map (padTo 0 Flowpath.stringMaxLen)).flatten ++
    List.replicate (Flowpath.messageLen - Flowpath.dataOffset - Flowpath.stringMaxLen * args.length) 0

/-- The events in `flowmgr`, while the switch takes messages. -/
def Outcome.events : Outcome → List Flowmgr.Event
  | .request cmd args => [.request (wire cmd args)]
  | .refused what => [.error what]
  | .ignored | .told _ => []

/-! ## What can be sent -/

/-- The strings of a command, each of which fits its field. -/
def Fits (texts : List Text) : Prop := ∀ t ∈ texts, rawBody t = true ∧ t.length ≤ stringMaxLen

/-- A command line that a user can type and `flowctl` can handle: there are no options for a port and no `help` without a
    topic, and what a command for a data plane or a port has for arguments are C strings which fit their fields. -/
structure Typable (cfg : Config) (argv : List Text) : Prop where
  plain : ¬ AddsOptions argv
  topic : argv[1]? = some (ascii "help") → argv[2]? ≠ none
  fits : TakesArguments argv → Fits (typed cfg argv)
  nul : TakesArguments argv → ∀ t ∈ typed cfg argv, 0 ∉ t

end Stack
end Freeflow
