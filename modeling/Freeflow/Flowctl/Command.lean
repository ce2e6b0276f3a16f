import Freeflow.Json.Object
import Freeflow.Lib.Fault

/-!
# `Flowctl.Command` — the commands of flowctl

The commands of `main.cpp`, `dataplane.cpp` and `port.cpp`, and the tables through which `main` finds them. `argv` is the
list of the arguments, each a C string, and `argc` its length; a command function sees its own name as `argv[0]`, and
behind the last argument is a null pointer. What a command does is its `Result`: it sends pairs, it prints a text about the
program, or it refuses its arguments with a message to the user. These texts, and the connection to flowmgr, are left out.

## Contents
- `Config`, `resolveDataPlaneType`; `Info`, `Result`.
- `addDataplane` … `listDataplanes`, `addPort` … `listPorts`.
- `helpCommand`, `versionCommand`, `pingCommand`.
- `executeCommand`, `main`, `message`.
-/

namespace Freeflow
namespace Flowctl

open Json (Text ascii)

/-- The pairs that a command gives to `make_object`; a key is a literal. -/
abbrev Pairs := List (String × Text)

/-- `cfg.module_path`, and which paths `access` finds. -/
structure Config where
  modulePath : List Text
  access : Text → Bool

/-- The texts about the program: the list of topics, a topic, the version. -/
inductive Info where
  | topics
  | help (topic : Text)
  | version
deriving DecidableEq, Repr

/-- What a command comes to. -/
inductive Result where
  | refused
  | info (i : Info)
  | sent (args : Pairs)
deriving DecidableEq, Repr

/-- A command function. -/
abbrev Command := Config → List Text → Checked Result

/-- The pairs of a request: its target and its name stand first. -/
def pairs (target command : String) (args : Pairs) : Pairs :=
  ("target", ascii target) :: ("command", ascii command) :: args

/-! ## Data planes -/

/-- `resolve_data_plane_type`: the first module that exists along the search path. -/
def resolveDataPlaneType (cfg : Config) (type : Text) : Option Text :=
  (cfg.modulePath.map (fun p => p ++ ascii "/pipelines" ++ ascii "/lib" ++ type ++ ascii ".so")).find? cfg.access

/-- `add_dataplane`. -/
def addDataplane : Command := fun cfg argv =>
  match argv with
  | [_, dp, type] =>
      match resolveDataPlaneType cfg type with
      | some path => return .sent (pairs "dp" "add" [("dp", dp), ("path", path)])
      | none => return .refused
  | _ => return .refused

/-- `del_dataplane`. -/
def delDataplane : Command := fun _ argv =>
  match argv with
  | [_, dp] => return .sent (pairs "dp" "del" [("dp", dp)])
  | _ => return .refused

/-- `set_dataplane`; arguments behind the value are not looked at. -/
def setDataplane : Command := fun _ argv =>
  match argv with
  | [_, dp, state] => return .sent (pairs "dp" "mod" [("dp", dp), ("value", state)])
  | _ :: dp :: prop :: value :: _ => return .sent (pairs "dp" "set" [("dp", dp), ("property", prop), ("value", value)])
  | _ => return .refused

/-- `show_dataplane`. -/
def showDataplane : Command := fun _ argv =>
  match argv with
  | [_, dp] => return .sent (pairs "dp" "show" [("dp", dp)])
  | _ => return .refused

/-- `stat_dataplane`. -/
def statDataplane : Command := fun _ argv =>
  match argv with
  | [_, dp] => return .sent (pairs "dp" "stat" [("dp", dp)])
  | _ => return .refused

/-- `list_dataplanes`. -/
def listDataplanes : Command := fun _ argv =>
  match argv with
  | [_] => return .sent (pairs "dp" "list" [])
  | _ => return .refused

/-! ## Ports -/

/-- `add_port`. -/
def addPort : Command := fun _ argv =>
  match argv with
  | [_, dp, type, device] =>
      return .sent (pairs "port" "add" [("dp", dp), ("type", type), ("device", device), ("options", [])])
  -- the string that collects the options is gone when `make_object` reads them
  | _ :: _ :: _ :: _ :: _ :: _ => .error .useAfterFree
  | _ => return .refused

/-- `del_port`. -/
def delPort : Command := fun _ argv =>
  match argv with
  | [_, dp, port] => return .sent (pairs "port" "del" [("dp", dp), ("pid", port)])
  | _ => return .refused

/-- `set_port`; arguments behind the value are not looked at. -/
def setPort : Command := fun _ argv =>
  match argv with
  | [_, port, state] => return .sent (pairs "port" "mod" [("port", port), ("state", state)])
  | _ :: port :: prop :: value :: _ =>
      return .sent (pairs "port" "set" [("port", port), ("property", prop), ("value", value)])
  | _ => return .refused

/-- `show_port`. -/
def showPort : Command := fun _ argv =>
  match argv with
  | [_, port] => return .sent (pairs "port" "show" [("port", port)])
  | _ => return .refused

/-- `stat_port`. -/
def statPort : Command := fun _ argv =>
  match argv with
  | [_, port] => return .sent (pairs "port" "stat" [("port", port)])
  | _ => return .refused

/-- `list_ports`. -/
def listPorts : Command := fun _ argv =>
  match argv with
  | [_, dp] => return .sent (pairs "port" "list" [("dp", dp)])
  | _ => return .refused

/-! ## Basic commands -/

/-- `help_command`. Without a topic the null pointer behind the name is what it prints. -/
def helpCommand : Command := fun _ argv =>
  match argv with
  | [] => return .info .topics
  | [_] => .error .nullDeref
  | _ :: topic :: _ => return .info (.help topic)

/-- `version_command`. -/
def versionCommand : Command := fun _ _ => return .info .version

/-- `ping_command`, whose message is a literal. -/
def pingCommand : Command := fun _ _ => return .sent [("command", ascii "ping")]

/-! ## Finding the command -/

/-- `execute_command`: the command that `argv[1]` names gets the arguments from there on. -/
def executeCommand (commands : List (Text × Command)) : Command := fun cfg argv =>
  match argv with
  | _ :: tgt :: args =>
      match commands.lookup tgt with
      | none => return .refused
      | some cmd => cmd cfg (tgt :: args)
  | _ => return .refused

/-- `commands` of `dataplane.cpp`. -/
def dataplaneCommands : List (Text × Command) := [
  (ascii "add", addDataplane),
  (ascii "del", delDataplane),
  (ascii "set", setDataplane),
  (ascii "show", showDataplane),
  (ascii "stat", statDataplane),
  (ascii "list", listDataplanes)]

/-- `commands` of `port.cpp`. -/
def portCommands : List (Text × Command) := [
  (ascii "add", addPort),
  (ascii "del", delPort),
  (ascii "set", setPort),
  (ascii "show", showPort),
  (ascii "stat", statPort),
  (ascii "list", listPorts)]

/-- `dataplane_command`. -/
def dataplaneCommand : Command := executeCommand dataplaneCommands

/-- `port_command`. -/
def portCommand : Command := executeCommand portCommands

/-- `commands` of `main.cpp`. -/
def commands : List (Text × Command) := [
  (ascii "help", helpCommand),
  (ascii "version", versionCommand),
  (ascii "ping", pingCommand),
  (ascii "dp", dataplaneCommand),
  (ascii "port", portCommand)]

/-- `main`, which finds its command as `execute_command` does. -/
def main : Command := executeCommand commands

/-- The text that is sent. -/
def message (args : Pairs) : Text := Json.makeObject (args.map fun e => (ascii e.1, e.2))

/-- The literal of `ping_command`. -/
example : message [("command", ascii "ping")] = ascii "\x7b\"command\":\"ping\"\x7d" := by decide

end Flowctl
end Freeflow
