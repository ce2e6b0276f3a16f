import Freeflow.Flowmgr.Loop
import Freeflow.Stack.Command

/-!
# `Stack.Correctness.Translation` — a command arrives as it was typed

Between the command line and the switch a command is written as a JSON text, parsed, looked up in three tables and copied
into a message. `command_translated` says what is left of it at the end: the message for the switch with exactly the
arguments that were typed, or the error message, or nothing, as `meaning` has it.

The way back from the text is `ReadBack`. For each command the tables of `flowmgr` lead to one handler, and `handler_eq`
says what that one does.
-/

namespace Freeflow
namespace Stack

open Json (Text ascii objectMap rawBody)
open Flowctl (Config Pairs ReadBack AddsOptions KeysApart TakesArguments typed pairs message resolveDataPlaneType)
open Flowmgr (getStringArg sendError)
open Flowpath (stringMaxLen messageLen dataOffset fpRequest encodeRequest)

/-! ## The message -/

/-- The message of arguments that fit their fields. -/
theorem encodeRequest_wire (cmd : Flowmgr.Command) {texts : List Text} (hlen : texts.length ≤ 4)
    (hw : ∀ t ∈ texts, t.length ≤ stringMaxLen) :
    encodeRequest cmd.kind (texts.map some) = .ok (wire cmd texts) := by
  have hroom : stringMaxLen * texts.length ≤ messageLen - dataOffset := by
    simp only [stringMaxLen, messageLen, dataOffset]
    omega
  rw [encodeRequest, Flowpath.fillArguments_some, Flowpath.makeRequest_eq]
  exact copyFields_eq (0 : UInt8) stringMaxLen texts [fpRequest, cmd.kind] (messageLen - dataOffset) hw hroom

/-! ## From the text to the handler -/

variable {hash : Text → Nat} {map : Json.Map} {args : Pairs} {events : List Flowmgr.Event}

/-- The pairs of a command, as the handlers look them up. -/
def Holds (hash : Text → Nat) (map : Json.Map) (args : Pairs) : Prop :=
  ∀ e ∈ args, getStringArg hash map e.1 = some e.2

/-- A message that is read back is processed on a map that holds its pairs, and no other key. -/
theorem request_of_readBack (hread : ReadBack hash args)
    (hprocess : ∀ map, Holds hash map args → (∀ e ∈ map, e.1 ∈ args.map (fun a => ascii a.1)) →
      Flowmgr.processMap hash .accepting map [] = .ok () events) :
    Flowmgr.request hash .accepting (message args) [] = .ok true events := by
  obtain ⟨ps, rest, n, hparse, hholds, honly⟩ := hread
  unfold Flowmgr.request
  rw [hparse]
  have hrun : Flowmgr.process hash .accepting (.object ps) [] = .ok () events := hprocess (objectMap hash ps) hholds honly
  exact Traced.bind_run hrun

/-- The command of a data plane. -/
theorem processMap_dataplane {command : String} {rest : Pairs} (h : Holds hash map (pairs "dp" command rest)) :
    Flowmgr.processMap hash .accepting map =
      match (Flowmgr.Dataplane.reqs hash .accepting map).lookup (ascii command) with
      | none => sendError "unknown dataplane command"
      | some handler => handler := by
  have htarget : getStringArg hash map "target" = some (ascii "dp") := h ("target", ascii "dp") (by simp [pairs])
  have hcommand : getStringArg hash map "command" = some (ascii command) :=
    h ("command", ascii command) (by simp [pairs])
  unfold Flowmgr.processMap
  rw [htarget]
  show Flowmgr.dataplaneRequest hash .accepting map = _
  cases hreq : (Flowmgr.Dataplane.reqs hash .accepting map).lookup (ascii command) with
  | none | some => simp only [Flowmgr.dataplaneRequest, Flowmgr.commandRequest, hcommand, hreq]

/-- The command of a port. -/
theorem processMap_port {command : String} {rest : Pairs} (h : Holds hash map (pairs "port" command rest)) :
    Flowmgr.processMap hash .accepting map =
      match (Flowmgr.Port.reqs hash .accepting map).lookup (ascii command) with
      | none => sendError "unknown port command"
      | some handler => handler := by
  have htarget : getStringArg hash map "target" = some (ascii "port") := h ("target", ascii "port") (by simp [pairs])
  have hcommand : getStringArg hash map "command" = some (ascii command) :=
    h ("command", ascii command) (by simp [pairs])
  unfold Flowmgr.processMap
  rw [htarget]
  show Flowmgr.portRequest hash .accepting map = _
  cases hreq : (Flowmgr.Port.reqs hash .accepting map).lookup (ascii command) with
  | none | some => simp only [Flowmgr.portRequest, Flowmgr.commandRequest, hcommand, hreq]

/-- A handler on arguments that fit. -/
theorem handler_wire {cmd : Flowmgr.Command} {texts : List Text}
    (hargs : cmd.args.map (getStringArg hash map) = texts.map some) (hw : ∀ t ∈ texts, t.length ≤ stringMaxLen) :
    cmd.handler hash .accepting map [] = .ok () [.request (wire cmd texts)] := by
  have hlen : texts.length ≤ 4 := by
    have h := congrArg List.length hargs
    simp only [List.length_map] at h
    exact h ▸ cmd.length_args_le
  have hmsg := encodeRequest_wire cmd hlen hw
  rw [← hargs] at hmsg
  exact Flowmgr.handler_eq hargs hmsg

/-! ## The commands -/

/-- The literals of a command: a few keys of which no two are equivalent, and raw bodies; all of them are short. -/
structure Literals (target command : String) (keys : List String) : Prop where
  apart : KeysApart ("target" :: "command" :: keys)
  target : rawBody (ascii target) = true ∧ (ascii target).length ≤ stringMaxLen
  command : rawBody (ascii command) = true ∧ (ascii command).length ≤ stringMaxLen
  few : keys.length ≤ 4
  short : ∀ key ∈ "target" :: "command" :: keys, (ascii key).length ≤ 8

instance (target command : String) (keys : List String) : Decidable (Literals target command keys) :=
  decidable_of_iff (KeysApart ("target" :: "command" :: keys) ∧
    (rawBody (ascii target) = true ∧ (ascii target).length ≤ stringMaxLen) ∧
    (rawBody (ascii command) = true ∧ (ascii command).length ≤ stringMaxLen) ∧ keys.length ≤ 4 ∧
    ∀ key ∈ "target" :: "command" :: keys, (ascii key).length ≤ 8)
    ⟨fun ⟨ha, ht, hc, hf, hs⟩ => ⟨ha, ht, hc, hf, hs⟩, fun h => ⟨h.apart, h.target, h.command, h.few, h.short⟩⟩

section
variable {target command : String} {keys : List String} {rest : Pairs}

/-- The message of a command is read back: its literals stand in no one's way. -/
theorem readBack_pairs (hash : Text → Nat) (hlit : Literals target command keys) (hkeys : rest.map Prod.fst = keys)
    (hfits : Fits (rest.map Prod.snd)) : ReadBack hash (pairs target command rest) := by
  subst hkeys
  have hapart : KeysApart ((pairs target command rest).map Prod.fst) := hlit.apart
  rw [Flowctl.readBack_iff hash hapart, pairs, List.forall_mem_cons, List.forall_mem_cons]
  exact ⟨hlit.target.1, hlit.command.1, fun e he => (hfits e.2 (List.mem_map_of_mem he)).1⟩

/-- The message of a command fits the buffer of `flowmgr`. -/
theorem length_message_lt (hlit : Literals target command keys) (hkeys : rest.map Prod.fst = keys)
    (hfits : Fits (rest.map Prod.snd)) : (message (pairs target command rest)).length < Flowmgr.bufsize := by
  subst hkeys
  have hshort : ∀ e ∈ pairs target command rest, (ascii e.1).length ≤ 8 ∧ e.2.length ≤ stringMaxLen := by
    intro e he
    refine ⟨hlit.short e.1 (List.mem_map_of_mem (f := Prod.fst) he), ?_⟩
    simp only [pairs, List.mem_cons] at he
    rcases he with rfl | rfl | he
    · exact hlit.target.2
    · exact hlit.command.2
    · exact (hfits e.2 (List.mem_map_of_mem he)).2
  have hfew : (pairs target command rest).length ≤ 6 := by
    have := hlit.few
    simp only [List.length_map, pairs, List.length_cons] at this ⊢
    omega
  have hjoined := length_joined_le Json.comma (n := 142)
    (((pairs target command rest).map fun e => (ascii e.1, e.2)).map Json.formatPair) (by
      simp only [List.map_map, List.forall_mem_map]
      intro e he
      have hlen := hshort e he
      simp only [stringMaxLen] at hlen
      simp only [Function.comp, Json.formatPair, Json.printString, List.length_append, List.length_cons,
        List.length_nil]
      omega)
  simp only [List.length_map] at hjoined
  simp only [message, Json.makeObject, Flowmgr.bufsize, List.length_cons, List.length_append, List.length_nil]
  omega

end

/-- **A command arrives**: what is sent fits the buffer of `flowmgr` and has the meaning of the command line, what is printed
    is meant, and what is refused has no meaning. -/
def Arrives (hash : Text → Nat) (o : Option Outcome) : Checked Flowctl.Result → Prop
  | .error _ => False
  | .ok .refused => o = none
  | .ok (.info i) => o = some (.told i)
  | .ok (.sent args) => (message args).length < Flowmgr.bufsize ∧
      ∃ out, o = some out ∧ (∀ i, out ≠ .told i) ∧ Flowmgr.request hash .accepting (message args) [] = .ok true out.events

/-- A command, by what `flowmgr` does with a map that holds its pairs. -/
theorem arrives_pairs (hash : Text → Nat) {out : Outcome} {target command : String} {rest : Pairs} (keys : List String)
    (hlit : Literals target command keys) (hkeys : rest.map Prod.fst = keys) (hfits : Fits (rest.map Prod.snd))
    (hout : ∀ i, out ≠ .told i) (hprocess : ∀ map, Holds hash map (pairs target command rest) →
      Flowmgr.processMap hash .accepting map [] = .ok () out.events) :
    Arrives hash (some out) (.ok (.sent (pairs target command rest))) :=
  ⟨length_message_lt hlit hkeys hfits, out, rfl, hout, request_of_readBack (readBack_pairs hash hlit hkeys hfits)
    (fun map hholds _ => hprocess map hholds)⟩

/-- A command that becomes a request. -/
theorem arrives_request (hash : Text → Nat) (cmd : Flowmgr.Command) {target command : String} {rest : Pairs}
    {texts : List Text} (hlit : Literals target command cmd.args) (hkeys : rest.map Prod.fst = cmd.args)
    (htexts : rest.map Prod.snd = texts) (hfits : Fits texts)
    (hhandler : ∀ map, Holds hash map (pairs target command rest) →
      Flowmgr.processMap hash .accepting map = cmd.handler hash .accepting map) :
    Arrives hash (some (.request cmd texts)) (.ok (.sent (pairs target command rest))) := by
  subst htexts
  apply arrives_pairs hash cmd.args hlit hkeys hfits (by simp)
  intro map hholds
  rw [hhandler map hholds]
  apply handler_wire
  · rw [← hkeys, List.map_map, List.map_map]
    exact List.map_congr_left (fun e he => hholds e (by simp [pairs, he]))
  · exact fun t ht => (hfits t ht).2

/-! ## Data planes -/

section
variable (hash : Text → Nat) (cfg : Config) {args : List Text}

theorem arrives_addDataplane (prog : Text) (hfits : Fits (typed cfg (prog :: ascii "dp" :: ascii "add" :: args))) :
    Arrives hash (dataplaneMeaning cfg (ascii "add") args) (Flowctl.addDataplane cfg (ascii "add" :: args)) := by
  unfold dataplaneMeaning
  rw [if_pos rfl]
  rcases args with _ | ⟨dp, _ | ⟨type, _ | ⟨x, rest⟩⟩⟩
  · rfl
  · rfl
  · cases hpath : resolveDataPlaneType cfg type with
    | none => simp [Flowctl.addDataplane, Arrives, hpath]
    | some path =>
        have htyped : typed cfg [prog, ascii "dp", ascii "add", dp, type] = [dp, path] := by
          simp [typed, hpath]
        rw [htyped] at hfits
        simp only [Flowctl.addDataplane, hpath]
        show Arrives hash _ (.ok (.sent (pairs "dp" "add" [("dp", dp), ("path", path)])))
        exact arrives_request hash .dataplaneAdd (by decide) rfl rfl hfits (fun map hm => processMap_dataplane hm)
  · rfl

variable (hfits : Fits (args.take 3))
include hfits

theorem arrives_delDataplane :
    Arrives hash (dataplaneMeaning cfg (ascii "del") args) (Flowctl.delDataplane cfg (ascii "del" :: args)) := by
  unfold dataplaneMeaning
  rw [if_neg (by decide), if_pos rfl]
  rcases args with _ | ⟨dp, _ | ⟨x, rest⟩⟩
  · rfl
  · show Arrives hash _ (.ok (.sent (pairs "dp" "del" [("dp", dp)])))
    exact arrives_request hash .dataplaneDel (by decide) rfl rfl hfits (fun map hm => processMap_dataplane hm)
  · rfl

theorem arrives_setDataplane :
    Arrives hash (dataplaneMeaning cfg (ascii "set") args) (Flowctl.setDataplane cfg (ascii "set" :: args)) := by
  unfold dataplaneMeaning
  rw [if_neg (by decide), if_neg (by decide), if_pos rfl]
  rcases args with _ | ⟨dp, _ | ⟨prop, _ | ⟨value, rest⟩⟩⟩
  · rfl
  · rfl
  · show Arrives hash _ (.ok (.sent (pairs "dp" "mod" [("dp", dp), ("value", prop)])))
    exact arrives_pairs hash ["dp", "value"] (by decide) rfl hfits (by simp) (fun map hm => by rw [processMap_dataplane hm]; rfl)
  · show Arrives hash _ (.ok (.sent (pairs "dp" "set" [("dp", dp), ("property", prop), ("value", value)])))
    exact arrives_pairs hash ["dp", "property", "value"] (by decide) rfl hfits (by simp)
      (fun map hm => by rw [processMap_dataplane hm]; rfl)

theorem arrives_showDataplane :
    Arrives hash (dataplaneMeaning cfg (ascii "show") args) (Flowctl.showDataplane cfg (ascii "show" :: args)) := by
  unfold dataplaneMeaning
  rw [if_neg (by decide), if_neg (by decide), if_neg (by decide), if_pos (by decide)]
  rcases args with _ | ⟨dp, _ | ⟨x, rest⟩⟩
  · rfl
  · show Arrives hash _ (.ok (.sent (pairs "dp" "show" [("dp", dp)])))
    exact arrives_pairs hash ["dp"] (by decide) rfl hfits (by simp) (fun map hm => by rw [processMap_dataplane hm]; rfl)
  · rfl

theorem arrives_statDataplane :
    Arrives hash (dataplaneMeaning cfg (ascii "stat") args) (Flowctl.statDataplane cfg (ascii "stat" :: args)) := by
  unfold dataplaneMeaning
  rw [if_neg (by decide), if_neg (by decide), if_neg (by decide), if_pos (by decide)]
  rcases args with _ | ⟨dp, _ | ⟨x, rest⟩⟩
  · rfl
  · show Arrives hash _ (.ok (.sent (pairs "dp" "stat" [("dp", dp)])))
    exact arrives_pairs hash ["dp"] (by decide) rfl hfits (by simp) (fun map hm => by rw [processMap_dataplane hm]; rfl)
  · rfl

theorem arrives_listDataplanes :
    Arrives hash (dataplaneMeaning cfg (ascii "list") args) (Flowctl.listDataplanes cfg (ascii "list" :: args)) := by
  unfold dataplaneMeaning
  rw [if_neg (by decide), if_neg (by decide), if_neg (by decide), if_neg (by decide)]
  rcases args with _ | ⟨x, rest⟩
  · rw [if_pos ⟨rfl, rfl⟩]
    show Arrives hash _ (.ok (.sent (pairs "dp" "list" [])))
    exact arrives_pairs hash [] (by decide) rfl hfits (by simp) (fun map hm => by rw [processMap_dataplane hm]; rfl)
  · rw [if_neg (by simp)]
    rfl

end

/-- **The commands of a data plane.** -/
theorem arrives_dataplane (hash : Text → Nat) (cfg : Config) {name : Text} {cmd : Flowctl.Command}
    (h : (name, cmd) ∈ Flowctl.dataplaneCommands) (prog : Text) (args : List Text)
    (hfits : Fits (typed cfg (prog :: ascii "dp" :: name :: args))) :
    Arrives hash (dataplaneMeaning cfg name args) (cmd cfg (name :: args)) := by
  by_cases hadd : name = ascii "add"
  · subst hadd
    simp only [Flowctl.dataplaneCommands, List.mem_cons, Prod.mk.injEq, List.not_mem_nil, or_false] at h
    rcases h with ⟨-, rfl⟩ | ⟨h, -⟩ | ⟨h, -⟩ | ⟨h, -⟩ | ⟨h, -⟩ | ⟨h, -⟩
    · exact arrives_addDataplane hash cfg prog hfits
    all_goals exact absurd h (by decide)
  · rw [Flowctl.typed_eq_take (fun h => hadd h.2)] at hfits
    simp only [Flowctl.dataplaneCommands, List.mem_cons, Prod.mk.injEq, List.not_mem_nil, or_false] at h
    rcases h with ⟨rfl, -⟩ | ⟨rfl, rfl⟩ | ⟨rfl, rfl⟩ | ⟨rfl, rfl⟩ | ⟨rfl, rfl⟩ | ⟨rfl, rfl⟩
    · exact absurd rfl hadd
    · exact arrives_delDataplane hash cfg hfits
    · exact arrives_setDataplane hash cfg hfits
    · exact arrives_showDataplane hash cfg hfits
    · exact arrives_statDataplane hash cfg hfits
    · exact arrives_listDataplanes hash cfg hfits

/-! ## Ports -/

section
variable (hash : Text → Nat) (cfg : Config) {args : List Text} (hfits : Fits (args.take 3))
include hfits

theorem arrives_addPort (hopt : args.length ≤ 3) :
    Arrives hash (portMeaning (ascii "add") args) (Flowctl.addPort cfg (ascii "add" :: args)) := by
  unfold portMeaning
  rw [if_pos rfl]
  rcases args with _ | ⟨dp, _ | ⟨type, _ | ⟨device, _ | ⟨x, rest⟩⟩⟩⟩
  · rfl
  · rfl
  · rfl
  · show Arrives hash _ (.ok (.sent (pairs "port" "add" [("dp", dp), ("type", type), ("device", device), ("options", [])])))
    refine arrives_request hash .portAdd (by decide) rfl rfl ?_ (fun map hm => processMap_port hm)
    intro t ht
    simp only [List.mem_cons, List.not_mem_nil, or_false] at ht
    rcases ht with rfl | rfl | rfl | rfl
    · exact hfits _ (by simp)
    · exact hfits _ (by simp)
    · exact hfits _ (by simp)
    · simp
  · simp only [List.length_cons] at hopt
    omega

theorem arrives_delPort :
    Arrives hash (portMeaning (ascii "del") args) (Flowctl.delPort cfg (ascii "del" :: args)) := by
  unfold portMeaning
  rw [if_neg (by decide), if_pos rfl]
  rcases args with _ | ⟨dp, _ | ⟨pid, _ | ⟨x, rest⟩⟩⟩
  · rfl
  · rfl
  · show Arrives hash _ (.ok (.sent (pairs "port" "del" [("dp", dp), ("pid", pid)])))
    exact arrives_request hash .portDel (by decide) rfl rfl hfits (fun map hm => processMap_port hm)
  · rfl

theorem arrives_setPort :
    Arrives hash (portMeaning (ascii "set") args) (Flowctl.setPort cfg (ascii "set" :: args)) := by
  unfold portMeaning
  rw [if_neg (by decide), if_neg (by decide), if_pos rfl]
  rcases args with _ | ⟨port, _ | ⟨prop, _ | ⟨value, rest⟩⟩⟩
  · rfl
  · rfl
  · show Arrives hash _ (.ok (.sent (pairs "port" "mod" [("port", port), ("state", prop)])))
    exact arrives_pairs hash ["port", "state"] (by decide) rfl hfits (by simp) (fun map hm => by rw [processMap_port hm]; rfl)
  · show Arrives hash _ (.ok (.sent (pairs "port" "set" [("port", port), ("property", prop), ("value", value)])))
    exact arrives_pairs hash ["port", "property", "value"] (by decide) rfl hfits (by simp)
      (fun map hm => by rw [processMap_port hm]; rfl)

theorem arrives_showPort :
    Arrives hash (portMeaning (ascii "show") args) (Flowctl.showPort cfg (ascii "show" :: args)) := by
  unfold portMeaning
  rw [if_neg (by decide), if_neg (by decide), if_neg (by decide), if_pos (by decide)]
  rcases args with _ | ⟨port, _ | ⟨x, rest⟩⟩
  · rfl
  · show Arrives hash _ (.ok (.sent (pairs "port" "show" [("port", port)])))
    exact arrives_pairs hash ["port"] (by decide) rfl hfits (by simp) (fun map hm => by rw [processMap_port hm]; rfl)
  · rfl

theorem arrives_statPort :
    Arrives hash (portMeaning (ascii "stat") args) (Flowctl.statPort cfg (ascii "stat" :: args)) := by
  unfold portMeaning
  rw [if_neg (by decide), if_neg (by decide), if_neg (by decide), if_pos (by decide)]
  rcases args with _ | ⟨port, _ | ⟨x, rest⟩⟩
  · rfl
  · show Arrives hash _ (.ok (.sent (pairs "port" "stat" [("port", port)])))
    exact arrives_pairs hash ["port"] (by decide) rfl hfits (by simp) (fun map hm => by rw [processMap_port hm]; rfl)
  · rfl

theorem arrives_listPorts :
    Arrives hash (portMeaning (ascii "list") args) (Flowctl.listPorts cfg (ascii "list" :: args)) := by
  unfold portMeaning
  rw [if_neg (by decide), if_neg (by decide), if_neg (by decide), if_neg (by decide), if_pos rfl]
  rcases args with _ | ⟨dp, _ | ⟨x, rest⟩⟩
  · rfl
  · show Arrives hash _ (.ok (.sent (pairs "port" "list" [("dp", dp)])))
    exact arrives_request hash .portList (by decide) rfl rfl hfits (fun map hm => processMap_port hm)
  · rfl

end

/-- **The commands of a port.** -/
theorem arrives_port (hash : Text → Nat) (cfg : Config) {name : Text} {cmd : Flowctl.Command}
    (h : (name, cmd) ∈ Flowctl.portCommands) (prog : Text) (args : List Text)
    (hopt : ¬ AddsOptions (prog :: ascii "port" :: name :: args))
    (hfits : Fits (typed cfg (prog :: ascii "port" :: name :: args))) :
    Arrives hash (portMeaning name args) (cmd cfg (name :: args)) := by
  rw [Flowctl.typed_eq_take (fun h => absurd h.1 (by decide))] at hfits
  simp only [Flowctl.portCommands, List.mem_cons, Prod.mk.injEq, List.not_mem_nil, or_false] at h
  rcases h with ⟨rfl, rfl⟩ | ⟨rfl, rfl⟩ | ⟨rfl, rfl⟩ | ⟨rfl, rfl⟩ | ⟨rfl, rfl⟩ | ⟨rfl, rfl⟩
  · refine arrives_addPort hash cfg hfits ?_
    by_contra hlen
    exact hopt ⟨rfl, rfl, by simp only [List.length_cons]; omega⟩
  · exact arrives_delPort hash cfg hfits
  · exact arrives_setPort hash cfg hfits
  · exact arrives_showPort hash cfg hfits
  · exact arrives_statPort hash cfg hfits
  · exact arrives_listPorts hash cfg hfits

/-! ## The command line -/

/-- A command that the table of data planes does not have means nothing. -/
theorem dataplaneMeaning_unknown (cfg : Config) {name : Text} (h : Flowctl.dataplaneCommands.lookup name = none)
    (args : List Text) : dataplaneMeaning cfg name args = none := by
  simp only [Flowctl.dataplaneCommands, List.lookup_eq_none_iff, List.forall_mem_cons, bne_iff_ne] at h
  obtain ⟨hadd, hdel, hset, hshow, hstat, hlist, -⟩ := h
  unfold dataplaneMeaning
  rw [if_neg hadd, if_neg hdel, if_neg hset, if_neg (not_or.mpr ⟨hshow, hstat⟩), if_neg (fun h => hlist h.1)]

theorem portMeaning_unknown {name : Text} (h : Flowctl.portCommands.lookup name = none) (args : List Text) :
    portMeaning name args = none := by
  simp only [Flowctl.portCommands, List.lookup_eq_none_iff, List.forall_mem_cons, bne_iff_ne] at h
  obtain ⟨hadd, hdel, hset, hshow, hstat, hlist, -⟩ := h
  unfold portMeaning
  rw [if_neg hadd, if_neg hdel, if_neg hset, if_neg (not_or.mpr ⟨hshow, hstat⟩), if_neg hlist]

/-- A command that a table has is one of its commands. -/
theorem mem_of_lookup {commands : List (Text × Flowctl.Command)} {name : Text} {cmd : Flowctl.Command}
    (h : commands.lookup name = some cmd) : (name, cmd) ∈ commands := by
  obtain ⟨front, back, heq, -⟩ := List.lookup_eq_some_iff.mp h
  simp [heq]

/-- The command line behind its target. -/
theorem arrives_execute {hash : Text → Nat} {cfg : Config} {commands : List (Text × Flowctl.Command)}
    {mean : Text → List Text → Option Outcome} (tgt : Text) {args : List Text}
    (hunknown : ∀ name rest, commands.lookup name = none → mean name rest = none)
    (hknown : ∀ name cmd rest, args = name :: rest → (name, cmd) ∈ commands →
      Arrives hash (mean name rest) (cmd cfg (name :: rest))) :
    Arrives hash (args.head?.bind fun name => mean name args.tail)
      (Flowctl.executeCommand commands cfg (tgt :: args)) := by
  rcases args with _ | ⟨name, rest⟩
  · rfl
  · show Arrives hash (mean name rest) (Flowctl.executeCommand commands cfg (tgt :: name :: rest))
    cases hcmd : commands.lookup name with
    | none =>
        have hexec : Flowctl.executeCommand commands cfg (tgt :: name :: rest) = .ok .refused := by
          simp only [Flowctl.executeCommand, hcmd]
          rfl
        rw [hexec]
        exact hunknown name rest hcmd
    | some cmd =>
        have hexec : Flowctl.executeCommand commands cfg (tgt :: name :: rest) = cmd cfg (name :: rest) := by
          simp only [Flowctl.executeCommand, hcmd]
        rw [hexec]
        exact hknown name cmd rest rfl (mem_of_lookup hcmd)

/-- `flowctl ping` arrives, and has no target for `flowmgr`. -/
theorem arrives_ping (hash : Text → Nat) :
    Arrives hash (some (.refused "ill-formed command")) (.ok (.sent [("command", ascii "ping")])) := by
  refine ⟨by decide, _, rfl, by simp, ?_⟩
  have hread : ReadBack hash [("command", ascii "ping")] := by
    rw [Flowctl.readBack_iff hash (by show KeysApart ["command"]; decide)]
    decide
  apply request_of_readBack hread
  intro map _ honly
  have htarget : map.find hash (ascii "target") = none := by
    apply Json.Map.find_of_apart
    intro e he
    have hkey : e.1 = ascii "command" := List.mem_singleton.mp (honly e he)
    rw [hkey]
    decide
  rw [Flowmgr.processMap, getStringArg, htarget]
  rfl

/-- **Every command line arrives**, unless it has options for a port, strings that do not fit their fields, or no topic. -/
theorem arrives_main (hash : Text → Nat) {cfg : Config} {argv : List Text} (h : Typable cfg argv) :
    Arrives hash (meaning cfg argv) (Flowctl.main cfg argv) := by
  rcases argv with _ | ⟨prog, _ | ⟨tgt, args⟩⟩
  · rfl
  · rfl
  by_cases hhelp : tgt = ascii "help"
  · subst hhelp
    obtain ⟨topic, rest, rfl⟩ : ∃ topic rest, args = topic :: rest := by
      cases args with
      | nil => exact absurd rfl (h.topic rfl)
      | cons topic rest => exact ⟨topic, rest, rfl⟩
    rfl
  by_cases hversion : tgt = ascii "version"
  · subst hversion
    rfl
  by_cases hping : tgt = ascii "ping"
  · subst hping
    exact arrives_ping hash
  by_cases hdp : tgt = ascii "dp"
  · subst hdp
    show Arrives hash (args.head?.bind fun name => dataplaneMeaning cfg name args.tail)
      (Flowctl.executeCommand Flowctl.dataplaneCommands cfg (ascii "dp" :: args))
    apply arrives_execute (ascii "dp") (fun name rest h => dataplaneMeaning_unknown cfg h rest)
    rintro name cmd rest rfl hmem
    exact arrives_dataplane hash cfg hmem prog rest (h.fits (.inl rfl))
  by_cases hport : tgt = ascii "port"
  · subst hport
    show Arrives hash (args.head?.bind fun name => portMeaning name args.tail)
      (Flowctl.executeCommand Flowctl.portCommands cfg (ascii "port" :: args))
    apply arrives_execute (ascii "port") (fun name rest h => portMeaning_unknown h rest)
    rintro name cmd rest rfl hmem
    exact arrives_port hash cfg hmem prog rest h.plain (h.fits (.inr rfl))
  · have hmain : Flowctl.main cfg (prog :: tgt :: args) = .ok .refused := by
      simp [Flowctl.main, Flowctl.commands, Flowctl.executeCommand, Flowmgr.lookup_of_ne hhelp, Flowmgr.lookup_of_ne hversion,
        Flowmgr.lookup_of_ne hping, Flowmgr.lookup_of_ne hdp, Flowmgr.lookup_of_ne hport]
    have hmeaning : meaning cfg (prog :: tgt :: args) = none := by
      simp only [meaning, if_neg hhelp, if_neg hversion, if_neg hping, if_neg hdp, if_neg hport]
    rw [hmain, hmeaning]
    rfl

/-! ## The arguments of a request -/

/-- The arguments of a command, as its message has room for them. -/
structure Arguments (cmd : Flowmgr.Command) (args : List Text) : Prop where
  count : args.length = cmd.args.length
  short : ∀ t ∈ args, t.length ≤ stringMaxLen
  nul : ∀ t ∈ args, 0 ∉ t

theorem Arguments.few {cmd : Flowmgr.Command} {args : List Text} (h : Arguments cmd args) : args.length ≤ 4 :=
  h.count ▸ cmd.length_args_le

/-- What a request of a data plane has for arguments was typed. -/
theorem typed_of_dataplaneMeaning {cfg : Config} {prog name : Text} {rest : List Text} {cmd : Flowmgr.Command}
    {args : List Text} (h : dataplaneMeaning cfg name rest = some (.request cmd args)) :
    args.length = cmd.args.length ∧ ∀ t ∈ args, t ∈ typed cfg (prog :: ascii "dp" :: name :: rest) ∨ t = [] := by
  unfold dataplaneMeaning at h
  split_ifs at h with hadd hdel hset hshow
  · subst hadd
    split at h
    · next dp type =>
        obtain ⟨path, hpath, heq⟩ := Option.map_eq_some_iff.mp h
        cases heq
        exact ⟨rfl, by simp [typed, hpath]⟩
    · cases h
  · subst hdel
    split at h
    · cases h
      exact ⟨rfl, by simp [typed]⟩
    · cases h
  · split at h <;> cases h
  · split at h <;> cases h
  · cases h

/-- What a request of a port has for arguments was typed, but for the options. -/
theorem typed_of_portMeaning {cfg : Config} {prog name : Text} {rest : List Text} {cmd : Flowmgr.Command}
    {args : List Text} (h : portMeaning name rest = some (.request cmd args)) :
    args.length = cmd.args.length ∧ ∀ t ∈ args, t ∈ typed cfg (prog :: ascii "port" :: name :: rest) ∨ t = [] := by
  rw [Flowctl.typed_eq_take (fun h => absurd h.1 (by decide))]
  unfold portMeaning at h
  split_ifs at h with hadd hdel hset hshow hlist
  · split at h
    · cases h
      exact ⟨rfl, by simp⟩
    · cases h
  · split at h
    · cases h
      exact ⟨rfl, by simp⟩
    · cases h
  · split at h <;> cases h
  · split at h <;> cases h
  · split at h
    · cases h
      exact ⟨rfl, by simp⟩
    · cases h

/-- What a request has for arguments was typed, but for the options of a port. -/
theorem typed_of_meaning {cfg : Config} {argv : List Text} {cmd : Flowmgr.Command} {args : List Text}
    (h : meaning cfg argv = some (.request cmd args)) : TakesArguments argv ∧
      args.length = cmd.args.length ∧ ∀ t ∈ args, t ∈ typed cfg argv ∨ t = [] := by
  unfold meaning at h
  split at h
  · next prog tgt rest =>
      split_ifs at h with hhelp hversion hping hdp hport
      · obtain ⟨topic, -, htold⟩ := Option.map_eq_some_iff.mp h
        cases htold
      · cases h
      · cases h
      · subst hdp
        obtain ⟨name, hname, hmeaning⟩ := Option.bind_eq_some_iff.mp h
        obtain ⟨rest, rfl⟩ := List.head?_eq_some_iff.mp hname
        exact ⟨.inl rfl, typed_of_dataplaneMeaning hmeaning⟩
      · subst hport
        obtain ⟨name, hname, hmeaning⟩ := Option.bind_eq_some_iff.mp h
        obtain ⟨rest, rfl⟩ := List.head?_eq_some_iff.mp hname
        exact ⟨.inr rfl, typed_of_portMeaning hmeaning⟩
  · cases h

theorem Typable.arguments {cfg : Config} {argv : List Text} {cmd : Flowmgr.Command} {args : List Text}
    (h : Typable cfg argv) (hmeaning : meaning cfg argv = some (.request cmd args)) : Arguments cmd args := by
  obtain ⟨htakes, hcount, htyped⟩ := typed_of_meaning hmeaning
  refine ⟨hcount, fun t ht => ?_, fun t ht => ?_⟩
  · rcases htyped t ht with hmem | rfl
    · exact (h.fits htakes t hmem).2
    · exact Nat.zero_le _
  · rcases htyped t ht with hmem | rfl
    · exact h.nul htakes t hmem
    · simp

/-- **A command arrives as it was typed.** `flowctl` refuses a command line if it means nothing, and prints the text that is
    meant if it has that itself. Else it sends a text that fits the buffer of `flowmgr`, which makes of it the error message,
    or nothing, or the message of the request that was meant; and the switch reads the arguments that were typed back from
    this message exactly if they fit their fields with their ends. -/
theorem command_translated (hash : Text → Nat) (cfg : Config) (argv : List Text) (h : Typable cfg argv) :
    match meaning cfg argv with
    | none => Flowctl.main cfg argv = .ok .refused
    | some (.told i) => Flowctl.main cfg argv = .ok (.info i)
    | some out => ∃ args, Flowctl.main cfg argv = .ok (.sent args) ∧ (message args).length < Flowmgr.bufsize ∧
        Flowmgr.request hash .accepting (message args) [] = .ok true out.events ∧
        ∀ cmd texts, out = .request cmd texts → encodeRequest cmd.kind (texts.map some) = .ok (wire cmd texts) ∧
          (Flowpath.readArguments (wire cmd texts) cmd.args.length = .ok texts ↔ FieldsFit stringMaxLen texts) := by
  have harrives := arrives_main hash h
  cases hmain : Flowctl.main cfg argv with
  | error f =>
      rw [hmain] at harrives
      exact harrives.elim
  | ok result =>
      rw [hmain] at harrives
      cases result with
      | refused =>
          rw [show meaning cfg argv = none from harrives]
      | info i =>
          rw [show meaning cfg argv = some (.told i) from harrives]
      | sent args =>
          obtain ⟨hlen, out, hmeaning, htold, hreq⟩ := harrives
          have hread : ∀ cmd texts, out = .request cmd texts → encodeRequest cmd.kind (texts.map some) = .ok (wire cmd texts) ∧
              (Flowpath.readArguments (wire cmd texts) cmd.args.length = .ok texts ↔ FieldsFit stringMaxLen texts) := by
            rintro cmd texts rfl
            have hargs := h.arguments hmeaning
            have hwire := encodeRequest_wire cmd hargs.few hargs.short
            obtain ⟨msg, hmsg, hread⟩ := Flowmgr.encodeRequest_read cmd.kind hargs.few hargs.short hargs.nul
            rw [hwire] at hmsg
            cases hmsg
            exact ⟨hwire, hargs.count ▸ hread⟩
          rw [hmeaning]
          cases out with
          | told i => exact absurd rfl (htold i)
          | request | refused | ignored => exact ⟨args, rfl, hlen, hreq, hread⟩

/-- A switch whose modules are in `/m`. -/
def modules : Config := ⟨[ascii "/m"], fun _ => true⟩

/-- The command to add a data plane of type `x`. -/
def addLine : List Text := [ascii "flowctl", ascii "dp", ascii "add", ascii "a", ascii "x"]

theorem addLine_typable : Typable modules addLine where
  plain h := absurd h.1 (by decide)
  topic h := absurd h (by decide)
  fits _ := by
    unfold Fits
    decide
  nul _ := by decide

theorem command_translated_add :
    ∃ args, Flowctl.main modules addLine = .ok (.sent args) ∧ (message args).length < Flowmgr.bufsize ∧
      Flowmgr.request List.length .accepting (message args) [] =
        .ok true [.request (wire .dataplaneAdd [ascii "a", ascii "/m/pipelines/libx.so"])] ∧
      ∀ cmd texts, Outcome.request .dataplaneAdd [ascii "a", ascii "/m/pipelines/libx.so"] = .request cmd texts →
        encodeRequest cmd.kind (texts.map some) = .ok (wire cmd texts) ∧
          (Flowpath.readArguments (wire cmd texts) cmd.args.length = .ok texts ↔ FieldsFit stringMaxLen texts) := by
  have hmeaning : meaning modules addLine = some (.request .dataplaneAdd [ascii "a", ascii "/m/pipelines/libx.so"]) := by
    decide
  have h := command_translated List.length modules addLine addLine_typable
  rw [hmeaning] at h
  exact h

end Stack
end Freeflow
