import Freeflow.Flowctl.Command
import Freeflow.Flowmgr.Request
import Freeflow.Json.Correctness.Build
import Freeflow.Json.Correctness.Lookup

/-!
# `Flowctl.Correctness.Arguments` — what of a command line flowmgr sees

A command writes its arguments between quotes as they are, and flowmgr reads the string of a key up to the first quote
that no backslash escapes. `ReadBack` says that nothing is lost and nothing is added on this way. It holds exactly if each
argument is the raw body of a string; the options of a port do not arrive at all, since the string that holds them is gone
before it is written.
-/

namespace Freeflow
namespace Flowctl

open Json (Text Value Pair ascii parse rawBody stringEq objectMap)
open Flowmgr (getStringArg)

/-! ## What flowmgr sees -/

/-- Every pair of a message is found by its key in the map of the object that is parsed, and no other key is in it. -/
def ReadBack (hash : Text → Nat) (args : Pairs) : Prop :=
  ∃ ps rest n, parse (message args) = .value (.object ps) rest n ∧
    (∀ e ∈ args, getStringArg hash (objectMap hash ps) e.1 = some e.2) ∧
    ∀ e ∈ objectMap hash ps, e.1 ∈ args.map (fun a => ascii a.1)

/-- The outcome of a command: nothing is sent, or it is read back. -/
def Seen (hash : Text → Nat) : Checked Result → Prop
  | .error _ => False
  | .ok .refused => True
  | .ok (.info _) => True
  | .ok (.sent args) => ReadBack hash args

/-- Keys of which no two are equivalent; each is the raw body of a string. -/
def KeysApart (keys : List String) : Prop :=
  keys.Pairwise (fun a b => stringEq (ascii a) (ascii b) = false) ∧ ∀ k ∈ keys, rawBody (ascii k) = true

instance (keys : List String) : Decidable (KeysApart keys) := inferInstanceAs (Decidable (_ ∧ _))

/-! ## Reading a message back -/

/-- A string that an argument lookup gives stands in the tree. -/
theorem string_mem_terminals {hash : Text → Nat} {ps : List Pair} {key : String} {t : Text}
    (h : getStringArg hash (objectMap hash ps) key = some t) : .string t ∈ Value.terminals (.object ps) := by
  have hfound : (objectMap hash ps).find hash (ascii key) = some (.string t) := by
    rw [getStringArg] at h
    split at h
    · next text hfind => rw [hfind, Option.some.inj h]
    · cases h
  rw [Json.Map.find, Option.map_eq_some_iff] at hfound
  obtain ⟨e, he, hvalue⟩ := hfound
  obtain ⟨p, hp, rfl⟩ := Json.mem_objectMap hash (List.mem_of_find?_eq_some he)
  apply Json.mem_pairTerminals hp
  obtain ⟨key, value⟩ := p
  rw [show value = .string t from hvalue]
  simp [Json.Pair.terminals, Value.terminals]

/-- **A message whose keys are apart is read back exactly if its strings are raw bodies.** -/
theorem readBack_iff (hash : Text → Nat) {args : Pairs} (hkeys : KeysApart (args.map Prod.fst)) :
    ReadBack hash args ↔ ∀ e ∈ args, rawBody e.2 = true := by
  constructor
  · rintro ⟨ps, rest, n, hparse, hfound, -⟩ e he
    exact Json.rawBody_of_parse hparse (string_mem_terminals (hfound e he))
  · intro hraw
    have hbodies : ∀ x ∈ args.map (fun e => (ascii e.1, e.2)), rawBody x.1 = true ∧ rawBody x.2 = true := by
      intro x hx
      obtain ⟨e, he, rfl⟩ := List.mem_map.mp hx
      exact ⟨hkeys.2 e.1 (List.mem_map_of_mem he), hraw e he⟩
    obtain ⟨n, hparse⟩ := Json.parse_readable (Json.derives_makeObject hbodies).bare
    rw [List.map_map] at hparse
    refine ⟨_, [], n, hparse, ?_⟩
    have hentries : (args.map ((fun e => Pair.mk e.1 (.string e.2)) ∘ fun e => (ascii e.1, e.2))).map
        (fun p => (p.key, p.value)) = args.map (fun e => (ascii e.1, Value.string e.2)) := by
      rw [List.map_map]
      rfl
    have hapart : (args.map (fun e => (ascii e.1, Value.string e.2))).Pairwise
        (fun a b => stringEq a.1 b.1 = false) := by
      rw [List.pairwise_map]
      exact List.pairwise_map.mp hkeys.1
    rw [Json.objectMap_of_apart hash (by rw [hentries]; exact hapart), hentries]
    constructor
    · intro e he
      rw [getStringArg, Json.Map.find_of_mem hash hapart (List.mem_map_of_mem he)]
    · intro x hx
      obtain ⟨e, he, rfl⟩ := List.mem_map.mp hx
      exact List.mem_map_of_mem he

/-! ## The command line -/

/-- A command for data planes or ports: the others send nothing of what the user typed. -/
def TakesArguments (argv : List Text) : Prop := argv[1]? = some (ascii "dp") ∨ argv[1]? = some (ascii "port")

/-- A `port add` with options behind its device. -/
def AddsOptions (argv : List Text) : Prop :=
  argv[1]? = some (ascii "port") ∧ argv[2]? = some (ascii "add") ∧ 6 < argv.length

/-- The strings of the user in a message: up to three arguments behind the name of the command. For `dp add` the path of
    the module stands in place of its type. -/
def typed (cfg : Config) : List Text → List Text
  | [_, tgt, cmd, dp, type] =>
      if tgt = ascii "dp" ∧ cmd = ascii "add" then dp :: (resolveDataPlaneType cfg type).toList else [dp, type]
  | argv => (argv.drop 3).take 3

/-- A command is refused, or it writes pairs whose keys are apart, and whose strings are raw bodies exactly if those in `ts`
    are. -/
def Carries (ts : List Text) : Checked Result → Prop
  | .error _ => False
  | .ok .refused => True
  | .ok (.info _) => False
  | .ok (.sent args) => KeysApart (args.map Prod.fst) ∧
      ((∀ e ∈ args, rawBody e.2 = true) ↔ ∀ t ∈ ts, rawBody t = true)

/-- The literals of a command stand in no one's way. -/
theorem carries_pairs {target command : String} (keys : List String) (texts : List Text) {ts : List Text}
    (hlit : KeysApart ("target" :: "command" :: keys) ∧ rawBody (ascii target) = true ∧ rawBody (ascii command) = true)
    (hlen : keys.length = texts.length)
    (hts : (∀ t ∈ texts, rawBody t = true) ↔ ∀ t ∈ ts, rawBody t = true) :
    Carries ts (.ok (.sent (pairs target command (keys.zip texts)))) := by
  obtain ⟨hkeys, htarget, hcommand⟩ := hlit
  have hfst : (keys.zip texts).map Prod.fst = keys := List.map_fst_zip hlen.le
  have hsnd : (keys.zip texts).map Prod.snd = texts := List.map_snd_zip hlen.ge
  constructor
  · show KeysApart ("target" :: "command" :: (keys.zip texts).map Prod.fst)
    rwa [hfst]
  · have hvals : (∀ t ∈ (keys.zip texts).map Prod.snd, rawBody t = true) ↔ ∀ e ∈ keys.zip texts, rawBody e.2 = true :=
      List.forall_mem_map
    rw [hsnd, hts] at hvals
    rw [pairs, List.forall_mem_cons, List.forall_mem_cons, hvals]
    exact ⟨fun h => h.2.2, fun h => ⟨htarget, hcommand, h⟩⟩

/-- All commands but one put the arguments themselves into the message. -/
theorem typed_eq_take {cfg : Config} {tgt name : Text} (h : ¬ (tgt = ascii "dp" ∧ name = ascii "add")) (prog : Text)
    (args : List Text) : typed cfg (prog :: tgt :: name :: args) = args.take 3 := by
  unfold typed
  split
  · next heq =>
      cases heq
      rw [if_neg h]
      rfl
  · rfl

/-- A command that gives its arguments the keys `keys`. -/
theorem carries_typed (cfg : Config) {tgt name : Text} (h : ¬ (tgt = ascii "dp" ∧ name = ascii "add")) (prog : Text)
    (args : List Text) {target command : String} (keys : List String)
    (hlit : KeysApart ("target" :: "command" :: keys) ∧ rawBody (ascii target) = true ∧ rawBody (ascii command) = true)
    (hlen : keys.length = (args.take 3).length) :
    Carries (typed cfg (prog :: tgt :: name :: args)) (.ok (.sent (pairs target command (keys.zip (args.take 3))))) := by
  rw [typed_eq_take h]
  exact carries_pairs keys _ hlit hlen Iff.rfl

/-- The commands of a data plane carry the strings of the user. -/
theorem carries_of_mem_dataplaneCommands (cfg : Config) {name : Text} {cmd : Command}
    (h : (name, cmd) ∈ dataplaneCommands) (prog : Text) (args : List Text) :
    Carries (typed cfg (prog :: ascii "dp" :: name :: args)) (cmd cfg (name :: args)) := by
  simp only [dataplaneCommands, List.mem_cons, Prod.mk.injEq, List.not_mem_nil, or_false] at h
  rcases h with ⟨rfl, rfl⟩ | ⟨rfl, rfl⟩ | ⟨rfl, rfl⟩ | ⟨rfl, rfl⟩ | ⟨rfl, rfl⟩ | ⟨rfl, rfl⟩
  · unfold addDataplane
    split
    · next dp type heq =>
        cases heq
        cases hpath : resolveDataPlaneType cfg type with
        | none => exact trivial
        | some path =>
            apply carries_pairs ["dp", "path"] [dp, path] (by decide) rfl
            simp [typed, hpath]
    · trivial
  · unfold delDataplane
    split
    · next heq =>
        cases heq
        exact carries_typed cfg (by decide) prog _ ["dp"] (by decide) rfl
    · trivial
  · unfold setDataplane
    split
    · next heq =>
        cases heq
        exact carries_typed cfg (by decide) prog _ ["dp", "value"] (by decide) rfl
    · next heq =>
        cases heq
        exact carries_typed cfg (by decide) prog _ ["dp", "property", "value"] (by decide) rfl
    · trivial
  · unfold showDataplane
    split
    · next heq =>
        cases heq
        exact carries_typed cfg (by decide) prog _ ["dp"] (by decide) rfl
    · trivial
  · unfold statDataplane
    split
    · next heq =>
        cases heq
        exact carries_typed cfg (by decide) prog _ ["dp"] (by decide) rfl
    · trivial
  · unfold listDataplanes
    split
    · next heq =>
        cases heq
        exact carries_typed cfg (by decide) prog _ [] (by decide) rfl
    · trivial

/-- The commands of a port carry the strings of the user, where no options are added. -/
theorem carries_of_mem_portCommands (cfg : Config) {name : Text} {cmd : Command} (h : (name, cmd) ∈ portCommands)
    (prog : Text) (args : List Text) (hopt : ¬ AddsOptions (prog :: ascii "port" :: name :: args)) :
    Carries (typed cfg (prog :: ascii "port" :: name :: args)) (cmd cfg (name :: args)) := by
  simp only [portCommands, List.mem_cons, Prod.mk.injEq, List.not_mem_nil, or_false] at h
  rcases h with ⟨rfl, rfl⟩ | ⟨rfl, rfl⟩ | ⟨rfl, rfl⟩ | ⟨rfl, rfl⟩ | ⟨rfl, rfl⟩ | ⟨rfl, rfl⟩
  · unfold addPort
    split
    · next dp type device heq =>
        cases heq
        apply carries_pairs ["dp", "type", "device", "options"] [dp, type, device, []] (by decide) rfl
        rw [typed_eq_take (by decide)]
        simp [show rawBody [] = true from rfl]
    · next heq =>
        cases heq
        exact hopt ⟨rfl, rfl, by simp⟩
    · trivial
  · unfold delPort
    split
    · next heq =>
        cases heq
        exact carries_typed cfg (by decide) prog _ ["dp", "pid"] (by decide) rfl
    · trivial
  · unfold setPort
    split
    · next heq =>
        cases heq
        exact carries_typed cfg (by decide) prog _ ["port", "state"] (by decide) rfl
    · next heq =>
        cases heq
        exact carries_typed cfg (by decide) prog _ ["port", "property", "value"] (by decide) rfl
    · trivial
  · unfold showPort
    split
    · next heq =>
        cases heq
        exact carries_typed cfg (by decide) prog _ ["port"] (by decide) rfl
    · trivial
  · unfold statPort
    split
    · next heq =>
        cases heq
        exact carries_typed cfg (by decide) prog _ ["port"] (by decide) rfl
    · trivial
  · unfold listPorts
    split
    · next heq =>
        cases heq
        exact carries_typed cfg (by decide) prog _ ["dp"] (by decide) rfl
    · trivial

/-! ## Finding the command -/

/-- A table that does more than refuse hands the rest of the arguments to one of its commands. -/
theorem executeCommand_eq {commands : List (Text × Command)} {cfg : Config} {argv : List Text}
    (h : executeCommand commands cfg argv ≠ .ok .refused) :
    ∃ prog tgt args cmd, argv = prog :: tgt :: args ∧ (tgt, cmd) ∈ commands ∧
      executeCommand commands cfg argv = cmd cfg (tgt :: args) := by
  match argv with
  | [] => exact absurd rfl h
  | [_] => exact absurd rfl h
  | prog :: tgt :: args =>
      cases hcmd : commands.lookup tgt with
      | none =>
          rw [executeCommand, hcmd] at h
          exact absurd rfl h
      | some cmd =>
          refine ⟨prog, tgt, args, cmd, rfl, ?_, by rw [executeCommand, hcmd]⟩
          obtain ⟨front, back, hsplit, -⟩ := List.lookup_eq_some_iff.mp hcmd
          rw [hsplit]
          simp

/-- The options of a port are read when they are gone. -/
theorem main_addsOptions (cfg : Config) {argv : List Text} (h : AddsOptions argv) :
    main cfg argv = .error .useAfterFree := by
  obtain ⟨htgt, hname, hlen⟩ := h
  match argv with
  | _ :: tgt :: name :: dp :: type :: device :: opt :: opts =>
      obtain rfl : tgt = ascii "port" := Option.some.inj htgt
      obtain rfl : name = ascii "add" := Option.some.inj hname
      rfl

/-- Without options the command of a data plane or a port carries the strings of the user, unless it is refused. -/
theorem main_carries {cfg : Config} {argv : List Text} (htakes : TakesArguments argv) (hsent : main cfg argv ≠ .ok .refused)
    (hopt : ¬ AddsOptions argv) : Carries (typed cfg argv) (main cfg argv) := by
  match argv with
  | [] => exact absurd rfl hsent
  | [_] => exact absurd rfl hsent
  | prog :: tgt :: args =>
      rcases htakes with htgt | htgt
      · obtain rfl : tgt = ascii "dp" := Option.some.inj htgt
        have hmain : main cfg (prog :: ascii "dp" :: args) = dataplaneCommand cfg (ascii "dp" :: args) := rfl
        rw [hmain] at hsent ⊢
        obtain ⟨_, name, args, cmd, heq, hmem, hcmd⟩ := executeCommand_eq hsent
        cases heq
        rw [dataplaneCommand, hcmd]
        exact carries_of_mem_dataplaneCommands cfg hmem prog args
      · obtain rfl : tgt = ascii "port" := Option.some.inj htgt
        have hmain : main cfg (prog :: ascii "port" :: args) = portCommand cfg (ascii "port" :: args) := rfl
        rw [hmain] at hsent ⊢
        obtain ⟨_, name, args, cmd, heq, hmem, hcmd⟩ := executeCommand_eq hsent
        cases heq
        rw [portCommand, hcmd]
        exact carries_of_mem_portCommands cfg hmem prog args hopt

/-- **What the user types is what flowmgr sees, exactly if every string typed is the raw body of a string and no options
    are added to a port.** -/
theorem main_seen_iff (hash : Text → Nat) (cfg : Config) (argv : List Text) (htakes : TakesArguments argv)
    (hsent : main cfg argv ≠ .ok .refused) :
    Seen hash (main cfg argv) ↔ ¬ AddsOptions argv ∧ ∀ t ∈ typed cfg argv, rawBody t = true := by
  by_cases hopt : AddsOptions argv
  · rw [main_addsOptions cfg hopt]
    exact ⟨False.elim, fun h => h.1 hopt⟩
  · have hcarries := main_carries htakes hsent hopt
    cases hr : main cfg argv with
    | error f =>
        rw [hr] at hcarries
        exact hcarries.elim
    | ok result =>
        rw [hr] at hcarries hsent
        cases result with
        | refused => exact absurd rfl hsent
        | info i => exact hcarries.elim
        | sent args =>
            obtain ⟨hkeys, hraw⟩ := hcarries
            show ReadBack hash args ↔ _
            rw [readBack_iff hash hkeys, hraw]
            exact ⟨fun h => ⟨hopt, h⟩, fun h => h.2⟩

/-- A name with an escaped quote in it. -/
theorem main_seen_iff_escaped :
    main ⟨[], fun _ => false⟩ [[], ascii "dp", ascii "del", [97, 92, 34]] ≠ .ok .refused ∧
      (Seen List.length (main ⟨[], fun _ => false⟩ [[], ascii "dp", ascii "del", [97, 92, 34]]) ↔
        ¬ AddsOptions [[], ascii "dp", ascii "del", [97, 92, 34]] ∧
          ∀ t ∈ typed ⟨[], fun _ => false⟩ [[], ascii "dp", ascii "del", [97, 92, 34]], rawBody t = true) := by
  have hsent : main ⟨[], fun _ => false⟩ [[], ascii "dp", ascii "del", [97, 92, 34]] ≠ .ok .refused := by
    intro h
    cases h
  exact ⟨hsent, main_seen_iff List.length ⟨[], fun _ => false⟩ _ (Or.inl rfl) hsent⟩

/-- **A name that adds a pair**: it ends its own string and goes on, and flowmgr sees the data plane `a` and a key that no
    command has. -/
theorem argument_adds_pair :
    ∃ args n, main ⟨[], fun _ => false⟩ [[], ascii "dp", ascii "del", [97, 34, 44, 34, 120, 34, 58, 34, 98]]
        = .ok (.sent args) ∧ (message args).length < 1024 ∧
      parse (message args) = .value (.object [.mk (ascii "target") (.string (ascii "dp")),
        .mk (ascii "command") (.string (ascii "del")), .mk (ascii "dp") (.string [97]), .mk [120] (.string [98])]) [] n ∧
      ∀ hash, ¬ ReadBack hash args := by
  have hbodies : ∀ x ∈ [(ascii "target", ascii "dp"), (ascii "command", ascii "del"), (ascii "dp", [97]), ([120], [98])],
      rawBody x.1 = true ∧ rawBody x.2 = true := by decide
  obtain ⟨n, hparse⟩ := Json.parse_readable (Json.derives_makeObject hbodies).bare
  refine ⟨pairs "dp" "del" [("dp", [97, 34, 44, 34, 120, 34, 58, 34, 98])], n, rfl, by decide, ?_, ?_⟩
  · have hmessage : message (pairs "dp" "del" [("dp", [97, 34, 44, 34, 120, 34, 58, 34, 98])])
        = Json.makeObject [(ascii "target", ascii "dp"), (ascii "command", ascii "del"), (ascii "dp", [97]),
          ([120], [98])] := by decide
    rw [hmessage]
    exact hparse
  · intro hash h
    rw [readBack_iff hash (by show KeysApart ["target", "command", "dp"]; decide)] at h
    have hraw : rawBody [97, 34, 44, 34, 120, 34, 58, 34, 98] = true := h ("dp", _) (by simp [pairs])
    cases hraw

end Flowctl
end Freeflow
