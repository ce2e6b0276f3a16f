import Freeflow.Flowmgr.Correctness.Outcome

/-!
# `Flowmgr.Correctness.Encoding` — when arguments survive the message

The handlers copy argument strings of any length into adjacent fields of `stringMaxLen` bytes, and `flowpath` takes
each field to end at the next NUL. `Survives` says that a command either ends with one error message, or builds a
message whose copies stay in their fields and from which the reader gets the arguments back.

`Command` collects the five handlers that forward a message; `handler_eq` is what they have in common, and
`Lib.Fields` does the rest.
-/

namespace Freeflow
namespace Flowmgr

open Json (Text Value ascii)
open Flowpath

/-- The commands that forward a message. -/
inductive Command where
  | dataplaneAdd
  | dataplaneDel
  | portAdd
  | portDel
  | portList
deriving DecidableEq, Repr

namespace Command

/-- The kind of its request. -/
def kind : Command → UInt8
  | .dataplaneAdd => Flowpath.dataplaneAdd
  | .dataplaneDel => Flowpath.dataplaneDel
  | .portAdd => Flowpath.portAdd
  | .portDel => Flowpath.portDel
  | .portList => Flowpath.portList

/-- The arguments it copies, in the order of the fields. -/
def args : Command → List String
  | .dataplaneAdd => ["dp", "path"]
  | .dataplaneDel => ["dp"]
  | .portAdd => Port.addArgs.map Prod.fst
  | .portDel => Port.delArgs.map Prod.fst
  | .portList => Port.listArgs.map Prod.fst

variable (hash : Text → Nat) (sw : Link) (map : Json.Map)

/-- Its handler. -/
def handler : Command → Act Unit
  | .dataplaneAdd => Dataplane.addRequest hash sw map
  | .dataplaneDel => Dataplane.delRequest hash sw map
  | .portAdd => Port.addRequest hash sw map
  | .portDel => Port.delRequest hash sw map
  | .portList => Port.listRequest hash sw map

end Command

/-- The command reports an error and nothing else happens, or it builds a message that holds `texts`: each copy
    ends inside its field, the reader gets each text back, and this message is the one that is sent. -/
def Survives (hash : Text → Nat) (sw : Link) (map : Json.Map) (cmd : Command) (texts : List Text) : Prop :=
  (∃ what, cmd.handler hash sw map [] = .ok () [.error what]) ∨
  ∃ msg, encodeRequest cmd.kind (cmd.args.map (getStringArg hash map)) = .ok msg ∧
    (sw = .accepting → cmd.handler hash sw map [] = .ok () [.request msg]) ∧
    (∀ text ∈ texts, text.length ≤ stringMaxLen) ∧
    readArguments msg cmd.args.length = .ok texts

/-! ## The handlers -/

/-- What a handler does with a message that could be built. -/
def Command.delivered (cmd : Command) (sw : Link) (msg : List UInt8) : EStateM.Result Fault (List Event) Unit :=
  match sw with
  | .absent => .error .nullDeref []
  | .refusing => if cmd = .dataplaneDel then .ok () [] else .ok () [.error "request failed"]
  | .accepting => .ok () [.request msg]

variable {hash : Text → Nat} {sw : Link} {map : Json.Map} {cmd : Command} {texts : List Text}

theorem Command.args_head (cmd : Command) : ∃ args, cmd.args = "dp" :: args := by
  cases cmd <;> exact ⟨_, rfl⟩

theorem Command.length_args_le (cmd : Command) : cmd.args.length ≤ 4 := by
  cases cmd <;> decide

/-- With its name there, a port handler only forwards. -/
theorem portRequest_eq (hname : (getStringArg hash map "dp").isSome) (kind : UInt8)
    (args : List (String × String)) :
    Port.portRequest hash sw map kind args =
      (forward hash sw map kind (args.map Prod.fst) >>= fun res =>
        if res then pure () else sendError "request failed") := by
  unfold Port.portRequest
  rw [forM_requireName_pure hname]
  rfl

/-- A forwarding handler that reports a refusal. -/
theorem forward_report_eq {msg : List UInt8} {kind : UInt8} {args : List String}
    (hmsg : encodeRequest kind (args.map (getStringArg hash map)) = .ok msg) (hcmd : cmd ≠ .dataplaneDel) :
    (forward hash sw map kind args >>= fun res => if res then pure () else sendError "request failed") []
      = cmd.delivered sw msg := by
  have hfwd : forward hash sw map kind args [] = _ := forward_eq kind args []
  rw [hmsg] at hfwd
  cases sw with
  | absent => exact Traced.bind_run_error hfwd
  | refusing =>
      rw [Traced.bind_run hfwd, Command.delivered, if_neg hcmd]
      rfl
  | accepting => exact Traced.bind_run hfwd

/-- **The handlers on complete arguments.** -/
theorem handler_eq {msg : List UInt8} (hargs : cmd.args.map (getStringArg hash map) = texts.map some)
    (hmsg : encodeRequest cmd.kind (cmd.args.map (getStringArg hash map)) = .ok msg) :
    cmd.handler hash sw map [] = cmd.delivered sw msg := by
  have hname : (getStringArg hash map "dp").isSome := by
    obtain ⟨args, heq⟩ := cmd.args_head
    rw [heq, List.map_cons] at hargs
    cases texts with
    | nil => cases hargs
    | cons text texts =>
        rw [List.map_cons] at hargs
        injection hargs with hdp
        rw [hdp]
        rfl
  cases cmd with
  | dataplaneAdd =>
      have hpath : (getStringArg hash map "path").isNone = false := by
        cases hp : getStringArg hash map "path" with
        | some path => rfl
        | none =>
            have hmem : none ∈ texts.map some := by
              rw [← hargs]
              simp [Command.args, hp]
            simp at hmem
      show Dataplane.addRequest hash sw map [] = _
      unfold Dataplane.addRequest
      rw [requireName_pure hname, hpath]
      exact forward_report_eq hmsg (by decide)
  | dataplaneDel =>
      show Dataplane.delRequest hash sw map [] = _
      unfold Dataplane.delRequest
      rw [requireName_pure hname]
      have hdel : encodeRequest Flowpath.dataplaneDel (["dp"].map (getStringArg hash map)) = .ok msg := hmsg
      have hfwd : forward hash sw map Flowpath.dataplaneDel ["dp"] [] = _ := forward_eq _ _ []
      rw [hdel] at hfwd
      show (forward hash sw map Flowpath.dataplaneDel ["dp"] >>= fun _ => pure ()) [] = _
      cases sw with
      | absent => exact Traced.bind_run_error hfwd
      | refusing => exact Traced.bind_run hfwd
      | accepting => exact Traced.bind_run hfwd
  | portAdd =>
      show Port.portRequest hash sw map Flowpath.portAdd Port.addArgs [] = _
      rw [portRequest_eq hname]
      exact forward_report_eq hmsg (by decide)
  | portDel =>
      show Port.portRequest hash sw map Flowpath.portDel Port.delArgs [] = _
      rw [portRequest_eq hname]
      exact forward_report_eq hmsg (by decide)
  | portList =>
      show Port.portRequest hash sw map Flowpath.portList Port.listArgs [] = _
      rw [portRequest_eq hname]
      exact forward_report_eq hmsg (by decide)

/-- A handler that has one outcome could build its message. -/
theorem encodable_of_oneOutcome (hargs : cmd.args.map (getStringArg hash map) = texts.map some)
    (hone : OneOutcome (cmd.handler hash sw map)) : Encodable (cmd.args.map (getStringArg hash map)) := by
  cases cmd with
  | dataplaneAdd =>
      rcases (dataplaneAdd_outcome.mp hone).2 with hpath | h
      · have hmem : none ∈ texts.map some := by
          rw [← hargs]
          simp [Command.args, hpath]
        simp at hmem
      · exact h.1
  | dataplaneDel => exact (dataplaneDel_outcome.mp hone).1
  | portAdd => exact ((portRequest_outcome _ _ _).mp hone).1
  | portDel => exact ((portRequest_outcome _ _ _).mp hone).1
  | portList => exact ((portRequest_outcome _ _ _).mp hone).1

/-! ## The message -/

theorem encodeRequest_texts_ok_iff (kind : UInt8) (texts : List Text) :
    (∃ msg, encodeRequest kind (texts.map some) = .ok msg) ↔
      copiesFit stringMaxLen messageLen dataOffset texts = true := by
  rw [encodeRequest, fillArguments_some, copyFields_ok_iff, length_makeRequest]

/-- Fields that fit hold strings of at most their width. -/
theorem length_le_of_fieldsFit {w : Nat} : ∀ {xs : List Text}, FieldsFit w xs → ∀ x ∈ xs, x.length ≤ w
  | [], _, x, hx => by cases hx
  | [y], h, x, hx => by
      rw [List.mem_singleton.mp hx]
      exact h
  | y :: z :: ys, h, x, hx => by
      rcases List.mem_cons.mp hx with rfl | hx
      · rcases h.1 with hlt | heq
        · exact Nat.le_of_lt hlt
        · exact Nat.le_of_eq heq.1
      · exact length_le_of_fieldsFit h.2 x hx

/-- The message of arguments that are no longer than their fields, and what the reader gets from it. -/
theorem encodeRequest_read (kind : UInt8) (hlen : texts.length ≤ 4)
    (hw : ∀ text ∈ texts, text.length ≤ stringMaxLen) (hnul : ∀ text ∈ texts, 0 ∉ text) :
    ∃ msg, encodeRequest kind (texts.map some) = .ok msg ∧
      (readArguments msg texts.length = .ok texts ↔ FieldsFit stringMaxLen texts) := by
  have hroom : stringMaxLen * texts.length < messageLen - dataOffset := by
    simp only [stringMaxLen, messageLen, dataOffset]
    omega
  have hcopy := copyFields_eq (0 : UInt8) stringMaxLen texts [fpRequest, kind] (messageLen - dataOffset) hw
    (Nat.le_of_lt hroom)
  have hread := readFields_eq_iff (0 : UInt8) (w := stringMaxLen) (by decide)
    (Nat.sub_pos_of_lt hroom) texts [fpRequest, kind] hw hnul
  rw [encodeRequest, fillArguments_some, makeRequest_eq]
  exact ⟨_, hcopy, hread⟩

/-- **When the arguments survive.** For complete arguments without NUL bytes: the fields fit; or the switch
    channel refuses the message and the handler says so, provided the copies stayed inside the buffer. -/
theorem survives_iff (hash : Text → Nat) (sw : Link) (map : Json.Map) (cmd : Command) (texts : List Text)
    (hargs : cmd.args.map (getStringArg hash map) = texts.map some) (hnul : ∀ text ∈ texts, 0 ∉ text) :
    Survives hash sw map cmd texts ↔
      FieldsFit stringMaxLen texts ∨
      (sw = .refusing ∧ cmd ≠ .dataplaneDel ∧ copiesFit stringMaxLen messageLen dataOffset texts = true) := by
  have hlength : cmd.args.length = texts.length := by
    have := congrArg List.length hargs
    simpa using this
  have hlen : texts.length ≤ 4 := hlength ▸ cmd.length_args_le
  constructor
  · rintro (⟨what, hwhat⟩ | ⟨msg, hmsg, -, hw, hread⟩)
    · -- an error message alone comes from a switch channel that refused the message
      have henc := encodable_of_oneOutcome hargs ⟨(), .error what, hwhat⟩
      obtain ⟨msg, hmsg⟩ := (encodeRequest_ok_iff cmd.kind _).mpr henc
      rw [handler_eq hargs hmsg] at hwhat
      have hfit := (encodeRequest_texts_ok_iff cmd.kind texts).mp (hargs ▸ ⟨msg, hmsg⟩)
      unfold Command.delivered at hwhat
      cases sw with
      | absent => cases hwhat
      | refusing =>
          refine Or.inr ⟨rfl, fun hdel => ?_, hfit⟩
          rw [if_pos hdel] at hwhat
          cases hwhat
      | accepting => cases hwhat
    · left
      rw [hargs] at hmsg
      obtain ⟨msg', hmsg', hiff⟩ := encodeRequest_read cmd.kind hlen hw hnul
      rw [hmsg] at hmsg'
      cases hmsg'
      rw [hlength] at hread
      exact hiff.mp hread
  · rintro (hfit | ⟨rfl, hcmd, hfit⟩)
    · right
      have hw := length_le_of_fieldsFit hfit
      obtain ⟨msg, hmsg, hiff⟩ := encodeRequest_read cmd.kind hlen hw hnul
      rw [← hargs] at hmsg
      refine ⟨msg, hmsg, ?_, hw, hlength ▸ hiff.mpr hfit⟩
      rintro rfl
      exact handler_eq hargs hmsg
    · left
      obtain ⟨msg, hmsg⟩ := (encodeRequest_texts_ok_iff cmd.kind texts).mpr hfit
      rw [← hargs] at hmsg
      refine ⟨"request failed", ?_⟩
      rw [handler_eq hargs hmsg]
      exact if_neg hcmd

/-- A port of the data plane `a` is deleted by its id `1`. -/
theorem survives_portDel :
    Survives (fun text => text.length) .accepting
      [(ascii "dp", .string [97]), (ascii "pid", .string [49])] .portDel [[97], [49]] :=
  (survives_iff _ _ _ _ [[97], [49]] rfl (by decide)).mpr
    (Or.inl ⟨Or.inl (by decide), by decide⟩)

/-- A name of 128 bytes fills its field, and the reader goes on into the port id. -/
theorem portDel_long_name :
    ¬ Survives (fun text => text.length) .accepting
      [(ascii "dp", .string (List.replicate 128 97)), (ascii "pid", .string [49])] .portDel
      [List.replicate 128 97, [49]] := by
  obtain ⟨msg, hmsg, hiff⟩ := encodeRequest_read Flowpath.portDel
    (show [List.replicate 128 (97 : UInt8), [49]].length ≤ 4 by decide) (by decide +kernel)
    (by decide +kernel)
  rintro (⟨what, hwhat⟩ | ⟨msg', hmsg', -, -, hread⟩)
  · have hargs : Command.portDel.args.map (getStringArg (fun text => text.length)
        [(ascii "dp", .string (List.replicate 128 97)), (ascii "pid", .string [49])])
        = [List.replicate 128 97, [49]].map some := rfl
    rw [handler_eq hargs (by rw [hargs]; exact hmsg)] at hwhat
    cases hwhat
  · have hsame : encodeRequest Flowpath.portDel _ = .ok msg' := hmsg'
    cases hmsg.symm.trans hsame
    exact absurd (hiff.mp hread) (by decide +kernel)

end Flowmgr
end Freeflow
