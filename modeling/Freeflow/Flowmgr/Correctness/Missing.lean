import Freeflow.Flowmgr.Correctness.Encoding

/-!
# `Flowmgr.Correctness.Missing` — which handlers refuse a missing argument

The handlers check the name once for each argument, and a check that fails sends its message and does not return. What
is missing is then dereferenced when the message is built. Only the second check of `dp add` looks at its own argument
and returns (`missing_refused_iff`).
-/

namespace Freeflow
namespace Flowmgr

open Json (Text Value ascii)

/-- The handler returns, has sent an error, and has handed nothing to the switch. -/
def Refused (hash : Text → Nat) (sw : Link) (map : Json.Map) (cmd : Command) : Prop :=
  ∃ es, cmd.handler hash sw map [] = .ok () es ∧ (∃ what, Event.error what ∈ es) ∧ ∀ msg, Event.request msg ∉ es

/-- **RefusesMissing.** If an argument that the handler reads is absent or no string, the handler refuses. -/
def RefusesMissing (hash : Text → Nat) (sw : Link) (map : Json.Map) (cmd : Command) : Prop :=
  (∃ arg ∈ cmd.args, getStringArg hash map arg = none) → Refused hash sw map cmd

variable {hash : Text → Nat} {sw : Link} {map : Json.Map} {cmd : Command}

theorem not_refused_error (cmd : Command) {f : Fault} {es : List Event} (h : cmd.handler hash sw map [] = .error f es) :
    ¬ Refused hash sw map cmd := by
  rintro ⟨es', hes, -⟩
  rw [h] at hes
  cases hes

/-- A message cannot be built without one of its arguments. -/
theorem forward_missing {kind : UInt8} {args : List String} (h : ∃ arg ∈ args, getStringArg hash map arg = none)
    (es : List Event) : ∃ f, forward hash sw map kind args es = .error f es := by
  obtain ⟨arg, hmem, hnone⟩ := h
  exact forward_error (Or.inl (not_encodable (List.mem_map.mpr ⟨arg, hmem, hnone⟩))) es

/-- A port handler goes on to build the message, whatever its checks have found. -/
theorem portRequest_missing {kind : UInt8} {args : List (String × String)}
    (h : ∃ arg ∈ args.map Prod.fst, getStringArg hash map arg = none) :
    ∃ f es, Port.portRequest hash sw map kind args [] = .error f es := by
  obtain ⟨es, hes⟩ : ∃ es, args.forM (fun arg => requireName hash map arg.2) [] = .ok () es :=
    forM_requireName_ok args []
  obtain ⟨f, hf⟩ : ∃ f, forward hash sw map kind (args.map Prod.fst) es = .error f es := forward_missing h es
  exact ⟨f, es, (Traced.bind_run hes).trans (Traced.bind_run_error hf)⟩

theorem dataplaneDel_missing (h : ∃ arg ∈ ["dp"], getStringArg hash map arg = none) :
    ∃ f es, Dataplane.delRequest hash sw map [] = .error f es := by
  obtain ⟨es, hes⟩ : ∃ es, requireName hash map "missing name" [] = .ok () es := requireName_ok _ _
  obtain ⟨f, hf⟩ : ∃ f, forward hash sw map Flowpath.dataplaneDel ["dp"] es = .error f es := forward_missing h es
  exact ⟨f, es, (Traced.bind_run hes).trans (Traced.bind_run_error hf)⟩

/-- `dp add` with a path and without a name. -/
theorem dataplaneAdd_missing (h : ∃ arg ∈ ["dp", "path"], getStringArg hash map arg = none)
    (hpath : getStringArg hash map "path" ≠ none) : ∃ f es, Dataplane.addRequest hash sw map [] = .error f es := by
  obtain ⟨es, hes⟩ : ∃ es, requireName hash map "missing name" [] = .ok () es := requireName_ok _ _
  obtain ⟨f, hf⟩ : ∃ f, forward hash sw map Flowpath.dataplaneAdd ["dp", "path"] es = .error f es :=
    forward_missing h es
  refine ⟨f, es, (Traced.bind_run hes).trans ?_⟩
  rw [if_neg (by rwa [Option.isNone_iff_eq_none])]
  exact Traced.bind_run_error hf

/-- `dp add` without a path. -/
theorem dataplaneAdd_refused (hpath : getStringArg hash map "path" = none) : Refused hash sw map .dataplaneAdd := by
  have hrun : ∀ es, requireName hash map "missing name" [] = .ok () es →
      Dataplane.addRequest hash sw map [] = .ok () (es ++ [.error "missing type"]) := by
    intro es hes
    unfold Dataplane.addRequest
    rw [Traced.bind_run hes, if_pos (by rw [hpath]; rfl)]
    rfl
  cases hname : getStringArg hash map "dp" with
  | some name =>
      refine ⟨_, hrun [] ?_, ⟨"missing type", by simp⟩, by simp⟩
      rw [requireName_pure (by rw [hname]; rfl)]
      rfl
  | none =>
      refine ⟨_, hrun [.error "missing name"] ?_, ⟨"missing type", by simp⟩, by simp⟩
      unfold requireName
      rw [hname]
      rfl

/-- **Which missing arguments are refused**: the path of `dp add`. Without any other argument it needs, no handler
    returns. -/
theorem missing_refused_iff (hash : Text → Nat) (sw : Link) (map : Json.Map) (cmd : Command) :
    RefusesMissing hash sw map cmd ↔ (∀ arg ∈ cmd.args, getStringArg hash map arg ≠ none) ∨
      (cmd = .dataplaneAdd ∧ getStringArg hash map "path" = none) := by
  constructor
  · intro hrefuses
    by_cases hmissing : ∃ arg ∈ cmd.args, getStringArg hash map arg = none
    · refine Or.inr ?_
      by_contra hnot
      -- every handler but `dp add` without a path goes on to build its message
      have hfault : ∃ f es, cmd.handler hash sw map [] = .error f es := by
        cases cmd with
        | dataplaneAdd => exact dataplaneAdd_missing hmissing (fun h => hnot ⟨rfl, h⟩)
        | dataplaneDel => exact dataplaneDel_missing hmissing
        | portAdd => exact portRequest_missing hmissing
        | portDel => exact portRequest_missing hmissing
        | portList => exact portRequest_missing hmissing
      obtain ⟨f, es, h⟩ := hfault
      exact not_refused_error cmd h (hrefuses hmissing)
    · exact Or.inl (fun arg harg hnone => hmissing ⟨arg, harg, hnone⟩)
  · rintro (hall | ⟨rfl, hpath⟩) ⟨arg, harg, hnone⟩
    · exact absurd hnone (hall arg harg)
    · exact dataplaneAdd_refused hpath

/-- A port is to be deleted and its id is missing: the check looks at the name, which is there, and the null id is
    dereferenced. -/
theorem missing_pid : ¬ RefusesMissing (fun _ => 0) .accepting [(ascii "dp", .string [97])] .portDel ∧
    ∃ f, Port.delRequest (fun _ => 0) .accepting [(ascii "dp", .string [97])] [] = .error f [] := by
  have hpid : getStringArg (fun _ => 0) [(ascii "dp", .string [97])] "pid" = none := rfl
  have hmem : ∃ arg ∈ ["dp", "pid"], getStringArg (fun _ => 0) [(ascii "dp", .string [97])] arg = none :=
    ⟨"pid", by simp, hpid⟩
  obtain ⟨f, hf⟩ : ∃ f, forward (fun _ => 0) .accepting [(ascii "dp", .string [97])] Flowpath.portDel ["dp", "pid"] []
      = .error f [] := forward_missing hmem []
  have hrun : Port.delRequest (fun _ => 0) .accepting [(ascii "dp", .string [97])] [] = .error f [] := by
    rw [Port.delRequest, portRequest_eq rfl]
    exact Traced.bind_run_error hf
  exact ⟨fun h => not_refused_error .portDel hrun (h hmem), f, hrun⟩

end Flowmgr
end Freeflow
