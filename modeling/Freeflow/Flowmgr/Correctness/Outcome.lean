import Freeflow.Flowmgr.Request
import Freeflow.Lib.Trace

/-!
# `Flowmgr.Correctness.Outcome` — which commands get exactly one outcome

A command is settled when `request` returns and has caused one event: an error message, or a message the switch
channel took. Four things go wrong on the way: a parse error leaves `json` null and prints it, a handler reports
a missing name and goes on, several handlers do nothing, and the switch channel may be null. `Answered` is
the condition on the command and the switch channel under which none of them happens.

There is one lemma for each handler, `OneOutcome` of it against the matching part of `Answered`.
-/

namespace Freeflow
namespace Flowmgr

open Json (Text Value ascii objectMap)
open Flowpath (encodeRequest Encodable)

/-- The computation returns and has caused one event. -/
def OneOutcome {α : Type} (a : Act α) : Prop := ∃ r e, a [] = .ok r [e]

/-! ## Running a computation -/

theorem oneOutcome_sendError (what : String) : OneOutcome (sendError what) := ⟨(), .error what, rfl⟩

theorem not_oneOutcome_error {α : Type} {a : Act α} (f : Fault) (es : List Event) (h : a [] = .error f es) :
    ¬ OneOutcome a := by
  rintro ⟨r, e, hr⟩
  rw [h] at hr
  cases hr

variable {hash : Text → Nat} {sw : Link} {map : Json.Map}

/-- `requireName` always returns, with or without a message. -/
theorem requireName_ok (what : String) (es : List Event) :
    ∃ es', requireName hash map what es = .ok () es' := by
  unfold requireName
  split
  · exact ⟨es ++ [.error what], rfl⟩
  · exact ⟨es, rfl⟩

theorem requireName_pure (h : (getStringArg hash map "dp").isSome) (what : String) :
    requireName hash map what = pure () := by
  unfold requireName
  rw [if_neg]
  rw [Option.isNone_iff_eq_none]
  intro hn
  rw [hn] at h
  cases h

/-- What `forward` comes to, by the message and the switch channel. -/
theorem forward_eq (kind : UInt8) (args : List String) (es : List Event) :
    forward hash sw map kind args es =
      match encodeRequest kind (args.map (getStringArg hash map)) with
      | .error f => .error f es
      | .ok msg => onRequest sw msg es := by
  unfold forward
  cases h : encodeRequest kind (args.map (getStringArg hash map)) with
  | error f => exact Traced.bind_run_error rfl
  | ok msg => exact Traced.bind_run rfl

/-- Without a message, or without a switch channel, `forward` does not return. -/
theorem forward_error {kind : UInt8} {args : List String}
    (h : ¬ Encodable (args.map (getStringArg hash map)) ∨ sw = .absent) (es : List Event) :
    ∃ f, forward hash sw map kind args es = .error f es := by
  rw [forward_eq]
  cases henc : encodeRequest kind (args.map (getStringArg hash map)) with
  | error f => exact ⟨f, rfl⟩
  | ok msg =>
      rcases h with h | rfl
      · exact absurd ((Flowpath.encodeRequest_ok_iff kind _).mp ⟨msg, henc⟩) h
      · exact ⟨.nullDeref, rfl⟩

/-- A handler that forwards and reports a refusal has one outcome when `forward` returns. -/
theorem forward_reported {kind : UInt8} {args : List String} (what : String) :
    OneOutcome (forward hash sw map kind args >>= fun res => if res then pure () else sendError what) ↔
      Encodable (args.map (getStringArg hash map)) ∧ sw ≠ .absent := by
  by_cases h : ¬ Encodable (args.map (getStringArg hash map)) ∨ sw = .absent
  · obtain ⟨f, hf⟩ : ∃ f, forward hash sw map kind args [] = .error f [] := forward_error h []
    constructor
    · intro hone
      exact absurd hone (not_oneOutcome_error _ _ (Traced.bind_run_error hf))
    · rintro ⟨henc, hsw⟩
      rcases h with h | h
      · exact absurd henc h
      · exact absurd h hsw
  · rw [not_or, not_not] at h
    refine ⟨fun _ => h, fun _ => ?_⟩
    obtain ⟨msg, hmsg⟩ := (Flowpath.encodeRequest_ok_iff kind _).mpr h.1
    have hfwd : forward hash sw map kind args [] = _ := forward_eq kind args []
    rw [hmsg] at hfwd
    cases hsw : sw with
    | absent => exact absurd hsw h.2
    | refusing =>
        subst hsw
        exact ⟨(), .error what, by rw [Traced.bind_run hfwd]; rfl⟩
    | accepting =>
        subst hsw
        exact ⟨(), .request msg, by rw [Traced.bind_run hfwd]; rfl⟩

/-! ## The handlers -/

/-- A null argument makes the message impossible. -/
theorem not_encodable {args : List (Option (List UInt8))} (h : none ∈ args) : ¬ Encodable args := by
  rintro ⟨texts, rfl, -⟩
  simp at h

/-- `add_request` of a data plane. -/
theorem dataplaneAdd_outcome : OneOutcome (Dataplane.addRequest hash sw map) ↔
    (getStringArg hash map "dp").isSome ∧
      (getStringArg hash map "path" = none ∨
        Encodable (["dp", "path"].map (getStringArg hash map)) ∧ sw ≠ .absent) := by
  unfold Dataplane.addRequest
  cases hname : getStringArg hash map "dp" with
  | some name =>
      rw [requireName_pure (by rw [hname]; rfl)]
      cases hpath : getStringArg hash map "path" with
      | none => exact ⟨fun _ => ⟨rfl, Or.inl rfl⟩, fun _ => oneOutcome_sendError "missing type"⟩
      | some path =>
          apply Iff.trans (forward_reported "request failed")
          exact ⟨fun h => ⟨rfl, Or.inr h⟩, fun h => h.2.resolve_left (by simp)⟩
  | none =>
      -- one message is out already: a second one follows, or the null name is dereferenced
      refine ⟨fun hone => absurd hone ?_, fun h => by simp at h⟩
      have hreq : requireName hash map "missing name" [] = .ok () [.error "missing name"] := by
        unfold requireName
        rw [hname]
        rfl
      cases hpath : getStringArg hash map "path" with
      | none =>
          rintro ⟨r, e, hr⟩
          rw [Traced.bind_run hreq] at hr
          cases hr
      | some path =>
          have henc : ¬ Encodable (["dp", "path"].map (getStringArg hash map)) :=
            not_encodable (by simp [hname])
          obtain ⟨f, hf⟩ : ∃ f, forward hash sw map Flowpath.dataplaneAdd ["dp", "path"]
            [.error "missing name"] = .error f _ := forward_error (Or.inl henc) _
          apply not_oneOutcome_error f [.error "missing name"]
          rw [Traced.bind_run hreq]
          exact Traced.bind_run_error hf

/-- `del_request` of a data plane. -/
theorem dataplaneDel_outcome : OneOutcome (Dataplane.delRequest hash sw map) ↔
    Encodable (["dp"].map (getStringArg hash map)) ∧ sw = .accepting := by
  unfold Dataplane.delRequest
  by_cases h : ¬ Encodable (["dp"].map (getStringArg hash map)) ∨ sw = .absent
  · obtain ⟨es, hes⟩ : ∃ es, requireName hash map "missing name" [] = .ok () es := requireName_ok _ _
    obtain ⟨f, hf⟩ : ∃ f, forward hash sw map Flowpath.dataplaneDel ["dp"] es = .error f es :=
      forward_error h es
    constructor
    · intro hone
      refine absurd hone (not_oneOutcome_error f es ?_)
      rw [Traced.bind_run hes]
      exact Traced.bind_run_error hf
    · rintro ⟨henc, rfl⟩
      rcases h with h | h
      · exact absurd henc h
      · cases h
  · rw [not_or, not_not] at h
    have hname : (getStringArg hash map "dp").isSome := by
      obtain ⟨texts, heq, -⟩ := h.1
      cases hdp : getStringArg hash map "dp" with
      | some name => rfl
      | none => exact absurd h.1 (not_encodable (by simp [hdp]))
    obtain ⟨msg, hmsg⟩ := (Flowpath.encodeRequest_ok_iff Flowpath.dataplaneDel _).mpr h.1
    have hfwd : forward hash sw map Flowpath.dataplaneDel ["dp"] [] = _ := forward_eq _ _ []
    rw [hmsg] at hfwd
    rw [requireName_pure hname]
    show OneOutcome (forward hash sw map Flowpath.dataplaneDel ["dp"] >>= fun _ => pure ()) ↔ _
    cases hsw : sw with
    | absent => exact absurd hsw h.2
    | refusing =>
        subst hsw
        refine ⟨fun hone => ?_, fun hacc => by cases hacc.2⟩
        obtain ⟨r, e, hr⟩ := hone
        rw [Traced.bind_run hfwd] at hr
        cases hr
    | accepting =>
        subst hsw
        exact ⟨fun _ => ⟨h.1, rfl⟩, fun _ => ⟨(), .request msg, by rw [Traced.bind_run hfwd]; rfl⟩⟩

/-- The handlers without a body cause nothing. -/
theorem emptyRequest_outcome : ¬ OneOutcome Dataplane.emptyRequest := by
  rintro ⟨r, e, hr⟩
  cases hr

/-- The checks of the port handlers, one after the other. -/
theorem forM_requireName_ok : ∀ (args : List (String × String)) (es : List Event),
    ∃ es', args.forM (fun arg => requireName hash map arg.2) es = .ok () es'
  | [], es => ⟨es, rfl⟩
  | arg :: args, es => by
      obtain ⟨es₁, h₁⟩ : ∃ es₁, requireName hash map arg.2 es = .ok () es₁ := requireName_ok _ _
      obtain ⟨es₂, h₂⟩ := forM_requireName_ok args es₁
      exact ⟨es₂, (Traced.bind_run h₁).trans h₂⟩

theorem forM_requireName_pure (h : (getStringArg hash map "dp").isSome) :
    ∀ args : List (String × String), args.forM (fun arg => requireName hash map arg.2) = pure ()
  | [] => rfl
  | arg :: args => by
      show (requireName hash map arg.2 >>= fun _ => args.forM fun arg => requireName hash map arg.2) = pure ()
      rw [requireName_pure h, forM_requireName_pure h args]
      rfl

/-- The port handlers. Every check looks at the name, which is the first argument. -/
theorem portRequest_outcome (kind : UInt8) (what : String) (args : List (String × String)) :
    OneOutcome (Port.portRequest hash sw map kind (("dp", what) :: args)) ↔
      Encodable ((("dp", what) :: args).map (fun arg => getStringArg hash map arg.1)) ∧ sw ≠ .absent := by
  have hmap : (("dp", what) :: args).map (fun arg => getStringArg hash map arg.1)
      = ((("dp", what) :: args).map Prod.fst).map (getStringArg hash map) := by
    rw [List.map_map]
    rfl
  unfold Port.portRequest
  rw [hmap]
  by_cases hname : (getStringArg hash map "dp").isSome
  · rw [forM_requireName_pure hname]
    exact forward_reported "request failed"
  · have hnone : ¬ Encodable (((("dp", what) :: args).map Prod.fst).map (getStringArg hash map)) :=
      not_encodable (by simp [Option.not_isSome_iff_eq_none.mp hname])
    refine ⟨fun hone => absurd hone ?_, fun h => absurd h.1 hnone⟩
    obtain ⟨es, hes⟩ : ∃ es, (("dp", what) :: args).forM (fun arg => requireName hash map arg.2) [] = .ok () es :=
      forM_requireName_ok _ _
    obtain ⟨f, hf⟩ : ∃ f, forward hash sw map kind ((("dp", what) :: args).map Prod.fst) es = .error f es :=
      forward_error (Or.inl hnone) es
    apply not_oneOutcome_error f es
    rw [Traced.bind_run hes]
    exact Traced.bind_run_error hf

/-! ## The condition -/

/-- When a data plane command has one outcome. -/
def DataplaneAnswered (arg : String → Option Text) (sw : Link) : Prop :=
  match arg "command" with
  | none => True
  | some cmd =>
      if cmd = ascii "add" then
        (arg "dp").isSome ∧ (arg "path" = none ∨ Encodable (["dp", "path"].map arg) ∧ sw ≠ .absent)
      else if cmd = ascii "del" then Encodable (["dp"].map arg) ∧ sw = .accepting
      else cmd ≠ ascii "set" ∧ cmd ≠ ascii "show" ∧ cmd ≠ ascii "stat" ∧ cmd ≠ ascii "list"

/-- When a port command has one outcome. -/
def PortAnswered (arg : String → Option Text) (sw : Link) : Prop :=
  match arg "command" with
  | none => True
  | some cmd =>
      if cmd = ascii "add" then Encodable (["dp", "type", "device", "options"].map arg) ∧ sw ≠ .absent
      else if cmd = ascii "del" then Encodable (["dp", "pid"].map arg) ∧ sw ≠ .absent
      else if cmd = ascii "list" then Encodable (["dp"].map arg) ∧ sw ≠ .absent
      else True

/-- When an object has one outcome. -/
def MapAnswered (arg : String → Option Text) (sw : Link) : Prop :=
  match arg "target" with
  | none => True
  | some tgt =>
      if tgt = ascii "dp" then DataplaneAnswered arg sw
      else if tgt = ascii "port" then PortAnswered arg sw
      else True

/-- **When a command has one outcome**: it parses, and if it is an object, its target's handler gives one. -/
def Answered (hash : Text → Nat) (sw : Link) (buf : Text) : Prop :=
  match Json.parse buf with
  | .value (.object pairs) _ _ => MapAnswered (getStringArg hash (objectMap hash pairs)) sw
  | .value _ _ _ => True
  | _ => False

/-! ## Dispatch -/

theorem lookup_of_ne {β : Type} {k k' : Text} (h : k ≠ k') (b : β) (es : List (Text × β)) :
    ((k', b) :: es).lookup k = es.lookup k := by
  rw [List.lookup_cons, beq_eq_false_iff_ne.mpr h]

theorem lookup_self {β : Type} (k : Text) (b : β) (es : List (Text × β)) :
    ((k, b) :: es).lookup k = some b := List.lookup_cons_self

theorem dataplaneRequest_outcome : OneOutcome (dataplaneRequest hash sw map) ↔
    DataplaneAnswered (getStringArg hash map) sw := by
  unfold dataplaneRequest commandRequest DataplaneAnswered Dataplane.reqs
  cases getStringArg hash map "command" with
  | none => exact ⟨fun _ => trivial, fun _ => oneOutcome_sendError _⟩
  | some cmd =>
      dsimp only
      by_cases hadd : cmd = ascii "add"
      · rw [if_pos hadd, hadd, lookup_self]
        exact dataplaneAdd_outcome
      rw [if_neg hadd, lookup_of_ne hadd]
      by_cases hdel : cmd = ascii "del"
      · rw [if_pos hdel, hdel, lookup_self]
        exact dataplaneDel_outcome
      rw [if_neg hdel, lookup_of_ne hdel]
      by_cases hset : cmd = ascii "set"
      · rw [hset, lookup_self]
        exact ⟨fun h => absurd h emptyRequest_outcome, fun h => absurd rfl h.1⟩
      rw [lookup_of_ne hset]
      by_cases hshow : cmd = ascii "show"
      · rw [hshow, lookup_self]
        exact ⟨fun h => absurd h emptyRequest_outcome, fun h => absurd rfl h.2.1⟩
      rw [lookup_of_ne hshow]
      by_cases hstat : cmd = ascii "stat"
      · rw [hstat, lookup_self]
        exact ⟨fun h => absurd h emptyRequest_outcome, fun h => absurd rfl h.2.2.1⟩
      rw [lookup_of_ne hstat]
      by_cases hlist : cmd = ascii "list"
      · rw [hlist, lookup_self]
        exact ⟨fun h => absurd h emptyRequest_outcome, fun h => absurd rfl h.2.2.2⟩
      rw [lookup_of_ne hlist, List.lookup_nil]
      exact ⟨fun _ => ⟨hset, hshow, hstat, hlist⟩, fun _ => oneOutcome_sendError _⟩

theorem portRequest_dispatch_outcome : OneOutcome (portRequest hash sw map) ↔
    PortAnswered (getStringArg hash map) sw := by
  unfold portRequest commandRequest PortAnswered Port.reqs
  cases getStringArg hash map "command" with
  | none => exact ⟨fun _ => trivial, fun _ => oneOutcome_sendError _⟩
  | some cmd =>
      dsimp only
      by_cases hadd : cmd = ascii "add"
      · rw [if_pos hadd, hadd, lookup_self]
        exact portRequest_outcome _ _ _
      rw [if_neg hadd, lookup_of_ne hadd]
      by_cases hdel : cmd = ascii "del"
      · rw [if_pos hdel, hdel, lookup_self]
        exact portRequest_outcome _ _ _
      rw [if_neg hdel, lookup_of_ne hdel]
      by_cases hlist : cmd = ascii "list"
      · rw [if_pos hlist, hlist, lookup_self]
        exact portRequest_outcome _ _ _
      rw [if_neg hlist, lookup_of_ne hlist, List.lookup_nil]
      exact ⟨fun _ => trivial, fun _ => oneOutcome_sendError _⟩

theorem processMap_outcome : OneOutcome (processMap hash sw map) ↔
    MapAnswered (getStringArg hash map) sw := by
  unfold processMap processTarget MapAnswered dispatch
  cases getStringArg hash map "target" with
  | none => exact ⟨fun _ => trivial, fun _ => oneOutcome_sendError _⟩
  | some tgt =>
      dsimp only
      by_cases hdp : tgt = ascii "dp"
      · rw [if_pos hdp, hdp, lookup_self]
        exact dataplaneRequest_outcome
      rw [if_neg hdp, lookup_of_ne hdp]
      by_cases hport : tgt = ascii "port"
      · rw [if_pos hport, hport, lookup_self]
        exact portRequest_dispatch_outcome
      rw [if_neg hport, lookup_of_ne hport, List.lookup_nil]
      exact ⟨fun _ => trivial, fun _ => oneOutcome_sendError _⟩

/-- What follows a settled computation does not unsettle it. -/
theorem oneOutcome_bind_pure {α β : Type} (a : Act α) (b : β) :
    OneOutcome (a >>= fun _ => pure b) ↔ OneOutcome a := by
  constructor
  · rintro ⟨r, e, hr⟩
    cases ha : a [] with
    | ok x es =>
        rw [Traced.bind_run ha] at hr
        cases hr
        exact ⟨x, e, ha⟩
    | error f es =>
        rw [Traced.bind_run_error ha] at hr
        cases hr
  · rintro ⟨x, e, ha⟩
    exact ⟨b, e, Traced.bind_run ha⟩

/-- **A command gets exactly one outcome if and only if it is answered.** -/
theorem request_outcome_iff (hash : Text → Nat) (sw : Link) (buf : Text) :
    OneOutcome (request hash sw buf) ↔ Answered hash sw buf := by
  unfold request Answered
  cases hp : Json.parse buf with
  | value json rest n =>
      apply (oneOutcome_bind_pure (process hash sw json) true).trans
      cases json with
      | object pairs => exact processMap_outcome
      | identifier text => exact ⟨fun _ => trivial, fun _ => oneOutcome_sendError _⟩
      | number text => exact ⟨fun _ => trivial, fun _ => oneOutcome_sendError _⟩
      | string text => exact ⟨fun _ => trivial, fun _ => oneOutcome_sendError _⟩
      | array elements => exact ⟨fun _ => trivial, fun _ => oneOutcome_sendError _⟩
  | thrown what rest n =>
      refine ⟨fun h => absurd h (not_oneOutcome_error .nullDeref [.error what] rfl), False.elim⟩
  | overrun => exact ⟨fun h => absurd h (not_oneOutcome_error .outOfBounds [] rfl), False.elim⟩
  | outOfFuel => exact ⟨fun h => absurd h (not_oneOutcome_error .outOfFuel [] rfl), False.elim⟩

/-- A text that does not parse: after the message about it the null value is printed. -/
theorem request_unterminated :
    ¬ OneOutcome (request (fun text => text.length) .accepting [Json.quote]) := by
  have h : request (fun text => text.length) .accepting [Json.quote] []
      = .error .nullDeref [.error "unterminated string"] := by rfl
  exact not_oneOutcome_error _ _ h

end Flowmgr
end Freeflow
