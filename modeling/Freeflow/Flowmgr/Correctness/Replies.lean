import Freeflow.Flowmgr.Correctness.Registry

/-!
# `Flowmgr.Correctness.Replies` — who gets the reply of the switch

The main loop with one switch and the clients that come and go, one event an iteration. The switch answers the requests
it has taken in their order; whom `flowmgr` passes an answer to is whoever is the client when the answer is read.

## Contents
- `Action`, `System`, `step`.
- `Routed`, `RequesterConnected`.
- `turn_only`: an iteration with one descriptor to read.
- `replies_routed_iff`.
-/

namespace Freeflow
namespace Flowmgr

open Flowpath (Delivery messageLen)

/-! ## The system -/

/-- What happens next: a client connects, the connected client sends a command or disconnects, or the switch answers the
    oldest request that it has not answered. -/
inductive Action where
  | connect
  | command (text : Json.Text) (taken : Bool)
  | disconnect
  | reply (d : Delivery)

/-- `flowmgr`, and the channels whose requests are waiting for an answer, the oldest first. -/
structure System where
  mgr : State
  pending : List Nat

/-- An iteration in which only the descriptor `fd` can be read. -/
def only (fd : Nat) (a : Answers) : Turn := ⟨fun fd' => if fd' = fd then some a else none, []⟩

/-- An iteration in which nothing can be read. -/
def idle : Turn := ⟨fun _ => none, []⟩

/-- The iteration in which only the channel that a global points to can be read. -/
def State.onChannel (s : State) (global : Option Nat) (a : Answers) : Turn :=
  match global.bind s.heap with
  | some io => only io.fd a
  | none => idle

/-- The iteration that an action brings about. -/
def System.turnOf (sys : System) : Action → Turn
  | .connect =>
      match sys.mgr.heap ctrlServer with
      | some ⟨.controlServer, fd⟩ => only fd ⟨true, [], [], true⟩
      | _ => idle
  | .command text taken => sys.mgr.onChannel sys.mgr.ctrl ⟨false, text, [], taken⟩
  | .disconnect => sys.mgr.onChannel sys.mgr.ctrl ⟨false, [], [], true⟩
  | .reply d =>
      match sys.pending with
      | [] => idle
      | _ :: _ => sys.mgr.onChannel sys.mgr.switch ⟨false, d.chunk, d.inbuf, true⟩

/-- The requests that wait for an answer after an action, but for those that it sends itself. -/
def System.unanswered (sys : System) : Action → List Nat
  | .reply _ => sys.pending.tail
  | _ => sys.pending

/-- The channels for whose commands the switch has taken a request. -/
def requesters (es : List Effect) : List Nat :=
  es.filterMap fun e =>
    match e with
    | .sent c (.request _) => some c
    | _ => none

/-- One action. -/
def step (hash : Json.Text → Nat) (sys : System) (act : Action) : Checked (System × List Effect) := do
  let (mgr, es) ← turn hash sys.mgr (sys.turnOf act)
  return (⟨mgr, sys.unanswered act ++ requesters es⟩, es)

/-- `flowmgr` after the switch has connected. -/
def connected : State := (switchServerOnInput ⟨true, [], [], true⟩ State.start).1

/-- The switch is connected, and nobody else. -/
def System.start : System := ⟨connected, []⟩

example (hash : Json.Text → Nat) :
    turn hash State.start (only 4 ⟨true, [], [], true⟩) = .ok (connected, []) := rfl

/-! ## Replies to their requesters -/

/-- An answer is passed to the channel whose command it answers, or discarded if that channel is gone. -/
def Routed (hash : Json.Text → Nat) (sys : System) (act : Action) : Prop :=
  match act, sys.pending with
  | .reply d, c :: _ => ∃ sys' es, step hash sys act = .ok (sys', es) ∧
      es = if (sys.mgr.heap c).isSome then [.replied c d.received] else []
  | _, _ => True

/-- The channel whose command is answered is the connected client. -/
def RequesterConnected (sys : System) (act : Action) : Prop :=
  match act, sys.pending with
  | .reply _, c :: _ => sys.mgr.ctrl = some c
  | _, _ => True

/-! ## One descriptor -/

variable {hash : Json.Text → Nat}

section
variable {s : State} {id fd : Nat} {kind : Kind} {a : Answers}

theorem only_revents (fd' : Nat) :
    s.revents (only fd a) fd' = if fd' ∈ s.openFds ∧ fd' = fd then some a else none := by
  simp only [State.revents, only, ite_and]

/-- The poll set around one of its descriptors, which is not polled twice. -/
theorem Registry.split (hs : Registry [] s) (hlive : s.heap id = some ⟨kind, fd⟩) :
    ∃ before after, s.ps = before ++ fd :: after ∧ fd ∉ before ∧ fd ∉ after := by
  have hmem : fd ∈ s.ps := (hs.same fd).mpr ⟨id, hs.registered id _ hlive⟩
  obtain ⟨before, after, hps⟩ := List.append_of_mem hmem
  have hnodup := hs.once
  rw [hps, List.nodup_middle, List.nodup_cons, List.mem_append, not_or] at hnodup
  exact ⟨before, after, hps, hnodup.1.1, hnodup.1.2⟩

/-- The descriptors that cannot be read are looked up, and no more. -/
theorem Registry.unread (hs : Registry [] s) {revents : Nat → Option Answers} {rm : List Nat} {es : List Effect}
    {fds : List Nat} (hsub : fds ⊆ s.ps) (hnone : ∀ fd ∈ fds, revents fd = none) :
    fds.foldlM (processEvents hash revents) ⟨s, rm, es⟩ = .ok ⟨s, rm, es⟩ := by
  apply foldlM_fixed
  intro fd hfd
  obtain ⟨id, hid⟩ := (hs.same fd).mp (hsub hfd)
  simp only [processEvents, hid, hnone fd hfd]

theorem Registry.revents_only (hs : Registry [] s) (hlive : s.heap id = some ⟨kind, fd⟩) :
    s.revents (only fd a) fd = some a := by
  rw [only_revents, if_pos ⟨hs.isOpen fd id (hs.registered id _ hlive) (by simp), rfl⟩]

/-- The event loop up to the call for the one descriptor. -/
theorem Registry.events_only (hs : Registry [] s) (hlive : s.heap id = some ⟨kind, fd⟩) (hash : Json.Text → Nat)
    (a : Answers) : ∃ after, after ⊆ s.ps ∧ fd ∉ after ∧ events hash s (only fd a) =
      (onInput hash id ⟨kind, fd⟩ a s >>= fun r =>
        after.foldlM (processEvents hash (s.revents (only fd a)))
          ⟨r.1, if r.2.1 then [] else [id], r.2.2⟩) := by
  obtain ⟨before, after, hps, hbefore, hafter⟩ := hs.split hlive
  have hfd : processEvents hash (s.revents (only fd a)) ⟨s, [], []⟩ fd =
      (onInput hash id ⟨kind, fd⟩ a s >>= fun r => .ok ⟨r.1, if r.2.1 then [] else [id], r.2.2⟩) := by
    have hios : s.ios fd = some id := hs.registered id _ hlive
    simp only [processEvents, hios, hs.revents_only hlive, deref_ok.mpr hlive, ok_bind]
    rfl
  refine ⟨after, fun fd' hfd' => by simp [hps, hfd'], hafter, ?_⟩
  rw [events]
  conv =>
    lhs
    rw [hps]
  rw [List.foldlM_append, hs.unread (fun fd' hfd' => by simp [hps, hfd']), ok_bind, List.foldlM_cons, hfd]
  · cases onInput hash id ⟨kind, fd⟩ a s <;> rfl
  · intro fd' hfd'
    rw [only_revents, if_neg]
    rintro ⟨-, rfl⟩
    exact hbefore hfd'

/-- An iteration in which one handler is called, which stays, and changes nothing. -/
theorem Registry.turn_only (hs : Registry [] s) (hlive : s.heap id = some ⟨kind, fd⟩) {es : List Effect}
    (hin : onInput hash id ⟨kind, fd⟩ a s = .ok (s, true, es)) : turn hash s (only fd a) = .ok (s, es) := by
  obtain ⟨after, hsub, hafter, hevents⟩ := hs.events_only hlive hash a
  have hne : s.ps ≠ [] := List.ne_nil_of_mem ((hs.same fd).mpr ⟨id, hs.registered id _ hlive⟩)
  rw [hin, ok_bind, hs.unread hsub] at hevents
  · rw [turn, if_neg hne, hevents, ok_bind, lookups, List.drop_length]
    show Except.ok (s, es ++ []) = _
    rw [List.append_nil]
  · intro fd' hfd'
    rw [only_revents, if_neg]
    rintro ⟨-, rfl⟩
    exact hafter hfd'

/-- An iteration in which the call of the one handler is undefined. -/
theorem Registry.turn_only_error (hs : Registry [] s) (hlive : s.heap id = some ⟨kind, fd⟩) {f : Fault}
    (hin : onInput hash id ⟨kind, fd⟩ a s = .error f) : turn hash s (only fd a) = .error f := by
  obtain ⟨after, -, -, hevents⟩ := hs.events_only hlive hash a
  have hne : s.ps ≠ [] := List.ne_nil_of_mem ((hs.same fd).mpr ⟨id, hs.registered id _ hlive⟩)
  rw [hin, error_bind] at hevents
  rw [turn, if_neg hne, hevents, error_bind]

end

/-! ## The invariant -/

/-- The registry is in order, and the switch is connected. -/
structure Serving (s : State) : Prop extends Registry [] s where
  switched : ∃ w, s.switch = some w

/-- In this iteration the switch connection does not end. -/
def SwitchStays (s : State) (t : Turn) : Prop :=
  ¬ Reports s t .switchChannel (fun a => hangsUp .switchChannel a = true)

section
variable {s : State}

theorem switchStays_idle : SwitchStays s idle := by
  rintro ⟨id, fd, a, -, hrev, -⟩
  simp [State.revents, idle] at hrev

theorem Registry.switchStays_only (hs : Registry [] s) {id fd : Nat} {kind : Kind} {a : Answers}
    (hlive : s.heap id = some ⟨kind, fd⟩) (ha : kind = .switchChannel → a.chunk ≠ []) :
    SwitchStays s (only fd a) := by
  rintro ⟨w, fd', a', hswitch, hrev, hup⟩
  simp only [only_revents, Option.ite_none_right_eq_some] at hrev
  obtain ⟨⟨-, rfl⟩, heq⟩ := hrev
  cases heq
  rw [hs.fd_inj hswitch hlive rfl, hlive] at hswitch
  cases hswitch
  exact ha rfl (by simpa [hangsUp] using hup)

/-- The one channel of a class, or none. -/
theorem Points.onChannel {global : Option Nat} {kind : Kind} (hp : Points global s kind) (a : Answers) :
    global = none ∧ s.onChannel global a = idle ∨
      ∃ c fd, global = some c ∧ s.heap c = some ⟨kind, fd⟩ ∧ s.onChannel global a = only fd a := by
  cases hglobal : global with
  | none => exact Or.inl ⟨rfl, rfl⟩
  | some c =>
      obtain ⟨fd, hlive⟩ := (hp c).mp hglobal
      refine Or.inr ⟨c, fd, rfl, hlive, ?_⟩
      simp only [State.onChannel, Option.bind_some, hlive]

end

theorem chunk_ne_nil (d : Delivery) : d.chunk ≠ [] := by
  intro h
  have := d.chunk_pos
  simp [h] at this

/-- No action ends the switch connection. -/
theorem switchStays_turnOf {sys : System} (hs : Registry [] sys.mgr) (act : Action) :
    SwitchStays sys.mgr (sys.turnOf act) := by
  have hchannel : ∀ {global : Option Nat} {kind : Kind} {a : Answers}, Points global sys.mgr kind →
      (kind = .switchChannel → a.chunk ≠ []) → SwitchStays sys.mgr (sys.mgr.onChannel global a) := by
    intro global kind a hp ha
    rcases hp.onChannel a with ⟨-, heq⟩ | ⟨c, fd, -, hlive, heq⟩
    · rw [heq]
      exact switchStays_idle
    · rw [heq]
      exact hs.switchStays_only hlive ha
  cases act with
  | connect =>
      simp only [System.turnOf]
      split
      · exact hs.switchStays_only ‹_› (by simp)
      · exact switchStays_idle
  | command text taken => exact hchannel hs.ctrl (by simp)
  | disconnect => exact hchannel hs.ctrl (by simp)
  | reply d =>
      simp only [System.turnOf]
      cases sys.pending with
      | nil => exact switchStays_idle
      | cons c pending => exact hchannel hs.switch (fun _ => chunk_ne_nil d)

/-- A handler that is not in the remove set stays. -/
theorem removeAll_kept {s s' : State} {rm : List Nat} {es : List Effect} {id : Nat} {io : IoHandler} (hnot : id ∉ rm)
    (hlive : s.heap id = some io) (h : removeAll s rm = .ok (s', es)) : s'.heap id = some io := by
  refine (removeAll_invariant (fun rm s => id ∉ rm ∧ s.heap id = some io) ?_ rm s s' es ⟨hnot, hlive⟩ h).2
  rintro id' rm s s' io' ⟨hnot, hlive⟩ hrem
  rw [List.mem_cons, not_or] at hnot
  exact ⟨hnot.2, (hrem.heap id io).mpr ⟨hnot.1, hlive⟩⟩

theorem Serving.turn {s s' : State} {t : Turn} {es : List Effect} (hs : Serving s) (hstays : SwitchStays s t)
    (h : turn hash s t = .ok (s', es)) : Serving s' := by
  have hs' := registry_turn hs.toRegistry (fun hends => absurd hends hstays) h
  obtain ⟨w, hw⟩ := hs.switched
  obtain ⟨fd, hlive⟩ := (hs.switch w).mp hw
  obtain ⟨p, es', hevents, hremove⟩ := turn_cases h
  have hp := passed_events hs.toRegistry hevents
  refine ⟨hs', w, (hs'.switch w).mpr ⟨fd, removeAll_kept ?_ (hp.heap w _ hlive) hremove⟩⟩
  intro hmem
  obtain ⟨kind, fd', a, hlive', hrev, hup⟩ := hp.called w ((removals_perm t p.rm).mem_iff.mp hmem)
  rw [hlive] at hlive'
  cases hlive'
  exact hstays ⟨w, fd, a, hlive, hrev, hup (Or.inr rfl)⟩

/-- **Every action keeps the switch connected and the registry in order.** -/
theorem serving_step {sys sys' : System} {act : Action} {es : List Effect} (hs : Serving sys.mgr)
    (h : step hash sys act = .ok (sys', es)) : Serving sys'.mgr := by
  obtain ⟨⟨mgr, es'⟩, hturn, heq⟩ := bind_eq_ok h
  cases heq
  exact hs.turn (switchStays_turnOf hs.toRegistry act) hturn

theorem serving_connected : Serving connected where
  toRegistry :=
    have hserved : Served ⟨.switchServer, 4⟩ ⟨true, [], [], true⟩ State.start connected true :=
      switchServerOnInput_served rfl _ _
    registry_start.served hserved
  switched := ⟨2, rfl⟩

/-! ## The reply -/

/-- The call of `on_input` for a message from the switch. -/
theorem switchChannelOnInput_reply {s : State} (hs : Registry [] s) (d : Delivery) :
    switchChannelOnInput ⟨false, d.chunk, d.inbuf, true⟩ s =
      match s.ctrl with
      | some c => .ok (s, true, [.replied c d.received])
      | none => .error .nullDeref := by
  have htake : d.chunk.take messageLen = d.chunk := List.take_of_length_le d.chunk_le
  rw [switchChannelOnInput, htake, switchOnInput, if_neg (chunk_ne_nil d)]
  cases hctrl : s.ctrl with
  | none => rfl
  | some c =>
      obtain ⟨fd, hlive⟩ := (hs.ctrl c).mp hctrl
      rw [Option.isSome_some, if_pos rfl, ok_bind]
      show (s.deref c >>= fun _ => _) = _
      rw [deref_ok.mpr hlive]
      rfl

/-- **A reply goes to the connected client**, and to a null pointer when there is none. -/
theorem step_reply {sys : System} (hs : Serving sys.mgr) (d : Delivery) (hpending : sys.pending ≠ []) :
    step hash sys (.reply d) =
      match sys.mgr.ctrl with
      | some c => .ok (⟨sys.mgr, sys.pending.tail⟩, [.replied c d.received])
      | none => .error .nullDeref := by
  obtain ⟨w, hw⟩ := hs.switched
  obtain ⟨fd, hlive⟩ := (hs.switch w).mp hw
  have hturn : sys.turnOf (.reply d) = only fd ⟨false, d.chunk, d.inbuf, true⟩ := by
    simp only [System.turnOf, State.onChannel, hw, Option.bind_some, hlive]
    cases hp : sys.pending with
    | nil => exact absurd hp hpending
    | cons c pending => rfl
  have hin : onInput hash w ⟨.switchChannel, fd⟩ ⟨false, d.chunk, d.inbuf, true⟩ sys.mgr = _ :=
    switchChannelOnInput_reply hs.toRegistry d
  rw [step, hturn]
  cases hctrl : sys.mgr.ctrl with
  | none =>
      rw [hctrl] at hin
      rw [hs.turn_only_error hlive hin]
      rfl
  | some c =>
      rw [hctrl] at hin
      rw [hs.turn_only hlive hin]
      show Except.ok (System.mk _ (sys.pending.tail ++ []), _) = _
      rw [List.append_nil]

theorem routed_iff {sys : System} (hs : Serving sys.mgr) (act : Action) :
    Routed hash sys act ↔ RequesterConnected sys act := by
  cases act with
  | connect | command | disconnect => exact Iff.rfl
  | reply d =>
      cases hpending : sys.pending with
      | nil => simp only [Routed, RequesterConnected, hpending]
      | cons c pending =>
          simp only [Routed, RequesterConnected, hpending]
          rw [step_reply hs d (by simp [hpending])]
          cases hctrl : sys.mgr.ctrl with
          | none => simp
          | some c' =>
              obtain ⟨fd, hlive⟩ := (hs.ctrl c').mp hctrl
              constructor
              · rintro ⟨sys', es, heq, hes⟩
                cases heq
                by_cases hsome : (sys.mgr.heap c).isSome
                · rw [if_pos hsome] at hes
                  cases hes
                  rfl
                · rw [if_neg hsome] at hes
                  cases hes
              · intro heq
                cases heq
                refine ⟨_, _, rfl, ?_⟩
                rw [hlive, Option.isSome_some, if_pos rfl]

/-- **A reply reaches the client that asked exactly if that client is still connected.** Along every run of the
    system each reply is passed to the channel whose command it answers, or discarded if that channel is gone, if
    and only if whenever a reply is read the connected client is the one whose command it answers. -/
theorem replies_routed_iff (hash : Json.Text → Nat) (acts : List Action) :
    Guarded (step hash) (Routed hash) System.start acts ↔
      Guarded (step hash) RequesterConnected System.start acts :=
  Guarded.congr (fun sys => Serving sys.mgr) (fun _ _ _ _ hs h => serving_step hs h)
    (fun _ act hs => routed_iff hs act) acts System.start serving_connected

/-- A command that the switch answers. -/
def delCommand : Json.Text := Json.ascii "\x7b\"target\":\"dp\",\"command\":\"del\",\"dp\":\"x\"\x7d"

/-- An answer of one byte. -/
def shortReply : Delivery := Delivery.intoZeros [2] (by decide) (by decide)

/-- What is left of a run: the connected client, and who waits for an answer. -/
def clientAndPending (acts : List Action) : Option (Option Nat × List Nat) :=
  match runAll (step List.length) System.start acts with
  | .ok (sys, _) => some (sys.mgr.ctrl, sys.pending)
  | .error _ => none

theorem not_routed_of {acts : List Action} {c : Nat} {ctrl : Option Nat} {pending : List Nat}
    (h : clientAndPending acts = some (ctrl, c :: pending)) (hne : ctrl ≠ some c) :
    ¬ Guarded (step List.length) (Routed List.length) System.start (acts ++ [.reply shortReply]) := by
  intro hrouted
  unfold clientAndPending at h
  cases hrun : runAll (step List.length) System.start acts with
  | error f =>
      rw [hrun] at h
      cases h
  | ok r =>
      obtain ⟨⟨mgr, waiting⟩, es⟩ := r
      rw [hrun] at h
      cases h
      have hserving : Serving mgr := runAll_invariant (fun _ _ _ _ hs _ h => serving_step hs h) acts System.start
        _ es serving_connected (Guarded.of_mem acts System.start (fun _ _ _ => trivial)) hrun
      exact hne ((routed_iff hserving _).mp (hrouted.at hrun))

/-- The client is gone when the answer comes, and then it is passed to a null pointer; or another client has connected,
    and gets the answer. -/
theorem reply_misrouted :
    ¬ Guarded (step List.length) (Routed List.length) System.start
      [.connect, .command delCommand true, .disconnect, .reply shortReply] ∧
    ¬ Guarded (step List.length) (Routed List.length) System.start
      [.connect, .command delCommand true, .disconnect, .connect, .reply shortReply] := by
  constructor
  · have h : clientAndPending [.connect, .command delCommand true, .disconnect] = some (none, [3]) := by decide +kernel
    exact not_routed_of h (by simp)
  · have h : clientAndPending [.connect, .command delCommand true, .disconnect, .connect] = some (some 4, [3]) := by
      decide +kernel
    exact not_routed_of h (by simp)

end Flowmgr
end Freeflow
