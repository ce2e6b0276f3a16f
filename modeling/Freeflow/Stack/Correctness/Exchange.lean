import Freeflow.Stack.Exchange
import Freeflow.Stack.Correctness.Requests
import Freeflow.Flowmgr.Reply
import Freeflow.Flowpath.Correctness.Framing
import Freeflow.Flowpath.Correctness.Management

/-!
# `Stack.Correctness.Exchange` — the two processes work one request after the other

Clients come and go, requests are sent before the last one is answered, and replies are read late. None of this shows
in what `flowpath` does: it is where the requests have taken it one by one in the order in which they were sent, and the
replies are read in that order (`exchange_in_order`). If the client that asked is always still there, each client gets
what the machine of `Flowpath.Management` answers to its requests (`exchange_answers`). `delivered_has_text` says that the
call of `on_reply`, up to which an iteration of `flowmgr` goes here, is defined.

`flowpath` and the two directions of the socket are a pipe; `step_moves` says what a move does to it.
-/

namespace Freeflow
namespace Stack

open Flowmgr (Effect Action State Turn Registry Serving Kind Answers IoHandler)
open Flowpath (Managed Message Delivery Incoming Plane messageLen manageStep planeStep)

variable {ω D : Type} {hash : Json.Text → Nat}

/-! ## The effects of an iteration -/

/-- An effect other than a call of `on_reply`. -/
def Plain : Effect → Prop
  | .sent _ ev => FormedEvent ev
  | .shutdown _ => True
  | .replied _ _ => False

theorem destroy_plain {s s' : State} {id : Nat} {io : IoHandler} {es : List Effect}
    (h : Flowmgr.destroy s id io = .ok (s', es)) : ∀ e ∈ es, Plain e := by
  unfold Flowmgr.destroy at h
  cases hkind : io.kind with
  | controlServer | switchServer | controlChannel =>
      rw [hkind] at h
      cases h
      simp
  | switchChannel =>
      rw [hkind] at h
      cases hctrl : s.ctrl with
      | none =>
          simp only [hctrl] at h
          cases h
          simp
      | some c =>
          simp only [hctrl] at h
          obtain ⟨flowctl, -, h⟩ := bind_eq_ok h
          cases h
          simp [Plain]

theorem removeAll_plain : ∀ (rm : List Nat) {s s' : State} {es : List Effect},
    Flowmgr.removeAll s rm = .ok (s', es) → ∀ e ∈ es, Plain e
  | [], _, _, _, h => by
      cases h
      simp
  | id :: rm, s, _, _, h => by
      obtain ⟨⟨s₁, es₁⟩, hone, h⟩ := bind_eq_ok h
      obtain ⟨⟨s₂, es₂⟩, hrest, h⟩ := bind_eq_ok h
      cases h
      have hfirst : ∀ e ∈ es₁, Plain e := by
        obtain ⟨io, -, hone⟩ := bind_eq_ok hone
        split_ifs at hone
        exact destroy_plain hone
      exact List.forall_mem_append.mpr ⟨hfirst, removeAll_plain rm hrest⟩

/-- An iteration in which one handler is called has the effects of the call, and of removals. -/
theorem effects_only {s s' : State} {id fd : Nat} {kind : Kind} {a : Answers} {es : List Effect} (hs : Registry [] s)
    (hlive : s.heap id = some ⟨kind, fd⟩) (h : Flowmgr.turn hash s (Flowmgr.only fd a) = .ok (s', es)) :
    ∃ r removals, Flowmgr.onInput hash id ⟨kind, fd⟩ a s = .ok r ∧ es = r.2.2 ++ removals ∧ ∀ e ∈ removals, Plain e := by
  have hne : s.ps ≠ [] := List.ne_nil_of_mem ((hs.same fd).mpr ⟨id, hs.registered id _ hlive⟩)
  rw [Flowmgr.turn, if_neg hne] at h
  obtain ⟨p, hp, h⟩ := bind_eq_ok h
  obtain ⟨q, hq, h⟩ := bind_eq_ok h
  obtain ⟨⟨t, removals⟩, hrm, h⟩ := bind_eq_ok h
  cases h
  obtain ⟨after, -, hafter, hevents⟩ := hs.events_only hlive hash a
  rw [hevents] at hp
  obtain ⟨r, hin, hloop⟩ := bind_eq_ok hp
  -- the other descriptors cannot be read
  have hsame : p = ⟨r.1, if r.2.1 then [] else [id], r.2.2⟩ := by
    refine foldlM_invariant (fun _ p => p = _) ?_ _ [] _ p rfl rfl hloop
    rintro done fd' rest p₁ p₂ hsplit rfl hstep
    obtain ⟨id', -, ⟨-, heq⟩ | ⟨a', -, -, hrev, -⟩⟩ := Flowmgr.processEvents_cases hstep
    · exact heq
    · rw [Flowmgr.only_revents] at hrev
      split_ifs at hrev with hfd
      have hmem : fd' ∈ after := by
        rw [List.nil_append] at hsplit
        simp [hsplit]
      exact absurd (hfd.2 ▸ hmem) hafter
  rw [Flowmgr.lookups_eq hq] at hrm ⊢
  exact ⟨r, removals, hin, by rw [hsame], removeAll_plain _ hrm⟩

/-- An iteration in which no handler is called. -/
theorem effects_idle {s s' : State} {es : List Effect} (h : Flowmgr.turn hash s Flowmgr.idle = .ok (s', es)) :
    ∀ e ∈ es, Plain e := by
  unfold Flowmgr.turn at h
  split_ifs at h
  obtain ⟨p, hp, h⟩ := bind_eq_ok h
  obtain ⟨q, hq, h⟩ := bind_eq_ok h
  obtain ⟨⟨t, removals⟩, hrm, h⟩ := bind_eq_ok h
  cases h
  have hsame : p = ⟨s, [], []⟩ := by
    refine foldlM_invariant (fun _ p => p = _) ?_ _ [] _ p rfl rfl hp
    rintro done fd rest p₁ p₂ - rfl hstep
    obtain ⟨id, -, ⟨-, heq⟩ | ⟨a, -, -, hrev, -⟩⟩ := Flowmgr.processEvents_cases hstep
    · exact heq
    · simp [State.revents, Flowmgr.idle] at hrev
  rw [Flowmgr.lookups_eq hq, hsame]
  exact removeAll_plain _ hrm

/-- The two handlers that clients reach never call `on_reply`. -/
theorem onInput_plain {id : Nat} {io : IoHandler} {a : Answers} {s : State} {r : State × Bool × List Effect}
    (hkind : io.kind = .controlServer ∨ io.kind = .controlChannel) (h : Flowmgr.onInput hash id io a s = .ok r) :
    ∀ e ∈ r.2.2, Plain e := by
  unfold Flowmgr.onInput at h
  rcases hkind with hkind | hkind
  · rw [hkind] at h
    cases h
    unfold Flowmgr.controlServerOnInput
    split
    · simp
    · split_ifs
      · simp
      · simp [Plain, FormedEvent]
  · rw [hkind] at h
    simp only [Flowmgr.controlChannelOnInput] at h
    split_ifs at h with hends
    · cases h
      simp
    · have hformed := (request_writes hash (s.link a) (a.chunk.take Flowmgr.bufsize)).logOf
      split at h
      · next isOpen events hreq =>
          cases h
          rw [Traced.logOf, Traced.finalLog, hreq] at hformed
          simpa [Plain] using hformed
      · cases h

/-- **Only the delivery of a reply calls `on_reply`**, and what is sent to the switch is formed. -/
theorem step_plain {sys sys' : Flowmgr.System} {act : Action} {es : List Effect} (hs : Serving sys.mgr)
    (hact : ∀ d, act ≠ .reply d) (h : Flowmgr.step hash sys act = .ok (sys', es)) : ∀ e ∈ es, Plain e := by
  obtain ⟨⟨mgr, es'⟩, hturn, heq⟩ := bind_eq_ok h
  cases heq
  have hchannel : ∀ a, sys.turnOf act = sys.mgr.onChannel sys.mgr.ctrl a → ∀ e ∈ es, Plain e := by
    intro a hof
    rw [hof] at hturn
    rcases hs.ctrl.onChannel a with ⟨-, heq⟩ | ⟨c, fd, -, hlive, heq⟩
    · rw [heq] at hturn
      exact effects_idle hturn
    · rw [heq] at hturn
      obtain ⟨r, removals, hin, rfl, hremovals⟩ := effects_only hs.toRegistry hlive hturn
      exact List.forall_mem_append.mpr ⟨onInput_plain (Or.inr rfl) hin, hremovals⟩
  cases act with
  | reply d => exact absurd rfl (hact d)
  | command text taken => exact hchannel _ rfl
  | disconnect => exact hchannel _ rfl
  | connect =>
      simp only [Flowmgr.System.turnOf] at hturn
      split at hturn
      · next fd hlive =>
          obtain ⟨r, removals, hin, rfl, hremovals⟩ := effects_only hs.toRegistry hlive hturn
          exact List.forall_mem_append.mpr ⟨onInput_plain (Or.inl rfl) hin, hremovals⟩
      · exact effects_idle hturn

/-! ## The invariant -/

/-- As many channels wait for an answer as requests were sent. -/
theorem length_requesters (es : List Effect) : (Flowmgr.requesters es).length = (sentRequests es).length := by
  induction es with
  | nil => rfl
  | cons e es ih =>
      cases e with
      | shutdown c => exact ih
      | replied c rep => exact ih
      | sent c ev =>
          cases ev with
          | error what => exact ih
          | request msg =>
              show (Flowmgr.requesters es).length + 1 = (sentRequests es).length + 1
              rw [ih]

/-- Plain effects pass nothing to a client. -/
theorem passed_of_plain {es : List Effect} (h : ∀ e ∈ es, Plain e) : passed (.mgr es) = [] := by
  simp only [passed, List.filterMap_eq_nil_iff]
  intro e he
  cases e with
  | sent c ev => rfl
  | shutdown c => rfl
  | replied c rep => exact (h _ he).elim

/-- The requests among plain effects are formed. -/
theorem formed_of_plain {es : List Effect} (h : ∀ e ∈ es, Plain e) : ∀ req ∈ sentRequests es, Formed req := by
  intro req hreq
  obtain ⟨e, he, hmsg⟩ := List.mem_filterMap.mp hreq
  split at hmsg
  · next c msg =>
      cases hmsg
      exact h _ he
  · cases hmsg

/-- **What holds between the two processes**: each channel that waits for an answer has its request or the reply under
    way, the requests are formed, and the replies are whole. -/
structure Steady (x : Exchange ω D) : Prop where
  serving : Serving x.sys.mgr
  pending : x.sys.pending.length = x.requests.length + x.replies.length
  formed : ∀ req ∈ x.requests, Formed req
  whole : ∀ rep ∈ x.replies, rep.length = messageLen

theorem steady_start : Steady (Exchange.start : Exchange ω D) where
  serving := Flowmgr.serving_connected
  pending := rfl
  formed := by simp [Exchange.start]
  whole := by simp [Exchange.start]

/-- `flowpath` and the two directions of the socket. -/
def Exchange.pipe (x : Exchange ω D) : Pipe (List UInt8) (Managed ω D) (List UInt8) :=
  ⟨x.requests, x.path, x.replies⟩

/-- The request that a call of `fp_mgr_incoming` is for. -/
def asked (m : Message ω D) : List UInt8 := m.received.buf

/-- The replies that clients read. -/
def read (w : Shown) : List (List UInt8) := (passed w).map Prod.snd

/-- A reply is as long as the buffer that it is made in. -/
theorem length_reply {s s' : Managed ω D} {m : Message ω D} {inc : Incoming} (h : manageStep s m = .ok (s', inc)) :
    inc.reply.length = m.outbuf.length := by
  rw [Flowpath.manageStep_eq] at h
  obtain ⟨⟨s₁, inc₁⟩, hincoming, hdescribed⟩ := bind_eq_ok h
  obtain ⟨-, -, heq⟩ := bind_eq_ok hdescribed
  cases heq
  rw [Flowpath.RequestFns.incoming_eq] at hincoming
  split_ifs at hincoming
  · obtain ⟨r, -, heq⟩ := map_eq_ok hincoming
    cases heq
    simp [Flowpath.RequestFns.answer]
  · cases hincoming
    simp

/-! ## One move -/

/-- **What a move does**: it keeps the invariant, what it sends to the switch is formed, and the pipe moves as the move
    shows. -/
structure Steps (x x' : Exchange ω D) (w : Shown) : Prop where
  steady : Steady x'
  formed : ∀ req ∈ posted w, Formed req
  moves : ∃ calls, Pipe.Moves manageStep asked Incoming.reply x.pipe (posted w) calls (handled w) (read w) x'.pipe

theorem Steady.quiet {x : Exchange ω D} (hx : Steady x) : Steps x x .quiet := ⟨hx, by simp [posted], [], .refl _⟩

/-- The channels that wait after an action which is no delivery. -/
theorem step_pending {sys sys' : Flowmgr.System} {act : Action} {es : List Effect} (hact : ∀ d, act ≠ .reply d)
    (h : Flowmgr.step hash sys act = .ok (sys', es)) : sys'.pending = sys.pending ++ Flowmgr.requesters es := by
  obtain ⟨⟨mgr, es'⟩, -, heq⟩ := bind_eq_ok h
  cases heq
  cases act with
  | reply d => exact absurd rfl (hact d)
  | connect | command | disconnect => rfl

/-- An iteration of `flowmgr` without a reply. -/
theorem Steady.act {x x' : Exchange ω D} {action : Action} {w : Shown} (hx : Steady x) (haction : ∀ d, action ≠ .reply d)
    (h : x.act hash action = .ok (x', w)) : Steps x x' w := by
  obtain ⟨⟨sys, es⟩, hstep, heq⟩ := bind_eq_ok h
  cases heq
  have hplain := step_plain hx.serving haction hstep
  have hformed := formed_of_plain hplain
  refine ⟨⟨Flowmgr.serving_step hx.serving hstep, ?_, ?_, hx.whole⟩, hformed, [], ?_⟩
  · have hpending := hx.pending
    simp only [step_pending haction hstep, List.length_append, length_requesters]
    omega
  · exact List.forall_mem_append.mpr ⟨hx.formed, hformed⟩
  · rw [read, passed_of_plain hplain]
    exact .accept x.pipe (sentRequests es)

/-- A call of `fp_mgr_incoming`. -/
theorem Steady.serve {x x' : Exchange ω D} {m : Message ω D} {w : Shown} (hx : Steady x)
    (h : x.step hash (.serve m) = .ok (x', w)) : Steps x x' w := by
  obtain ⟨sys, requests, path, replies⟩ := x
  cases requests with
  | nil =>
      cases h
      exact hx.quiet
  | cons req requests =>
      simp only [Exchange.step] at h
      split_ifs at h with hrecv
      · obtain ⟨⟨path', inc⟩, hserve, heq⟩ := bind_eq_ok h
        cases heq
        have hasked : asked m = req := by rw [asked, hrecv.1]
        have hlen := (length_reply hserve).trans hrecv.2
        refine ⟨⟨hx.serving, ?_, ?_, ?_⟩, by simp [posted], [m], ?_⟩
        · have hpending := hx.pending
          simp only [List.length_cons, List.length_append, List.length_nil] at hpending ⊢
          omega
        · exact fun r hr => hx.formed r (List.mem_cons_of_mem _ hr)
        · exact List.forall_mem_append.mpr ⟨hx.whole, by simpa using hlen⟩
        · subst hasked
          exact Pipe.Moves.serve hserve requests replies
      · cases h
        exact hx.quiet

/-- The whole reply is in the buffer. -/
theorem received_of_chunk {d : Delivery} (h : d.chunk.length = messageLen) : d.received.buf = d.chunk := by
  simp only [Delivery.received, Flowpath.recvInto, h]
  rw [List.drop_of_length_le (by rw [d.inbuf_len]), List.append_nil]

/-- The effects of a delivery, when a reply is under way. -/
theorem Steady.delivered {x x' : Exchange ω D} {d : Delivery} {w : Shown} {rep : List UInt8} {replies : List (List UInt8)}
    (hx : Steady x) (hreplies : x.replies = rep :: replies)
    (h : Exchange.act hash { x with replies } (.reply d) = .ok (x', w)) :
    ∃ c, x.sys.mgr.ctrl = some c ∧ w = .mgr [.replied c d.received] ∧
      x' = { x with sys := ⟨x.sys.mgr, x.sys.pending.tail⟩, replies } := by
  have hpending : x.sys.pending ≠ [] := by
    have hlen := hx.pending
    rw [hreplies, List.length_cons] at hlen
    exact List.ne_nil_of_length_pos (by omega)
  obtain ⟨⟨sys, es⟩, hstep, heq⟩ := bind_eq_ok h
  cases heq
  have hreply : Flowmgr.step hash x.sys (.reply d) = _ := Flowmgr.step_reply hx.serving d hpending
  rw [hstep] at hreply
  split at hreply
  · next c hc =>
      cases hreply
      exact ⟨c, hc, rfl, by simp [sentRequests]⟩
  · cases hreply

/-- The delivery of a reply. -/
theorem Steady.deliver {x x' : Exchange ω D} {d : Delivery} {w : Shown} (hx : Steady x)
    (h : x.step hash (.deliver d) = .ok (x', w)) : Steps x x' w := by
  simp only [Exchange.step] at h
  split at h
  · cases h
    exact hx.quiet
  · next rep replies hreplies =>
      split_ifs at h with hchunk
      · obtain ⟨c, -, rfl, rfl⟩ := hx.delivered hreplies h
        have hwhole : ∀ r ∈ rep :: replies, r.length = messageLen := hreplies ▸ hx.whole
        rw [List.forall_mem_cons] at hwhole
        refine ⟨⟨hx.serving, ?_, hx.formed, hwhole.2⟩, by simp [posted, sentRequests], [], ?_⟩
        · have hpending := hx.pending
          rw [hreplies, List.length_cons] at hpending
          simp only [List.length_tail]
          omega
        · have hread : read (.mgr [.replied c d.received]) = [rep] := by
            show [d.received.buf] = [rep]
            rw [received_of_chunk (hchunk ▸ hwhole.1), hchunk]
          have hpipe : x.pipe = ⟨x.requests, x.path, rep :: replies⟩ := by rw [Exchange.pipe, hreplies]
          rw [hread, hpipe]
          exact .take x.requests x.path rep replies
      · cases h
        exact hx.quiet

/-- **One move.** -/
theorem Steady.step {x x' : Exchange ω D} {mv : Move ω D} {w : Shown} (hx : Steady x)
    (h : x.step hash mv = .ok (x', w)) : Steps x x' w := by
  cases mv with
  | connect => exact hx.act (by simp) h
  | command text taken => exact hx.act (by simp) h
  | disconnect => exact hx.act (by simp) h
  | serve m => exact hx.serve h
  | deliver d => exact hx.deliver h

/-! ## Runs -/

theorem steady_run {moves : List (Move ω D)} {x x' : Exchange ω D} {shown : List Shown} (hx : Steady x)
    (h : runAll (Exchange.step hash) x moves = .ok (x', shown)) :
    Steady x' ∧ ∃ calls, Pipe.Moves manageStep asked Incoming.reply x.pipe (shown.flatMap posted) calls
      (shown.flatMap handled) (shown.flatMap read) x'.pipe :=
  runAll_moves Steady Exchange.pipe posted handled read
    (fun _ _ _ _ hx h => ⟨(hx.step h).steady, (hx.step h).moves⟩) moves x x' shown hx h

/-- **The two processes work one request after the other.** Whatever the order of the moves: the requests that `flowmgr`
    has sent are whole, and are those that `flowpath` has handled, followed by those under way; `flowpath` has handled them
    like the machine does, one after the other; and its replies are those that clients have read, followed by those under
    way. As many channels wait for an answer as requests and replies are under way. -/
theorem exchange_in_order (hash : Json.Text → Nat) (moves : List (Move ω D)) (x : Exchange ω D) (shown : List Shown)
    (h : runAll (Exchange.step hash) Exchange.start moves = .ok (x, shown)) :
    ∃ (calls : List (Message ω D)) (plane : Plane ω),
      runAll planeStep none calls = .ok (plane, shown.flatMap handled) ∧
      shown.flatMap posted = calls.map asked ++ x.requests ∧
      (shown.flatMap handled).map Incoming.reply = shown.flatMap read ++ x.replies ∧
      (∀ req ∈ shown.flatMap posted, Formed req) ∧
      x.sys.pending.length = x.requests.length + x.replies.length := by
  obtain ⟨hx, calls, hmoves⟩ := steady_run steady_start h
  have hagree := runAll_agree (fun _ _ msg B => B.step_agree msg) calls _ _
    (Flowpath.behaves_start (ω := ω) (D := D))
  have hserved : runAll manageStep Managed.start calls = .ok (x.path, shown.flatMap handled) := hmoves.served
  rw [hserved] at hagree
  obtain ⟨plane, hplane, -⟩ := hagree.of_ok
  have hformed : ∀ w ∈ shown, ∀ req ∈ posted w, Formed req :=
    runAll_forall Steady _ (fun _ _ _ _ hx h => ⟨(hx.step h).steady, (hx.step h).formed⟩) moves _ x shown steady_start h
  refine ⟨calls, plane, hplane, ?_, ?_, ?_, hx.pending⟩
  · simpa [Exchange.pipe, Exchange.start] using hmoves.requests
  · simpa [Exchange.pipe, Exchange.start] using hmoves.answers
  · intro req hreq
    obtain ⟨w, hw, hmem⟩ := List.mem_flatMap.mp hreq
    exact hformed w hw req hmem

/-- The request to delete the data plane `x`. -/
def delMessage : Message Unit Nat where
  received := ⟨[Flowpath.fpRequest, Flowpath.dataplaneDel, 120] ++ List.replicate 1021 0, messageLen⟩
  outbuf := List.replicate messageLen 0
  env := ⟨⟨0, .wild, .wild⟩, .noModule, (0, 0), 0, 0⟩
  length_eq := by
    rw [List.length_append, List.length_replicate]
    rfl

/-- The reply to it: there is no data plane. -/
def delReply : Delivery :=
  have hlen : (Flowpath.makeReply delMessage.outbuf Flowpath.dataplaneDel Flowpath.fpBadDataplane).length = messageLen :=
    (Flowpath.length_makeReply _ _ _).trans List.length_replicate
  Delivery.intoZeros (Flowpath.makeReply delMessage.outbuf Flowpath.dataplaneDel Flowpath.fpBadDataplane)
    (hlen ▸ Nat.le_of_ble_eq_true rfl) hlen.le

/-- A client asks for the deletion of a data plane, and reads the reply. -/
def delExchange : List (Move Unit Nat) :=
  [.connect, .command Flowmgr.delCommand true, .serve delMessage, .deliver delReply]

theorem delExchange_runs : (runAll (Exchange.step List.length) Exchange.start delExchange).map
    (fun r => (r.2.flatMap passed).map Prod.fst) = .ok [3] := by
  decide +kernel

theorem exchange_in_order_delExchange :
    ∃ x shown, runAll (Exchange.step List.length) Exchange.start delExchange = .ok (x, shown) ∧
    ∃ (calls : List (Message Unit Nat)) (plane : Plane Unit),
      runAll planeStep none calls = .ok (plane, shown.flatMap handled) ∧
      shown.flatMap posted = calls.map asked ++ x.requests ∧
      (shown.flatMap handled).map Incoming.reply = shown.flatMap read ++ x.replies ∧
      (∀ req ∈ shown.flatMap posted, Formed req) ∧
      x.sys.pending.length = x.requests.length + x.replies.length := by
  obtain ⟨⟨x, shown⟩, hrun, -⟩ := map_eq_ok delExchange_runs
  exact ⟨x, shown, hrun, exchange_in_order List.length delExchange x shown hrun⟩

/-! ## What the clients read -/

/-- `fp_mgr_incoming` has found a text for the result of the reply that it sends. -/
theorem describe_of_manageStep {s s' : Managed ω D} {m : Message ω D} {inc : Incoming}
    (h : manageStep s m = .ok (s', inc)) : inc.describe = .ok () := by
  rw [Flowpath.manageStep_eq] at h
  obtain ⟨⟨s₁, inc₁⟩, -, hdescribed⟩ := bind_eq_ok h
  obtain ⟨⟨⟩, hdescribe, heq⟩ := bind_eq_ok hdescribed
  cases heq
  exact hdescribe

/-- **`on_reply` is defined for every reply that is delivered**, whatever the order of the moves: `flowpath` has looked the
    result up in the same table before it sent the reply. -/
theorem delivered_has_text (hash : Json.Text → Nat) (strerror : Int → Json.Text) (moves : List (Move ω D))
    (x : Exchange ω D) (shown : List Shown) (h : runAll (Exchange.step hash) Exchange.start moves = .ok (x, shown)) :
    ∀ rep ∈ shown.flatMap read, ∀ count, ∃ text, Flowmgr.onReply strerror ⟨rep, count⟩ = .ok text := by
  intro rep hrep count
  obtain ⟨-, calls, hmoves⟩ := steady_run steady_start h
  have hanswers : [] ++ (shown.flatMap handled).map Incoming.reply = shown.flatMap read ++ x.replies := hmoves.answers
  have hmem : rep ∈ (shown.flatMap handled).map Incoming.reply := by
    rw [← List.nil_append ((shown.flatMap handled).map Incoming.reply), hanswers]
    exact List.mem_append_left _ hrep
  obtain ⟨inc, hinc, rfl⟩ := List.mem_map.mp hmem
  have hdescribe : inc.describe = .ok () :=
    runAll_forall (fun _ => True) (fun inc : Incoming => inc.describe = .ok ())
      (fun _ _ _ _ _ h => ⟨trivial, describe_of_manageStep h⟩) calls _ _ _ trivial hmoves.served inc hinc
  rw [Incoming.describe, ← Flowmgr.resultText_describe strerror] at hdescribe
  obtain ⟨text, htext, -⟩ := bind_eq_ok hdescribe
  exact ⟨text, htext⟩

/-! ## Who reads the replies -/

/-- When a reply is delivered, the connected client is the one whose request it answers. -/
def AskerConnected (x : Exchange ω D) (mv : Move ω D) : Prop :=
  match mv, x.replies with
  | .deliver d, rep :: _ => d.chunk = rep → x.sys.mgr.ctrl = x.sys.pending.head?
  | _, _ => True

/-- The channels whose clients read a reply. -/
def readers (w : Shown) : List Nat := (passed w).map Prod.fst

/-- The channels that wait are a queue: the one that has waited longest reads the reply. -/
theorem Steady.queue {x x' : Exchange ω D} {mv : Move ω D} {w : Shown} (hx : Steady x) (hasker : AskerConnected x mv)
    (h : x.step hash mv = .ok (x', w)) : readers w ++ x'.sys.pending = x.sys.pending ++ askers w := by
  have hact : ∀ action, (∀ d, action ≠ .reply d) → x.act hash action = .ok (x', w) →
      readers w ++ x'.sys.pending = x.sys.pending ++ askers w := by
    intro action haction h
    obtain ⟨⟨sys, es⟩, hstep, heq⟩ := bind_eq_ok h
    cases heq
    rw [readers, passed_of_plain (step_plain hx.serving haction hstep), step_pending haction hstep]
    rfl
  cases mv with
  | connect => exact hact _ (by simp) h
  | command text taken => exact hact _ (by simp) h
  | disconnect => exact hact _ (by simp) h
  | serve m =>
      simp only [Exchange.step] at h
      split at h
      · cases h
        simp [readers, passed, askers]
      · split_ifs at h
        · obtain ⟨⟨path, inc⟩, -, heq⟩ := bind_eq_ok h
          cases heq
          simp [readers, passed, askers]
        · cases h
          simp [readers, passed, askers]
  | deliver d =>
      simp only [Exchange.step] at h
      split at h
      · cases h
        simp [readers, passed, askers]
      · next rep replies hreplies =>
          split_ifs at h with hchunk
          · obtain ⟨c, hc, rfl, rfl⟩ := hx.delivered hreplies h
            simp only [AskerConnected, hreplies] at hasker
            have hhead : x.sys.pending.head? = some c := (hasker hchunk).symm.trans hc
            obtain ⟨rest, hpending⟩ := List.head?_eq_some_iff.mp hhead
            show [c] ++ x.sys.pending.tail = x.sys.pending ++ []
            simp [hpending]
          · cases h
            simp [readers, passed, askers]

/-- **Each client reads what the machine answers to its requests**, in runs in which the client that asked is there when
    the answer comes: the replies that were read, with their readers, are the first of the machine's answers, with those
    who asked. -/
theorem exchange_answers (hash : Json.Text → Nat) (moves : List (Move ω D)) (x : Exchange ω D) (shown : List Shown)
    (h : runAll (Exchange.step hash) Exchange.start moves = .ok (x, shown))
    (hasker : Guarded (Exchange.step hash) AskerConnected Exchange.start moves) :
    ∃ (calls : List (Message ω D)) (plane : Plane ω) (answers : List Incoming),
      runAll planeStep none calls = .ok (plane, answers) ∧
      calls.map asked <+: shown.flatMap posted ∧
      shown.flatMap passed <+: (shown.flatMap askers).zip (answers.map Incoming.reply) := by
  obtain ⟨-, calls, hmoves⟩ := steady_run steady_start h
  have hagree := runAll_agree (fun _ _ msg B => B.step_agree msg) calls _ _
    (Flowpath.behaves_start (ω := ω) (D := D))
  have hserved : runAll manageStep Managed.start calls = .ok (x.path, shown.flatMap handled) := hmoves.served
  rw [hserved] at hagree
  obtain ⟨plane, hplane, -⟩ := hagree.of_ok
  have hqueue := runAll_queue Steady (fun x => x.sys.pending) readers askers
    (fun _ _ _ _ hx hg h => ⟨(hx.step h).steady, hx.queue hg h⟩) moves _ x shown steady_start hasker h
  refine ⟨calls, plane, shown.flatMap handled, hplane, ?_, ?_⟩
  · have hrequests := hmoves.requests
    simp only [Exchange.pipe, Exchange.start, List.nil_append] at hrequests
    rw [hrequests]
    exact List.prefix_append _ _
  -- the readers are the first of those who asked, and what they read are the first replies
  · have hanswers : [] ++ (shown.flatMap handled).map Incoming.reply = shown.flatMap read ++ x.replies := hmoves.answers
    have hreaders : shown.flatMap readers = (shown.flatMap passed).map Prod.fst := (List.map_flatMap ..).symm
    have hread : shown.flatMap read = (shown.flatMap passed).map Prod.snd := (List.map_flatMap ..).symm
    have hlen : (shown.flatMap readers).length = (shown.flatMap read).length := by
      rw [hreaders, hread, List.length_map, List.length_map]
    change shown.flatMap readers ++ x.sys.pending = [] ++ shown.flatMap askers at hqueue
    rw [List.nil_append] at hanswers hqueue
    rw [hanswers, ← hqueue, List.zip_append hlen, hreaders, hread, ← List.zip_of_prod rfl rfl]
    exact List.prefix_append _ _

/-- Before the reply is delivered, the client that asked is connected. -/
theorem delExchange_waits : (runAll (Exchange.step List.length) Exchange.start (delExchange.take 3)).map
    (fun r => (r.1.sys.mgr.ctrl, r.1.sys.pending)) = .ok (some 3, [3]) := by
  decide +kernel

theorem exchange_answers_delExchange :
    ∃ x shown, runAll (Exchange.step List.length) Exchange.start delExchange = .ok (x, shown) ∧
    ∃ (calls : List (Message Unit Nat)) (plane : Plane Unit) (answers : List Incoming),
      runAll planeStep none calls = .ok (plane, answers) ∧
      calls.map asked <+: shown.flatMap posted ∧
      shown.flatMap passed <+: (shown.flatMap askers).zip (answers.map Incoming.reply) := by
  obtain ⟨⟨x, shown⟩, hrun, -⟩ := map_eq_ok delExchange_runs
  refine ⟨x, shown, hrun, exchange_answers List.length delExchange x shown hrun ?_⟩
  refine ⟨trivial, fun x₁ w₁ h₁ => ⟨trivial, fun x₂ w₂ h₂ => ⟨trivial, fun x₃ w₃ h₃ => ⟨?_, fun _ _ _ => trivial⟩⟩⟩⟩
  have hwaits := delExchange_waits
  have hthree : runAll (Exchange.step List.length) Exchange.start (delExchange.take 3) = .ok (x₃, [w₁, w₂, w₃]) := by
    show runAll _ _ [_, _, _] = _
    rw [runAll_cons_ok h₁, runAll_cons_ok h₂, runAll_cons_ok h₃]
    rfl
  rw [hthree] at hwaits
  obtain ⟨hctrl, hpending⟩ := Prod.mk.inj (Except.ok.inj hwaits)
  simp only [AskerConnected]
  split
  · next heq =>
      intro _
      dsimp only at hctrl hpending
      rw [hctrl, hpending]
      rfl
  · trivial

end Stack
end Freeflow
