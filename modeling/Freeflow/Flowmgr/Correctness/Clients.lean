import Freeflow.Flowmgr.Correctness.Replies

/-!
# `Flowmgr.Correctness.Clients` — a client that comes alone

What the main loop does for one client from its connection to its end, when nothing else happens meanwhile. None of the
iterations faults, and after the last one `flowmgr` waits for the next client as it did before (`Waiting`).
-/

namespace Freeflow
namespace Flowmgr

variable {hash : Json.Text → Nat} {s s' : State} {id fd : Nat} {kind : Kind} {a : Answers}

/-! ## One handler -/

/-- An iteration in which one handler is called, and is removed unless it stays. -/
theorem Registry.turn_one {isOpen : Bool} {es : List Effect} (hs : Registry [] s) (hlive : s.heap id = some ⟨kind, fd⟩)
    (hin : onInput hash id ⟨kind, fd⟩ a s = .ok (s', isOpen, es)) :
    turn hash s (only fd a) =
      (removeAll s' (if isOpen then [] else [id]) >>= fun r => .ok (r.1, es ++ r.2)) := by
  have hserved := onInput_served hin
  have hs' := hs.served hserved
  obtain ⟨after, hsub, hafter, hevents⟩ := hs.events_only hlive hash a
  have hne : s.ps ≠ [] := List.ne_nil_of_mem ((hs.same fd).mpr ⟨id, hs.registered id _ hlive⟩)
  have hkept : after ⊆ s'.ps := by
    intro fd' hfd'
    obtain ⟨id', hid'⟩ := (hs.same fd').mp (hsub hfd')
    exact (hs'.same fd').mpr ⟨id', hserved.ios hid'⟩
  have hnone : ∀ fd' ∈ after, s.revents (only fd a) fd' = none := by
    intro fd' hfd'
    rw [only_revents, if_neg]
    rintro ⟨-, rfl⟩
    exact hafter hfd'
  rw [hin, ok_bind, hs'.unread hkept hnone] at hevents
  have hnew : lookups hash s.ps.length ⟨s', if isOpen then [] else [id], es⟩ =
      .ok ⟨s', if isOpen then [] else [id], es⟩ :=
    hs'.unread (List.drop_subset _ _) (fun _ _ => rfl)
  have horder : (only fd a).removals (if isOpen then [] else [id]) = if isOpen then [] else [id] := by
    cases isOpen <;> rfl
  rw [turn, if_neg hne, hevents, ok_bind, hnew, ok_bind, horder]
  rfl

/-- The end of a control channel. -/
theorem Registry.removeAll_client {c : Nat} (hs : Registry [] s) (hlive : s.heap c = some ⟨.controlChannel, fd⟩) :
    ∃ s', removeAll s [c] = .ok (s', []) ∧ Removed s c ⟨.controlChannel, fd⟩ s' := by
  have hpolled : fd ∈ s.ps := (hs.same fd).mpr ⟨c, hs.registered c _ hlive⟩
  have hunregister : ∃ s', unregisterHandler s c = .ok (s', []) := by
    rw [unregisterHandler, deref_ok.mpr hlive, ok_bind, if_pos hpolled]
    exact ⟨_, rfl⟩
  obtain ⟨s', hone⟩ := hunregister
  obtain ⟨io, hrem⟩ := unregisterHandler_removed hone
  have hio := hrem.live
  rw [hlive] at hio
  cases hio
  refine ⟨s', ?_, hrem⟩
  rw [removeAll, hone]
  rfl

/-! ## The life of a client -/

/-- The listening socket of the clients is served. -/
def Listens (s : State) : Prop := ∃ fd, s.heap ctrlServer = some ⟨.controlServer, fd⟩

/-- **`flowmgr` waits for a client**: the switch is connected, and nobody else is or waits for an answer. -/
structure Waiting (sys : System) : Prop where
  serving : Serving sys.mgr
  listening : Listens sys.mgr
  alone : sys.mgr.ctrl = none
  answered : sys.pending = []

/-- The client `c` is connected, and waits for the answers of `pending`. -/
structure Attending (c : Nat) (pending : List Nat) (sys : System) : Prop where
  serving : Serving sys.mgr
  listening : Listens sys.mgr
  client : sys.mgr.ctrl = some c
  pending : sys.pending = pending

section
variable {sys : System} {c : Nat} {pending : List Nat}

/-- The descriptor of the client. -/
theorem Attending.live (hc : Attending c pending sys) : ∃ fd, sys.mgr.heap c = some ⟨.controlChannel, fd⟩ ∧
    ∀ a, sys.mgr.onChannel sys.mgr.ctrl a = only fd a := by
  obtain ⟨fd, hlive⟩ := (hc.serving.ctrl c).mp hc.client
  exact ⟨fd, hlive, fun a => by simp [State.onChannel, hc.client, hlive]⟩

/-- The answer to the request that has waited longest reaches the client. -/
theorem Attending.step_reply (hc : Attending c pending sys) (hash : Json.Text → Nat) (d : Flowpath.Delivery)
    (hpending : pending ≠ []) :
    step hash sys (.reply d) = .ok (⟨sys.mgr, pending.tail⟩, [.replied c d.received]) ∧
      Attending c pending.tail ⟨sys.mgr, pending.tail⟩ := by
  have hstep : step hash sys (.reply d) = _ := Flowmgr.step_reply hc.serving d (hc.pending ▸ hpending)
  rw [hc.client, hc.pending] at hstep
  exact ⟨hstep, hc.serving, hc.listening, hc.client, rfl⟩

/-- The client goes away. -/
theorem Attending.step_disconnect (hc : Attending c [] sys) (hash : Json.Text → Nat) :
    ∃ sys', step hash sys .disconnect = .ok (sys', []) ∧ Waiting sys' := by
  obtain ⟨fd, hlive, hof⟩ := hc.live
  have hin : onInput hash c ⟨.controlChannel, fd⟩ ⟨false, [], [], true⟩ sys.mgr = .ok (sys.mgr, false, []) := rfl
  obtain ⟨s', hremove, hrem⟩ := hc.serving.removeAll_client hlive
  have hone := hc.serving.turn_one hlive hin
  rw [if_neg (by simp), hremove, ok_bind] at hone
  have hturn : sys.turnOf .disconnect = only fd ⟨false, [], [], true⟩ := hof _
  have hstep : step hash sys .disconnect = .ok (⟨s', []⟩, []) := by
    rw [step, hturn, hone, ok_bind]
    simp [System.unanswered, requesters, hc.pending]
  refine ⟨_, hstep, serving_step hc.serving hstep, ?_, ?_, rfl⟩
  -- the listening socket is another handler
  · obtain ⟨sfd, hserver⟩ := hc.listening
    refine ⟨sfd, (hrem.heap _ _).mpr ⟨?_, hserver⟩⟩
    rintro rfl
    rw [hserver] at hlive
    cases hlive
  · rw [Option.eq_none_iff_forall_ne_some]
    intro c' hc'
    exact ((hrem.ctrl c').mp hc').1 rfl

end

end Flowmgr
end Freeflow
