import Freeflow.Flowmgr.Correctness.Handlers

/-!
# `Flowmgr.Correctness.Listeners` — the two listening handlers over a run of the main loop

A listener whose `on_input` returns false is removed and deleted like any channel, and it returns false when it turns a
connection down. So the listeners survive exactly the runs in which they never have to.

## Contents
- `Listening`, `ListenersSurvive`, `ConnectionsTaken`.
- `Listener`: the invariant of one listener; `Listener.served`, `Listener.removed`.
- `Watched`: what the event loop does to a listener; `listener_turn`.
- `listeners_survive_iff`.
-/

namespace Freeflow
namespace Flowmgr

variable {hash : Json.Text → Nat}

/-! ## Listeners that stay -/

/-- The handler at `id` is not deleted, and it is registered for its descriptor. -/
structure Listening (s : State) (id : Nat) (kind : Kind) (fd : Nat) : Prop where
  live : s.heap id = some ⟨kind, fd⟩
  registered : s.ios fd = some id
  polled : fd ∈ s.ps

/-- Both listeners are there, and if the loop ends now `main` deletes each of them once. -/
def ListenersSurvive (s : State) : Prop :=
  Listening s ctrlServer .controlServer 3 ∧ Listening s swiServer .switchServer 4 ∧
    ∃ s', finish s = .ok s' ∧ s'.heap ctrlServer = none ∧ s'.heap swiServer = none

/-- If the listener can be read in this iteration, `accept` succeeds and no channel of its class is connected. -/
def Takes (s : State) (t : Turn) (kind : Kind) (fd : Nat) : Prop :=
  ∀ a, s.revents t fd = some a → a.accepted = true ∧ s.channel kind = none

/-- Neither listener turns a connection down in this iteration. -/
def ConnectionsTaken (s : State) (t : Turn) : Prop := Takes s t .controlServer 3 ∧ Takes s t .switchServer 4

/-! ## The invariant of a listener -/

/-- The listener is there, it is the only handler of its class and for its descriptor, and it is polled once. -/
structure Listener (s : State) (id : Nat) (kind : Kind) (fd : Nat) : Prop extends Listening s id kind fd where
  isOpen : fd ∈ s.openFds
  alone : ∀ id' io, s.heap id' = some io → io.fd = fd → id' = id
  own : ∀ fd', s.ios fd' = some id → fd' = fd
  once : s.ps.count fd = 1
  only : Points (some id) s kind

section
variable {s s' : State} {id fd : Nat} {kind : Kind}

theorem Listener.attached (hl : Listener s id kind fd) (hs : Sound s) {kind' : Kind} {fd' : Nat}
    (h : Attached s kind' fd' s') (hkind : kind' ≠ kind) : Listener s' id kind fd := by
  have hfd : fd' ≠ fd := by
    intro heq
    exact h.unused (heq ▸ hl.isOpen)
  have hid : id ≠ s.next := by
    intro heq
    have hlt := hs.fresh id _ hl.live
    rw [heq] at hlt
    exact Nat.lt_irrefl _ hlt
  exact {
    live := by
      rw [h.heap, Function.update_apply, if_neg hid]
      exact hl.live
    registered := (h.ios_cases fd id).mpr (Or.inl hl.registered)
    polled := by
      rw [h.ps]
      exact List.mem_append_left _ hl.polled
    isOpen := by
      rw [h.openFds]
      exact List.mem_cons_of_mem _ hl.isOpen
    alone := by
      intro id' io hlive hio
      rw [h.heap, Function.update_apply] at hlive
      by_cases heq : id' = s.next
      · rw [if_pos heq] at hlive
        cases hlive
        exact absurd hio hfd
      · rw [if_neg heq] at hlive
        exact hl.alone id' io hlive hio
    own := by
      intro fd'' hios
      rcases (h.ios_cases fd'' id).mp hios with hios | ⟨-, -, heq⟩
      · exact hl.own fd'' hios
      · exact absurd heq hid
    once := by
      rw [h.ps, List.count_append, hl.once, List.count_singleton]
      simp [hfd]
    only := hl.only.attached_of_ne h hs.not_next hkind }

/-- **One call keeps a listener**, its own call included. -/
theorem Listener.served (hl : Listener s id kind fd) (hs : Sound s)
    (hserver : kind = .controlServer ∨ kind = .switchServer) {io : IoHandler} {a : Answers} {b : Bool}
    (h : Served io a s s' b) : Listener s' id kind fd := by
  have hne : .controlChannel ≠ kind ∧ .switchChannel ≠ kind := by
    rcases hserver with rfl | rfl <;> simp
  cases h with
  | read | failed => exact hl
  | refused => exact { hl with isOpen := List.mem_cons_of_mem _ hl.isOpen }
  | client _ _ _ _ _ hatt => exact hl.attached hs hatt hne.1
  | switch _ _ _ _ _ hatt => exact hl.attached hs hatt hne.2

/-- **The removal of another handler keeps a listener.** -/
theorem Listener.removed (hl : Listener s id kind fd) (hs : Sound s)
    (hserver : kind = .controlServer ∨ kind = .switchServer) {id' : Nat} {io : IoHandler} (hne : id' ≠ id)
    (h : Removed s id' io s') : Listener s' id kind fd := by
  have hfd : fd ≠ io.fd := fun heq => hne (hl.alone id' io h.live heq.symm)
  exact {
    live := (h.heap id _).mpr ⟨hne.symm, hl.live⟩
    registered := (h.ios fd id).mpr ⟨hfd, hl.registered⟩
    polled := by
      rw [h.ps]
      exact (List.mem_erase_of_ne hfd).mpr hl.polled
    isOpen := by
      refine (h.openFds fd).mpr ⟨hl.isOpen, hfd, ?_⟩
      -- the switch channel closes the descriptor of a control channel, which the listener is not
      intro c flowctl _ hc hflowctl heq
      obtain ⟨fd', hchannel⟩ := (hs.ctrl c).mp hc
      rw [hl.alone c flowctl hflowctl heq.symm, hl.live] at hchannel
      cases hchannel
      rcases hserver with hk | hk <;> cases hk
    alone := by
      intro j io' hlive
      exact hl.alone j io' ((h.heap j io').mp hlive).2
    own := by
      intro fd' hios
      exact hl.own fd' ((h.ios fd' id).mp hios).2
    once := by
      rw [h.ps, List.count_erase_of_ne hfd]
      exact hl.once
    only := by
      apply hl.only.removed h
      intro c
      constructor
      · intro hc
        refine ⟨?_, hc⟩
        intro hkind
        have hid := (hl.only id').mpr ⟨io.fd, by rw [h.live, ← hkind]⟩
        exact hne (Option.some.inj hid).symm
      · intro hc
        exact hc.2 }

end

theorem listener_start_ctrl : Listener State.start ctrlServer .controlServer 3 where
  live := rfl
  registered := rfl
  polled := by decide
  isOpen := by decide
  alone id io h hio := by
    rcases start_heap h with ⟨rfl, -⟩ | ⟨-, rfl⟩
    · rfl
    · cases hio
  own fd h := by
    rw [start_ios] at h
    by_cases h4 : fd = 4
    · rw [if_pos h4] at h
      cases h
    · rw [if_neg h4] at h
      simpa using h
  once := by decide
  only id := by
    constructor
    · intro h
      cases h
      exact ⟨3, rfl⟩
    · rintro ⟨fd, h⟩
      rcases start_heap h with ⟨rfl, -⟩ | ⟨-, heq⟩
      · rfl
      · cases heq

theorem listener_start_swi : Listener State.start swiServer .switchServer 4 where
  live := rfl
  registered := rfl
  polled := by decide
  isOpen := by decide
  alone id io h hio := by
    rcases start_heap h with ⟨-, rfl⟩ | ⟨rfl, -⟩
    · cases hio
    · rfl
  own fd h := by
    rw [start_ios] at h
    by_cases h4 : fd = 4
    · exact h4
    · rw [if_neg h4] at h
      simp [ctrlServer, swiServer] at h
  once := by decide
  only id := by
    constructor
    · intro h
      cases h
      exact ⟨4, rfl⟩
    · rintro ⟨fd, h⟩
      rcases start_heap h with ⟨-, heq⟩ | ⟨rfl, -⟩
      · cases heq
      · rfl

/-! ## One iteration -/

/-- What the event loop over the descriptors `done` has done to a listener. -/
structure Watched (s : State) (t : Turn) (id : Nat) (kind : Kind) (fd : Nat) (done : List Nat) (p : Pass) : Prop where
  sound : Sound p.st
  listener : Listener p.st id kind fd
  busy : ∀ c, s.channel kind = some c → p.st.channel kind = some c
  free : fd ∉ done → s.channel kind = none → p.st.channel kind = none
  removed : id ∈ p.rm ↔ fd ∈ done ∧ ¬ Takes s t kind fd

section
variable {s s' : State} {t : Turn} {id fd : Nat} {kind : Kind}

theorem watched_nil (hs : Sound s) (hl : Listener s id kind fd) : Watched s t id kind fd [] ⟨s, [], []⟩ where
  sound := hs
  listener := hl
  busy _ h := h
  free _ h := h
  removed := by simp

/-- One `process_events` of the event loop. -/
theorem Watched.step (hserver : kind = .controlServer ∨ kind = .switchServer) {done rest : List Nat} {p p' : Pass}
    {fd' : Nat} (hl : Listener s id kind fd) (hall : s.ps = done ++ fd' :: rest) (hp : Watched s t id kind fd done p)
    (h : processEvents hash (s.revents t) p fd' = .ok p') : Watched s t id kind fd (done ++ [fd']) p' := by
  -- the listener is polled once
  have hlast : fd' = fd → fd ∉ done := by
    rintro rfl hdone
    have hcount := hl.once
    rw [hall, List.count_append, List.count_cons_self] at hcount
    have := List.count_pos_iff.mpr hdone
    omega
  obtain ⟨id', hios, ⟨hrev, rfl⟩ | ⟨a, io, isOpen, hrev, hio, hserved, hrm⟩⟩ := processEvents_cases h
  · -- the descriptor cannot be read, so the listener is as it was
    exact { hp with
      free := by
        intro hfd
        exact hp.free (fun hmem => hfd (by simp [hmem]))
      removed := by
        rw [hp.removed, List.mem_append, List.mem_singleton]
        constructor
        · rintro ⟨hdone, hno⟩
          exact ⟨Or.inl hdone, hno⟩
        · rintro ⟨hdone | heq, hno⟩
          · exact ⟨hdone, hno⟩
          · apply absurd _ hno
            intro a ha
            rw [heq, hrev] at ha
            cases ha }
  · have hsound := hp.sound.served hserved
    have hl' := hp.listener.served hp.sound hserver hserved
    have hbusy : ∀ c, s.channel kind = some c → p'.st.channel kind = some c := by
      intro c hc
      exact hserved.channel_some kind (hp.busy c hc)
    by_cases hfd : fd' = fd
    · -- the listener itself is called
      subst hfd
      have hid : id' = id := by
        rw [hp.listener.registered] at hios
        exact (Option.some.inj hios).symm
      rw [hid, hp.listener.live] at hio
      cases hio
      have hnot : id ∉ p.rm := fun hmem => hlast rfl (hp.removed.mp hmem).1
      have hchannel : p.st.channel kind = none ↔ s.channel kind = none := by
        constructor
        · intro hnone
          cases hc : s.channel kind with
          | none => rfl
          | some c =>
              rw [hp.busy c hc] at hnone
              cases hnone
        · exact hp.free (hlast rfl)
      have htakes : Takes s t kind fd' ↔ isOpen = true := by
        rw [hserved.server hserver, hchannel]
        constructor
        · intro h
          exact h a hrev
        · intro h a' ha'
          rw [hrev] at ha'
          cases ha'
          exact h
      refine ⟨hsound, hl', hbusy, fun hno => absurd (by simp) hno, ?_⟩
      rw [mem_rm_iff hrm, htakes, hid, Bool.not_eq_true]
      simp [hnot]
    · -- another handler is called, which is not of the listener's class
      have hid : id' ≠ id := by
        intro heq
        exact hfd (hp.listener.own fd' (heq ▸ hios))
      have hmem : id ∈ p'.rm ↔ id ∈ p.rm := by
        rw [mem_rm_iff hrm]
        simp [hid.symm]
      refine ⟨hsound, hl', hbusy, ?_, ?_⟩
      · intro hdone hnone
        apply hserved.channel_none kind (hp.free (fun hmem => hdone (by simp [hmem])) hnone)
        rintro ⟨hkind, -⟩
        have heq := (hp.listener.only id').mpr ⟨io.fd, by rw [hio, ← hkind]⟩
        exact hid (Option.some.inj heq).symm
      · rw [hmem, hp.removed]
        simp [Ne.symm hfd]

theorem watched_events (hserver : kind = .controlServer ∨ kind = .switchServer) (hs : Sound s)
    (hl : Listener s id kind fd) {p : Pass} (h : events hash s t = .ok p) : Watched s t id kind fd s.ps p :=
  foldlM_invariant (Watched s t id kind fd) (fun _ _ _ _ _ hall hp hstep => hp.step hserver hl hall hstep)
    s.ps [] ⟨s, [], []⟩ p rfl (watched_nil hs hl) h

/-- A handler that is removed is not there afterwards. -/
theorem removeAll_deleted {rm : List Nat} {es : List Effect} (hid : id ∈ rm) (h : removeAll s rm = .ok (s', es)) :
    s'.heap id = none := by
  have hfinal := removeAll_invariant (fun rm s => id ∈ rm ∨ s.heap id = none) ?_ rm s s' es (Or.inl hid) h
  · rcases hfinal with hmem | hnone
    · cases hmem
    · exact hnone
  · rintro id' rm s s' io hcase hrem
    by_cases heq : id = id'
    · rw [hrem.deleted.heap, heq]
      exact Or.inr (Function.update_self _ _ _)
    · rcases hcase with hmem | hnone
      · exact Or.inl ((List.mem_cons.mp hmem).resolve_left heq)
      · rw [hrem.deleted.heap, Function.update_apply, if_neg heq]
        exact Or.inr hnone

/-- **One iteration keeps a listener exactly if the listener can take what it reports.** -/
theorem listener_turn (hserver : kind = .controlServer ∨ kind = .switchServer) (hs : Sound s)
    (hl : Listener s id kind fd) {es : List Effect} (h : turn hash s t = .ok (s', es)) :
    Sound s' ∧ (Takes s t kind fd → Listener s' id kind fd) ∧ (Listening s' id kind fd → Takes s t kind fd) := by
  obtain ⟨p, es', hevents, hremove⟩ := turn_cases h
  have hp := watched_events hserver hs hl hevents
  have hmem : id ∈ t.removals p.rm ↔ ¬ Takes s t kind fd := by
    rw [(removals_perm t p.rm).mem_iff, hp.removed]
    simp [hl.polled]
  refine ⟨?_, ?_, ?_⟩
  · exact removeAll_invariant (fun _ s => Sound s) (fun _ _ _ _ _ hs hrem => hs.removed hrem) _ _ _ _ hp.sound hremove
  · intro htakes
    refine (removeAll_invariant (fun rm s => id ∉ rm ∧ Sound s ∧ Listener s id kind fd) ?_ _ _ _ _
      ⟨fun hrm => hmem.mp hrm htakes, hp.sound, hp.listener⟩ hremove).2.2
    rintro id' rm s s' io ⟨hnot, hs, hl⟩ hrem
    rw [List.mem_cons, not_or] at hnot
    exact ⟨hnot.2, hs.removed hrem, hl.removed hs hserver (Ne.symm hnot.1) hrem⟩
  · intro hlistening
    by_contra hno
    have hdeleted := removeAll_deleted (hmem.mpr hno) hremove
    rw [hlistening.live] at hdeleted
    cases hdeleted

end

/-! ## Runs -/

/-- `main` deletes the two listeners when they are there. -/
theorem finish_ok {s : State} (hctrl : s.heap ctrlServer = some ⟨.controlServer, 3⟩)
    (hswi : s.heap swiServer = some ⟨.switchServer, 4⟩) :
    ∃ s', finish s = .ok s' ∧ s'.heap ctrlServer = none ∧ s'.heap swiServer = none := by
  have hswi' : ((s.close 3).free ctrlServer).heap swiServer = some ⟨.switchServer, 4⟩ := by
    rw [free_heap, Function.update_apply, if_neg (by decide)]
    exact hswi
  refine ⟨(((s.close 3).free ctrlServer).close 4).free swiServer, ?_, ?_, ?_⟩
  · rw [finish, deref_ok.mpr hctrl, ok_bind]
    show (do let swi ← ((s.close 3).free ctrlServer).deref swiServer; _) = _
    rw [deref_ok.mpr hswi']
    rfl
  · simp [Function.update_apply]
  · simp

/-- **The listeners survive exactly the runs in which they take every connection.** In every state between the
    iterations of a run both listeners are registered and `main` can delete them, if and only if every iteration
    that returns is `ConnectionsTaken`. -/
theorem listeners_survive_iff (hash : Json.Text → Nat) (ts : List Turn) :
    (∀ n s es, runAll (turn hash) State.start (ts.take n) = .ok (s, es) → ListenersSurvive s) ↔
    Guarded (turn hash) (fun s t => (∃ r, turn hash s t = .ok r) → ConnectionsTaken s t) State.start ts := by
  refine runAll_good_iff
    (fun s => Sound s ∧ Listener s ctrlServer .controlServer 3 ∧ Listener s swiServer .switchServer 4)
    ListenersSurvive ?_ ?_ ?_ ts State.start ⟨sound_start, listener_start_ctrl, listener_start_swi⟩
  · rintro s ⟨-, hctrl, hswi⟩
    exact ⟨hctrl.toListening, hswi.toListening, finish_ok hctrl.live hswi.live⟩
  · rintro s t s' es ⟨hs, hctrl, hswi⟩ h ⟨htctrl, htswi⟩
    have hc := listener_turn (Or.inl rfl) hs hctrl h
    have hw := listener_turn (Or.inr rfl) hs hswi h
    exact ⟨hc.1, hc.2.1 htctrl, hw.2.1 htswi⟩
  · rintro s t s' es ⟨hs, hctrl, hswi⟩ h ⟨hlctrl, hlswi, -⟩
    exact ⟨(listener_turn (Or.inl rfl) hs hctrl h).2.2 hlctrl, (listener_turn (Or.inr rfl) hs hswi h).2.2 hlswi⟩

/-- A client connects. -/
def clientConnects : Turn := ⟨fun fd => if fd = 3 then some ⟨true, [], [], true⟩ else none, []⟩

/-- A second client makes the control server close itself, and `main` deletes it again. -/
theorem second_client_closes_server : ∃ s es,
    runAll (turn List.length) State.start [clientConnects, clientConnects] = .ok (s, es) ∧ ¬ ListenersSurvive s ∧
      finish s = .error .useAfterFree := by
  refine ⟨_, _, rfl, fun h => ?_, rfl⟩
  have hlive := h.1.live
  cases hlive

end Flowmgr
end Freeflow
