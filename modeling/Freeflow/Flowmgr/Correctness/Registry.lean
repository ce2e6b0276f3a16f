import Freeflow.Flowmgr.Correctness.Handlers
import Mathlib.Data.List.Nodup

/-!
# `Flowmgr.Correctness.Registry` — the handler registry over a run of the main loop

Between two iterations `ps` and `ios` have the same descriptors, each once, and each belongs to a live handler and is
open (`Consistent`), as long as no switch connection ends while a client stays connected: the destructor of the switch
channel closes the client's descriptor and leaves it registered.

## Contents
- `Consistent`, `FindsHandlers`, `TeardownSafe`.
- `Registry`: the invariant, which during the removals leaves out whether the handlers still to be removed are open.
- `Registry.served`, `Registry.removed`: one call and one removal.
- `Passed`: what the event loop has done.
- `registry_turn`, `teardownSafe_of_consistent`: one iteration; `registry_consistent_iff`: every run.
-/

namespace Freeflow
namespace Flowmgr

variable {hash : Json.Text → Nat}

/-! ## A consistent registry -/

/-- `ps` and `ios` contain the same descriptors, each once; each is that of a live handler, and open. -/
structure Consistent (s : State) : Prop where
  same : ∀ fd, fd ∈ s.ps ↔ ∃ id, s.ios fd = some id
  once : s.ps.Nodup
  live : ∀ fd id, s.ios fd = some id → ∃ kind, s.heap id = some ⟨kind, fd⟩
  isOpen : ∀ fd ∈ s.ps, fd ∈ s.openFds

/-- Whenever the event loop calls `process_events`, the registry gives the right handler for each polled descriptor. -/
def FindsHandlers (hash : Json.Text → Nat) (s : State) (t : Turn) : Prop :=
  ∀ n p, (s.ps.take n).foldlM (processEvents hash (s.revents t)) ⟨s, [], []⟩ = .ok p →
    ∀ fd ∈ p.st.ps, ∃ id kind, p.st.ios fd = some id ∧ p.st.heap id = some ⟨kind, fd⟩

/-- A handler of this class can be read in this iteration, with answers that satisfy `P`. -/
def Reports (s : State) (t : Turn) (kind : Kind) (P : Answers → Prop) : Prop :=
  ∃ id fd a, s.heap id = some ⟨kind, fd⟩ ∧ s.revents t fd = some a ∧ P a

/-- If the switch connection ends in this iteration, that of a connected client ends as well, and no client connects. -/
def TeardownSafe (s : State) (t : Turn) : Prop :=
  Reports s t .switchChannel (fun a => hangsUp .switchChannel a = true) →
    (s.ctrl ≠ none → Reports s t .controlChannel (fun a => hangsUp .controlChannel a = true)) ∧
    (s.ctrl = none → ¬ Reports s t .controlServer (fun a => a.accepted = true))

/-! ## The invariant -/

/-- The state of the registry while the handlers in `rm` are still to be removed. -/
structure Registry (rm : List Nat) (s : State) : Prop extends Sound s where
  same : ∀ fd, fd ∈ s.ps ↔ ∃ id, s.ios fd = some id
  once : s.ps.Nodup
  live : ∀ fd id, s.ios fd = some id → ∃ kind, s.heap id = some ⟨kind, fd⟩
  isOpen : ∀ fd id, s.ios fd = some id → id ∉ rm → fd ∈ s.openFds
  registered : ∀ id io, s.heap id = some io → s.ios io.fd = some id

theorem Registry.consistent {s : State} (hs : Registry [] s) : Consistent s where
  same := hs.same
  once := hs.once
  live := hs.live
  isOpen fd hfd := by
    obtain ⟨id, hid⟩ := (hs.same fd).mp hfd
    exact hs.isOpen fd id hid (by simp)

/-- With more to be removed there is less to keep. -/
theorem Registry.mono {rm rm' : List Nat} {s : State} (hs : Registry rm s) (hsub : rm ⊆ rm') : Registry rm' s :=
  { hs with isOpen := fun fd id hid hnot => hs.isOpen fd id hid (fun hmem => hnot (hsub hmem)) }

/-- Two live handlers do not share a descriptor. -/
theorem Registry.fd_inj {rm : List Nat} {s : State} (hs : Registry rm s) {id id' : Nat} {io io' : IoHandler}
    (hid : s.heap id = some io) (hid' : s.heap id' = some io') (hfd : io.fd = io'.fd) : id = id' := by
  have h := hs.registered id io hid
  rw [hfd, hs.registered id' io' hid'] at h
  exact (Option.some.inj h).symm

theorem registry_start : Registry [] State.start where
  toSound := sound_start
  same fd := by
    rw [start_ios]
    show fd ∈ [3, 4] ↔ _
    by_cases h4 : fd = 4
    · simp [h4]
    · by_cases h3 : fd = 3
      · simp [h3]
      · simp [h3, h4]
  once := by decide
  live fd id h := by
    rw [start_ios] at h
    by_cases h4 : fd = 4
    · rw [if_pos h4] at h
      cases h
      exact ⟨.switchServer, h4 ▸ rfl⟩
    · rw [if_neg h4] at h
      by_cases h3 : fd = 3
      · rw [if_pos h3] at h
        cases h
        exact ⟨.controlServer, h3 ▸ rfl⟩
      · rw [if_neg h3] at h
        cases h
  isOpen fd id h _ := by
    rw [start_ios] at h
    show fd ∈ [0, 1, 2, 3, 4]
    by_cases h4 : fd = 4
    · simp [h4]
    · by_cases h3 : fd = 3
      · simp [h3]
      · simp [h3, h4] at h
  registered id io h := by
    rcases start_heap h with ⟨rfl, rfl⟩ | ⟨rfl, rfl⟩ <;> rfl

/-! ## One call -/

/-- A channel is attached for a fresh descriptor. -/
theorem Registry.attached {s s' : State} {kind : Kind} {fd : Nat} (hs : Registry [] s) (hsound : Sound s')
    (h : Attached s kind fd s') : Registry [] s' := by
  have hfree : s.ios fd = none := by
    cases hios : s.ios fd with
    | none => rfl
    | some id => exact absurd (hs.isOpen fd id hios (by simp)) h.unused
  have hios : s'.ios = Function.update s.ios fd (some s.next) := by
    rw [h.ios, hfree]
    rfl
  have hnew := hs.not_next
  -- each fact holds of the old entries as before, and of the new one by the way it was made
  exact {
    toSound := hsound
    same := by
      intro fd'
      rw [h.ps, List.mem_append, List.mem_singleton, hs.same fd', hios]
      by_cases heq : fd' = fd
      · simp [heq]
      · simp [heq]
    once := by
      rw [h.ps, List.nodup_append]
      refine ⟨hs.once, by simp, ?_⟩
      intro a ha b hb heq
      rw [List.mem_singleton] at hb
      obtain ⟨id, hid⟩ := (hs.same a).mp ha
      rw [heq, hb, hfree] at hid
      cases hid
    live := by
      intro fd' id hid
      rw [hios, Function.update_apply] at hid
      rw [h.heap, Function.update_apply]
      by_cases heq : fd' = fd
      · rw [if_pos heq] at hid
        rw [if_pos (Option.some.inj hid).symm, heq]
        exact ⟨kind, rfl⟩
      · rw [if_neg heq] at hid
        obtain ⟨kind', hlive⟩ := hs.live fd' id hid
        have hne : id ≠ s.next := by
          intro hid'
          rw [hid', hnew] at hlive
          cases hlive
        rw [if_neg hne]
        exact ⟨kind', hlive⟩
    isOpen := by
      intro fd' id hid _
      rw [hios, Function.update_apply] at hid
      rw [h.openFds, List.mem_cons]
      by_cases heq : fd' = fd
      · left
        exact heq
      · rw [if_neg heq] at hid
        right
        exact hs.isOpen fd' id hid (by simp)
    registered := by
      intro id io hid
      rw [h.heap, Function.update_apply] at hid
      rw [hios, Function.update_apply]
      by_cases heq : id = s.next
      · rw [if_pos heq] at hid
        cases hid
        rw [if_pos rfl, heq]
      · rw [if_neg heq] at hid
        have hreg := hs.registered id io hid
        have hne : io.fd ≠ fd := by
          intro hfd
          rw [hfd, hfree] at hreg
          cases hreg
        rw [if_neg hne]
        exact hreg }

/-- **One call of `on_input` keeps the registry.** -/
theorem Registry.served {s s' : State} {io : IoHandler} {a : Answers} {b : Bool} (hs : Registry [] s)
    (h : Served io a s s' b) : Registry [] s' := by
  have hsound := hs.toSound.served h
  cases h with
  | read | failed => exact hs
  | refused hacc hbusy =>
      -- the descriptor is open, and nobody has it
      exact { hs with isOpen := fun fd id hid hnot => List.mem_cons_of_mem _ (hs.isOpen fd id hid hnot) }
  | client _ _ _ _ _ hatt => exact hs.attached hsound hatt
  | switch _ _ _ _ _ hatt => exact hs.attached hsound hatt

/-! ## One removal -/

/-- **One removal keeps the registry**, unless it is that of the switch channel with a client that stays. -/
theorem Registry.removed {s s' : State} {id : Nat} {rm : List Nat} {io : IoHandler} (hs : Registry (id :: rm) s)
    (hclient : io.kind = .switchChannel → ∀ c, s.ctrl = some c → c ∈ rm) (h : Removed s id io s') : Registry rm s' := by
  -- only the descriptor of the removed handler was mapped to it
  have hne : ∀ fd id', fd ≠ io.fd → s.ios fd = some id' → id' ≠ id := by
    intro fd id' hfd hios heq
    obtain ⟨kind, hlive⟩ := hs.live fd id' hios
    rw [heq, h.live] at hlive
    cases hlive
    exact hfd rfl
  exact {
    toSound := hs.toSound.removed h
    same := by
      intro fd
      rw [h.ps, hs.once.mem_erase_iff, hs.same fd]
      simp only [h.ios, exists_and_left]
    once := by
      rw [h.ps]
      exact hs.once.erase _
    live := by
      intro fd id' hid'
      obtain ⟨hfd, hios⟩ := (h.ios fd id').mp hid'
      obtain ⟨kind, hlive⟩ := hs.live fd id' hios
      exact ⟨kind, (h.heap id' _).mpr ⟨hne fd id' hfd hios, hlive⟩⟩
    isOpen := by
      intro fd id' hid' hrm
      obtain ⟨hfd, hios⟩ := (h.ios fd id').mp hid'
      have hopen : fd ∈ s.openFds := hs.isOpen fd id' hios (by simp [hne fd id' hfd hios, hrm])
      refine (h.openFds fd).mpr ⟨hopen, hfd, ?_⟩
      -- the client's descriptor is closed as well, but the client is still to be removed
      intro c flowctl hkind hc hflowctl heq
      rw [heq, hs.registered c flowctl hflowctl] at hios
      cases hios
      exact hrm (hclient hkind id' hc)
    registered := by
      intro id' io' hid'
      obtain ⟨hid, hlive⟩ := (h.heap id' io').mp hid'
      have hfd : io'.fd ≠ io.fd := fun heq => hid (hs.fd_inj hlive h.live heq)
      exact (h.ios io'.fd id').mpr ⟨hfd, hs.registered id' io' hlive⟩ }

/-! ## One iteration -/

/-- What the event loop over the descriptors `done` has done to the state `s` of the last `poll`. -/
structure Passed (s : State) (t : Turn) (done : List Nat) (p : Pass) : Prop where
  registry : Registry [] p.st
  ios : ∀ fd id, s.ios fd = some id → p.st.ios fd = some id
  heap : ∀ id io, s.heap id = some io → p.st.heap id = some io
  nodup : p.rm.Nodup
  -- a handler is in the remove set only if it was called, and a channel only if its connection has ended
  called : ∀ id ∈ p.rm, ∃ kind fd a, s.heap id = some ⟨kind, fd⟩ ∧ s.revents t fd = some a ∧
    (kind = .controlChannel ∨ kind = .switchChannel → hangsUp kind a = true)
  -- and every channel whose connection has ended is in it
  complete : ∀ fd ∈ done, ∀ id kind a, s.heap id = some ⟨kind, fd⟩ → s.revents t fd = some a →
    hangsUp kind a = true → id ∈ p.rm
  connected : ∀ c, s.ctrl = some c → p.st.ctrl = some c
  unconnected : s.ctrl = none → ¬ Reports s t .controlServer (fun a => a.accepted = true) → p.st.ctrl = none
  admitted : ∀ fd ∈ done, ∀ id a, s.heap id = some ⟨.controlServer, fd⟩ → s.revents t fd = some a →
    a.accepted = true → p.st.ctrl ≠ none

theorem passed_nil {s : State} (hs : Registry [] s) (t : Turn) : Passed s t [] ⟨s, [], []⟩ where
  registry := hs
  ios _ _ h := h
  heap _ _ h := h
  nodup := List.nodup_nil
  called _ h := absurd h (by simp)
  complete _ h := absurd h (by simp)
  connected _ h := h
  unconnected h _ := h
  admitted _ h := absurd h (by simp)

theorem hangsUp_channel {kind : Kind} {a : Answers} (h : hangsUp kind a = true) :
    kind = .controlChannel ∨ kind = .switchChannel := by
  cases kind with
  | controlChannel => exact Or.inl rfl
  | switchChannel => exact Or.inr rfl
  | controlServer | switchServer => cases h

/-- One `process_events` of the event loop. -/
theorem Passed.step {s : State} {t : Turn} {done : List Nat} {p p' : Pass} {fd : Nat} (hs : Registry [] s)
    (hp : Passed s t done p) (hfd : fd ∈ s.ps) (h : processEvents hash (s.revents t) p fd = .ok p') :
    Passed s t (done ++ [fd]) p' := by
  obtain ⟨id, hios⟩ := (hs.same fd).mp hfd
  obtain ⟨kind, hlive⟩ := hs.live fd id hios
  obtain ⟨id', hios', hcase⟩ := processEvents_cases h
  have hid : id' = id := by
    rw [hp.ios fd id hios] at hios'
    exact (Option.some.inj hios').symm
  subst hid
  rcases hcase with ⟨hrev, rfl⟩ | ⟨a, io, isOpen, hrev, hio, hserved, hrm⟩
  · -- the descriptor cannot be read, so nothing is said about it
    have hdone : ∀ fd' a', fd' ∈ done ++ [fd] → s.revents t fd' = some a' → fd' ∈ done := by
      intro fd' a' hfd' hrev'
      rcases List.mem_append.mp hfd' with hdone | hlast
      · exact hdone
      · rw [List.mem_singleton.mp hlast, hrev] at hrev'
        cases hrev'
    exact { hp with
      complete := by
        intro fd' hfd' j kind' a' hlive' hrev'
        exact hp.complete fd' (hdone fd' a' hfd' hrev') j kind' a' hlive' hrev'
      admitted := by
        intro fd' hfd' j a' hlive' hrev'
        exact hp.admitted fd' (hdone fd' a' hfd' hrev') j a' hlive' hrev' }
  · have hio' : io = ⟨kind, fd⟩ := by
      rw [hp.heap id' _ hlive] at hio
      exact (Option.some.inj hio).symm
    subst hio'
    have hmem := mem_rm_iff hrm
    -- what is said about a handler for the last descriptor is said about the one that was called
    have hcalled : ∀ {j kind' a'}, s.heap j = some ⟨kind', fd⟩ → s.revents t fd = some a' →
        j = id' ∧ kind' = kind ∧ a' = a := by
      intro j kind' a' hj ha'
      have hid := hs.fd_inj hj hlive rfl
      rw [hid, hlive] at hj
      rw [hrev] at ha'
      cases hj
      cases ha'
      exact ⟨hid, rfl, rfl⟩
    exact {
      registry := hp.registry.served hserved
      ios := by
        intro fd' j hj
        exact hserved.ios (hp.ios fd' j hj)
      heap := by
        intro j io hj
        exact hserved.heap hp.registry.not_next (hp.heap j io hj)
      nodup := by
        rw [hrm]
        cases isOpen with
        | true => exact hp.nodup
        | false => exact List.Nodup.insert hp.nodup
      called := by
        intro j hj
        rcases (hmem j).mp hj with hold | ⟨hclosed, hj⟩
        · exact hp.called j hold
        · subst hj
          refine ⟨kind, fd, a, hlive, hrev, ?_⟩
          intro hkind
          have hup := hserved.closes hkind
          rw [hclosed] at hup
          simpa using hup.symm
      complete := by
        intro fd' hfd' j kind' a' hlive' hrev' hup
        apply (hmem j).mpr
        rcases List.mem_append.mp hfd' with hdone | hlast
        · left
          exact hp.complete fd' hdone j kind' a' hlive' hrev' hup
        · rw [List.mem_singleton.mp hlast] at hlive' hrev'
          obtain ⟨hj, hkind, ha⟩ := hcalled hlive' hrev'
          rw [hkind, ha] at hup
          right
          refine ⟨?_, hj⟩
          rw [hserved.closes (hangsUp_channel hup), hup]
          rfl
      connected := by
        intro c hc
        exact hserved.channel_some .controlServer (hp.connected c hc)
      unconnected := by
        intro hnone hno
        apply hserved.channel_none .controlServer (hp.unconnected hnone hno)
        rintro ⟨hkind, hacc⟩
        exact hno ⟨id', fd, a, by rw [hlive, ← hkind], hrev, hacc⟩
      admitted := by
        intro fd' hfd' j a' hlive' hrev' hacc
        rcases List.mem_append.mp hfd' with hdone | hlast
        · obtain ⟨c, hc⟩ := Option.ne_none_iff_exists'.mp (hp.admitted fd' hdone j a' hlive' hrev' hacc)
          have hc' : p'.st.ctrl = some c := hserved.channel_some .controlServer hc
          simp [hc']
        · rw [List.mem_singleton.mp hlast] at hlive' hrev'
          obtain ⟨-, hkind, ha⟩ := hcalled hlive' hrev'
          exact hserved.admits hkind.symm (ha ▸ hacc) }

/-- **What the event loop does**, up to any of its calls of `process_events`. -/
theorem passed_take {s : State} {t : Turn} {p : Pass} (n : Nat) (hs : Registry [] s)
    (h : (s.ps.take n).foldlM (processEvents hash (s.revents t)) ⟨s, [], []⟩ = .ok p) :
    Passed s t (s.ps.take n) p := by
  refine foldlM_invariant (Passed s t) ?_ (s.ps.take n) [] ⟨s, [], []⟩ p rfl (passed_nil hs t) h
  intro done fd rest q q' hall hq hstep
  have hfd : fd ∈ s.ps.take n := by simp [hall]
  exact hq.step hs (List.mem_of_mem_take hfd) hstep

theorem passed_events {s : State} {t : Turn} {p : Pass} (hs : Registry [] s) (h : events hash s t = .ok p) :
    Passed s t s.ps p := by
  have htake : (s.ps.take s.ps.length).foldlM (processEvents hash (s.revents t)) ⟨s, [], []⟩ = .ok p := by
    rw [List.take_length]
    exact h
  have hp := passed_take s.ps.length hs htake
  rwa [List.take_length] at hp

/-- **Every lookup of the event loop finds the right handler.** -/
theorem Registry.findsHandlers {s : State} (hs : Registry [] s) (t : Turn) : FindsHandlers hash s t := by
  intro n p h fd hfd
  have hp := (passed_take n hs h).registry
  obtain ⟨id, hid⟩ := (hp.same fd).mp hfd
  obtain ⟨kind, hlive⟩ := hp.live fd id hid
  exact ⟨id, kind, hid, hlive⟩

/-- With the client, if there is one, about to be removed, the removal of the switch channel does no harm. -/
theorem registry_removeAll {s s' : State} {rm : List Nat} {es : List Effect} (hs : Registry rm s)
    (hclient : ∀ w ∈ rm, s.switch = some w → ∀ c, s.ctrl = some c → c ∈ rm)
    (h : removeAll s rm = .ok (s', es)) : Registry [] s' := by
  refine (removeAll_invariant (fun rm s => Registry rm s ∧
    ∀ w ∈ rm, s.switch = some w → ∀ c, s.ctrl = some c → c ∈ rm) ?_ rm s s' es ⟨hs, hclient⟩ h).1
  rintro id rm s s' io ⟨hs, hclient⟩ hrem
  -- a client that is not the handler just removed is still to be removed
  have hkeep : ∀ c, io.kind ≠ .controlChannel → s.ctrl = some c → c ∈ id :: rm → c ∈ rm := by
    intro c hkind hc hmem
    rcases List.mem_cons.mp hmem with heq | hmem
    · obtain ⟨fd, hlive⟩ := (hs.ctrl c).mp hc
      rw [heq, hrem.live] at hlive
      cases hlive
      exact absurd rfl hkind
    · exact hmem
  constructor
  · apply hs.removed ?_ hrem
    intro hkind c hc
    have hid : s.switch = some id := (hs.switch id).mpr ⟨io.fd, by rw [hrem.live, ← hkind]⟩
    exact hkeep c (by simp [hkind]) hc (hclient id (by simp) hid c hc)
  · intro w hw hswitch c hc
    obtain ⟨-, hw'⟩ := (hrem.switch w).mp hswitch
    obtain ⟨hkind, hc'⟩ := (hrem.ctrl c).mp hc
    exact hkeep c hkind hc' (hclient w (List.mem_cons_of_mem id hw) hw' c hc')

/-- **One iteration keeps the registry.** -/
theorem registry_turn {s s' : State} {t : Turn} {es : List Effect} (hs : Registry [] s) (hsafe : TeardownSafe s t)
    (h : turn hash s t = .ok (s', es)) : Registry [] s' := by
  obtain ⟨p, es', hevents, hremove⟩ := turn_cases h
  have hp := passed_events hs hevents
  have hperm := removals_perm t p.rm
  apply registry_removeAll (hp.registry.mono (by simp)) ?_ hremove
  -- the switch channel is to be removed, so its connection has ended
  intro w hw hswitch c hc
  obtain ⟨kind, fd, a, hlive, hrev, hup⟩ := hp.called w (hperm.mem_iff.mp hw)
  obtain ⟨fd', hlive'⟩ := (hp.registry.switch w).mp hswitch
  rw [hp.heap w _ hlive] at hlive'
  cases hlive'
  obtain ⟨hconnected, hunconnected⟩ := hsafe ⟨w, fd, a, hlive, hrev, hup (Or.inr rfl)⟩
  apply hperm.mem_iff.mpr
  cases hctrl : s.ctrl with
  | some c' =>
      -- the client's connection has ended too
      have hcc : c = c' := by
        rw [hp.connected c' hctrl] at hc
        exact (Option.some.inj hc).symm
      obtain ⟨id, fd', a', hlive', hrev', hup'⟩ := hconnected (by simp [hctrl])
      have hid : id = c := by
        have := (hs.ctrl id).mpr ⟨fd', hlive'⟩
        rw [hctrl] at this
        rw [hcc, Option.some.inj this]
      have hpolled : fd' ∈ s.ps := (hs.same fd').mpr ⟨id, hs.registered id _ hlive'⟩
      exact hid ▸ hp.complete fd' hpolled id _ a' hlive' hrev' hup'
  | none =>
      -- and no client has come in meanwhile
      rw [hp.unconnected hctrl (hunconnected hctrl)] at hc
      cases hc

/-- A client that stays connected while the switch channel is removed ends up with a closed descriptor. -/
theorem client_left_closed {s s' : State} {rm : List Nat} {es : List Effect} {w c wfd fd : Nat}
    (hs : Registry (c :: rm) s) (hnodup : rm.Nodup) (hnot : c ∉ rm) (hw : w ∈ rm)
    (hswitch : s.heap w = some ⟨.switchChannel, wfd⟩) (hclient : s.heap c = some ⟨.controlChannel, fd⟩)
    (h : removeAll s rm = .ok (s', es)) : ¬ Consistent s' := by
  -- the client itself is kept out of what must be open
  have hfinal := removeAll_invariant (fun rm s => Registry (c :: rm) s ∧ rm.Nodup ∧ c ∉ rm ∧
    s.heap c = some ⟨.controlChannel, fd⟩ ∧
    (w ∈ rm ∧ s.heap w = some ⟨.switchChannel, wfd⟩ ∨ fd ∉ s.openFds)) ?_ rm s s' es
    ⟨hs, hnodup, hnot, hclient, Or.inl ⟨hw, hswitch⟩⟩ h
  · obtain ⟨hs', -, -, hclient', hw' | hclosed⟩ := hfinal
    · exact absurd hw'.1 (by simp)
    · intro hcons
      exact hclosed (hcons.isOpen fd ((hcons.same fd).mpr ⟨c, hs'.registered c _ hclient'⟩))
  · rintro id rm s s' io ⟨hs, hnodup, hnot, hclient, hcase⟩ hrem
    obtain ⟨hid, hnodup'⟩ := List.nodup_cons.mp hnodup
    have hne : c ≠ id := fun heq => hnot (by simp [heq])
    have hctrl : s.ctrl = some c := (hs.ctrl c).mpr ⟨fd, hclient⟩
    refine ⟨?_, hnodup', fun hmem => hnot (List.mem_cons_of_mem id hmem), (hrem.heap c _).mpr ⟨hne, hclient⟩, ?_⟩
    · apply Registry.removed (hs.mono ?_) ?_ hrem
      · intro j hj
        simpa [or_left_comm] using hj
      · intro _ c' hc'
        rw [hctrl] at hc'
        simp [Option.some.inj hc']
    · rcases hcase with ⟨hw, hswitch⟩ | hclosed
      · rcases List.mem_cons.mp hw with rfl | hmem
        · right
          intro hopen
          rw [hrem.live] at hswitch
          cases hswitch
          exact ((hrem.openFds fd).mp hopen).2.2 c _ rfl hctrl hclient rfl
        · left
          refine ⟨hmem, (hrem.heap w _).mpr ⟨?_, hswitch⟩⟩
          intro heq
          exact hid (heq ▸ hmem)
      · right
        intro hopen
        exact hclosed ((hrem.openFds fd).mp hopen).1

/-- **An iteration that leaves the registry consistent was safe.** -/
theorem teardownSafe_of_consistent {s s' : State} {t : Turn} {es : List Effect} (hs : Registry [] s)
    (h : turn hash s t = .ok (s', es)) (hcons : Consistent s') : TeardownSafe s t := by
  obtain ⟨p, es', hevents, hremove⟩ := turn_cases h
  have hp := passed_events hs hevents
  have hperm := removals_perm t p.rm
  rintro ⟨w, wfd, a, hlive, hrev, hup⟩
  have hpolled : ∀ {id kind fd}, s.heap id = some ⟨kind, fd⟩ → fd ∈ s.ps := fun hio =>
    (hs.same _).mpr ⟨_, hs.registered _ _ hio⟩
  have hw := hp.complete wfd (hpolled hlive) w _ a hlive hrev hup
  -- whoever is the client at the end of the event loop is removed too
  have hclient : ∀ c, p.st.ctrl = some c → c ∈ p.rm := by
    intro c hc
    by_contra hnot
    obtain ⟨fd, hc⟩ := (hp.registry.ctrl c).mp hc
    exact client_left_closed (hp.registry.mono (by simp)) (hperm.nodup_iff.mpr hp.nodup)
      (fun hmem => hnot (hperm.mem_iff.mp hmem)) (hperm.mem_iff.mpr hw) (hp.heap w _ hlive) hc hremove hcons
  have hended : ∀ c, p.st.ctrl = some c → s.ctrl = some c ∧
      Reports s t .controlChannel (fun a => hangsUp .controlChannel a = true) := by
    intro c hc
    obtain ⟨kind, fd, a', hlive', hrev', hup'⟩ := hp.called c (hclient c hc)
    obtain ⟨fd', hc'⟩ := (hp.registry.ctrl c).mp hc
    rw [hp.heap c _ hlive'] at hc'
    cases hc'
    exact ⟨(hs.ctrl c).mpr ⟨fd, hlive'⟩, c, fd, a', hlive', hrev', hup' (Or.inl rfl)⟩
  constructor
  · intro hctrl
    obtain ⟨c, hc⟩ := Option.ne_none_iff_exists'.mp hctrl
    exact (hended c (hp.connected c hc)).2
  · rintro hctrl ⟨id, fd, a', hserver, hrev', hacc⟩
    obtain ⟨c, hc⟩ := Option.ne_none_iff_exists'.mp (hp.admitted fd (hpolled hserver) id a' hserver hrev' hacc)
    rw [(hended c hc).1] at hctrl
    cases hctrl

/-- **The registry stays consistent exactly when every teardown is safe.** In every state between the iterations
    of a run the registry is consistent, and an iteration finds the right handler for every descriptor, if and only
    if every iteration that returns is `TeardownSafe`. -/
theorem registry_consistent_iff (hash : Json.Text → Nat) (ts : List Turn) :
    (∀ n s es, runAll (turn hash) State.start (ts.take n) = .ok (s, es) →
      Consistent s ∧ ∀ t, FindsHandlers hash s t) ↔
    Guarded (turn hash) (fun s t => (∃ r, turn hash s t = .ok r) → TeardownSafe s t) State.start ts :=
  runAll_good_iff (Registry []) (fun s => Consistent s ∧ ∀ t, FindsHandlers hash s t)
    (fun _ hs => ⟨hs.consistent, hs.findsHandlers⟩)
    (fun _ _ _ _ hs h hsafe => registry_turn hs hsafe h)
    (fun _ _ _ _ hs h hgood => teardownSafe_of_consistent hs h hgood.1) ts State.start registry_start

/-- A client and a switch connect at once. -/
def bothConnect : Turn := ⟨fun fd => if fd = 3 ∨ fd = 4 then some ⟨true, [0], [], true⟩ else none, []⟩

/-- The connection with the descriptor `fd` ends. -/
def hangUp (fd : Nat) : Turn := ⟨fun fd' => if fd' = fd then some ⟨false, [], [], true⟩ else none, []⟩

/-- The switch goes away while a client is connected: its descriptor 5 is closed and stays registered. -/
theorem switch_shutdown_leaves_client : ∃ s es,
    runAll (turn List.length) State.start [bothConnect, hangUp 6] = .ok (s, es) ∧ ¬ Consistent s := by
  refine ⟨_, _, rfl, fun h => ?_⟩
  have hopen := h.isOpen 5 (by decide)
  revert hopen
  decide

end Flowmgr
end Freeflow
