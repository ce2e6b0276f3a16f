import Freeflow.Flowmgr.Loop
import Freeflow.Flowmgr.Correctness.Outcome
import Mathlib.Data.List.Perm.Basic

/-!
# `Flowmgr.Correctness.Handlers` — what one call can do

One inversion lemma for each operation of the loop: a call of `on_input` (`Served`), of `unregister_handler`
(`Removed`), of `process_events`, and one iteration as its event loop and its removals. Everything that is proved
about runs of the main loop goes through these.

## Contents
- `lowestUnused_not_mem`, `mem_close`.
- `Attached`, `Served`, `onInput_served`.
- `Removed`, `unregisterHandler_removed`, `removeAll_invariant`.
- `processEvents_cases`, `lookups_eq`, `turn_cases`.
- `Points`, `Sound`: what holds in every reachable state.
-/

namespace Freeflow
namespace Flowmgr

open Flowpath (Received messageLen)

/-! ## Descriptors -/

theorem lowestUnused_not_mem (fds : List Nat) : lowestUnused fds ∉ fds := by
  unfold lowestUnused
  cases hfind : (List.range (fds.length + 1)).find? (fun fd => fd ∉ fds) with
  | some fd => simpa using List.find?_some hfind
  | none =>
      -- one descriptor of `length + 1` many is missing from the list
      rw [List.find?_eq_none] at hfind
      have hsub : List.range (fds.length + 1) ⊆ fds := by
        intro fd hfd
        simpa using hfind fd hfd
      have hle := (List.subperm_of_subset List.nodup_range hsub).length_le
      rw [List.length_range] at hle
      exact absurd hle (Nat.not_succ_le_self _)

section
variable (s : State) (id fd : Nat)

@[simp] theorem mem_close (fd' : Nat) : fd' ∈ (s.close fd).openFds ↔ fd' ∈ s.openFds ∧ fd' ≠ fd := by
  simp [State.close]

@[simp] theorem close_heap : (s.close fd).heap = s.heap := rfl
@[simp] theorem close_next : (s.close fd).next = s.next := rfl
@[simp] theorem close_ios : (s.close fd).ios = s.ios := rfl
@[simp] theorem close_ps : (s.close fd).ps = s.ps := rfl
@[simp] theorem close_ctrl : (s.close fd).ctrl = s.ctrl := rfl
@[simp] theorem close_switch : (s.close fd).switch = s.switch := rfl

@[simp] theorem free_openFds : (s.free id).openFds = s.openFds := rfl
@[simp] theorem free_heap : (s.free id).heap = Function.update s.heap id none := rfl
@[simp] theorem free_next : (s.free id).next = s.next := rfl
@[simp] theorem free_ios : (s.free id).ios = s.ios := rfl
@[simp] theorem free_ps : (s.free id).ps = s.ps := rfl
@[simp] theorem free_ctrl : (s.free id).ctrl = s.ctrl := rfl
@[simp] theorem free_switch : (s.free id).switch = s.switch := rfl

end

/-! ## `on_input` -/

/-- A server has accepted a connection as `fd`, and a channel for it was created and registered. -/
structure Attached (s : State) (kind : Kind) (fd : Nat) (s' : State) : Prop where
  unused : fd ∉ s.openFds
  openFds : s'.openFds = fd :: s.openFds
  heap : s'.heap = Function.update s.heap s.next (some ⟨kind, fd⟩)
  next : s'.next = s.next + 1
  ios : s'.ios = if (s.ios fd).isSome then s.ios else Function.update s.ios fd (some s.next)
  ps : s'.ps = s.ps ++ [fd]

/-- The registration of the new channel leaves the other entries of `ios` as they are. -/
theorem Attached.ios_cases {s s' : State} {kind : Kind} {fd : Nat} (h : Attached s kind fd s') (fd' id : Nat) :
    s'.ios fd' = some id ↔ s.ios fd' = some id ∨ s.ios fd = none ∧ fd' = fd ∧ id = s.next := by
  rw [h.ios]
  cases hfd : s.ios fd with
  | some id' => simp
  | none =>
      rw [Option.isSome_none, if_neg (by simp), Function.update_apply]
      by_cases heq : fd' = fd
      · simp [heq, hfd, eq_comm]
      · simp [heq]

/-- The `recv` of a channel of this class ends its connection. -/
def hangsUp (kind : Kind) (a : Answers) : Bool :=
  match kind with
  | .controlChannel => a.ends
  | .switchChannel => a.chunk.isEmpty
  | .controlServer | .switchServer => false

/-- The channel that a server of this class has let in. -/
def State.channel (s : State) (kind : Kind) : Option Nat :=
  match kind with
  | .controlServer => s.ctrl
  | .switchServer => s.switch
  | .controlChannel | .switchChannel => none

/-- What `on_input` of `io` can do to the state, and whether it returns true. -/
inductive Served (io : IoHandler) (a : Answers) (s : State) : State → Bool → Prop
  | read (hkind : io.kind = .controlChannel ∨ io.kind = .switchChannel) : Served io a s s (!hangsUp io.kind a)
  | failed (hkind : io.kind = .controlServer ∨ io.kind = .switchServer) (hacc : a.accepted = false) :
      Served io a s s false
  | refused (hacc : a.accepted = true)
      (hbusy : io.kind = .controlServer ∧ s.ctrl ≠ none ∨ io.kind = .switchServer ∧ s.switch ≠ none) :
      Served io a s s.accept false
  | client (s' : State) (fd : Nat) (hkind : io.kind = .controlServer) (hacc : a.accepted = true)
      (hfree : s.ctrl = none) (hatt : Attached s .controlChannel fd s') (hctrl : s'.ctrl = some s.next)
      (hswitch : s'.switch = s.switch) : Served io a s s' true
  | switch (s' : State) (fd : Nat) (hkind : io.kind = .switchServer) (hacc : a.accepted = true)
      (hfree : s.switch = none) (hatt : Attached s .switchChannel fd s') (hctrl : s'.ctrl = s.ctrl)
      (hswitch : s'.switch = some s.next) : Served io a s s' true

variable {hash : Json.Text → Nat}

/-- `request` keeps the channel open. -/
theorem request_open {sw : Link} {buf : Json.Text} {b : Bool} {es es' : List Event}
    (h : request hash sw buf es = .ok b es') : b = true := by
  unfold request at h
  cases hparse : Json.parse buf with
  | value json rest n =>
      rw [hparse] at h
      change (process hash sw json >>= fun _ => pure true) es = .ok b es' at h
      cases hproc : process hash sw json es with
      | ok u es'' =>
          rw [Traced.bind_run hproc] at h
          cases h
          rfl
      | error f es'' =>
          rw [Traced.bind_run_error hproc] at h
          cases h
  | thrown what rest n =>
      rw [hparse] at h
      cases h
  | overrun =>
      rw [hparse] at h
      cases h
  | outOfFuel =>
      rw [hparse] at h
      cases h

/-- What a server does, for the class and the global of its channel. -/
theorem serverOnInput_cases (kind : Kind) (current : Option Nat) (a : Answers) (s : State) :
    (a.accepted = false ∧ serverOnInput kind current a s = (s, false)) ∨
    (a.accepted = true ∧ current ≠ none ∧ serverOnInput kind current a s = (s.accept, false)) ∨
    (a.accepted = true ∧ current = none ∧
      serverOnInput kind current a s = (s.accept.attach kind (lowestUnused s.openFds), true)) := by
  unfold serverOnInput
  cases hacc : a.accepted with
  | false => exact Or.inl ⟨rfl, rfl⟩
  | true =>
      cases current with
      | some c => exact Or.inr (Or.inl ⟨rfl, by simp, rfl⟩)
      | none => exact Or.inr (Or.inr ⟨rfl, rfl, rfl⟩)

/-- The fields that the attaching of a channel changes; the two globals are set apart. -/
theorem attached_accept (s : State) (kind : Kind) (ctrl switch : Option Nat) :
    Attached s kind (lowestUnused s.openFds)
      { s.accept.attach kind (lowestUnused s.openFds) with ctrl := ctrl, switch := switch } where
  unused := lowestUnused_not_mem s.openFds
  openFds := rfl
  heap := rfl
  next := rfl
  ios := rfl
  ps := rfl

theorem controlServerOnInput_served {io : IoHandler} (hkind : io.kind = .controlServer) (a : Answers) (s : State) :
    Served io a s (controlServerOnInput a s).1 (controlServerOnInput a s).2.1 := by
  unfold controlServerOnInput
  rcases serverOnInput_cases .controlChannel s.ctrl a s with ⟨hacc, heq⟩ | ⟨hacc, hbusy, heq⟩ | ⟨hacc, hfree, heq⟩
  · rw [heq]
    exact Served.failed (Or.inl hkind) hacc
  · rw [heq]
    exact Served.refused hacc (Or.inl ⟨hkind, hbusy⟩)
  · rw [heq]
    exact Served.client _ (lowestUnused s.openFds) hkind hacc hfree (attached_accept s _ _ _) rfl rfl

theorem switchServerOnInput_served {io : IoHandler} (hkind : io.kind = .switchServer) (a : Answers) (s : State) :
    Served io a s (switchServerOnInput a s).1 (switchServerOnInput a s).2.1 := by
  unfold switchServerOnInput
  rcases serverOnInput_cases .switchChannel s.switch a s with ⟨hacc, heq⟩ | ⟨hacc, hbusy, heq⟩ | ⟨hacc, hfree, heq⟩
  · rw [heq]
    exact Served.failed (Or.inr hkind) hacc
  · rw [heq]
    exact Served.refused hacc (Or.inr ⟨hkind, hbusy⟩)
  · rw [heq]
    exact Served.switch _ (lowestUnused s.openFds) hkind hacc hfree (attached_accept s _ _ _) rfl rfl

theorem controlChannelOnInput_cases {c : Nat} {a : Answers} {s s' : State} {isOpen : Bool} {es : List Effect}
    (h : controlChannelOnInput hash c a s = .ok (s', isOpen, es)) : s' = s ∧ isOpen = !a.ends := by
  unfold controlChannelOnInput at h
  cases hends : a.ends with
  | true =>
      rw [hends, if_pos rfl] at h
      cases h
      exact ⟨rfl, rfl⟩
  | false =>
      rw [hends, if_neg (by simp)] at h
      cases hreq : request hash (s.link a) (a.chunk.take bufsize) [] with
      | ok b events =>
          rw [hreq] at h
          cases h
          exact ⟨rfl, request_open hreq⟩
      | error f events =>
          rw [hreq] at h
          cases h

/-- A reply goes to the control channel of the moment. -/
theorem switchChannelOnInput_cases {a : Answers} {s s' : State} {isOpen : Bool} {es : List Effect}
    (h : switchChannelOnInput a s = .ok (s', isOpen, es)) : s' = s ∧ isOpen = !a.chunk.isEmpty := by
  cases hchunk : a.chunk with
  | nil =>
      rw [switchChannelOnInput, hchunk] at h
      cases h
      exact ⟨rfl, rfl⟩
  | cons b bytes =>
      have hne : a.chunk.take messageLen ≠ [] := by simp [hchunk, messageLen]
      cases hctrl : s.ctrl with
      | none =>
          rw [switchChannelOnInput, hctrl, switchOnInput, if_neg hne] at h
          cases h
      | some c =>
          rw [switchChannelOnInput, hctrl, switchOnInput, if_neg hne, Option.isSome_some, if_pos rfl, ok_bind] at h
          obtain ⟨flowctl, -, heq⟩ := bind_eq_ok h
          cases heq
          exact ⟨rfl, rfl⟩

/-- **What one `on_input` can do.** -/
theorem onInput_served {id : Nat} {io : IoHandler} {a : Answers} {s s' : State} {isOpen : Bool} {es : List Effect}
    (h : onInput hash id io a s = .ok (s', isOpen, es)) : Served io a s s' isOpen := by
  unfold onInput at h
  cases hkind : io.kind with
  | controlServer =>
      rw [hkind] at h
      have hserved := controlServerOnInput_served hkind a s
      rw [Except.ok.inj h] at hserved
      exact hserved
  | switchServer =>
      rw [hkind] at h
      have hserved := switchServerOnInput_served hkind a s
      rw [Except.ok.inj h] at hserved
      exact hserved
  | controlChannel =>
      rw [hkind] at h
      obtain ⟨rfl, rfl⟩ := controlChannelOnInput_cases h
      have hserved := Served.read (a := a) (s := s') (Or.inl hkind)
      rwa [hkind] at hserved
  | switchChannel =>
      rw [hkind] at h
      obtain ⟨rfl, rfl⟩ := switchChannelOnInput_cases h
      have hserved := Served.read (a := a) (s := s') (Or.inr hkind)
      rwa [hkind] at hserved

section
variable {io : IoHandler} {a : Answers} {s s' : State} {b : Bool}

/-- A channel stays if and only if its connection does. -/
theorem Served.closes (h : Served io a s s' b) (hkind : io.kind = .controlChannel ∨ io.kind = .switchChannel) :
    b = !hangsUp io.kind a := by
  cases h with
  | read => rfl
  | failed hserver => rcases hkind with hk | hk <;> rw [hk] at hserver <;> simp at hserver
  | refused _ hbusy => rcases hkind with hk | hk <;> rw [hk] at hbusy <;> simp at hbusy
  | client _ _ hserver => rcases hkind with hk | hk <;> rw [hk] at hserver <;> cases hserver
  | switch _ _ hserver => rcases hkind with hk | hk <;> rw [hk] at hserver <;> cases hserver

/-- An entry of `ios` is never overwritten. -/
theorem Served.ios (h : Served io a s s' b) {fd id : Nat} (hid : s.ios fd = some id) : s'.ios fd = some id := by
  cases h with
  | read | failed | refused => exact hid
  | client _ _ _ _ _ hatt => exact (hatt.ios_cases fd id).mpr (Or.inl hid)
  | switch _ _ _ _ _ hatt => exact (hatt.ios_cases fd id).mpr (Or.inl hid)

/-- Live handlers stay where they are. -/
theorem Served.heap (h : Served io a s s' b) (hnew : s.heap s.next = none) {id : Nat} {io' : IoHandler}
    (hid : s.heap id = some io') : s'.heap id = some io' := by
  have hne : id ≠ s.next := by
    rintro rfl
    rw [hnew] at hid
    cases hid
  cases h with
  | read | failed | refused => exact hid
  | client _ fd' _ _ _ h => rw [h.heap, Function.update_apply, if_neg hne, hid]
  | switch _ fd' _ _ _ h => rw [h.heap, Function.update_apply, if_neg hne, hid]

/-- A server stays if and only if it takes the connection. -/
theorem Served.server (h : Served io a s s' b) (hkind : io.kind = .controlServer ∨ io.kind = .switchServer) :
    b = true ↔ a.accepted = true ∧ s.channel io.kind = none := by
  cases h with
  | read hchannel => rcases hkind with hk | hk <;> rw [hk] at hchannel <;> simp at hchannel
  | failed _ hacc => simp [hacc]
  | refused _ hbusy =>
      rcases hbusy with ⟨hk, hbusy⟩ | ⟨hk, hbusy⟩ <;> simp [State.channel, hk, hbusy]
  | client _ _ hk hacc hfree => simp [State.channel, hk, hacc, hfree]
  | switch _ _ hk hacc hfree => simp [State.channel, hk, hacc, hfree]

/-- A connected channel stays connected. -/
theorem Served.channel_some (h : Served io a s s' b) (kind : Kind) {c : Nat} (hc : s.channel kind = some c) :
    s'.channel kind = some c := by
  cases h with
  | read | failed | refused => exact hc
  | client _ _ _ _ hfree _ hctrl hswitch => cases kind <;> simp_all [State.channel]
  | switch _ _ _ _ hfree _ hctrl hswitch => cases kind <;> simp_all [State.channel]

/-- When the control server accepts, a client is connected afterwards, the new one or an earlier one. -/
theorem Served.admits (h : Served io a s s' b) (hkind : io.kind = .controlServer) (hacc : a.accepted = true) :
    s'.ctrl ≠ none := by
  cases h with
  | read hchannel => rcases hchannel with hk | hk <;> rw [hkind] at hk <;> cases hk
  | failed _ hnot =>
      rw [hacc] at hnot
      cases hnot
  | refused _ hbusy =>
      rcases hbusy with ⟨-, hbusy⟩ | ⟨hk, -⟩
      · exact hbusy
      · rw [hkind] at hk
        cases hk
  | client _ _ _ _ _ _ hctrl => simp [hctrl]
  | switch _ _ hk =>
      rw [hkind] at hk
      cases hk

/-- Only the server of its class lets a channel in. -/
theorem Served.channel_none (h : Served io a s s' b) (kind : Kind) (hc : s.channel kind = none)
    (hno : ¬ (io.kind = kind ∧ a.accepted = true)) : s'.channel kind = none := by
  cases h with
  | read | failed | refused => exact hc
  | client _ _ hk hacc _ _ hctrl hswitch => cases kind <;> simp_all [State.channel]
  | switch _ _ hk hacc _ _ hctrl hswitch => cases kind <;> simp_all [State.channel]

end

/-! ## Removal -/

theorem deref_ok {s : State} {id : Nat} {io : IoHandler} : s.deref id = .ok io ↔ s.heap id = some io := by
  unfold State.deref
  cases s.heap id <;> simp

/-- `delete` of the handler `io` at `id`. That of the switch channel also closes the descriptor of the connected
    client. -/
structure Destroyed (s : State) (id : Nat) (io : IoHandler) (s' : State) : Prop where
  heap : s'.heap = Function.update s.heap id none
  next : s'.next = s.next
  ios : s'.ios = s.ios
  ps : s'.ps = s.ps
  ctrl : s'.ctrl = if io.kind = .controlChannel then none else s.ctrl
  switch : s'.switch = if io.kind = .switchChannel then none else s.switch
  openFds : ∀ fd, fd ∈ s'.openFds ↔ fd ∈ s.openFds ∧ fd ≠ io.fd ∧
    ∀ c flowctl, io.kind = .switchChannel → s.ctrl = some c → s.heap c = some flowctl → fd ≠ flowctl.fd

theorem destroy_destroyed {s s' : State} {id : Nat} {io : IoHandler} {es : List Effect}
    (h : destroy s id io = .ok (s', es)) : Destroyed s id io s' := by
  unfold destroy at h
  cases hkind : io.kind with
  | controlServer =>
      rw [hkind] at h
      cases h
      constructor <;> simp [hkind]
  | switchServer =>
      rw [hkind] at h
      cases h
      constructor <;> simp [hkind]
  | controlChannel =>
      rw [hkind] at h
      cases h
      constructor <;> simp [hkind]
  | switchChannel =>
      rw [hkind] at h
      cases hctrl : s.ctrl with
      | none =>
          simp only [hctrl] at h
          cases h
          constructor <;> simp [hkind, hctrl]
      | some c =>
          simp only [hctrl] at h
          obtain ⟨flowctl, hflowctl, heq⟩ := bind_eq_ok h
          have hc := deref_ok.mp hflowctl
          cases heq
          constructor <;> simp [hkind, hctrl, and_assoc]
          intro fd _ _
          constructor
          · rintro hne c' flowctl' rfl hc'
            rw [hc] at hc'
            cases hc'
            exact hne
          · intro hne
            exact hne c flowctl rfl hc

/-- `unregister_handler` has taken out the handler `io` at `id` and deleted it. -/
structure Removed (s : State) (id : Nat) (io : IoHandler) (s' : State) : Prop where
  live : s.heap id = some io
  polled : io.fd ∈ s.ps
  deleted : Destroyed { s with ios := Function.update s.ios io.fd none, ps := s.ps.erase io.fd } id io s'

section
variable {s s' : State} {id : Nat} {io : IoHandler}

theorem Removed.heap (h : Removed s id io s') (id' : Nat) (io' : IoHandler) :
    s'.heap id' = some io' ↔ id' ≠ id ∧ s.heap id' = some io' := by
  rw [h.deleted.heap, Function.update_apply]
  by_cases heq : id' = id <;> simp [heq]

theorem Removed.ios (h : Removed s id io s') (fd id' : Nat) :
    s'.ios fd = some id' ↔ fd ≠ io.fd ∧ s.ios fd = some id' := by
  rw [h.deleted.ios]
  show Function.update s.ios io.fd none fd = some id' ↔ _
  rw [Function.update_apply]
  by_cases heq : fd = io.fd <;> simp [heq]

theorem Removed.ps (h : Removed s id io s') : s'.ps = s.ps.erase io.fd := h.deleted.ps

theorem Removed.ctrl (h : Removed s id io s') (c : Nat) :
    s'.ctrl = some c ↔ io.kind ≠ .controlChannel ∧ s.ctrl = some c := by
  rw [h.deleted.ctrl]
  by_cases heq : io.kind = .controlChannel <;> simp [heq]

theorem Removed.switch (h : Removed s id io s') (w : Nat) :
    s'.switch = some w ↔ io.kind ≠ .switchChannel ∧ s.switch = some w := by
  rw [h.deleted.switch]
  by_cases heq : io.kind = .switchChannel <;> simp [heq]

theorem Removed.openFds (h : Removed s id io s') (fd : Nat) : fd ∈ s'.openFds ↔ fd ∈ s.openFds ∧ fd ≠ io.fd ∧
    ∀ c flowctl, io.kind = .switchChannel → s.ctrl = some c → s.heap c = some flowctl → fd ≠ flowctl.fd :=
  h.deleted.openFds fd

end

/-- **What one removal can do.** -/
theorem unregisterHandler_removed {s s' : State} {id : Nat} {es : List Effect}
    (h : unregisterHandler s id = .ok (s', es)) : ∃ io, Removed s id io s' := by
  obtain ⟨io, hio, hrest⟩ := bind_eq_ok h
  by_cases hpolled : io.fd ∈ s.ps
  · rw [if_pos hpolled] at hrest
    exact ⟨io, deref_ok.mp hio, hpolled, destroy_destroyed hrest⟩
  · rw [if_neg hpolled] at hrest
    cases hrest

/-- The rule for the removal loop, with an invariant about what is still to be removed. -/
theorem removeAll_invariant (inv : List Nat → State → Prop)
    (hstep : ∀ id rm s s' io, inv (id :: rm) s → Removed s id io s' → inv rm s') :
    ∀ (rm : List Nat) (s s' : State) (es : List Effect), inv rm s → removeAll s rm = .ok (s', es) → inv [] s'
  | [], s, s', es, hs, h => by
      cases h
      exact hs
  | id :: rm, s, s', es, hs, h => by
      obtain ⟨⟨s₁, es₁⟩, hstep₁, hrest⟩ := bind_eq_ok h
      obtain ⟨⟨s₂, es₂⟩, hrun, heq⟩ := bind_eq_ok hrest
      obtain ⟨io, hio⟩ := unregisterHandler_removed hstep₁
      cases heq
      exact removeAll_invariant inv hstep rm s₁ s' es₂ (hstep id rm s s₁ io hs hio) hrun

theorem removals_perm (t : Turn) (rm : List Nat) : (t.removals rm).Perm rm := by
  unfold Turn.removals
  by_cases h : t.order.isPerm rm
  · rw [if_pos h]
    exact List.isPerm_iff.mp h
  · rw [if_neg h]

/-! ## One iteration -/

/-- The remove set gets the handler that was called, if it asked to be removed. -/
theorem mem_rm_iff {rm rm' : List Nat} {id : Nat} {isOpen : Bool} (h : rm' = if isOpen then rm else rm.insert id) (j : Nat) :
    j ∈ rm' ↔ j ∈ rm ∨ (isOpen = false ∧ j = id) := by
  rw [h]
  cases isOpen with
  | true => simp
  | false => simp [or_comm]

/-- **What one `process_events` can do.** It has found a handler, which it calls if the descriptor can be read. -/
theorem processEvents_cases {revents : Nat → Option Answers} {p p' : Pass} {fd : Nat}
    (h : processEvents hash revents p fd = .ok p') :
    ∃ id, p.st.ios fd = some id ∧
      (revents fd = none ∧ p' = p ∨
        ∃ a io isOpen, revents fd = some a ∧ p.st.heap id = some io ∧ Served io a p.st p'.st isOpen ∧
          p'.rm = if isOpen then p.rm else p.rm.insert id) := by
  unfold processEvents at h
  cases hios : p.st.ios fd with
  | none =>
      rw [hios] at h
      cases h
  | some id =>
      rw [hios] at h
      refine ⟨id, rfl, ?_⟩
      cases hrev : revents fd with
      | none =>
          rw [hrev] at h
          cases h
          exact Or.inl ⟨rfl, rfl⟩
      | some a =>
          rw [hrev] at h
          obtain ⟨io, hio, hrest⟩ := bind_eq_ok h
          obtain ⟨⟨s', isOpen, es⟩, hin, heq⟩ := bind_eq_ok hrest
          cases heq
          exact Or.inr ⟨a, io, isOpen, rfl, deref_ok.mp hio, onInput_served hin, rfl⟩

/-- The rest of the event loop changes nothing. -/
theorem lookups_eq {n : Nat} {p q : Pass} (h : lookups hash n p = .ok q) : q = p := by
  refine foldlM_invariant (fun _ q => q = p) ?_ _ [] p q rfl rfl h
  rintro done fd rest q q' - rfl hstep
  obtain ⟨id, -, ⟨-, heq⟩ | ⟨a, -, -, hrev, -⟩⟩ := processEvents_cases hstep
  · exact heq
  · cases hrev

/-- One iteration is its event loop and its removals. -/
theorem turn_cases {s s' : State} {t : Turn} {es : List Effect} (h : turn hash s t = .ok (s', es)) :
    ∃ p es', events hash s t = .ok p ∧ removeAll p.st (t.removals p.rm) = .ok (s', es') := by
  unfold turn at h
  by_cases hps : s.ps = []
  · rw [if_pos hps] at h
    cases h
  · rw [if_neg hps] at h
    obtain ⟨p, hp, hrest⟩ := bind_eq_ok h
    obtain ⟨q, hq, hrest'⟩ := bind_eq_ok hrest
    obtain ⟨⟨s₁, es₁⟩, hrem, heq⟩ := bind_eq_ok hrest'
    cases heq
    rw [lookups_eq hq] at hrem
    exact ⟨p, es₁, hp, hrem⟩

/-! ## What every state has -/

/-- A global points to the one live handler of a class, or is null when there is none. -/
def Points (global : Option Nat) (s : State) (kind : Kind) : Prop :=
  ∀ id, global = some id ↔ ∃ fd, s.heap id = some ⟨kind, fd⟩

/-- Addresses are fresh, and the two globals point to their channels. -/
structure Sound (s : State) : Prop where
  fresh : ∀ id io, s.heap id = some io → id < s.next
  ctrl : Points s.ctrl s .controlChannel
  switch : Points s.switch s .switchChannel

/-- The two listeners, and nothing else. -/
theorem start_heap {id : Nat} {io : IoHandler} (h : State.start.heap id = some io) :
    id = ctrlServer ∧ io = ⟨.controlServer, 3⟩ ∨ id = swiServer ∧ io = ⟨.switchServer, 4⟩ := by
  simp only [State.start, State.registerHandler, Function.update_apply] at h
  by_cases hswi : id = swiServer
  · rw [if_pos hswi] at h
    exact Or.inr ⟨hswi, (Option.some.inj h).symm⟩
  · rw [if_neg hswi] at h
    by_cases hctrl : id = ctrlServer
    · rw [if_pos hctrl] at h
      exact Or.inl ⟨hctrl, (Option.some.inj h).symm⟩
    · rw [if_neg hctrl] at h
      cases h

theorem start_ios (fd : Nat) : State.start.ios fd =
    if fd = 4 then some swiServer else if fd = 3 then some ctrlServer else none := by
  simp [State.start, State.registerHandler, Function.update_apply]

theorem sound_start : Sound State.start where
  fresh id io h := by
    rcases start_heap h with ⟨rfl, -⟩ | ⟨rfl, -⟩ <;> decide
  ctrl c := by
    constructor
    · intro h
      cases h
    · rintro ⟨fd, h⟩
      rcases start_heap h with ⟨-, heq⟩ | ⟨-, heq⟩ <;> cases heq
  switch w := by
    constructor
    · intro h
      cases h
    · rintro ⟨fd, h⟩
      rcases start_heap h with ⟨-, heq⟩ | ⟨-, heq⟩ <;> cases heq

theorem Sound.not_next {s : State} (hs : Sound s) : s.heap s.next = none := by
  cases hheap : s.heap s.next with
  | none => rfl
  | some io => exact absurd (hs.fresh _ io hheap) (Nat.lt_irrefl _)

/-- The null global of the new channel's class is set to it. -/
theorem Points.attached {s s' : State} {kind : Kind} {fd : Nat} (hp : Points none s kind)
    (h : Attached s kind fd s') : Points (some s.next) s' kind := by
  intro id
  rw [h.heap, Function.update_apply]
  by_cases heq : id = s.next
  · simp [heq]
  · rw [if_neg heq, ← hp id]
    simp [Ne.symm heq]

/-- A global of another class is left alone. -/
theorem Points.attached_of_ne {s s' : State} {kind kind' : Kind} {global : Option Nat} {fd : Nat}
    (hp : Points global s kind) (h : Attached s kind' fd s') (hnew : s.heap s.next = none) (hne : kind' ≠ kind) :
    Points global s' kind := by
  intro id
  rw [h.heap, Function.update_apply, hp id]
  by_cases heq : id = s.next
  · simp [heq, hnew, hne]
  · rw [if_neg heq]

/-- The global of the removed handler's class becomes null, any other stays. -/
theorem Points.removed {s s' : State} {id : Nat} {io : IoHandler} {kind : Kind} {global global' : Option Nat}
    (hp : Points global s kind) (h : Removed s id io s')
    (hglobal : ∀ c, global' = some c ↔ io.kind ≠ kind ∧ global = some c) : Points global' s' kind := by
  intro c
  rw [hglobal, hp c]
  simp only [h.heap]
  constructor
  · rintro ⟨hkind, fd, hlive⟩
    refine ⟨fd, ?_, hlive⟩
    rintro rfl
    rw [h.live] at hlive
    cases hlive
    exact hkind rfl
  · rintro ⟨fd, hne, hlive⟩
    refine ⟨?_, fd, hlive⟩
    -- there is one handler of the class only
    rintro rfl
    have hc := (hp c).mpr ⟨fd, hlive⟩
    rw [(hp id).mpr ⟨io.fd, h.live⟩] at hc
    cases hc
    exact hne rfl

theorem Attached.fresh {s s' : State} {kind : Kind} {fd : Nat} (h : Attached s kind fd s') (hs : Sound s) (id : Nat)
    (io : IoHandler) (hid : s'.heap id = some io) : id < s'.next := by
  rw [h.heap, Function.update_apply] at hid
  rw [h.next]
  by_cases heq : id = s.next
  · rw [heq]
    exact Nat.lt_succ_self _
  · rw [if_neg heq] at hid
    exact Nat.lt_succ_of_lt (hs.fresh id io hid)

theorem Sound.served {s s' : State} {io : IoHandler} {a : Answers} {b : Bool} (hs : Sound s)
    (h : Served io a s s' b) : Sound s' := by
  cases h with
  | read | failed | refused => exact ⟨hs.fresh, hs.ctrl, hs.switch⟩
  | client _ _ _ _ hfree hatt hctrl hswitch =>
      refine ⟨hatt.fresh hs, ?_, ?_⟩
      · rw [hctrl]
        exact Points.attached (hfree ▸ hs.ctrl) hatt
      · rw [hswitch]
        exact hs.switch.attached_of_ne hatt hs.not_next (by simp)
  | switch _ _ _ _ hfree hatt hctrl hswitch =>
      refine ⟨hatt.fresh hs, ?_, ?_⟩
      · rw [hctrl]
        exact hs.ctrl.attached_of_ne hatt hs.not_next (by simp)
      · rw [hswitch]
        exact Points.attached (hfree ▸ hs.switch) hatt

theorem Sound.removed {s s' : State} {id : Nat} {io : IoHandler} (hs : Sound s) (h : Removed s id io s') :
    Sound s' where
  fresh id' io' hid' := by
    rw [h.deleted.next]
    exact hs.fresh id' io' ((h.heap id' io').mp hid').2
  ctrl := hs.ctrl.removed h h.ctrl
  switch := hs.switch.removed h h.switch

end Flowmgr
end Freeflow
