import Freeflow.Flowpath.Management
import Freeflow.Flowpath.Correctness.HashSafety
import Freeflow.Flowpath.Correctness.Names

/-!
# `Flowpath.Correctness.Management` — the process is a machine that knows one pipeline

Whatever messages arrive, the process answers like the machine of `Flowpath.Management`, and faults where the machine
does (`managed_is_plane`). The names of data planes are all in one place, so there is at most one; nothing sets
`ports_`, so no port is ever created; and the port table of the data plane stays empty.

The invariant is `Behaves`. For each request function there is one lemma, that it agrees with the one of the machine.
`managed_reachable` says what the invariant means for the states that a run reaches.
-/

namespace Freeflow
namespace Flowpath

variable {ω D : Type}

/-! ## The invariant -/

/-- The data plane runs this pipeline, in the first slot, and its port table is as it was made. -/
structure Fresh (dp : Dataplane Nat ω) (pl : Pipeline ω) : Prop where
  id : dp.id = 0
  pipeline : dp.pipeline = some pl
  ports : dp.ports = .owned (ChainedHashTable.new 17 uintHash uintEq)

/-- What is in the registry: nothing, or one data plane that runs the pipeline. -/
def Shows (r : Registry Nat ω) : Plane ω → Prop
  | none => ∀ a, r.heap.cells a = none
  | some pl => ∃ a dp, r.heap.cells a = some dp ∧ Fresh dp pl

/-- **The process behaves like the machine.** -/
structure Behaves (s : Managed ω D) (p : Plane ω) : Prop where
  lone : Lone s.registry
  ports : s.ports = ⟨Heap.empty, 1, .null⟩
  shows : Shows s.registry p

theorem behaves_start : Behaves (Managed.start : Managed ω D) none := ⟨empty_lone, rfl, fun _ => rfl⟩

variable {s : Managed ω D} {pl : Pipeline ω} {e : Env ω D} {req : List UInt8}

/-! ## Without a data plane -/

/-- Every slot is empty. -/
theorem Lone.cells_eq_none {r : Registry Nat ω} (L : Lone r) (hdead : ∀ a, r.heap.cells a = none) :
    ∀ c ∈ r.dps.cells, c = none := by
  intro c hc
  cases c with
  | none => rfl
  | some a =>
      obtain ⟨dp, hdp, -⟩ := L.live_cells a hc
      rw [hdead a] at hdp
      cases hdp

/-- A search through empty slots finds nothing, whatever the names. -/
theorem findLoop_of_none {same : Nat → Nat → Checked Bool} {heap : Heap (Dataplane Nat ω)} {name : Nat}
    {cells : List Ptr} (h : ∀ c ∈ cells, c = none) : Registry.findLoop same heap name cells = .ok none := by
  induction cells with
  | nil => rfl
  | cons c cells ih =>
      cases h c (by simp)
      exact ih (fun c hc => h c (List.mem_cons_of_mem _ hc))

theorem Behaves.lookup_dead (B : Behaves s none) (req : List UInt8) : lookupName req s = .ok none :=
  findLoop_of_none (B.lone.cells_eq_none B.shows)

/-- The first slot is the first free one. -/
theorem Behaves.firstFree_eq (B : Behaves s none) : s.registry.dps.firstFree = some 0 := by
  have hnone := B.lone.cells_eq_none B.shows
  have hlen := s.registry.dps.length_eq
  unfold Slots.firstFree
  cases hcells : s.registry.dps.cells with
  | nil =>
      rw [hcells] at hlen
      cases hlen
  | cons c rest =>
      have hc : c = none := hnone c (by rw [hcells]; simp)
      rw [hc, List.findIdx?_cons]
      rfl

/-! ## With a data plane -/

/-- The lookup finds the data plane, once the names have been compared. -/
theorem Behaves.lookup_live (B : Behaves s (some pl)) (req : List UInt8) {a : Nat} {dp : Dataplane Nat ω}
    (ha : s.registry.heap.cells a = some dp) : lookupName req s = (compareNames req >>= fun _ => .ok (some a)) := by
  unfold compareNames
  by_cases hend : 0 ∈ req.drop nameOffset
  · rw [if_pos hend, ok_bind]
    exact B.lone.lookup_live ha hend
  · rw [if_neg hend, error_bind]
    obtain ⟨rest, htaken⟩ := B.lone.taken_eq ha
    apply findLoop_error s.registry.heap (strcmpEq_unended hend) B.lone.live_cells
    change s.registry.dps.taken ≠ []
    rw [htaken]
    simp

/-- What follows the lookup follows the comparison. -/
theorem Behaves.bind_live {α : Type} (B : Behaves s (some pl)) (req : List UInt8) {a : Nat} {dp : Dataplane Nat ω}
    (ha : s.registry.heap.cells a = some dp) (f : Ptr → Checked α) :
    (lookupName req s >>= f) = (compareNames req >>= fun _ => f (some a)) := by
  rw [B.lookup_live req ha]
  cases compareNames req <;> rfl

/-- Every key is missing from a table as it was made. -/
theorem new_find_eq (k : Nat) : (ChainedHashTable.new 17 uintHash uintEq : PtrTable).find k = .ok [] := by
  have hshaped : (ChainedHashTable.new 17 uintHash uintEq : PtrTable).Shaped := ChainedHashTable.newUint_placed.shaped
  obtain ⟨n, hbucket⟩ := hshaped.bucket_of_flatten_eq_nil (by simp [ChainedHashTable.new]) k
  rw [ChainedHashTable.find, hbucket]
  rfl

theorem Fresh.getPort_eq {dp : Dataplane Nat ω} (F : Fresh dp pl) (p : PortId) : dp.getPort p = .ok none := by
  rw [Dataplane.getPort, F.ports, Owner.deref_owned, ok_bind, new_find_eq, ok_bind]
  rfl

theorem Fresh.listPorts_eq {dp : Dataplane Nat ω} (F : Fresh dp pl) : dp.listPorts = .ok [] := by
  rw [Dataplane.listPorts, F.ports, Owner.deref_owned, ok_bind]
  rfl

theorem Fresh.removePort_eq {dp : Dataplane Nat ω} (F : Fresh dp pl) (port : Ptr) :
    dp.removePort port = .ok ({ dp with pipeline := some { pl with object := (pl.ops.delPort pl.object port).1 } },
      (pl.ops.delPort pl.object port).2) := by
  rw [Dataplane.removePort, Dataplane.derefPipeline, F.pipeline]
  rfl

/-- The pipeline keeps its object up to date, and nothing else changes. -/
theorem Fresh.withObject {dp : Dataplane Nat ω} (F : Fresh dp pl) (object : ω) :
    Fresh { dp with pipeline := some { pl with object } } { pl with object } := ⟨F.id, rfl, F.ports⟩

/-- No port can be created, since `ports_` is null. -/
theorem Behaves.portCreate_eq {p : Plane ω} (B : Behaves s p) (dev : D) :
    portCreate s.ports dev = .error .nullDeref := by
  rw [B.ports]
  rfl

/-! ## The request functions -/

/-- A data plane whose pipeline did not load is deleted through whatever its two table pointers happen to be. -/
theorem delete_added_eq {r : Registry Nat ω} {i : Nat} {dp : Dataplane Nat ω} (hfree : r.dps.cells[i]? = some none)
    (hid : dp.id = i) :
    ∃ r', (r.added i dp).delete r.heap.next = (dp.ports.delete >>= fun _ => dp.tables.delete >>= fun _ => .ok r') ∧
      r'.dps = r.dps ∧ r'.heap.cells = r.heap.cells := by
  have ha := Registry.added_cells_next (r := r) i dp
  obtain ⟨heap, hwrite, -⟩ := Heap.write_eq ha { dp with pipeline := none }
  have hdelete : (r.added i dp).delete r.heap.next = (dp.ports.delete >>= fun _ => dp.tables.delete >>= fun _ =>
      Registry.deallocateDataplane { r.added i dp with heap } r.heap.next) := by
    rw [Registry.delete, Heap.deref_eq ha, ok_bind, hwrite, ok_bind]
  cases hports : dp.ports.delete with
  | error f => exact ⟨r, by rw [hdelete, hports]; rfl, rfl, rfl⟩
  | ok u =>
      cases htables : dp.tables.delete with
      | error f => exact ⟨r, by rw [hdelete, hports, htables]; rfl, rfl, rfl⟩
      | ok u' =>
          obtain ⟨r', hr', -⟩ := Registry.delete_eq_of ha (Slots.holds_put_self hfree _) hid hports htables
          exact ⟨r', hr', Registry.unload_eq hfree hid hr'⟩

/-- `fp_dataplane_create` while no data plane is live. -/
theorem Behaves.create_agree (B : Behaves s none) (e : Env ω D) (req : List UInt8) :
    Agree (fun r p => Behaves { s with registry := r } p)
      ((s.registry.create (strEqAt req) nameOffset typeOffset e.raw e.load).map (fun r => (r.1, r.2.2)))
      (planeAdd e req none) := by
  have hslot := Slots.firstFree_eq_some B.firstFree_eq
  have hlookup : s.registry.lookup (strEqAt req) nameOffset = .ok none := B.lookup_dead req
  unfold Registry.create planeAdd
  rw [hlookup, ok_bind, B.firstFree_eq, if_neg (by simp)]
  dsimp only
  cases hload : pipelineLoad e.load with
  | mk loaded err =>
      cases loaded with
      | some pl =>
          have hcreate := Registry.create_eq hlookup typeOffset e.raw pl
          rw [B.firstFree_eq] at hcreate
          exact .ok ⟨B.lone.create B.shows hcreate, B.ports, _, _, Registry.added_cells_next 0 _, rfl, rfl, rfl⟩ err
      | none =>
          obtain ⟨r', hdelete, hdps, hcells⟩ : ∃ r', (s.registry.added 0 ⟨0, e.raw.state, nameOffset, typeOffset,
              e.raw.ports, e.raw.tables, none⟩).delete s.registry.heap.next =
                (e.raw.ports.delete >>= fun _ => e.raw.tables.delete >>= fun _ => .ok r') ∧
              r'.dps = s.registry.dps ∧ r'.heap.cells = s.registry.heap.cells := delete_added_eq hslot rfl
          change Agree _ (((s.registry.added 0 ⟨0, e.raw.state, nameOffset, typeOffset, e.raw.ports, e.raw.tables,
            none⟩).delete s.registry.heap.next >>= fun r => .ok (r, none, err)).map _) _
          rw [hdelete]
          cases e.raw.ports.delete with
          | error f => exact .fault f
          | ok u =>
              cases e.raw.tables.delete with
              | error f => exact .fault f
              | ok u' =>
                  refine .ok ⟨B.lone.of_same hdps hcells, B.ports, fun a => ?_⟩ err
                  rw [hcells]
                  exact B.shows a

/-- `fp_on_dataplane_add`. -/
theorem Behaves.add_agree {p : Plane ω} (B : Behaves s p) (e : Env ω D) (req : List UInt8) :
    Agree Behaves (onDataplaneAdd e req s) (planeAdd e req p) := by
  cases p with
  | some pl =>
      obtain ⟨a, dp, ha, -⟩ := id B.shows
      rw [onDataplaneAdd, B.bind_live req ha]
      exact .bind_left _ (fun _ _ => .ok B _)
  | none =>
      rw [onDataplaneAdd, B.lookup_dead, ok_bind, if_neg (by simp)]
      have hrest : ∀ c : Checked (Registry Nat ω × Ptr × Int),
          (c >>= fun r => .ok (({ s with registry := r.1 } : Managed ω D), r.2.2)) =
            (c.map (fun r => (r.1, r.2.2)) >>= fun r => .ok ({ s with registry := r.1 }, r.2)) := by
        intro c
        cases c <;> rfl
      exact (hrest _).symm ▸ (B.create_agree e req).bind_ok (fun r p err hB => ⟨_, rfl, hB⟩)

/-- `fp_on_dataplane_del`. -/
theorem Behaves.del_agree {p : Plane ω} (B : Behaves s p) (req : List UInt8) :
    Agree Behaves (onDataplaneDel req s) (planeDel req p) := by
  cases p with
  | none =>
      rw [onDataplaneDel, B.lookup_dead]
      exact .ok B _
  | some pl =>
      obtain ⟨a, dp, ha, F⟩ := id B.shows
      obtain ⟨r', hdelete, D⟩ := B.lone.seated.delete_eq ha
      rw [onDataplaneDel, B.bind_live req ha]
      refine .bind_left _ (fun _ _ => ?_)
      dsimp only
      rw [hdelete]
      refine .ok ⟨B.lone.delete ha hdelete, B.ports, fun b => ?_⟩ _
      -- there was no other data plane
      by_contra hlive
      obtain ⟨dp', hb⟩ := Option.ne_none_iff_exists'.mp hlive
      obtain ⟨hne, hold⟩ := Heap.live_of_freed D.cells hb
      exact hne (B.lone.lone b a dp' dp hold ha)

/-- `fp_on_port_add`. -/
theorem Behaves.portAdd_agree {p : Plane ω} (B : Behaves s p) (e : Env ω D) (req : List UInt8) :
    Agree Behaves (onPortAdd e req s) (planePortAdd e req p) := by
  cases p with
  | none =>
      rw [onPortAdd, B.lookup_dead]
      exact .ok B _
  | some pl =>
      obtain ⟨a, dp, ha, F⟩ := id B.shows
      rw [onPortAdd, B.bind_live req ha]
      refine .bind_left _ (fun _ _ => .bind_left _ (fun udp _ => ?_))
      dsimp only
      rw [B.portCreate_eq]
      cases udp with
      | false =>
          rw [if_neg (by simp), if_neg (by simp)]
          exact .fault _
      | true =>
          by_cases herr : e.udp.2 ≠ fpOk
          · rw [if_pos rfl, if_pos herr, if_pos ⟨rfl, herr⟩]
            exact .ok B _
          · rw [if_pos rfl, if_neg herr, if_neg (fun h => herr h.2)]
            exact .fault _

/-- `fp_on_port_del`. -/
theorem Behaves.portDel_agree {p : Plane ω} (B : Behaves s p) (e : Env ω D) (req : List UInt8) :
    Agree Behaves (onPortDel e req s) (planePortDel req p) := by
  cases p with
  | none =>
      rw [onPortDel, B.lookup_dead]
      exact .ok B _
  | some pl =>
      obtain ⟨a, dp, ha, F⟩ := id B.shows
      obtain ⟨-, -, -, hports, -⟩ := B.lone.seated.of_live ha
      rw [onPortDel, B.bind_live req ha]
      refine .bind_left _ (fun _ _ => ?_)
      dsimp only
      obtain ⟨heap, hwrite, hcells, -⟩ := Heap.write_eq ha
        { dp with pipeline := some { pl with object := (pl.ops.delPort pl.object none).1 } }
      rw [Heap.deref_eq ha, ok_bind, F.getPort_eq, ok_bind, F.removePort_eq, ok_bind, hwrite]
      refine .ok ⟨?_, B.ports, ?_⟩ _
      · refine B.lone.write ha ?_ ?_ ?_ ?_ hwrite
        · rfl
        · rfl
        · exact hports
        · rfl
      · exact ⟨a, _, by rw [hcells, Function.update_self], F.withObject _⟩

/-- `fp_on_port_list`. -/
theorem Behaves.portList_agree {p : Plane ω} (B : Behaves s p) (req : List UInt8) :
    Agree Behaves (onPortList req s) (planePortList req p) := by
  cases p with
  | none =>
      rw [onPortList, B.lookup_dead]
      exact .ok B _
  | some pl =>
      obtain ⟨a, dp, ha, F⟩ := id B.shows
      rw [onPortList, B.bind_live req ha]
      refine .bind_left _ (fun _ _ => ?_)
      dsimp only
      rw [Heap.deref_eq ha, ok_bind, F.listPorts_eq]
      exact .ok B _

/-! ## Messages and runs -/

/-- The process and the machine make the same reply, or meet the same fault. -/
theorem Behaves.incoming_agree {p : Plane ω} (B : Behaves s p) (msg : Message ω D) :
    Agree Behaves ((managedFns msg.env).incoming msg.received msg.outbuf s)
      ((planeFns msg.env).incoming msg.received msg.outbuf p) := by
  rw [RequestFns.incoming_eq, RequestFns.incoming_eq]
  by_cases htype : reqType msg.received.buf = fpRequest
  · rw [if_pos htype, if_pos htype]
    exact (RequestFns.handle_agree B (B.add_agree _ _) (B.del_agree _) (B.portAdd_agree _ _) (B.portDel_agree _ _)
      (B.portList_agree _)).map _
  · rw [if_neg htype, if_neg htype]
    exact .ok B _

/-- **One message**: the process and the machine give the same answer, or meet the same fault. -/
theorem Behaves.step_agree {p : Plane ω} (B : Behaves s p) (msg : Message ω D) :
    Agree Behaves (manageStep s msg) (planeStep p msg) := by
  rw [manageStep_eq, planeStep]
  apply (B.incoming_agree msg).bind
  intro s' p' inc B'
  apply Agree.bind_left
  intro _ _
  exact .ok B' _

/-- The slots other than the first are empty. -/
theorem Behaves.tail_eq_none {p : Plane ω} (B : Behaves s p) : ∀ c ∈ s.registry.dps.cells.tail, c = none := by
  intro c hc
  cases c with
  | none => rfl
  | some b =>
      obtain ⟨i, hi⟩ := List.mem_iff_getElem?.mp hc
      rw [List.getElem?_tail] at hi
      obtain ⟨dp', hb, hid, -⟩ := B.lone.seated.seat (i + 1) b hi
      cases p with
      | none =>
          rw [B.shows b] at hb
          cases hb
      | some pl =>
          obtain ⟨a, dp, ha, F⟩ := id B.shows
          cases B.lone.lone a b dp dp' ha hb
          rw [ha] at hb
          cases hb
          rw [F.id] at hid
          omega

/-- A live data plane is the one that the machine knows. -/
theorem Behaves.fresh {p : Plane ω} (B : Behaves s p) {a : Nat} {dp : Dataplane Nat ω}
    (ha : s.registry.heap.cells a = some dp) : ∃ pl, p = some pl ∧ Fresh dp pl := by
  cases p with
  | none =>
      rw [B.shows a] at ha
      cases ha
  | some pl =>
      obtain ⟨b, dp', hb, F⟩ := id B.shows
      cases B.lone.lone a b dp dp' ha hb
      rw [ha] at hb
      cases hb
      exact ⟨pl, rfl, F⟩

/-- **What a run leaves behind**: no port, and at most one data plane; it is in the first slot, every other slot is empty,
    and no port is in its table. -/
theorem managed_reachable (msgs : List (Message ω D)) (s : Managed ω D) (answers : List Incoming)
    (h : runAll manageStep Managed.start msgs = .ok (s, answers)) :
    (∀ b, s.ports.heap.cells b = none) ∧ (∀ c ∈ s.registry.dps.cells.tail, c = none) ∧
    ∀ a dp, s.registry.heap.cells a = some dp → s.registry.dps.Holds 0 a ∧ dp.id = 0 ∧
      ∃ t, dp.ports = .owned t ∧ ∀ k, t.find k = .ok [] := by
  have hrun := runAll_agree (fun _ _ msg B => B.step_agree msg) msgs _ _ (behaves_start (ω := ω) (D := D))
  rw [h] at hrun
  obtain ⟨p, -, B⟩ := hrun.of_ok
  refine ⟨fun b => by rw [B.ports]; rfl, B.tail_eq_none, fun a dp ha => ?_⟩
  obtain ⟨pl, -, F⟩ := B.fresh ha
  obtain ⟨i, hi, hid, -⟩ := B.lone.seated.of_live ha
  have hzero : i = 0 := by
    rw [F.id] at hid
    omega
  exact ⟨hzero ▸ hi, F.id, _, F.ports, new_find_eq⟩

theorem managed_reachable_add :
    ∃ s answers, runAll manageStep Managed.start [oneCharMessage dataplaneAdd 97] = .ok (s, answers) ∧
      (∀ b, s.ports.heap.cells b = none) ∧ (∀ c ∈ s.registry.dps.cells.tail, c = none) ∧
      ∀ a dp, s.registry.heap.cells a = some dp → s.registry.dps.Holds 0 a ∧ dp.id = 0 ∧
        ∃ t, dp.ports = .owned t ∧ ∀ k, t.find k = .ok [] := by
  have hlive : (runAll manageStep Managed.start [oneCharMessage dataplaneAdd 97]).map
      (fun r => (r.1.registry.heap.cells 0).isSome) = .ok true := by
    decide +kernel
  obtain ⟨⟨s, answers⟩, hrun, -⟩ := map_eq_ok hlive
  exact ⟨s, answers, hrun, managed_reachable _ s answers hrun⟩

end Flowpath
end Freeflow
