import Freeflow.Flowpath.Requests
import Freeflow.Flowpath.Correctness.DataplaneMap
import Freeflow.Flowpath.Correctness.DataplaneSteps

/-!
# `Flowpath.Correctness.Names` — which requests find the data plane they name

`fp_dataplane_create` keeps the pointers it is given, and `fp_on_dataplane_add` gives it pointers into the message. So every
data plane has its name at the one place in `inbuf` where each request has its own, and a lookup compares a string with
itself: it finds the first data plane whatever the request says. There is never more than one (`Lone`), since
an addition looks the name up first. `names_kept_iff` says which runs do not notice.
-/

namespace Freeflow
namespace Flowpath

open Registry (Text Seated)

variable {ω D : Type}

/-! ## Comparing a string with itself -/

theorem strcmpEq_self {xs : List UInt8} (h : 0 ∈ xs) : strcmpEq xs xs = .ok true := by
  induction xs with
  | nil => simp at h
  | cons x xs ih =>
      rw [strcmpEq, if_neg (by simp)]
      by_cases hx : x = 0
      · rw [if_pos hx]
      · rw [if_neg hx]
        apply ih
        exact (List.mem_cons.mp h).resolve_left (fun h0 => hx h0.symm)

/-- A string without an end is compared until its memory ends. -/
theorem strcmpEq_unended {xs : List UInt8} (h : 0 ∉ xs) : strcmpEq xs xs = .error .outOfBounds := by
  induction xs with
  | nil => rfl
  | cons x xs ih =>
      rw [List.mem_cons, not_or] at h
      rw [strcmpEq, if_neg (by simp), if_neg (fun hx => h.1 hx.symm)]
      exact ih h.2

/-- The name that a request gives, if it has an end. -/
def nameIn (req : List UInt8) : Option Text := (cstring 0 req nameOffset).toOption

theorem mem_of_nameIn {req : List UInt8} {n : Text} (h : nameIn req = some n) : 0 ∈ req.drop nameOffset := by
  unfold nameIn cstring at h
  by_cases hmem : 0 ∈ req.drop nameOffset
  · exact hmem
  · rw [if_neg hmem] at h
    cases h

/-! ## A registry whose names are all in one place -/

/-- **There is at most one data plane, and its name is where requests have theirs.** -/
structure Lone (r : Registry Nat ω) : Prop where
  seated : Seated r
  name_eq : ∀ a dp, r.heap.cells a = some dp → dp.name = nameOffset
  lone : ∀ a b dp dp', r.heap.cells a = some dp → r.heap.cells b = some dp' → a = b

variable {r r' : Registry Nat ω} {req : List UInt8}

theorem empty_lone : Lone (Registry.empty : Registry Nat ω) :=
  ⟨Registry.empty_seated, fun _ _ h => (by cases h), fun _ _ _ _ h => (by cases h)⟩

/-- When every name compares equal, the search finds the first data plane. -/
theorem findLoop_true (heap : Heap (Dataplane Nat ω)) (hsame : strEqAt req nameOffset nameOffset = .ok true)
    {cells : List Ptr} (hlive : ∀ a, some a ∈ cells → ∃ dp, heap.cells a = some dp ∧ dp.name = nameOffset) :
    Registry.findLoop (strEqAt req) heap nameOffset cells = .ok (cells.filterMap id).head? := by
  induction cells with
  | nil => rfl
  | cons c cells ih =>
      cases c with
      | none => exact ih (fun a ha => hlive a (List.mem_cons_of_mem _ ha))
      | some a =>
          obtain ⟨dp, hdp, hname⟩ := hlive a (by simp)
          rw [Registry.findLoop, Heap.deref_eq hdp, ok_bind, hname, hsame]
          rfl

/-- When the names have no end, the first comparison faults. -/
theorem findLoop_error {f : Fault} (heap : Heap (Dataplane Nat ω))
    (hsame : strEqAt req nameOffset nameOffset = .error f) {cells : List Ptr}
    (hlive : ∀ a, some a ∈ cells → ∃ dp, heap.cells a = some dp ∧ dp.name = nameOffset)
    (hne : cells.filterMap id ≠ []) : Registry.findLoop (strEqAt req) heap nameOffset cells = .error f := by
  induction cells with
  | nil => exact absurd rfl hne
  | cons c cells ih =>
      cases c with
      | none => exact ih (fun a ha => hlive a (List.mem_cons_of_mem _ ha)) hne
      | some a =>
          obtain ⟨dp, hdp, hname⟩ := hlive a (by simp)
          rw [Registry.findLoop, Heap.deref_eq hdp, ok_bind, hname, hsame]
          rfl

theorem Lone.live_cells (L : Lone r) (a : Nat) (ha : some a ∈ r.dps.cells) :
    ∃ dp, r.heap.cells a = some dp ∧ dp.name = nameOffset := by
  obtain ⟨i, hi⟩ := List.mem_iff_getElem?.mp ha
  obtain ⟨dp, hdp, -⟩ := L.seated.seat i a hi
  exact ⟨dp, hdp, L.name_eq a dp hdp⟩

/-- The data plane that is live is the first one in the table. -/
theorem Lone.taken_eq (L : Lone r) {a : Nat} {dp : Dataplane Nat ω} (ha : r.heap.cells a = some dp) :
    ∃ rest, r.dps.taken = a :: rest := by
  have hmem := L.seated.mem_taken.mpr ⟨dp, ha⟩
  cases htaken : r.dps.taken with
  | nil =>
      rw [htaken] at hmem
      cases hmem
  | cons b rest =>
      obtain ⟨dp', hdp'⟩ := L.seated.mem_taken.mp (show b ∈ r.dps.taken by rw [htaken]; simp)
      exact ⟨rest, by rw [L.lone a b dp dp' ha hdp']⟩

/-- **Every name finds the data plane that is live.** -/
theorem Lone.lookup_live (L : Lone r) {a : Nat} {dp : Dataplane Nat ω} (ha : r.heap.cells a = some dp)
    (hend : 0 ∈ req.drop nameOffset) : r.lookup (strEqAt req) nameOffset = .ok (some a) := by
  obtain ⟨rest, htaken⟩ := L.taken_eq ha
  have hhead : (r.dps.cells.filterMap id).head? = some a := congrArg List.head? htaken
  rw [← hhead]
  exact findLoop_true r.heap (strcmpEq_self hend) L.live_cells

/-- A lookup that finds nothing shows that no data plane is live. -/
theorem Lone.dead_of_lookup (L : Lone r) (h : r.lookup (strEqAt req) nameOffset = .ok none) (a : Nat) :
    r.heap.cells a = none := by
  by_contra hne
  obtain ⟨dp, ha⟩ := Option.ne_none_iff_exists'.mp hne
  by_cases hend : 0 ∈ req.drop nameOffset
  · rw [L.lookup_live ha hend] at h
    cases h
  · obtain ⟨rest, htaken⟩ := L.taken_eq ha
    have hnonempty : r.dps.cells.filterMap id ≠ [] := by
      change r.dps.taken ≠ []
      rw [htaken]
      simp
    have hfault := findLoop_error r.heap (strcmpEq_unended hend) L.live_cells hnonempty
    rw [Registry.lookup, hfault] at h
    cases h

/-! ## What the request functions leave alone -/

/-- The same slots and data planes. -/
theorem Lone.of_same (L : Lone r) (hdps : r'.dps = r.dps) (hcells : r'.heap.cells = r.heap.cells) : Lone r' := by
  refine ⟨⟨fun i a hi => ?_, fun a dp ha => ?_⟩, fun a dp ha => ?_, fun a b dp dp' ha hb => ?_⟩
  · rw [hdps] at hi
    rw [hcells]
    exact L.seated.seat i a hi
  · rw [hcells] at ha
    rw [hdps]
    exact L.seated.live a dp ha
  · rw [hcells] at ha
    exact L.name_eq a dp ha
  · rw [hcells] at ha hb
    exact L.lone a b dp dp' ha hb

/-- A creation while no data plane is live. -/
theorem Lone.create (L : Lone r) (hdead : ∀ a, r.heap.cells a = none) {type : Nat} {raw : RawPlane} {load : Loading ω}
    {p : Ptr} {err : Int} (h : r.create (strEqAt req) nameOffset type raw load = .ok (r', p, err)) : Lone r' := by
  rcases Registry.create_cases h with ⟨hdps, hcells⟩ | ⟨i, pl, hfree, rfl⟩
  · exact L.of_same hdps hcells
  · have honly : ∀ a dp, (r.added i (Registry.newPlane i raw nameOffset type pl)).heap.cells a = some dp →
        a = r.heap.next ∧ dp = Registry.newPlane i raw nameOffset type pl := by
      intro a dp ha
      rcases Registry.added_cells_cases ha with hnew | hold
      · exact hnew
      · rw [hdead a] at hold
        cases hold
    refine ⟨L.seated.added hfree rfl ⟨_, rfl⟩ ⟨_, rfl⟩, fun a dp ha => ?_, fun a b dp dp' ha hb => ?_⟩
    · rw [(honly a dp ha).2]
      rfl
    · exact (honly a dp ha).1.trans (honly b dp' hb).1.symm

theorem Lone.delete (L : Lone r) {a : Nat} {dp : Dataplane Nat ω} (ha : r.heap.cells a = some dp)
    (h : r.delete a = .ok r') : Lone r' := by
  have D := of_exists_ok (L.seated.delete_eq ha) h
  have hold : ∀ b dp', r'.heap.cells b = some dp' → r.heap.cells b = some dp' :=
    fun b dp' hb => (Heap.live_of_freed D.cells hb).2
  exact ⟨D.seated L.seated ha, fun b dp' hb => L.name_eq b dp' (hold b dp' hb),
    fun b c dp₁ dp₂ hb hc => L.lone b c dp₁ dp₂ (hold b dp₁ hb) (hold c dp₂ hc)⟩

/-- Writing back a data plane with the same id, name and tables. -/
theorem Lone.write (L : Lone r) {a : Nat} {dp dp' : Dataplane Nat ω} (ha : r.heap.cells a = some dp)
    (hid : dp'.id = dp.id) (hname : dp'.name = dp.name) (hports : ∃ t, dp'.ports = .owned t)
    (htables : dp'.tables = dp.tables) {heap : Heap (Dataplane Nat ω)} (h : r.heap.write a dp' = .ok heap) :
    Lone { r with heap } := by
  obtain ⟨hcells, -⟩ := of_exists_ok (Heap.write_eq ha dp') h
  have hself : heap.cells a = some dp' := by rw [hcells, Function.update_self]
  have hother : ∀ b, b ≠ a → heap.cells b = r.heap.cells b := fun b hne => by rw [hcells, Function.update_of_ne hne]
  have hlive : ∀ b q, heap.cells b = some q → ∃ q', r.heap.cells b = some q' := by
    intro b q hb
    by_cases heq : b = a
    · exact ⟨dp, heq ▸ ha⟩
    · exact ⟨q, by rw [← hother b heq, hb]⟩
  refine ⟨⟨fun i b hi => ?_, fun b q hb => ?_⟩, fun b q hb => ?_, fun b c q q' hb hc => ?_⟩
  -- what is read off the data plane at `a` was read off the old one before, and no other has changed
  · obtain ⟨q, hq, hqid, hqports, hqtables⟩ := L.seated.seat i b hi
    by_cases heq : b = a
    · subst heq
      rw [ha] at hq
      cases hq
      exact ⟨dp', hself, hid.trans hqid, hports, htables ▸ hqtables⟩
    · exact ⟨q, (hother b heq).trans hq, hqid, hqports, hqtables⟩
  · obtain ⟨q', hq'⟩ := hlive b q hb
    exact L.seated.live b q' hq'
  · by_cases heq : b = a
    · subst heq
      rw [hself] at hb
      cases hb
      rw [hname]
      exact L.name_eq b dp ha
    · rw [hother b heq] at hb
      exact L.name_eq b q hb
  · obtain ⟨q₁, hq₁⟩ := hlive b q hb
    obtain ⟨q₂, hq₂⟩ := hlive c q' hc
    exact L.lone b c q₁ q₂ hq₁ hq₂

/-! ## One message -/

variable {e : Env ω D} {s s' : Managed ω D} {result : Int}

theorem Lone.onDataplaneAdd (L : Lone s.registry) (h : onDataplaneAdd e req s = .ok (s', result)) :
    Lone s'.registry := by
  obtain ⟨found, hfound, h⟩ := bind_eq_ok h
  cases found with
  | some a =>
      cases h
      exact L
  | none =>
      obtain ⟨⟨registry, p, err⟩, hcreate, h⟩ := bind_eq_ok h
      cases h
      exact L.create (L.dead_of_lookup hfound) hcreate

theorem Lone.onDataplaneDel (L : Lone s.registry) (h : onDataplaneDel req s = .ok (s', result)) :
    Lone s'.registry := by
  obtain ⟨found, -, h⟩ := bind_eq_ok h
  cases found with
  | some a =>
      obtain ⟨registry, hdelete, h⟩ := bind_eq_ok h
      cases h
      obtain ⟨dp, hdp, -⟩ := bind_eq_ok hdelete
      exact L.delete (Heap.deref_ok hdp) hdelete
  | none =>
      cases h
      exact L

theorem Lone.onPortAdd (L : Lone s.registry) (h : onPortAdd e req s = .ok (s', result)) : Lone s'.registry := by
  obtain ⟨found, -, h⟩ := bind_eq_ok h
  cases found with
  | some a =>
      obtain ⟨udp, -, h⟩ := bind_eq_ok h
      cases hopen : (if udp = true then e.udp else (e.dev, fpOk)) with
      | mk dev derr =>
          rw [hopen] at h
          dsimp only at h
          by_cases hderr : derr ≠ fpOk
          · rw [if_pos hderr] at h
            cases h
            exact L
          · rw [if_neg hderr] at h
            obtain ⟨⟨ports, port⟩, -, h⟩ := bind_eq_ok h
            obtain ⟨dp, hdp, h⟩ := bind_eq_ok h
            obtain ⟨⟨dp', err⟩, hadd, h⟩ := bind_eq_ok h
            obtain ⟨heap, hwrite, h⟩ := bind_eq_ok h
            cases h
            obtain ⟨_, _, _, t', _, _, -, -, -, -, -, rfl, -⟩ := Dataplane.addPort_cases hadd
            refine L.write (Heap.deref_ok hdp) ?_ ?_ ?_ ?_ hwrite
            · rfl
            · rfl
            · exact ⟨t', rfl⟩
            · rfl
  | none =>
      cases h
      exact L

theorem Lone.onPortDel (L : Lone s.registry) (h : onPortDel e req s = .ok (s', result)) : Lone s'.registry := by
  obtain ⟨found, -, h⟩ := bind_eq_ok h
  cases found with
  | some a =>
      obtain ⟨dp, hdp, h⟩ := bind_eq_ok h
      obtain ⟨port, -, h⟩ := bind_eq_ok h
      obtain ⟨⟨dp', err⟩, hremove, h⟩ := bind_eq_ok h
      obtain ⟨heap, hwrite, h⟩ := bind_eq_ok h
      cases h
      have ha := Heap.deref_ok hdp
      obtain ⟨_, -, -, hports, -⟩ := L.seated.of_live ha
      obtain ⟨_, -, rfl, -⟩ := Dataplane.removePort_cases hremove
      refine L.write ha ?_ ?_ ?_ ?_ hwrite
      · rfl
      · rfl
      · exact hports
      · rfl
  | none =>
      cases h
      exact L

theorem Lone.onPortList (L : Lone s.registry) (h : onPortList req s = .ok (s', result)) : Lone s'.registry := by
  obtain ⟨found, -, h⟩ := bind_eq_ok h
  cases found with
  | some a =>
      obtain ⟨dp, -, h⟩ := bind_eq_ok h
      obtain ⟨ports, -, h⟩ := bind_eq_ok h
      cases h
      exact L
  | none =>
      cases h
      exact L

theorem lift_ok {f : List UInt8 → Managed ω D → Checked (Managed ω D × Int)} (h : (lift f req (.ok s)).1 = .ok s') :
    ∃ result, f req s = .ok (s', result) := by
  unfold lift at h
  rw [ok_bind] at h
  cases hf : f req s with
  | error fault =>
      rw [hf] at h
      cases h
  | ok r =>
      rw [hf] at h
      cases h
      exact ⟨r.2, rfl⟩

/-- **A request keeps what all request functions keep.** -/
theorem onRequest_keeps {P : Managed ω D → Prop} (hs : P s)
    (hadd : ∀ result, onDataplaneAdd e req s = .ok (s', result) → P s')
    (hdel : ∀ result, onDataplaneDel req s = .ok (s', result) → P s')
    (hportAdd : ∀ result, onPortAdd e req s = .ok (s', result) → P s')
    (hportDel : ∀ result, onPortDel e req s = .ok (s', result) → P s')
    (hlist : ∀ result, onPortList req s = .ok (s', result) → P s')
    (h : (onRequest (requestHandlers e) req (.ok s)).1 = .ok s') : P s' := by
  unfold onRequest at h
  dsimp only at h
  split_ifs at h
  · obtain ⟨result, hf⟩ := lift_ok h
    exact hadd result hf
  · obtain ⟨result, hf⟩ := lift_ok h
    exact hdel result hf
  · obtain ⟨result, hf⟩ := lift_ok h
    exact hportAdd result hf
  · obtain ⟨result, hf⟩ := lift_ok h
    exact hportDel result hf
  · obtain ⟨result, hf⟩ := lift_ok h
    exact hlist result hf
  all_goals
    cases h
    exact hs

/-- **A message leaves at most one data plane, named where requests have their names.** -/
theorem manageStep_lone {msg : Message ω D} {inc : Incoming} (L : Lone s.registry)
    (h : manageStep s msg = .ok (s', inc)) : Lone s'.registry := by
  unfold manageStep mgrIncoming at h
  dsimp only at h
  obtain ⟨s₁, hs₁, h⟩ := bind_eq_ok h
  obtain ⟨_, -, heq⟩ := bind_eq_ok h
  cases heq
  by_cases htype : reqType msg.received.buf = fpRequest
  · rw [if_pos htype] at hs₁
    exact onRequest_keeps (P := fun s => Lone s.registry) L (fun _ => L.onDataplaneAdd) (fun _ => L.onDataplaneDel)
      (fun _ => L.onPortAdd) (fun _ => L.onPortDel) (fun _ => L.onPortList) hs₁
  -- a message of another type is answered, and nothing is called
  · rw [if_neg htype] at hs₁
    cases hs₁
    exact L

/-! ## Runs -/

/-- The request kinds whose functions look a data plane up by name. -/
def namedKinds : List UInt8 := [dataplaneAdd, dataplaneDel, portAdd, portDel, portList]

/-- The message is a request that names a data plane. -/
def NamesPlane (req : List UInt8) : Prop := reqType req = fpRequest ∧ reqKind req ∈ namedKinds

/-- The state, and the names under which the data planes were added. -/
structure Tracked (ω D : Type) where
  state : Managed ω D
  addedAs : Nat → Option Text

/-- One message; a data plane that was not there before was added under the name in the message. -/
def trackStep (t : Tracked ω D) (msg : Message ω D) : Checked (Tracked ω D × Incoming) :=
  (manageStep t.state msg).map (fun r => (⟨r.1, fun a =>
    if (t.state.registry.heap.cells a).isNone && (r.1.registry.heap.cells a).isSome then nameIn msg.received.buf
    else t.addedAs a⟩, r.2))

/-- **A data plane answers to its name**: a request that gives the name `n` finds a data plane exactly when it was added
    under `n`. -/
def NameKept (t : Tracked ω D) (msg : Message ω D) : Prop :=
  NamesPlane msg.received.buf → ∀ n found, nameIn msg.received.buf = some n →
    lookupName msg.received.buf t.state = .ok found →
    ∀ a dp, t.state.registry.heap.cells a = some dp → (found = some a ↔ t.addedAs a = some n)

/-- While a data plane is live, a request that gives a name gives the one under which it was added. -/
def NamesLive (t : Tracked ω D) (msg : Message ω D) : Prop :=
  NamesPlane msg.received.buf → ∀ n a dp, nameIn msg.received.buf = some n →
    t.state.registry.heap.cells a = some dp → t.addedAs a = some n

theorem name_kept_iff {t : Tracked ω D} (L : Lone t.state.registry) (msg : Message ω D) :
    NameKept t msg ↔ NamesLive t msg := by
  constructor
  · intro hkept hnamed n a dp hn ha
    exact (hkept hnamed n (some a) hn (L.lookup_live ha (mem_of_nameIn hn)) a dp ha).mp rfl
  · intro hlive hnamed n found hn hfound a dp ha
    have hall := L.lookup_live ha (mem_of_nameIn hn)
    change t.state.registry.lookup _ _ = _ at hfound
    rw [hall] at hfound
    cases hfound
    exact iff_of_true rfl (hlive hnamed n a dp hn ha)

/-- **The data planes answer to their names exactly in the runs whose requests name the data plane that is live.** -/
theorem names_kept_iff (ports : PortState D) (msgs : List (Message ω D)) :
    Guarded trackStep NameKept ⟨⟨Registry.empty, ports⟩, fun _ => none⟩ msgs ↔
      Guarded trackStep NamesLive ⟨⟨Registry.empty, ports⟩, fun _ => none⟩ msgs := by
  refine Guarded.congr (fun t : Tracked ω D => Lone t.state.registry) ?_ (fun t msg L => name_kept_iff L msg) msgs _
    empty_lone
  intro t msg t' inc L h
  obtain ⟨⟨s', inc'⟩, hstep, heq⟩ := map_eq_ok h
  cases heq
  exact manageStep_lone L hstep

/-- A request of this kind that gives a name of one character. -/
def oneCharRequest (kind c : UInt8) : List UInt8 := [fpRequest, kind, c] ++ List.replicate 1021 0

/-- The request, where pipelines load. -/
def oneCharMessage (kind c : UInt8) : Message Unit Nat where
  received := ⟨oneCharRequest kind c, messageLen⟩
  outbuf := List.replicate messageLen 0
  env := ⟨⟨0, .wild, .wild⟩, .loaded idle, (0, fpOk), 0, 0⟩
  length_eq := by
    show ([fpRequest, kind, c] ++ List.replicate 1021 0).length = messageLen
    rw [List.length_append, List.length_replicate]
    rfl

/-- The process before the first message. -/
def atStart : Tracked Unit Nat := ⟨⟨Registry.empty, ⟨Heap.empty, 1, .null⟩⟩, fun _ => none⟩

/-- A data plane is added under the name `a`, and the request to delete `b` finds it. -/
theorem other_name_is_found :
    ¬ Guarded trackStep NameKept atStart [oneCharMessage dataplaneAdd 97, oneCharMessage dataplaneDel 98] := by
  have hrun : (trackStep atStart (oneCharMessage dataplaneAdd 97) >>= fun r =>
      (lookupName (oneCharRequest dataplaneDel 98) r.1.state).map (fun found =>
        (found, r.1.addedAs 0, (r.1.state.registry.heap.cells 0).isSome))) = .ok (some 0, some [97], true) := by
    decide +kernel
  obtain ⟨⟨t, inc⟩, hstep, hseen⟩ := bind_eq_ok hrun
  obtain ⟨found, hfound, hseen⟩ := map_eq_ok hseen
  simp only [Prod.mk.injEq] at hseen
  obtain ⟨rfl, hadded, hlive⟩ := hseen
  obtain ⟨dp, ha⟩ := Option.isSome_iff_exists.mp hlive
  intro hkept
  have hnamed : NamesPlane (oneCharRequest dataplaneDel 98) := by
    refine ⟨rfl, ?_⟩
    show dataplaneDel ∈ namedKinds
    decide
  have hiff := (hkept.2 t inc hstep).1 hnamed [98] (some 0) (by decide +kernel) hfound 0 dp ha
  rw [hadded] at hiff
  exact absurd (hiff.mp rfl) (by decide)

end Flowpath
end Freeflow
