import Freeflow.Flowpath.Dataplane
import Freeflow.Lib.KeyMap
import Freeflow.Lib.Run

/-!
# `Flowpath.Correctness.DataplaneMap` — the registry as a bounded map from names

`Seated` is what holds of the registry whatever the names are: every data plane sits in the slot that its id names.
Deletion trusts the id, so it rests on this alone. With names whose strings stay as they are, the registry stands for a
finite map from strings to data planes (`Stands`), and answers every run of calls like the map: `registry_refines_map`.
-/

namespace Freeflow
namespace Flowpath

/-- A pipeline whose functions all succeed. -/
def idle : Pipeline Unit := ⟨⟨fun o _ => (o, fpOk), fun o _ => (o, fpOk), fun o => (o, fpOk), fun o => (o, fpOk)⟩, ()⟩

namespace Registry

variable {ν ω : Type}

/-! ## Slots and ids -/

/-- **Every data plane sits in the slot that its id names**, and owns its two tables. -/
structure Seated (r : Registry ν ω) : Prop where
  seat : ∀ i a, r.dps.Holds i a → ∃ dp, r.heap.cells a = some dp ∧ dp.id = i ∧
    (∃ t, dp.ports = .owned t) ∧ ∃ t, dp.tables = .owned t
  live : ∀ a dp, r.heap.cells a = some dp → ∃ i, r.dps.Holds i a

/-- The registry with a new data plane in slot `i`. -/
def added (r : Registry ν ω) (i : Nat) (dp : Dataplane ν ω) : Registry ν ω :=
  ⟨r.heap.alloc dp, r.dps.put i (some r.heap.next)⟩

/-- A data plane whose pipeline was loaded. -/
def newPlane (i : Nat) (raw : RawPlane) (name type : ν) (pl : Pipeline ω) : Dataplane ν ω where
  id := i
  state := raw.state
  name := name
  type := type
  ports := .owned (ChainedHashTable.new 17 uintHash uintEq)
  tables := .owned (ChainedHashTable.new 17 uintHash uintEq)
  pipeline := some pl

theorem empty_seated : Seated (empty : Registry ν ω) := by
  refine ⟨fun i a h => ?_, fun a dp h => by cases h⟩
  have hmem : a ∈ (Slots.empty : Slots Nat dataplaneMax).taken := Slots.mem_taken.mpr ⟨i, h⟩
  rw [Slots.taken_empty] at hmem
  cases hmem

variable {r : Registry ν ω}

/-- The slot and the tables of a live data plane. -/
theorem Seated.of_live (S : Seated r) {a : Nat} {dp : Dataplane ν ω} (ha : r.heap.cells a = some dp) :
    ∃ i, r.dps.Holds i a ∧ dp.id = i ∧ (∃ t, dp.ports = .owned t) ∧ ∃ t, dp.tables = .owned t := by
  obtain ⟨i, hi⟩ := S.live a dp ha
  obtain ⟨dp', hdp', hrest⟩ := S.seat i a hi
  rw [ha] at hdp'
  cases hdp'
  exact ⟨i, hi, hrest⟩

theorem Seated.mem_taken (S : Seated r) {a : Nat} : a ∈ r.dps.taken ↔ ∃ dp, r.heap.cells a = some dp := by
  rw [Slots.mem_taken]
  constructor
  · rintro ⟨i, hi⟩
    obtain ⟨dp, hdp, -⟩ := S.seat i a hi
    exact ⟨dp, hdp⟩
  · rintro ⟨dp, hdp⟩
    exact S.live a dp hdp

/-- A data plane sits in one slot only. -/
theorem Seated.slot_unique (S : Seated r) {i j a : Nat} (hi : r.dps.Holds i a) (hj : r.dps.Holds j a) : i = j := by
  obtain ⟨dp, hdp, hid, -⟩ := S.seat i a hi
  obtain ⟨dp', hdp', hid', -⟩ := S.seat j a hj
  rw [hdp] at hdp'
  cases hdp'
  exact Int.ofNat.inj (hid.symm.trans hid')

/-- The cells other than the new one are as before. -/
theorem added_cells_of_live {i a : Nat} {dp dp' : Dataplane ν ω} (h : r.heap.cells a = some dp') :
    (r.added i dp).heap.cells a = some dp' := by
  have hne : a ≠ r.heap.next := Nat.ne_of_lt (Heap.lt_next h)
  show Function.update r.heap.cells r.heap.next (some dp) a = _
  rw [Function.update_of_ne hne, h]

theorem added_cells_next (i : Nat) (dp : Dataplane ν ω) : (r.added i dp).heap.cells r.heap.next = some dp :=
  Function.update_self _ _ _

/-- What is live after an addition was live before, or is new. -/
theorem added_cells_cases {i a : Nat} {dp dp' : Dataplane ν ω} (h : (r.added i dp).heap.cells a = some dp') :
    a = r.heap.next ∧ dp' = dp ∨ r.heap.cells a = some dp' := by
  by_cases heq : a = r.heap.next
  · subst heq
    rw [added_cells_next] at h
    exact Or.inl ⟨rfl, (Option.some.inj h).symm⟩
  · change Function.update r.heap.cells r.heap.next (some dp) a = _ at h
    rw [Function.update_of_ne heq] at h
    exact Or.inr h

/-- The new data plane takes a slot beside those taken. -/
theorem added_taken_perm {i : Nat} (hfree : r.dps.cells[i]? = some none) (dp : Dataplane ν ω) :
    (r.added i dp).dps.taken.Perm (r.heap.next :: r.dps.taken) :=
  Slots.taken_put_perm hfree (some r.heap.next)

theorem Seated.added (S : Seated r) {i : Nat} (hfree : r.dps.cells[i]? = some none) {dp : Dataplane ν ω}
    (hid : dp.id = i) (hports : ∃ t, dp.ports = .owned t) (htables : ∃ t, dp.tables = .owned t) :
    Seated (r.added i dp) := by
  refine ⟨fun j a hj => ?_, fun a dp' ha => ?_⟩
  -- slot `i` holds the new data plane, and every other slot what it held before
  · by_cases hij : i = j
    · subst hij
      have hself : (r.added i dp).dps.Holds i r.heap.next := Slots.holds_put_self hfree _
      have heq : a = r.heap.next := by
        unfold Slots.Holds at hself hj
        rw [hself] at hj
        exact (Option.some.inj (Option.some.inj hj)).symm
      rw [heq]
      exact ⟨dp, added_cells_next i dp, hid, hports, htables⟩
    · obtain ⟨dp', hdp', hrest⟩ := S.seat j a ((Slots.holds_put_of_ne hij _ a).mp hj)
      exact ⟨dp', added_cells_of_live hdp', hrest⟩
  · rcases added_cells_cases ha with ⟨rfl, -⟩ | hold
    · exact ⟨i, Slots.holds_put_self hfree _⟩
    · exact Slots.mem_taken.mp ((added_taken_perm hfree dp).mem_iff.mpr
        (List.mem_cons_of_mem _ (S.mem_taken.mpr ⟨dp', hold⟩)))

/-- What a deletion leaves: the slot of the data plane is empty, and its memory is free. -/
structure Deleted (r : Registry ν ω) (a : Nat) (dp : Dataplane ν ω) (r' : Registry ν ω) : Prop where
  dps : r'.dps = r.dps.put dp.id.toNat none
  cells : r'.heap.cells = Function.update r.heap.cells a none
  next : r'.heap.next = r.heap.next

/-- A data plane in the slot of its id can be deleted, if its tables can. -/
theorem delete_eq_of {i a : Nat} {dp : Dataplane ν ω} (ha : r.heap.cells a = some dp) (hi : r.dps.Holds i a)
    (hid : dp.id = i) (hports : dp.ports.delete = .ok ()) (htables : dp.tables.delete = .ok ()) :
    ∃ r', r.delete a = .ok r' ∧ Deleted r a dp r' := by
  obtain ⟨heap₁, hwrite, hcells₁, hnext₁⟩ := Heap.write_eq ha { dp with pipeline := none }
  have ha₁ : heap₁.cells a = some { dp with pipeline := none } := by
    rw [hcells₁, Function.update_self]
  obtain ⟨heap₂, hfree, hcells₂, hnext₂⟩ := Heap.free_eq ha₁
  refine ⟨⟨heap₂, r.dps.put i none⟩, ?_, ?_, ?_, hnext₂.trans hnext₁⟩
  · unfold delete deallocateDataplane
    rw [Heap.deref_eq ha, ok_bind, hwrite, ok_bind, hports, ok_bind, htables, ok_bind]
    dsimp only
    rw [Heap.deref_eq ha₁, ok_bind]
    dsimp only
    rw [hid, Slots.get_eq hi, ok_bind, hfree, ok_bind, Slots.assign_eq hi]
    rfl
  · rw [hid, Int.toNat_natCast]
  · rw [hcells₂, hcells₁, Function.update_idem]

/-- **A live data plane can be deleted**, and exactly its slot is emptied. -/
theorem Seated.delete_eq (S : Seated r) {a : Nat} {dp : Dataplane ν ω} (ha : r.heap.cells a = some dp) :
    ∃ r', r.delete a = .ok r' ∧ Deleted r a dp r' := by
  obtain ⟨i, hi, hid, ⟨t, ht⟩, t', ht'⟩ := S.of_live ha
  exact delete_eq_of ha hi hid (by rw [ht, Owner.delete_owned]) (by rw [ht', Owner.delete_owned])

/-- A deletion that returned could delete the tables. -/
theorem delete_owners {a : Nat} {dp : Dataplane ν ω} {r' : Registry ν ω} (ha : r.heap.cells a = some dp)
    (h : r.delete a = .ok r') : dp.ports.delete = .ok () ∧ dp.tables.delete = .ok () := by
  unfold delete at h
  rw [Heap.deref_eq ha, ok_bind] at h
  obtain ⟨heap, -, h⟩ := bind_eq_ok h
  obtain ⟨_, hports, h⟩ := bind_eq_ok h
  obtain ⟨_, htables, -⟩ := bind_eq_ok h
  exact ⟨hports, htables⟩

/-- The deleted data plane's slot is empty, and no other. -/
theorem Deleted.taken_perm {a : Nat} {dp : Dataplane ν ω} {r' : Registry ν ω} (S : Seated r)
    (ha : r.heap.cells a = some dp) (D : Deleted r a dp r') : (a :: r'.dps.taken).Perm r.dps.taken := by
  obtain ⟨i, hi, hid, -⟩ := S.of_live ha
  rw [D.dps, hid, Int.toNat_natCast]
  exact Slots.taken_put_perm hi none

theorem Deleted.seated {a : Nat} {dp : Dataplane ν ω} {r' : Registry ν ω} (S : Seated r)
    (ha : r.heap.cells a = some dp) (D : Deleted r a dp r') : Seated r' := by
  obtain ⟨i, hi, hid, -⟩ := S.of_live ha
  have hdps : r'.dps = r.dps.put i none := by rw [D.dps, hid, Int.toNat_natCast]
  constructor
  -- the emptied slot holds nothing, and no other slot held the deleted data plane
  · intro j b hj
    rw [hdps] at hj
    by_cases hij : i = j
    · subst hij
      unfold Slots.Holds at hj
      rw [Slots.cells_put, List.getElem?_set_self (List.getElem?_eq_some_iff.mp hi).1] at hj
      cases hj
    · have hold := (Slots.holds_put_of_ne hij none b).mp hj
      have hne : b ≠ a := by
        rintro rfl
        exact hij (S.slot_unique hi hold)
      obtain ⟨dp', hdp', hrest⟩ := S.seat j b hold
      exact ⟨dp', by rw [D.cells, Function.update_of_ne hne, hdp'], hrest⟩
  · intro b dp' hb
    obtain ⟨hne, hold⟩ := Heap.live_of_freed D.cells hb
    have hmem := (D.taken_perm S ha).mem_iff.mpr (S.mem_taken.mpr ⟨dp', hold⟩)
    exact Slots.mem_taken.mp ((List.mem_cons.mp hmem).resolve_left hne)

/-! ## Creation -/

/-- What a creation gives whose pipeline loads, by what the lookup and the search for a slot found. -/
def createResult (r : Registry ν ω) (name type : ν) (raw : RawPlane) (pl : Pipeline ω) :
    Ptr → Option Nat → Registry ν ω × Ptr × Int
  | some _, _ => (r, none, fpDataplaneExists)
  | none, none => (r, none, fpDataplaneLimitExceeded)
  | none, some i => (r.added i (newPlane i raw name type pl), some r.heap.next, fpOk)

theorem create_eq {same : ν → ν → Checked Bool} {name : ν} {found : Ptr} (h : r.lookup same name = .ok found) (type : ν)
    (raw : RawPlane) (pl : Pipeline ω) :
    r.create same name type raw (.loaded pl) = .ok (createResult r name type raw pl found r.dps.firstFree) := by
  unfold create
  rw [h, ok_bind]
  cases found with
  | some a => rfl
  | none =>
      cases r.dps.firstFree with
      | none => rfl
      | some i => rfl

/-- A creation whose pipeline does not load leaves the slots and the data planes as they were. -/
theorem unload_eq {i : Nat} {dp : Dataplane ν ω} {r' : Registry ν ω} (hfree : r.dps.cells[i]? = some none)
    (hid : dp.id = i) (h : (r.added i dp).delete r.heap.next = .ok r') :
    r'.dps = r.dps ∧ r'.heap.cells = r.heap.cells := by
  have ha := added_cells_next (r := r) i dp
  obtain ⟨hports, htables⟩ := delete_owners ha h
  have D := of_exists_ok (delete_eq_of ha (Slots.holds_put_self hfree _) hid hports htables) h
  constructor
  · rw [D.dps, hid, Int.toNat_natCast]
    exact Slots.put_put_none hfree _
  · rw [D.cells]
    show Function.update (Function.update r.heap.cells r.heap.next (some dp)) r.heap.next none = _
    rw [Function.update_idem, ← Heap.cells_next r.heap, Function.update_eq_self]

/-- **What a creation can do**: nothing that can be seen, or add a data plane in a free slot. -/
theorem create_cases {same : ν → ν → Checked Bool} {name type : ν} {raw : RawPlane} {load : Loading ω}
    {r' : Registry ν ω} {p : Ptr} {err : Int} (h : r.create same name type raw load = .ok (r', p, err)) :
    (r'.dps = r.dps ∧ r'.heap.cells = r.heap.cells) ∨
    ∃ i pl, r.dps.cells[i]? = some none ∧ r' = r.added i (newPlane i raw name type pl) := by
  obtain ⟨found, -, h⟩ := bind_eq_ok h
  by_cases hfound : found.isSome = true
  · rw [if_pos hfound] at h
    cases h
    exact Or.inl ⟨rfl, rfl⟩
  · rw [if_neg hfound] at h
    cases hfree : r.dps.firstFree with
    | none =>
        rw [hfree] at h
        cases h
        exact Or.inl ⟨rfl, rfl⟩
    | some i =>
        rw [hfree] at h
        have hslot := Slots.firstFree_eq_some hfree
        cases hload : pipelineLoad load with
        | mk pipeline err =>
            dsimp only at h
            rw [hload] at h
            cases pipeline with
            | none =>
                obtain ⟨r₁, h₁, h⟩ := bind_eq_ok h
                cases h
                exact Or.inl (unload_eq hslot rfl h₁)
            | some pl =>
                cases h
                exact Or.inr ⟨i, pl, hslot, rfl⟩

/-! ## Names that stay as they are -/

/-- The characters of a string. -/
abbrev Text := List UInt8

variable (text : ν → Text)

/-- `!strcmp` of two strings that nobody changes. -/
def sameText (a b : ν) : Checked Bool := .ok (text a == text b)

/-- The name of the data plane at `a`. -/
def nameAt (heap : Heap (Dataplane ν ω)) (a : Nat) : Text :=
  match heap.cells a with
  | some dp => text dp.name
  | none => []

variable {text}

theorem nameAt_eq {heap : Heap (Dataplane ν ω)} {a : Nat} {dp : Dataplane ν ω} (h : heap.cells a = some dp) :
    nameAt text heap a = text dp.name := by
  rw [nameAt, h]

/-- The search through the table is a search through the data planes. -/
theorem findLoop_eq (heap : Heap (Dataplane ν ω)) (name : ν) (cells : List Ptr)
    (hlive : ∀ a, some a ∈ cells → ∃ dp, heap.cells a = some dp) :
    findLoop (sameText text) heap name cells
      = .ok ((cells.filterMap id).find? (fun a => nameAt text heap a == text name)) := by
  induction cells with
  | nil => rfl
  | cons c rest ih =>
      have ih := ih (fun a ha => hlive a (List.mem_cons_of_mem _ ha))
      cases c with
      | none => exact ih
      | some a =>
          obtain ⟨dp, hdp⟩ := hlive a (by simp)
          have hmap : (some a :: rest).filterMap id = a :: rest.filterMap id := rfl
          rw [findLoop, Heap.deref_eq hdp, ok_bind, hmap, List.find?_cons, nameAt_eq hdp]
          show (if (text dp.name == text name) = true then _ else _) = _
          cases text dp.name == text name with
          | true => rfl
          | false => exact ih

/-! ## The map -/

/-- A bounded map from names to data planes, and the next address. -/
structure NameMap where
  map : KeyMap Text Nat (fun a b => a == b)
  next : Nat

/-- No names. -/
def NameMap.empty : NameMap := ⟨KeyMap.empty, 0⟩

/-- **What the registry is for**: the call on the map. -/
def nameStep (text : ν → Text) (m : NameMap) : Op ν ω → NameMap × Answer
  | .create name _ _ _ =>
      match m.map.get? (text name) with
      | some _ => (m, .created none fpDataplaneExists)
      | none =>
          if m.map.card = dataplaneMax then (m, .created none fpDataplaneLimitExceeded)
          else (⟨m.map.insert (text name) m.next, m.next + 1⟩, .created (some m.next) fpOk)
  | .delete dp =>
      match m.map.keyOf? dp with
      | some name => ({ m with map := m.map.erase name }, .deleted)
      | none => (m, .deleted)
  | .lookup name => (m, .found (m.map.get? (text name)))

/-- **The registry stands for the map.** -/
structure Stands (text : ν → Text) (r : Registry ν ω) (m : NameMap) : Prop where
  seated : Seated r
  next_eq : r.heap.next = m.next
  entries : (r.dps.taken.map (fun a => (nameAt text r.heap a, a))).Perm m.map.entries

theorem beq_equivalence : Equivalence (fun a b : Text => (a == b) = true) where
  refl a := beq_self_eq_true a
  symm h := by rw [beq_iff_eq] at h ⊢; exact h.symm
  trans h h' := by rw [beq_iff_eq] at h h' ⊢; exact h.trans h'

theorem empty_stands : Stands text (empty : Registry ν ω) NameMap.empty := by
  refine ⟨empty_seated, rfl, ?_⟩
  show ((Slots.empty : Slots Nat dataplaneMax).taken.map _).Perm []
  rw [Slots.taken_empty]
  rfl

variable {m : NameMap}

/-- The entries of the map are the live data planes under their names. -/
theorem Stands.mem_entries (S : Stands text r m) {k : Text} {a : Nat} :
    (k, a) ∈ m.map.entries ↔ ∃ dp, r.heap.cells a = some dp ∧ text dp.name = k := by
  rw [← S.entries.mem_iff, List.mem_map]
  constructor
  · rintro ⟨b, hb, heq⟩
    obtain ⟨dp, hdp⟩ := S.seated.mem_taken.mp hb
    rw [nameAt_eq hdp, Prod.mk.injEq] at heq
    obtain ⟨hk, rfl⟩ := heq
    exact ⟨dp, hdp, hk⟩
  · rintro ⟨dp, hdp, rfl⟩
    exact ⟨a, S.seated.mem_taken.mpr ⟨dp, hdp⟩, by rw [nameAt_eq hdp]⟩

/-- **A name is in the map exactly when a live data plane has it.** -/
theorem Stands.get?_eq_some (S : Stands text r m) {n : ν} {a : Nat} :
    m.map.get? (text n) = some a ↔ ∃ dp, r.heap.cells a = some dp ∧ text dp.name = text n := by
  rw [KeyMap.get?_eq_some beq_equivalence, ← S.mem_entries]
  constructor
  · rintro ⟨⟨k, b⟩, he, hk, rfl⟩
    rw [beq_iff_eq] at hk
    exact hk ▸ he
  · intro he
    exact ⟨(text n, a), he, beq_self_eq_true _, rfl⟩

/-- **`fp_dataplane_lookup` is the lookup of the map.** -/
theorem Stands.lookup_eq (S : Stands text r m) (n : ν) :
    r.lookup (sameText text) n = .ok (m.map.get? (text n)) := by
  have hlive : ∀ a, some a ∈ r.dps.cells → ∃ dp, r.heap.cells a = some dp := by
    intro a ha
    obtain ⟨i, hi⟩ := List.mem_iff_getElem?.mp ha
    obtain ⟨dp, hdp, -⟩ := S.seated.seat i a hi
    exact ⟨dp, hdp⟩
  show findLoop (sameText text) r.heap n r.dps.cells = _
  rw [findLoop_eq _ _ _ hlive]
  congr 1
  show r.dps.taken.find? _ = _
  cases hfind : r.dps.taken.find? (fun a => nameAt text r.heap a == text n) with
  | none =>
      symm
      rw [Option.eq_none_iff_forall_ne_some]
      intro a ha
      obtain ⟨dp, hdp, hname⟩ := S.get?_eq_some.mp ha
      have hne := List.find?_eq_none.mp hfind a (S.seated.mem_taken.mpr ⟨dp, hdp⟩)
      rw [nameAt_eq hdp, hname] at hne
      exact absurd (beq_self_eq_true _) hne
  | some a =>
      obtain ⟨dp, hdp⟩ := S.seated.mem_taken.mp (List.mem_of_find?_eq_some hfind)
      have hname := List.find?_some hfind
      simp only [beq_iff_eq] at hname
      rw [nameAt_eq hdp] at hname
      exact (S.get?_eq_some.mpr ⟨dp, hdp, hname⟩).symm

/-- The map has as many names as data planes are live. -/
theorem Stands.card_eq (S : Stands text r m) : m.map.card = r.dps.taken.length := by
  rw [KeyMap.card, ← S.entries.length_eq, List.length_map]

theorem Stands.full_iff (S : Stands text r m) : m.map.card = dataplaneMax ↔ r.dps.firstFree = none := by
  rw [S.card_eq, Slots.length_taken_eq_iff, Slots.firstFree_eq_none]

/-- A new data plane under a new name. -/
theorem Stands.added (S : Stands text r m) {name : ν} (hnew : m.map.get? (text name) = none) {i : Nat}
    (hfree : r.dps.firstFree = some i) (raw : RawPlane) (type : ν) (pl : Pipeline ω) :
    Stands text (r.added i (newPlane i raw name type pl)) ⟨m.map.insert (text name) m.next, m.next + 1⟩ := by
  have hslot := Slots.firstFree_eq_some hfree
  refine ⟨S.seated.added hslot rfl ⟨_, rfl⟩ ⟨_, rfl⟩, congrArg (· + 1) S.next_eq, ?_⟩
  have hold : ∀ a ∈ r.dps.taken, nameAt text (r.added i (newPlane i raw name type pl)).heap a = nameAt text r.heap a := by
    intro a ha
    obtain ⟨dp, hdp⟩ := S.seated.mem_taken.mp ha
    rw [nameAt_eq hdp, nameAt_eq (added_cells_of_live hdp)]
  have hname : nameAt text (r.added i (newPlane i raw name type pl)).heap r.heap.next = text name :=
    nameAt_eq (added_cells_next i _)
  refine ((added_taken_perm hslot (newPlane i raw name type pl)).map _).trans ?_
  rw [List.map_cons, hname, KeyMap.entries_insert_of_get?_eq_none hnew, ← S.next_eq,
    List.map_congr_left (fun a ha => by rw [hold a ha])]
  exact S.entries.cons _

/-- A deletion erases the name of the data plane. -/
theorem Stands.deleted (S : Stands text r m) {a : Nat} {dp : Dataplane ν ω} {r' : Registry ν ω}
    (ha : r.heap.cells a = some dp) (D : Deleted r a dp r') :
    m.map.keyOf? a = some (text dp.name) ∧ Stands text r' { m with map := m.map.erase (text dp.name) } := by
  have hentry : (text dp.name, a) ∈ m.map.entries := S.mem_entries.mpr ⟨dp, ha, rfl⟩
  constructor
  · obtain ⟨k, hk⟩ := Option.ne_none_iff_exists'.mp (KeyMap.keyOf?_ne_none hentry)
    obtain ⟨dp', hdp', hname⟩ := S.mem_entries.mp (KeyMap.mem_of_keyOf? hk)
    rw [ha] at hdp'
    cases hdp'
    rw [hk, hname]
  · refine ⟨D.seated S.seated ha, D.next.trans S.next_eq, ?_⟩
    have hold : ∀ b ∈ r'.dps.taken, nameAt text r'.heap b = nameAt text r.heap b := by
      intro b hb
      obtain ⟨dp', hdp'⟩ := (D.seated S.seated ha).mem_taken.mp hb
      have hlive := (Heap.live_of_freed D.cells hdp').2
      rw [nameAt_eq hdp', nameAt_eq hlive]
    rw [List.map_congr_left (fun b hb => by rw [hold b hb])]
    refine KeyMap.erase_perm beq_equivalence (x := (text dp.name, a)) ?_ (beq_self_eq_true _)
    -- the old entries are the one of `a` and those of what is left
    have hperm := ((D.taken_perm S.seated ha).map (fun b => (nameAt text r.heap b, b))).trans S.entries
    rwa [List.map_cons, nameAt_eq ha] at hperm

/-! ## Runs -/

/-- Only live data planes are deleted, and loading a pipeline succeeds. -/
def Legal (r : Registry ν ω) : Op ν ω → Prop
  | .create _ _ _ load => ∃ pl, load = .loaded pl
  | .delete a => ∃ dp, r.heap.cells a = some dp
  | .lookup _ => True

/-- **One call answers like the map.** -/
theorem step_stands (S : Stands text r m) (op : Op ν ω) (hlegal : Legal r op) :
    ∃ r', step (sameText text) r op = .ok (r', (nameStep text m op).2) ∧ Stands text r' (nameStep text m op).1 := by
  cases op with
  | create name type raw load =>
      obtain ⟨pl, rfl⟩ := hlegal
      have hcreate := create_eq (S.lookup_eq name) type raw pl
      unfold step nameStep
      dsimp only
      rw [hcreate]
      cases hget : m.map.get? (text name) with
      | some a => exact ⟨r, rfl, S⟩
      | none =>
          cases hfree : r.dps.firstFree with
          | none =>
              rw [if_pos (S.full_iff.mpr hfree)]
              exact ⟨r, rfl, S⟩
          | some i =>
              have hroom : ¬ m.map.card = dataplaneMax := fun h => by
                rw [S.full_iff.mp h] at hfree
                cases hfree
              rw [if_neg hroom, ← S.next_eq]
              exact ⟨_, rfl, S.next_eq ▸ S.added hget hfree raw type pl⟩
  | delete a =>
      obtain ⟨dp, ha⟩ := hlegal
      obtain ⟨r', hdelete, D⟩ := S.seated.delete_eq ha
      obtain ⟨hkey, S'⟩ := S.deleted ha D
      unfold step nameStep
      dsimp only
      rw [hdelete, hkey]
      exact ⟨r', rfl, S'⟩
  | lookup name =>
      unfold step nameStep
      dsimp only
      rw [S.lookup_eq]
      exact ⟨r, rfl, S⟩

/-- A live data plane has this name. -/
def LiveName (text : ν → Text) (r : Registry ν ω) (name : ν) : Prop :=
  ∃ a dp, r.heap.cells a = some dp ∧ text dp.name = text name

/-- **What holds of the registry and its next call**, beside the map: data planes sit in the slots of their ids and have
    different names; a lookup gives the one with the name; a creation fails for the reasons it reports, and then changes
    nothing; a deletion empties the slot of the data plane. -/
structure Faithful (text : ν → Text) (r : Registry ν ω) (m : NameMap) : Prop where
  seat : ∀ a dp, r.heap.cells a = some dp → ∃ i : Nat, dp.id = i ∧ r.dps.Holds i a
  distinct : ∀ a b dp dp', r.heap.cells a = some dp → r.heap.cells b = some dp' → text dp.name = text dp'.name → a = b
  lookup : ∀ name, r.lookup (sameText text) name = .ok (m.map.get? (text name))
  live : ∀ name a, m.map.get? (text name) = some a ↔ ∃ dp, r.heap.cells a = some dp ∧ text dp.name = text name
  create : ∀ name type raw pl, ∃ r' dp err, r.create (sameText text) name type raw (.loaded pl) = .ok (r', dp, err) ∧
    (err = fpDataplaneExists ↔ LiveName text r name) ∧
    (err = fpDataplaneLimitExceeded ↔ ¬ LiveName text r name ∧ ∀ c ∈ r.dps.cells, c ≠ none) ∧
    (dp = none ↔ err = fpDataplaneExists ∨ err = fpDataplaneLimitExceeded) ∧ (dp = none → r' = r)
  delete : ∀ a dp, r.heap.cells a = some dp → ∃ r', r.delete a = .ok r' ∧ r'.dps = r.dps.put dp.id.toNat none

theorem Stands.liveName_iff (S : Stands text r m) (name : ν) :
    LiveName text r name ↔ m.map.get? (text name) ≠ none := by
  rw [Option.ne_none_iff_exists']
  exact exists_congr (fun a => S.get?_eq_some.symm)

theorem Stands.faithful (S : Stands text r m) : Faithful text r m where
  seat a dp ha := by
    obtain ⟨i, hi, hid, -⟩ := S.seated.of_live ha
    exact ⟨i, hid, hi⟩
  distinct a b dp dp' ha hb hname := by
    have hfind := S.get?_eq_some.mpr ⟨dp, ha, hname⟩
    have hfind' := S.get?_eq_some.mpr ⟨dp', hb, rfl⟩
    rw [hfind] at hfind'
    exact Option.some.inj hfind'
  lookup name := S.lookup_eq name
  live name a := S.get?_eq_some
  create name type raw pl := by
    refine ⟨_, _, _, create_eq (S.lookup_eq name) type raw pl, ?_⟩
    rw [S.liveName_iff, ← Slots.firstFree_eq_none]
    cases m.map.get? (text name) with
    | some a => simp [fpDataplaneExists, fpDataplaneLimitExceeded]
    | none =>
        cases r.dps.firstFree with
        | none => simp [fpDataplaneExists, fpDataplaneLimitExceeded]
        | some i => simp [fpDataplaneExists, fpDataplaneLimitExceeded, fpOk]
  delete a dp ha := by
    obtain ⟨r', hdelete, D⟩ := S.seated.delete_eq ha
    exact ⟨r', hdelete, D.dps⟩

/-- **The registry is a bounded map from names along every run**: after every number `n` of calls it has given the map's
    answers, and it stands for the map. -/
theorem registry_refines_map (text : ν → Text) (ops : List (Op ν ω))
    (hlegal : Guarded (step (sameText text)) Legal Registry.empty ops) (n : Nat) :
    ∃ r, runAll (step (sameText text)) Registry.empty (ops.take n)
        = .ok (r, (specAll (nameStep text) NameMap.empty (ops.take n)).2) ∧
      Faithful text r (specAll (nameStep text) NameMap.empty (ops.take n)).1 := by
  obtain ⟨r, hrun, S⟩ := runAll_refines (Stands text) Legal (fun _ _ => True)
    (fun r m op S hl _ => step_stands S op hl) (ops.take n) _ _ empty_stands (hlegal.take n)
    (Guarded.of_mem _ _ (fun _ _ _ => trivial))
  exact ⟨r, hrun, S.faithful⟩

/-- A name is created, its data plane deleted, and the name looked up. -/
def createDelete : List (Op Text Unit) :=
  [.create [97] [] ⟨0, .wild, .wild⟩ (.loaded idle), .delete 0, .lookup [97]]

theorem registry_refines_map_createDelete :
    ∃ r, runAll (step (sameText id)) Registry.empty (createDelete.take 3)
        = .ok (r, (specAll (nameStep id) NameMap.empty (createDelete.take 3)).2) ∧
      Faithful id r (specAll (nameStep id) NameMap.empty (createDelete.take 3)).1 := by
  refine registry_refines_map id createDelete ⟨⟨_, rfl⟩, fun r o h => ⟨?_, fun _ _ _ => ⟨trivial, fun _ _ _ => trivial⟩⟩⟩ 3
  cases h
  exact ⟨_, rfl⟩

end Registry
end Flowpath
end Freeflow
