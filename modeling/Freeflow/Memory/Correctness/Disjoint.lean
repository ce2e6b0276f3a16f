import Freeflow.Lib.Run
import Freeflow.Memory.Allocator

/-!
# `Memory.Correctness.Disjoint` — which requests a sequential allocator keeps apart

`Sequential_allocator::allocate` fixes the position of a range by the offset in the old block, and only then moves to a
new block, whose offset starts at zero again. The range therefore lies in the middle of the new block, or behind its
end, and the block is later filled from its beginning until it meets that range. `Fits` says from the sizes alone when
neither happens, and `ranges_separate_iff` that it is exactly then that all ranges are apart and inside their blocks.
-/

namespace Freeflow
namespace Memory

/-! ## Ranges -/

/-- The range lies in a block of `size` bytes, after its header. -/
def Range.Inside (size : Int) (r : Range) : Prop := sizeofBlock ≤ r.ptr.pos ∧ r.ptr.pos + r.length ≤ size

/-- The ranges have no byte in common. -/
def Apart (r r' : Range) : Prop :=
  r.ptr.block = r'.ptr.block → r.ptr.pos + r.length ≤ r'.ptr.pos ∨ r'.ptr.pos + r'.length ≤ r.ptr.pos

/-- **The ranges lie in allocated blocks and are pairwise disjoint.** -/
def Separate (size : Int) (heap : Heap Block) (rs : List Range) : Prop :=
  (∀ r ∈ rs, (heap.cells r.ptr.block).isSome ∧ r.Inside size) ∧ rs.Pairwise Apart

/-- The sizes that are requested fit, when `offset` bytes of the block are filled and the bytes from `limit` on are in
    use. A request that makes the allocator move to another block must still end inside a block, and its own offset is the
    limit of the new one. -/
def Fits (size : Int) : Int → Int → List Int → Prop
  | _, _, [] => True
  | limit, offset, n :: ns =>
      if sizeofBlock + offset + n < size - sizeofBlock then
        offset + n ≤ limit ∧ Fits size limit (offset + n) ns
      else sizeofBlock + offset + n ≤ size ∧ Fits size offset n ns

instance Fits.decide (size : Int) : ∀ (limit offset : Int) (ns : List Int), Decidable (Fits size limit offset ns)
  | _, _, [] => isTrue trivial
  | limit, offset, n :: ns =>
      if h : sizeofBlock + offset + n < size - sizeofBlock then
        have := Fits.decide size limit (offset + n) ns
        decidable_of_iff (offset + n ≤ limit ∧ Fits size limit (offset + n) ns) (by rw [Fits, if_pos h])
      else
        have := Fits.decide size offset n ns
        decidable_of_iff (sizeofBlock + offset + n ≤ size ∧ Fits size offset n ns) (by rw [Fits, if_neg h])

/-! ## One call -/

variable {a : SequentialAllocator} {n limit : Int} {rs : List Range}

/-- The last block is allocated, if there is a block, and the offset leaves room in it. -/
structure Sound (a : SequentialAllocator) : Prop where
  ends : a.head.isSome = a.tail.isSome
  tail : ∀ t, a.tail = some t → (a.heap.cells t).isSome
  empty : a.tail = none → a.offset = 0
  nonneg : 0 ≤ a.offset
  small : sizeofBlock + a.offset < a.size - sizeofBlock
  bound : a.size ≤ intMax

theorem Sound.head_isSome (A : Sound a) {t : Nat} (ht : a.tail = some t) : ∃ h, a.head = some h := by
  apply Option.isSome_iff_exists.mp
  rw [A.ends, ht]
  rfl

/-- The position of the next range. -/
theorem Sound.pos_eq (A : Sound a) : Int.bmod (sizeofBlock + a.offset) (2 ^ 32) = sizeofBlock + a.offset := by
  have hnonneg := A.nonneg
  have hsmall := A.small
  have hbound := A.bound
  unfold intMax at hbound
  apply Int.bmod_eq_of_le <;> simp only [sizeofBlock] at * <;> omega

/-- **What a block allocation does**: the new block is live, and so is every block from before. -/
theorem allocateBlock_eq (A : Sound a) :
    ∃ a', a.allocateBlock = .ok a' ∧ a'.size = a.size ∧ a'.offset = 0 ∧ a'.tail = some a.heap.next ∧
      a'.head.isSome ∧ (a'.heap.cells a.heap.next).isSome ∧
      ∀ b, (a.heap.cells b).isSome → (a'.heap.cells b).isSome := by
  have hkeep : ∀ b, (a.heap.cells b).isSome → b ≠ a.heap.next := by
    intro b hb heq
    rw [heq, a.heap.cells_next] at hb
    cases hb
  have hheader : ¬ a.size < sizeofBlock := by
    have hnonneg := A.nonneg
    have hsmall := A.small
    simp only [sizeofBlock] at *
    omega
  cases htail : a.tail with
  | none =>
      have hhead : a.head = none := by
        rw [← Option.not_isSome_iff_eq_none, A.ends, htail]
        simp
      unfold SequentialAllocator.allocateBlock
      rw [if_neg hheader, hhead]
      refine ⟨_, rfl, rfl, rfl, rfl, rfl, ?_, fun b hb => ?_⟩
      · simp
      · rw [Heap.cells_alloc, Function.update_of_ne (hkeep b hb)]
        exact hb
  | some t =>
      obtain ⟨h, hhead⟩ := A.head_isSome htail
      have ht := A.tail t htail
      obtain ⟨blk, hblk⟩ := Option.isSome_iff_exists.mp ht
      have hcell : (a.heap.alloc ⟨none⟩).cells t = some blk := by
        rw [Heap.cells_alloc, Function.update_of_ne (hkeep t ht), hblk]
      obtain ⟨heap, hwrite, hcells, -⟩ := Heap.write_eq hcell ⟨some a.heap.next⟩
      unfold SequentialAllocator.allocateBlock
      rw [if_neg hheader, hhead, htail]
      dsimp only
      rw [hwrite, ok_bind]
      refine ⟨_, rfl, rfl, rfl, rfl, rfl, ?_, fun b hb => ?_⟩
      · rw [hcells, Function.update_of_ne (hkeep t ht).symm]
        simp
      · rw [hcells]
        by_cases hbt : b = t
        · rw [hbt, Function.update_self]
          rfl
        · rw [Function.update_of_ne hbt, Heap.cells_alloc, Function.update_of_ne (hkeep b hb)]
          exact hb

/-- A call once it has its block. -/
theorem request_eq {a' : SequentialAllocator} {t : Nat} (A : Sound a)
    (hensure : a.ensure (sizeofBlock + a.offset) n = .ok a') (ht : a'.tail = some t) (hlo : 0 ≤ a'.offset + n)
    (hhi : a'.offset + n ≤ intMax) :
    request a n = .ok ({ a' with offset := a'.offset + n }, ⟨⟨t, sizeofBlock + a.offset⟩, n⟩) := by
  have hmin : intMin = -2147483648 := rfl
  have hoffset : checkInt (a'.offset + n) = .ok (a'.offset + n) := checkInt_ok (by omega) hhi
  have halloc : a.allocate n = .ok ({ a' with offset := a'.offset + n }, ⟨t, sizeofBlock + a.offset⟩) := by
    unfold SequentialAllocator.allocate
    rw [A.pos_eq]
    dsimp only
    rw [hensure, ok_bind]
    simp only [ht, hoffset, ok_bind, pure_eq_ok]
  rw [request, halloc]
  rfl

/-- **A request that stays in the block** takes the next bytes of it. -/
theorem request_stays (A : Sound a) {t : Nat} (ht : a.tail = some t) (hn : 0 ≤ n)
    (hfit : sizeofBlock + a.offset + n < a.size - sizeofBlock) :
    request a n = .ok ({ a with offset := a.offset + n }, ⟨⟨t, sizeofBlock + a.offset⟩, n⟩) := by
  obtain ⟨h, hhead⟩ := A.head_isSome ht
  have hnonneg := A.nonneg
  have hbound := A.bound
  have hsizeof : sizeofBlock = 8 := rfl
  have hmin : intMin = -2147483648 := rfl
  have hensure : a.ensure (sizeofBlock + a.offset) n = .ok a := by
    unfold SequentialAllocator.ensure
    rw [hhead]
    dsimp only
    rw [checkInt_ok (by omega) (by omega), ok_bind, checkInt_ok (by omega) (by omega), ok_bind,
      if_neg (Int.not_le.mpr hfit), pure_eq_ok]
  exact request_eq A hensure ht (by omega) (by omega)

/-- **A request that moves to a new block** takes bytes of it from the position that would be next in the old block. -/
theorem request_moves (A : Sound a) (hn : 0 ≤ n)
    (hmove : a.tail = none ∨ a.size - sizeofBlock ≤ sizeofBlock + a.offset + n)
    (hrep : sizeofBlock + a.offset + n ≤ intMax) (hroom : sizeofBlock + n < a.size - sizeofBlock) :
    ∃ a', request a n = .ok (a', ⟨⟨a.heap.next, sizeofBlock + a.offset⟩, n⟩) ∧ Sound a' ∧ a'.size = a.size ∧
      a'.offset = n ∧ a'.tail = some a.heap.next ∧ ∀ b, (a.heap.cells b).isSome → (a'.heap.cells b).isSome := by
  obtain ⟨a', hblock, hsize, hoffset, htail, hhead, hnew, hkeep⟩ := allocateBlock_eq A
  have hnonneg := A.nonneg
  have hbound := A.bound
  have hsizeof : sizeofBlock = 8 := rfl
  have hmin : intMin = -2147483648 := rfl
  have hensure : a.ensure (sizeofBlock + a.offset) n = .ok a' := by
    rw [← hblock]
    unfold SequentialAllocator.ensure
    cases hh : a.head with
    | none => rfl
    | some h =>
        have hlast : a.size - sizeofBlock ≤ sizeofBlock + a.offset + n := by
          rcases hmove with hnone | hlast
          · have hends := A.ends
            rw [hh, hnone] at hends
            cases hends
          · exact hlast
        dsimp only
        rw [checkInt_ok (by omega) hrep, ok_bind, checkInt_ok (by omega) (by omega), ok_bind, if_pos hlast]
  have hrequest := request_eq A hensure htail (by omega) (by omega)
  rw [hoffset, Int.zero_add] at hrequest
  refine ⟨_, hrequest, ⟨?_, ?_, ?_, hn, ?_, ?_⟩, hsize, rfl, htail, hkeep⟩
  · rw [hhead, htail]
    rfl
  · intro t ht
    rw [htail] at ht
    cases ht
    exact hnew
  · intro hnone
    rw [htail] at hnone
    cases hnone
  · rw [hsize]
    exact hroom
  · rw [hsize]
    exact hbound

/-- A request whose end is not an `int` does not return. -/
theorem request_overflows (A : Sound a) (hover : intMax < sizeofBlock + a.offset + n)
    (hroom : sizeofBlock + n < a.size - sizeofBlock) : request a n = .error .signedOverflow := by
  have hbound := A.bound
  have hsizeof : sizeofBlock = 8 := rfl
  cases ht : a.tail with
  | none =>
      have hempty := A.empty ht
      omega
  | some t =>
      obtain ⟨h, hhead⟩ := A.head_isSome ht
      have hensure : a.ensure (sizeofBlock + a.offset) n = .error .signedOverflow := by
        unfold SequentialAllocator.ensure
        rw [hhead]
        dsimp only
        rw [checkInt, if_neg (by omega)]
        rfl
      unfold request SequentialAllocator.allocate
      rw [A.pos_eq]
      dsimp only
      rw [hensure]
      rfl

/-! ## What holds between the calls -/

/-- **The ranges are separate**, the block that is filled is free from `offset` to `limit`, and what is in use at `limit`, if
    anything, reaches beyond the offset. -/
structure Placed (a : SequentialAllocator) (limit : Int) (rs : List Range) : Prop where
  sound : Sound a
  fresh : a.tail = none → limit = a.size
  live : ∀ r ∈ rs, (a.heap.cells r.ptr.block).isSome
  inside : ∀ r ∈ rs, r.Inside a.size
  apart : rs.Pairwise Apart
  free : ∀ r ∈ rs, a.tail = some r.ptr.block →
    r.ptr.pos + r.length ≤ sizeofBlock + a.offset ∨ sizeofBlock + limit ≤ r.ptr.pos
  used : limit = a.size ∨
    ∃ r ∈ rs, a.tail = some r.ptr.block ∧ r.ptr.pos = sizeofBlock + limit ∧ 1 ≤ r.length ∧
      a.offset < limit + r.length

/-- A new allocator has returned nothing. -/
theorem placed_new {size : Int} (hbound : size ≤ intMax) (hpos : sizeofBlock < size - sizeofBlock) :
    Placed (.new size) size [] where
  sound := {
    ends := rfl
    tail := fun t ht => by cases ht
    empty := fun _ => rfl
    nonneg := Int.le_refl 0
    small := hpos
    bound := hbound }
  fresh := fun _ => rfl
  live := by simp
  inside := by simp
  apart := List.Pairwise.nil
  free := by simp
  used := Or.inl rfl

theorem Placed.separate (A : Placed a limit rs) : Separate a.size a.heap rs :=
  ⟨fun r hr => ⟨A.live r hr, A.inside r hr⟩, A.apart⟩

/-- A range in the block that is filled is apart from the others if and only if it ends at the limit at most. -/
theorem Placed.stays (A : Placed a limit rs) {t : Nat} (ht : a.tail = some t) (hn : 1 ≤ n)
    (hfit : sizeofBlock + a.offset + n < a.size - sizeofBlock) :
    (a.offset + n ≤ limit →
      Placed { a with offset := a.offset + n } limit (rs ++ [⟨⟨t, sizeofBlock + a.offset⟩, n⟩])) ∧
    (List.Pairwise Apart (rs ++ [⟨⟨t, sizeofBlock + a.offset⟩, n⟩]) → a.offset + n ≤ limit) := by
  have hnonneg := A.sound.nonneg
  have hsizeof : sizeofBlock = 8 := rfl
  constructor
  · intro hle
    have S : Sound { a with offset := a.offset + n } := {
      ends := A.sound.ends
      tail := A.sound.tail
      empty := fun hnone => by
        rw [show a.tail = none from hnone] at ht
        cases ht
      nonneg := by
        dsimp only
        omega
      small := by
        dsimp only
        omega
      bound := A.sound.bound }
    refine ⟨S, A.fresh, ?_, ?_, ?_, ?_, ?_⟩
    · apply List.forall_mem_append.mpr ⟨A.live, List.forall_mem_singleton.mpr (A.sound.tail t ht)⟩
    · apply List.forall_mem_append.mpr ⟨A.inside, List.forall_mem_singleton.mpr ⟨?_, ?_⟩⟩ <;> dsimp only <;> omega
    · rw [List.pairwise_append]
      refine ⟨A.apart, List.pairwise_singleton _ _, fun r hr => List.forall_mem_singleton.mpr (fun hblock => ?_)⟩
      have hfree := A.free r hr (ht.trans (congrArg some hblock.symm))
      dsimp only
      omega
    · refine List.forall_mem_append.mpr ⟨fun r hr htail => ?_, List.forall_mem_singleton.mpr (fun _ => ?_)⟩
      · have hfree := A.free r hr htail
        dsimp only
        omega
      · dsimp only
        omega
    · refine A.used.imp id (fun ⟨r, hr, htail, hpos, hlen, hover⟩ =>
        ⟨r, List.mem_append_left _ hr, htail, hpos, hlen, ?_⟩)
      dsimp only
      omega
  · intro hapart
    rcases A.used with hsize | ⟨r, hr, htail, hpos, hlen, hover⟩
    · omega
    · -- the range at the limit begins before the end of the new one
      have hblock : r.ptr.block = t := by
        rw [ht] at htail
        exact (Option.some.inj htail).symm
      have hlast : r.ptr.pos + r.length ≤ sizeofBlock + a.offset ∨ sizeofBlock + a.offset + n ≤ r.ptr.pos :=
        (List.pairwise_append.mp hapart).2.2 r hr _ (List.mem_singleton_self _) hblock
      omega

/-- A range in a new block is apart from all others. -/
theorem Placed.moves {a' : SequentialAllocator} {limit' : Int} (A : Placed a limit rs) (A' : Sound a') (hn : 1 ≤ n)
    (hsize : a'.size = a.size) (hoffset : a'.offset = n) (htail : a'.tail = some a.heap.next)
    (hkeep : ∀ b, (a.heap.cells b).isSome → (a'.heap.cells b).isSome) (hin : sizeofBlock + a.offset + n ≤ a.size)
    (hlimit : a.offset = 0 ∧ limit' = a.size ∨ 0 < a.offset ∧ limit' = a.offset) :
    Placed a' limit' (rs ++ [⟨⟨a.heap.next, sizeofBlock + a.offset⟩, n⟩]) := by
  have hnonneg := A.sound.nonneg
  have hsizeof : sizeofBlock = 8 := rfl
  have hold : ∀ r ∈ rs, r.ptr.block ≠ a.heap.next := by
    intro r hr heq
    have hlive := A.live r hr
    rw [heq, a.heap.cells_next] at hlive
    cases hlive
  refine ⟨A', ?_, ?_, ?_, ?_, ?_, ?_⟩
  · intro hnone
    rw [htail] at hnone
    cases hnone
  · exact List.forall_mem_append.mpr
      ⟨fun r hr => hkeep _ (A.live r hr), List.forall_mem_singleton.mpr (A'.tail _ htail)⟩
  · rw [hsize]
    exact List.forall_mem_append.mpr ⟨A.inside, List.forall_mem_singleton.mpr ⟨by dsimp only; omega, hin⟩⟩
  · rw [List.pairwise_append]
    refine ⟨A.apart, List.pairwise_singleton _ _, fun r hr => List.forall_mem_singleton.mpr (fun hblock => ?_)⟩
    exact absurd hblock (hold r hr)
  · rw [htail, hoffset]
    refine List.forall_mem_append.mpr ⟨fun r hr heq => ?_, List.forall_mem_singleton.mpr (fun _ => ?_)⟩
    · exact absurd (Option.some.inj heq).symm (hold r hr)
    · dsimp only
      omega
  · rw [hsize, hoffset, htail]
    rcases hlimit with ⟨-, hlimit⟩ | ⟨hpos, hlimit⟩
    · exact Or.inl hlimit
    · refine Or.inr ⟨_, List.mem_append_right _ (List.mem_singleton_self _), rfl, ?_, hn, ?_⟩ <;> dsimp only <;> omega

/-! ## Runs -/

/-- Once the first call has returned a range, a run is separate when the rest of it is. -/
theorem separate_cons_iff {a a₁ : SequentialAllocator} {n : Int} {r : Range} (hr : request a n = .ok (a₁, r)) (size : Int)
    (rs : List Range) (ns : List Int) :
    (∃ a' rs', runAll request a (n :: ns) = .ok (a', rs') ∧ Separate size a'.heap (rs ++ rs')) ↔
      ∃ a' rs', runAll request a₁ ns = .ok (a', rs') ∧ Separate size a'.heap ((rs ++ [r]) ++ rs') := by
  rw [runAll_cons_ok hr]
  constructor
  · rintro ⟨a', rs', hrun, hsep⟩
    obtain ⟨⟨a₂, rs₂⟩, hrun₂, heq⟩ := map_eq_ok hrun
    cases heq
    refine ⟨a₂, rs₂, hrun₂, ?_⟩
    rw [List.append_assoc]
    exact hsep
  · rintro ⟨a', rs', hrun, hsep⟩
    refine ⟨a', r :: rs', by rw [hrun]; rfl, ?_⟩
    rw [List.append_assoc] at hsep
    exact hsep

/-- What a separate run says of the range that its first call returned. -/
theorem separate_first {a a₁ : SequentialAllocator} {n size : Int} {r : Range} {rs : List Range} {ns : List Int}
    (hr : request a n = .ok (a₁, r))
    (h : ∃ a' rs', runAll request a (n :: ns) = .ok (a', rs') ∧ Separate size a'.heap (rs ++ rs')) :
    r.Inside size ∧ (rs ++ [r]).Pairwise Apart := by
  obtain ⟨a', rs', -, hlive, hapart⟩ := (separate_cons_iff hr size rs ns).mp h
  exact ⟨(hlive r (by simp)).2, (List.pairwise_append.mp hapart).1⟩

/-- **Exactly the sizes that fit are kept apart**, from any state between two calls. -/
theorem Placed.separate_iff : ∀ (ns : List Int) (a : SequentialAllocator) (limit : Int) (rs : List Range),
    Placed a limit rs → (∀ n ∈ ns, 1 ≤ n ∧ sizeofBlock + n < a.size - sizeofBlock) →
    ((∃ a' rs', runAll request a ns = .ok (a', rs') ∧ Separate a.size a'.heap (rs ++ rs')) ↔
      Fits a.size limit a.offset ns) := by
  intro ns
  induction ns with
  | nil =>
      intro a limit rs A _
      refine ⟨fun _ => trivial, fun _ => ⟨a, [], rfl, ?_⟩⟩
      rw [List.append_nil]
      exact A.separate
  | cons n ns ih =>
      intro a limit rs A hns
      obtain ⟨hn, hroom⟩ := hns n (by simp)
      have hbound := A.sound.bound
      have hsizeof : sizeofBlock = 8 := rfl
      -- the rest of the run, once the call has returned a range
      have hrest : ∀ (a₁ : SequentialAllocator) (r : Range) (limit' : Int), request a n = .ok (a₁, r) →
          a₁.size = a.size → Placed a₁ limit' (rs ++ [r]) →
          ((∃ a' rs', runAll request a (n :: ns) = .ok (a', rs') ∧ Separate a.size a'.heap (rs ++ rs')) ↔
            Fits a.size limit' a₁.offset ns) := by
        intro a₁ r limit' hr hsize A₁
        have h := ih a₁ limit' (rs ++ [r]) A₁ (fun m hm => by rw [hsize]; exact hns m (List.mem_cons_of_mem n hm))
        rw [hsize] at h
        exact (separate_cons_iff hr a.size rs ns).trans h
      rw [Fits]
      by_cases hfit : sizeofBlock + a.offset + n < a.size - sizeofBlock
      · rw [if_pos hfit]
        cases htail : a.tail with
        | none =>
            have hoffset := A.sound.empty htail
            have hlimit := A.fresh htail
            obtain ⟨a₁, hr, S₁, hsize, hoffset₁, htail₁, hkeep⟩ := request_moves A.sound (by omega) (Or.inl htail)
              (by omega) hroom
            have A₁ := A.moves S₁ hn hsize hoffset₁ htail₁ hkeep (by omega) (Or.inl ⟨hoffset, rfl⟩)
            rw [hrest a₁ _ a.size hr hsize A₁, hoffset₁, hoffset, hlimit, Int.zero_add]
            exact ⟨fun h => ⟨by omega, h⟩, fun h => h.2⟩
        | some t =>
            have hr := request_stays A.sound htail (by omega) hfit
            obtain ⟨hkeep, hapart⟩ := A.stays htail hn hfit
            constructor
            · intro h
              have hle := hapart (separate_first hr h).2
              exact ⟨hle, (hrest _ _ limit hr rfl (hkeep hle)).mp h⟩
            · rintro ⟨hle, h⟩
              exact (hrest _ _ limit hr rfl (hkeep hle)).mpr h
      · rw [if_neg hfit]
        by_cases hrep : sizeofBlock + a.offset + n ≤ intMax
        · obtain ⟨a₁, hr, S₁, hsize, hoffset₁, htail₁, hkeep⟩ := request_moves A.sound (by omega)
            (Or.inr (Int.not_lt.mp hfit)) hrep hroom
          have hmoves := fun hin => A.moves S₁ hn hsize hoffset₁ htail₁ hkeep hin (Or.inr ⟨by omega, rfl⟩)
          constructor
          · intro h
            have hin := (separate_first hr h).1.2
            exact ⟨hin, hoffset₁ ▸ (hrest _ _ a.offset hr hsize (hmoves hin)).mp h⟩
          · rintro ⟨hin, h⟩
            exact (hrest _ _ a.offset hr hsize (hmoves hin)).mpr (by rw [hoffset₁]; exact h)
        · -- the call does not return, and no block is that long
          constructor
          · rintro ⟨a', rs', hrun, -⟩
            obtain ⟨s', o, os', hstep, -, -⟩ := runAll_cons_inv hrun
            rw [request_overflows A.sound (by omega) hroom] at hstep
            cases hstep
          · rintro ⟨hin, -⟩
            omega

/-- **A sequential allocator keeps its ranges apart exactly when the sizes fit**: all calls return, and the ranges lie in
    allocated blocks after the header and are pairwise disjoint. -/
theorem ranges_separate_iff (size : Int) (hbound : size ≤ intMax) (ns : List Int)
    (hns : ∀ n ∈ ns, 1 ≤ n ∧ sizeofBlock + n < size - sizeofBlock) :
    (∃ a rs, runAll request (.new size) ns = .ok (a, rs) ∧ Separate size a.heap rs) ↔ Fits size size 0 ns := by
  cases ns with
  | nil =>
      refine ⟨fun _ => trivial, fun _ => ⟨_, [], rfl, ?_, List.Pairwise.nil⟩⟩
      simp
  | cons n ns =>
      have hroom := hns n (by simp)
      exact (placed_new hbound (by omega)).separate_iff (n :: ns) _ _ [] hns

/-- Two requests fit into a page. -/
theorem ranges_separate_two :
    (∃ a rs, runAll request (.new 4096) [3000, 1000] = .ok (a, rs) ∧ Separate 4096 a.heap rs) ↔
      Fits 4096 4096 0 [3000, 1000] :=
  ranges_separate_iff 4096 (by decide) [3000, 1000] (by decide)

/-- **A range behind the end of its block, and a range handed out twice.** -/
theorem ranges_overlap :
    (¬ ∃ a rs, runAll request (.new 4096) [3000, 3000] = .ok (a, rs) ∧ Separate 4096 a.heap rs) ∧
      ¬ ∃ a rs, runAll request (.new 4096) [4000, 84, 3990] = .ok (a, rs) ∧ Separate 4096 a.heap rs := by
  have houtside : (runAll request (.new 4096) [3000, 3000]).map Prod.snd
      = .ok [⟨⟨0, 8⟩, 3000⟩, ⟨⟨1, 3008⟩, 3000⟩] := by
    decide +kernel
  have htwice : (runAll request (.new 4096) [4000, 84, 3990]).map Prod.snd
      = .ok [⟨⟨0, 8⟩, 4000⟩, ⟨⟨1, 4008⟩, 84⟩, ⟨⟨1, 92⟩, 3990⟩] := by
    decide +kernel
  constructor
  · rintro ⟨a, rs, hrun, hinside, -⟩
    rw [hrun] at houtside
    cases houtside
    exact absurd (hinside ⟨⟨1, 3008⟩, 3000⟩ (by simp)).2.2 (by decide)
  · rintro ⟨a, rs, hrun, -, hapart⟩
    rw [hrun] at htwice
    cases htwice
    have hlast := (List.pairwise_cons.mp (List.pairwise_cons.mp hapart).2).1 ⟨⟨1, 92⟩, 3990⟩ (by simp) rfl
    exact absurd hlast (by decide)

end Memory
end Freeflow
