import Freeflow.Flowpath.HashTrace
import Freeflow.Flowpath.Correctness.HashGrowth

/-!
# `Flowpath.Correctness.HashLog` — every access of the hash table is in range

The log of an insertion, at every depth of its nested resizes (`insertTraced_logs`): each table there is has buckets and a
chain for each of them (`InRange`); a temporary table is larger than the one it is built for (`Grows`), and no more of them
are alive at once than there are larger primes (`Nested`); and if the table had no more entries than its size, so has each of
them (`Counted`). The last one is an inequality, as a resize loses entries and keeps the size. From this the runs of all
operations are safe: `run_in_range`.
-/

namespace Freeflow
namespace Flowpath

variable {K V : Type}

namespace TableEvent

/-- A table has buckets and a chain for each of them; an index is within the array and an `int`. -/
def InRange : TableEvent K V → Prop
  | .table t => 1 ≤ t.buckets ∧ t.buckets ≤ t.data.length
  | .index i length => i < length ∧ i < 2147483648
  | .decrement _ | .build _ _ | .release => True

/-- A table has no more entries than its size, and a size that is counted down is not zero. -/
def Counted : TableEvent K V → Prop
  | .table t => t.data.flatten.length ≤ t.size
  | .decrement size => 0 < size
  | .index _ _ | .build _ _ | .release => True

/-- A temporary table has the next prime as its count, which is larger. -/
def Grows : TableEvent K V → Prop
  | .build old new => nextPrime old = new ∧ old < new
  | .table _ | .index _ _ | .decrement _ | .release => True

/-- How many temporary tables an entry makes. -/
def weight : TableEvent K V → Int
  | .build _ _ => 1
  | .release => -1
  | .table _ | .index _ _ | .decrement _ => 0

theorem weight_table (t : ChainedHashTable K V) : (TableEvent.table t).weight = 0 := rfl

theorem weight_index (i length : Nat) : (TableEvent.index i length : TableEvent K V).weight = 0 := rfl

end TableEvent

namespace ChainedHashTable

open Traced

/-! ## The log belongs to the operations without one -/

theorem bucketTraced_forgets (t : ChainedHashTable K V) (k : K) : Forgets (t.bucketTraced k) (t.bucket k) :=
  (Forgets.ofChecked _).bind (fun _ => Forgets.note_bind ((Forgets.ofChecked _).bind (fun _ => Forgets.pure _)))

theorem findTraced_forgets (t : ChainedHashTable K V) (k : K) : Forgets (t.findTraced k) (t.find k) :=
  Forgets.note_bind ((bucketTraced_forgets t k).bind (fun _ => Forgets.pure _))

theorem prependTraced_forgets (t : ChainedHashTable K V) (k : K) (v : V) :
    Forgets (t.prependTraced k v) (t.prepend k v) :=
  (bucketTraced_forgets t k).bind (fun _ => Forgets.note_bind
    ((Forgets.ofChecked _).bind (fun _ => Forgets.note_bind (Forgets.pure _))))

theorem resizeTraced_forgets
    {insT : ChainedHashTable K V → K → V → Traced (TableEvent K V) (ChainedHashTable K V × List (HashEntry K V))}
    {ins : ChainedHashTable K V → K → V → Checked (ChainedHashTable K V × List (HashEntry K V))}
    (h : ∀ t k v, Forgets (insT t k v) (ins t k v)) (t : ChainedHashTable K V) :
    Forgets (t.resizeTraced insT) (t.resizeWith ins) := by
  unfold resizeTraced resizeWith
  by_cases hz : nextPrime t.buckets = 0
  · rw [if_pos hz, if_pos hz]
    exact Forgets.pure t
  · rw [if_neg hz, if_neg hz]
    refine Forgets.note_bind (Forgets.note_bind (Forgets.bind ?_ (fun t₂ => ?_)))
    · refine Forgets.foldlM (fun t₂ i => Forgets.note_bind ((Forgets.ofChecked _).bind (fun chain => ?_))) _ _
      exact Forgets.foldlM (fun t₂ e => (h t₂ e.key e.value).bind (fun r => Forgets.pure r.1)) chain t₂
    · exact Forgets.note_bind (Forgets.note_bind (Forgets.pure _))

/-- `insertTraced` is `insertFuel` with a log. -/
theorem insertTraced_forgets : ∀ (fuel : Nat) (t : ChainedHashTable K V) (k : K) (v : V),
    Forgets (insertTraced fuel t k v) (insertFuel fuel t k v) := by
  intro fuel
  induction fuel with
  | zero => intro t k v; exact Forgets.ofChecked _
  | succ fuel ih =>
      intro t k v
      refine Forgets.note_bind ?_
      rw [insertFuel]
      by_cases hload : t.loadAtLeastThreeQuarters = true
      · rw [if_pos hload, if_pos hload]
        exact (resizeTraced_forgets ih t).bind (fun t' => prependTraced_forgets t' k v)
      · rw [if_neg hload, if_neg hload]
        exact prependTraced_forgets t k v

theorem updateTraced_forgets (t : ChainedHashTable K V) (k : K) (v : V) :
    Forgets (t.updateTraced k v) (t.update k v) := by
  refine Forgets.note_bind ((bucketTraced_forgets t k).bind (fun r => ?_))
  obtain ⟨n, chain⟩ := r
  cases chain with
  | nil => exact Forgets.pure t
  | cons ent rest => exact (Forgets.ofChecked _).bind (fun data => Forgets.note_bind (Forgets.pure _))

theorem removeTraced_forgets (t : ChainedHashTable K V) (k : K) : Forgets (t.removeTraced k) (t.remove k) := by
  refine Forgets.note_bind ((bucketTraced_forgets t k).bind (fun r => ?_))
  obtain ⟨n, chain⟩ := r
  dsimp only
  cases unlink t.comp k chain with
  | none => exact Forgets.pure t
  | some rest =>
      exact (Forgets.ofChecked _).bind (fun data =>
        Forgets.note_bind (Forgets.note_bind (Forgets.note_bind (Forgets.pure _))))

/-- `callTraced` is `call` with a log. -/
theorem callTraced_forgets (t : ChainedHashTable K V) (c : Call K V) : Forgets (callTraced t c) (call t c) := by
  cases c with
  | insert k v => exact (insertTraced_forgets _ t k v).bind (fun _ => Forgets.pure _)
  | update k v => exact updateTraced_forgets t k v
  | remove k => exact removeTraced_forgets t k
  | find k => exact (findTraced_forgets t k).bind (fun _ => Forgets.pure _)

/-! ## What an operation logs -/

/-- **Logged.** The temporary tables are nested at most `n` deep and each is larger than the one before; every table and
    every index is in range; and if `b` holds, no table has more entries than its size. -/
structure Logged (n : Nat) (b : Prop) (es : List (TableEvent K V)) : Prop where
  nested : Nested TableEvent.weight n es
  inRange : ∀ e ∈ es, e.InRange
  grows : ∀ e ∈ es, e.Grows
  counted : b → ∀ e ∈ es, e.Counted

section Logged

variable {n m : Nat} {b b' : Prop} {e : TableEvent K V} {es es' : List (TableEvent K V)}

theorem Logged.nil : Logged n b ([] : List (TableEvent K V)) :=
  ⟨Nested.nil _ n, List.forall_mem_nil _, List.forall_mem_nil _, fun _ => List.forall_mem_nil _⟩

theorem Logged.mono (h : Logged n b es) (hnm : n ≤ m) (hb : b' → b) : Logged m b' es :=
  ⟨h.nested.mono hnm, h.inRange, h.grows, fun hb' => h.counted (hb hb')⟩

theorem Logged.append (h : Logged n b es) (h' : Logged n b es') : Logged n b (es ++ es') :=
  ⟨h.nested.append h'.nested, List.forall_mem_append.mpr ⟨h.inRange, h'.inRange⟩,
    List.forall_mem_append.mpr ⟨h.grows, h'.grows⟩,
    fun hb => List.forall_mem_append.mpr ⟨h.counted hb, h'.counted hb⟩⟩

/-- A table in front. -/
theorem Logged.table {t : ChainedHashTable K V} (h : Logged n b es) (hrange : (TableEvent.table t).InRange)
    (hcount : b → (TableEvent.table t).Counted) : Logged n b (.table t :: es) :=
  ⟨h.nested.cons (TableEvent.weight_table t), List.forall_mem_cons.mpr ⟨hrange, h.inRange⟩,
    List.forall_mem_cons.mpr ⟨trivial, h.grows⟩,
    fun hb => List.forall_mem_cons.mpr ⟨hcount hb, h.counted hb⟩⟩

/-- An index in front. -/
theorem Logged.index {i length : Nat} (h : Logged n b es) (hlt : i < length) (hint : i < 2147483648) :
    Logged n b (.index i length :: es) :=
  ⟨h.nested.cons (TableEvent.weight_index i length), List.forall_mem_cons.mpr ⟨⟨hlt, hint⟩, h.inRange⟩,
    List.forall_mem_cons.mpr ⟨trivial, h.grows⟩,
    fun hb => List.forall_mem_cons.mpr ⟨trivial, h.counted hb⟩⟩

/-- A temporary table around. -/
theorem Logged.enclose {old new : Nat} (h : Logged n b es) (hnext : nextPrime old = new) (hlt : old < new) :
    Logged (n + 1) b (.build old new :: (es ++ [.release])) :=
  ⟨h.nested.enclose rfl rfl,
    List.forall_mem_cons.mpr ⟨trivial, List.forall_mem_append.mpr ⟨h.inRange, List.forall_mem_singleton.mpr trivial⟩⟩,
    List.forall_mem_cons.mpr ⟨⟨hnext, hlt⟩,
      List.forall_mem_append.mpr ⟨h.grows, List.forall_mem_singleton.mpr trivial⟩⟩,
    fun hb => List.forall_mem_cons.mpr ⟨trivial,
      List.forall_mem_append.mpr ⟨h.counted hb, List.forall_mem_singleton.mpr trivial⟩⟩⟩

end Logged

/-! ## The invariant of the tables -/

/-- **Sound.** The table has buckets and a chain for each of them, and its bucket count is an `int`. -/
structure Sound (t : ChainedHashTable K V) : Prop where
  pos : 1 ≤ t.buckets
  room : t.buckets ≤ t.data.length
  small : t.buckets < 2147483648

/-- The table has no more entries than its size. -/
def Bounded (t : ChainedHashTable K V) : Prop := t.data.flatten.length ≤ t.size

theorem Sound.inRange {t : ChainedHashTable K V} (S : Sound t) : (TableEvent.table t).InRange := ⟨S.pos, S.room⟩

theorem new_sound {b : Nat} (hash : K → Nat) (comp : K → K → Bool) (hb : 1 ≤ b) (hsmall : b < 2147483648) :
    Sound (new b hash comp : ChainedHashTable K V) := ⟨hb, by simp [new], hsmall⟩

theorem new_bounded (b : Nat) (hash : K → Nat) (comp : K → K → Bool) :
    Bounded (new b hash comp : ChainedHashTable K V) := by
  rw [Bounded, flatten_new]
  exact Nat.zero_le _

section Insertion

variable {t : ChainedHashTable K V} {k : K} {v : V}

/-- The home chain is read at an index that is in range. -/
theorem Sound.bucketTraced_logs (S : Sound t) (k : K) : Logs (t.bucketTraced k) (fun es r =>
    ∃ (i : Nat) (chain : List (HashEntry K V)), t.data[i]? = some chain ∧ r = ((i : Int), chain) ∧
      es = [.index i t.data.length] ∧ i < 2147483648) := by
  have hlt : t.hash k % t.buckets < t.buckets := Nat.mod_lt _ S.pos
  have hint : t.hash k % t.buckets < 2147483648 := Nat.lt_trans hlt S.small
  have hget := List.getElem?_eq_getElem (Nat.lt_of_lt_of_le hlt S.room)
  have hload := load_natCast hget
  rw [← toInt_of_lt hint] at hload
  have hindex : t.hashIndex k = .ok (t.hash k % t.buckets) := if_neg (by have := S.pos; omega)
  refine Logs.ofChecked_bind hindex (Logs.note_bind (Logs.ofChecked_bind hload (Logs.pure ?_)))
  exact ⟨_, _, hget, by rw [toInt_of_lt hint], rfl, hint⟩

/-- What an insertion leaves behind. -/
structure Stored (t t' : ChainedHashTable K V) : Prop where
  sound : Sound t'
  size : t'.size = t.size + 1
  le : t.buckets ≤ t'.buckets
  bounded : t.Bounded → t'.Bounded

theorem Sound.prependTraced_logs (S : Sound t) (k : K) (v : V) (n : Nat) :
    Logs (t.prependTraced k v) (fun es r => Logged n t.Bounded es ∧ Stored t r.1) := by
  refine (S.bucketTraced_logs k).bind ?_
  rintro es r ⟨i, chain, hget, rfl, rfl, hint⟩
  have hi := (List.getElem?_eq_some_iff.mp hget).1
  have hroom : t.buckets ≤ (t.data.set i (⟨k, v⟩ :: chain)).length := by
    rw [List.length_set]
    exact S.room
  have hbounded : t.Bounded → Bounded { t with size := t.size + 1, data := t.data.set i (⟨k, v⟩ :: chain) } := by
    intro hb
    show (t.data.set i _).flatten.length ≤ t.size + 1
    rw [(flatten_set_cons_perm hget _).length_eq, List.length_cons]
    exact Nat.succ_le_succ hb
  refine Logs.note_bind (Logs.ofChecked_bind (store_natCast _ hi) (Logs.note_bind (Logs.pure ⟨?_, ?_⟩)))
  · refine Logged.index (Logged.table (Logged.table Logged.nil ⟨S.pos, hroom⟩ hbounded) S.inRange (fun hb => ?_)) hi hint
    exact Nat.le_succ_of_le hb
  · exact ⟨⟨S.pos, hroom, S.small⟩, rfl, Nat.le_refl _, hbounded⟩

/-- **Refilled.** A temporary table while `size` entries are reinserted. -/
structure Refilled (n m size : Nat) (es : List (TableEvent K V)) (t₂ : ChainedHashTable K V) : Prop where
  logged : Logged m True es
  sound : Sound t₂
  le : n ≤ t₂.buckets
  bounded : t₂.Bounded
  size_eq : t₂.size = size

/-- The primes that are left for a table. -/
def primesLeft (t : ChainedHashTable K V) : Nat := (primesAbove t.buckets).length

section Resize

variable {fuel : Nat} (hins : ∀ (t : ChainedHashTable K V) (k : K) (v : V), Sound t → t.primesLeft < fuel →
  Logs (insertTraced fuel t k v) (fun es r => Logged t.primesLeft t.Bounded es ∧ Stored t r.1))
include hins

/-- The entries of a chain are put into the temporary table. -/
theorem reinsertTraced_logs {n m size : Nat} (hfuel : m < fuel) (hleft : (primesAbove n).length ≤ m)
    {es : List (TableEvent K V)} {t₂ : ChainedHashTable K V} (chain : List (HashEntry K V))
    (F : Refilled n m size es t₂) : Logs (chain.foldlM (reinsertTraced (insertTraced fuel)) t₂)
      (fun es' t' => Refilled n m (size + chain.length) (es ++ es') t') := by
  refine Logs.foldlM (fun done es t' => Refilled n m (size + done.length) es t') ?_ chain [] es t₂ rfl F
  intro done e rest es t₃ _ F
  have hm : t₃.primesLeft ≤ m := Nat.le_trans (primesAbove_length_mono F.le) hleft
  refine (hins t₃ e.key e.value F.sound (Nat.lt_of_le_of_lt hm hfuel)).bind ?_
  rintro es' r ⟨hlog, hstored⟩
  refine Logs.pure ⟨?_, hstored.sound, Nat.le_trans F.le hstored.le, hstored.bounded F.bounded, ?_⟩
  · rw [List.append_nil]
    exact F.logged.append (hlog.mono hm (fun _ => F.bounded))
  · rw [hstored.size, F.size_eq, List.length_append, List.length_singleton, Nat.add_assoc]

/-- All chains are, each of them read at an index in range. -/
theorem roundTraced_logs {n m : Nat} (hfuel : m < fuel) (hleft : (primesAbove n).length ≤ m) (S : Sound t)
    {es : List (TableEvent K V)} {t₂ : ChainedHashTable K V} (F : Refilled n m 0 es t₂) :
    Logs ((List.range t.buckets).foldlM (roundTraced (insertTraced fuel) t) t₂)
      (fun es' t' => Refilled n m (t.data.take t.buckets).flatten.length (es ++ es') t') := by
  refine (Logs.foldlM (fun done es t' => Refilled n m (t.data.take done.length).flatten.length es t') ?_
    (List.range t.buckets) [] es t₂ rfl F).mono (fun es' t' F' => ?_)
  · intro done i rest es t₃ hall F
    -- the index of this round is the number of the chains that are done
    have hget : (List.range t.buckets)[done.length]? = some i := by
      rw [List.nil_append] at hall
      rw [hall, List.getElem?_append_right (Nat.le_refl _), Nat.sub_self]
      rfl
    obtain ⟨hi, hget⟩ := List.getElem?_eq_some_iff.mp hget
    rw [List.length_range] at hi
    rw [List.getElem_range] at hget
    subst hget
    have hlt : done.length < t.data.length := Nat.lt_of_lt_of_le hi S.room
    refine Logs.note_bind (Logs.ofChecked_bind (load_natCast (List.getElem?_eq_getElem hlt)) ?_)
    have F₃ : Refilled n m t₃.size (es ++ [.index done.length t.data.length]) t₃ :=
      ⟨F.logged.append (Logged.nil.index hlt (Nat.lt_trans hi S.small)), F.sound, F.le, F.bounded, rfl⟩
    refine (reinsertTraced_logs hins hfuel hleft _ F₃).mono (fun es' t' F' => ?_)
    rw [List.append_assoc, List.singleton_append] at F'
    rw [List.length_append, List.length_singleton, List.take_succ_eq_append_getElem hlt, List.flatten_append,
      List.length_append, List.flatten_singleton, ← F.size_eq]
    exact F'
  · rw [List.nil_append, List.length_range] at F'
    exact F'

/-- **A resize logs what it should**, one deeper than the insertions into its temporary table do. -/
theorem resizeTraced_logs (S : Sound t) (hfuel : t.primesLeft < fuel + 1) :
    Logs (t.resizeTraced (insertTraced fuel)) (fun es t' => Logged t.primesLeft t.Bounded es ∧
      Sound t' ∧ t'.size = t.size ∧ t.buckets ≤ t'.buckets ∧ (t.Bounded → t'.Bounded)) := by
  show Logs (if nextPrime t.buckets = 0 then _ else _) _
  by_cases hz : nextPrime t.buckets = 0
  · rw [if_pos hz]
    exact Logs.pure ⟨Logged.nil, S, rfl, Nat.le_refl _, fun hb => hb⟩
  · rw [if_neg hz]
    obtain ⟨hp, hlt⟩ := nextPrime_mem hz
    have hleft : (primesAbove (nextPrime t.buckets)).length < t.primesLeft := primesAbove_length_lt hp hlt
    obtain ⟨m, hm⟩ : ∃ m, t.primesLeft = m + 1 := ⟨t.primesLeft - 1, by omega⟩
    have hnew : Sound (new (nextPrime t.buckets) t.hash t.comp : ChainedHashTable K V) :=
      new_sound _ _ (by omega) (prime_lt hp)
    have hfresh : Refilled (nextPrime t.buckets) m 0 [] (new (nextPrime t.buckets) t.hash t.comp : ChainedHashTable K V) :=
      ⟨Logged.nil, hnew, Nat.le_refl _, new_bounded _ _ _, rfl⟩
    refine Logs.note_bind (Logs.note_bind ((roundTraced_logs hins (by omega) (by omega) S hfresh).bind ?_))
    rintro es t₂ F
    rw [List.nil_append] at F
    have hroom : nextPrime t.buckets ≤ t₂.data.length := Nat.le_trans F.le F.sound.room
    -- entries in buckets beyond the count are left behind, so there are no more of them than before
    have hbounded : t.Bounded → Bounded { t with buckets := nextPrime t.buckets, data := t₂.data } := by
      intro hb
      have h₂ := F.bounded
      rw [Bounded, F.size_eq] at h₂
      have htake : (t.data.take t.buckets).flatten.length ≤ t.data.flatten.length := by
        conv_rhs => rw [← List.take_append_drop t.buckets t.data, List.flatten_append, List.length_append]
        exact Nat.le_add_right _ _
      exact Nat.le_trans h₂ (Nat.le_trans htake hb)
    refine Logs.note_bind (Logs.note_bind (Logs.pure ⟨?_, ⟨?_, hroom, prime_lt hp⟩, rfl, Nat.le_of_lt hlt, hbounded⟩))
    · have hinner : Logged m t.Bounded (.table (new (nextPrime t.buckets) t.hash t.comp) ::
          (es ++ [.table { t with buckets := nextPrime t.buckets, data := t₂.data }])) := by
        refine Logged.table ((F.logged.mono (Nat.le_refl m) (fun _ => trivial)).append ?_) hnew.inRange
          (fun _ => new_bounded _ _ _)
        exact Logged.nil.table ⟨Nat.lt_of_le_of_lt (Nat.zero_le _) hlt, hroom⟩ hbounded
      have hwhole := hinner.enclose rfl hlt
      rw [hm]
      simpa using hwhole
    · exact Nat.lt_of_le_of_lt (Nat.zero_le _) hlt

end Resize

/-- **An insertion logs what it should**, by induction on the fuel. -/
theorem insertTraced_logs : ∀ (fuel : Nat) (t : ChainedHashTable K V) (k : K) (v : V), Sound t →
    t.primesLeft < fuel →
    Logs (insertTraced fuel t k v) (fun es r => Logged t.primesLeft t.Bounded es ∧ Stored t r.1) := by
  intro fuel
  induction fuel with
  | zero => intro t k v _ h; exact absurd h (Nat.not_lt_zero _)
  | succ fuel ih =>
      intro t k v S hfuel
      refine Logs.note_bind ?_
      by_cases hload : t.loadAtLeastThreeQuarters = true
      · rw [if_pos hload]
        refine (resizeTraced_logs ih S hfuel).bind ?_
        rintro es t₁ ⟨hlog, S₁, hsize, hle, hbounded⟩
        refine (S₁.prependTraced_logs k v t.primesLeft).mono ?_
        rintro es' r ⟨hlog', hstored⟩
        refine ⟨(hlog.append (hlog'.mono (Nat.le_refl _) hbounded)).table S.inRange (fun hb => hb), ?_⟩
        exact ⟨hstored.sound, by rw [hstored.size, hsize], Nat.le_trans hle hstored.le,
          fun hb => hstored.bounded (hbounded hb)⟩
      · rw [if_neg hload]
        refine (S.prependTraced_logs k v t.primesLeft).mono ?_
        rintro es r ⟨hlog, hstored⟩
        exact ⟨hlog.table S.inRange (fun hb => hb), hstored⟩

end Insertion

/-! ## Runs -/

/-- Every table and every index in the log is in range, and no size is counted down below zero. -/
def Safe (es : List (TableEvent K V)) : Prop := ∀ e ∈ es, e.InRange ∧ e.Counted

theorem Logged.safe {n : Nat} {b : Prop} {es : List (TableEvent K V)} (h : Logged n b es) (hb : b) : Safe es :=
  fun e he => ⟨h.inRange e he, h.counted hb e he⟩

section Calls

variable {t : ChainedHashTable K V} (S : Sound t) (hb : t.Bounded)
include S hb

theorem insertCall_logs (k : K) (v : V) :
    Logs (callTraced t (.insert k v)) (fun es t' => Safe es ∧ Sound t' ∧ t'.Bounded) := by
  have hfuel : t.primesLeft < primes.length + 1 := Nat.lt_succ_of_le (primesAbove_length_le t.buckets)
  refine (insertTraced_logs (primes.length + 1) t k v S hfuel).bind ?_
  rintro es r ⟨hlog, hstored⟩
  refine Logs.pure ⟨?_, hstored.sound, hstored.bounded hb⟩
  rw [List.append_nil]
  exact hlog.safe hb

theorem updateTraced_logs (k : K) (v : V) :
    Logs (t.updateTraced k v) (fun es t' => Safe es ∧ Sound t' ∧ t'.Bounded) := by
  refine Logs.note_bind ((S.bucketTraced_logs k).bind ?_)
  rintro es r ⟨i, chain, hget, rfl, rfl, hint⟩
  have hi := (List.getElem?_eq_some_iff.mp hget).1
  cases chain with
  | nil =>
      have hlog : Logged 0 t.Bounded [.table t, .index i t.data.length] :=
        (Logged.nil.index hi hint).table S.inRange (fun hb => hb)
      exact Logs.pure ⟨hlog.safe hb, S, hb⟩
  | cons ent rest =>
      have hroom : t.buckets ≤ (t.data.set i ({ ent with value := v } :: rest)).length := by
        rw [List.length_set]
        exact S.room
      have hbounded : Bounded { t with data := t.data.set i ({ ent with value := v } :: rest) } := by
        have hlen := (flatten_set_perm hget ({ ent with value := v } :: rest)).length_eq
        simp only [List.length_append, List.length_cons] at hlen
        show (t.data.set i _).flatten.length ≤ t.size
        rw [Bounded] at hb
        omega
      have hlast : Logged 0 t.Bounded [.table { t with data := t.data.set i ({ ent with value := v } :: rest) }] :=
        Logged.nil.table ⟨S.pos, hroom⟩ (fun _ => hbounded)
      have hlog := (hlast.index hi hint).table S.inRange (fun hb => hb)
      exact Logs.ofChecked_bind (store_natCast _ hi)
        (Logs.note_bind (Logs.pure ⟨hlog.safe hb, ⟨S.pos, hroom, S.small⟩, hbounded⟩))

theorem removeTraced_logs (k : K) :
    Logs (t.removeTraced k) (fun es t' => Safe es ∧ Sound t' ∧ t'.Bounded) := by
  refine Logs.note_bind ((S.bucketTraced_logs k).bind ?_)
  rintro es r ⟨i, chain, hget, rfl, rfl, hint⟩
  have hi := (List.getElem?_eq_some_iff.mp hget).1
  have hfront : Logged 0 t.Bounded [.table t, .index i t.data.length] :=
    (Logged.nil.index hi hint).table S.inRange (fun hb => hb)
  dsimp only
  cases hun : unlink t.comp k chain with
  | none => exact Logs.pure ⟨hfront.safe hb, S, hb⟩
  | some rest =>
      obtain ⟨e, -, hperm⟩ := unlink_eq_some hun
      have hroom : t.buckets ≤ (t.data.set i rest).length := by
        rw [List.length_set]
        exact S.room
      -- there was the entry that is removed, so the size is not zero
      have hlen : (t.data.set i rest).flatten.length + 1 ≤ t.size := by
        have h₁ := (flatten_set_perm hget rest).length_eq
        have h₂ := hperm.length_eq
        simp only [List.length_append, List.length_cons] at h₁ h₂
        rw [Bounded] at hb
        omega
      have hbounded : Bounded { t with size := decSize t.size, data := t.data.set i rest } := by
        show (t.data.set i rest).flatten.length ≤ decSize t.size
        rw [decSize, if_neg (by omega)]
        omega
      have hsafe : Safe [.table t, .index i t.data.length, .table { t with data := t.data.set i rest },
          .decrement t.size, .table { t with size := decSize t.size, data := t.data.set i rest }] := by
        have h₁ := hfront.safe hb
        simp only [Safe, List.forall_mem_cons] at h₁ ⊢
        exact ⟨h₁.1, h₁.2.1, ⟨⟨S.pos, hroom⟩, Nat.le_of_succ_le hlen⟩, ⟨trivial, Nat.lt_of_lt_of_le (Nat.succ_pos _) hlen⟩,
          ⟨⟨S.pos, hroom⟩, hbounded⟩, List.forall_mem_nil _⟩
      exact Logs.ofChecked_bind (store_natCast _ hi)
        (Logs.note_bind (Logs.note_bind (Logs.note_bind (Logs.pure ⟨hsafe, ⟨S.pos, hroom, S.small⟩, hbounded⟩))))

theorem findCall_logs (k : K) :
    Logs (callTraced t (.find k)) (fun es t' => Safe es ∧ Sound t' ∧ t'.Bounded) := by
  refine Logs.bind (R := fun es _ => Safe es) ?_ (fun es chain hsafe => Logs.pure ?_)
  · refine Logs.note_bind ((S.bucketTraced_logs k).bind ?_)
    rintro es r ⟨i, chain, hget, rfl, rfl, hint⟩
    have hlog : Logged 0 t.Bounded [.table t, .index i t.data.length] :=
      (Logged.nil.index (List.getElem?_eq_some_iff.mp hget).1 hint).table S.inRange (fun hb => hb)
    exact Logs.pure (hlog.safe hb)
  · rw [List.append_nil]
    exact ⟨hsafe, S, hb⟩

/-- **Every call is safe**, and leaves a table of which that can be said again. -/
theorem callTraced_logs (c : Call K V) :
    Logs (callTraced t c) (fun es t' => Safe es ∧ Sound t' ∧ t'.Bounded) := by
  cases c with
  | insert k v => exact insertCall_logs S hb k v
  | update k v => exact updateTraced_logs S hb k v
  | remove k => exact removeTraced_logs S hb k
  | find k => exact findCall_logs S hb k

end Calls

/-- **Every access of a run is in range.** The run returns; every table that exists on the way, the temporary ones
    included, has buckets, a chain for each of them, and no more entries than its size; every index is within its array and
    an `int`; and no size is counted down below zero. -/
theorem run_in_range (hash : K → Nat) (comp : K → K → Bool) (b : Nat) (hb : 1 ≤ b) (hsmall : b < 2147483648)
    (calls : List (Call K V)) : ∃ t log, runTraced b hash comp calls [] = .ok t log ∧
      calls.foldlM call (new b hash comp) = .ok t ∧ ∀ e ∈ log, e.InRange ∧ e.Counted := by
  have hnew : Sound (new b hash comp : ChainedHashTable K V) := new_sound hash comp hb hsmall
  have hlogs : Logs (runTraced b hash comp calls) (fun es (t : ChainedHashTable K V) => Safe es ∧ Sound t ∧ t.Bounded) := by
    refine Logs.note_bind ((Logs.foldlM (fun _ es t => Safe es ∧ Sound t ∧ t.Bounded) ?_ calls [] [] _ rfl
      ⟨List.forall_mem_nil _, hnew, new_bounded b hash comp⟩).mono ?_)
    · rintro done c rest es t - ⟨hsafe, S, hbounded⟩
      refine (callTraced_logs S hbounded c).mono ?_
      rintro es' t' ⟨hsafe', S', hbounded'⟩
      exact ⟨List.forall_mem_append.mpr ⟨hsafe, hsafe'⟩, S', hbounded'⟩
    · rintro es t ⟨hsafe, S, hbounded⟩
      exact ⟨List.forall_mem_cons.mpr ⟨⟨hnew.inRange, new_bounded b hash comp⟩, hsafe⟩, S, hbounded⟩
  obtain ⟨t, log, hrun, hsafe, -, -⟩ := hlogs []
  rw [List.nil_append] at hrun
  refine ⟨t, log, hrun, ?_, hsafe⟩
  exact (Forgets.note_bind (Forgets.foldlM callTraced_forgets calls _)).ok hrun

theorem run_in_range_five : ∃ t log, runTraced 17 uintHash uintEq
      ([.insert 5 7, .insert 5 8, .update 5 0, .remove 5, .find 22] : List (Call Nat Nat)) [] = .ok t log ∧
    [.insert 5 7, .insert 5 8, .update 5 0, .remove 5, .find 22].foldlM call (new 17 uintHash uintEq) = .ok t ∧
    ∀ e ∈ log, e.InRange ∧ e.Counted :=
  run_in_range uintHash uintEq 17 (by decide) (by decide) _

end ChainedHashTable
end Flowpath
end Freeflow
