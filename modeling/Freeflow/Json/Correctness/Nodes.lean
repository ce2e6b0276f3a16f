import Freeflow.Memory.Allocator
import Freeflow.Json.Correctness.Bounds
import Freeflow.Json.Correctness.Rules

/-!
# `Json.Correctness.Nodes` — a parse allocates no more nodes than it consumes characters

A terminal pays for its own node. An element of an array needs one node more, which its comma or the opening bracket pays
for; the two nodes more of a member are paid for by the quotes and the colon of its key. So in the loops one character is
owed, and the character that opened the container pays it.
-/

namespace Freeflow
namespace Json

open Freeflow.Parsed

/-- The nodes and the characters that are left come to at most as many characters as there were, and `owed` more. -/
def Paid (owed : Nat) (s rest : Text) (n : Nat) : Prop := n + rest.length ≤ s.length + owed

/-- A value parser whose nodes are paid for by what it consumed, however it ends. -/
def ValuePaid (value : Parser Byte Value) : Prop :=
  ∀ s, (value s).Meets (fun _ rest n => Paid 0 s rest n) (fun rest n => Paid 0 s rest n)

theorem length_dropWhile_le (p : Byte → Bool) (s : Text) : (s.dropWhile p).length ≤ s.length :=
  (List.dropWhile_suffix p).length_le

/-- A string allocates nothing until its quote is consumed. -/
theorem stringBody_paid (s : Text) :
    (stringBody s).Meets (fun _ rest n => n = 0 ∧ rest.length + 1 ≤ s.length) (fun rest n => n = 0 ∧ rest = []) := by
  apply stringBody_meets (Q := fun s _ rest n => n = 0 ∧ rest.length + 1 ≤ s.length)
    (E := fun _ rest n => n = 0 ∧ rest = [])
  · exact ⟨rfl, rfl⟩
  · exact fun s => ⟨rfl, Nat.le_refl _⟩
  · rintro d s text rest n ⟨hn, h⟩
    simp only [List.length_cons]
    omega
  · exact fun d s rest n h => h
  · rintro c s text rest n - - ⟨hn, h⟩
    simp only [List.length_cons]
    omega
  · exact fun c s rest n _ _ h => h

/-- `parse_pair`: one character is left over for the node of the object. -/
theorem parsePair_paid {value : Parser Byte Value} (hv : ValuePaid value) (s : Text) :
    (parsePair value s).Meets (fun _ rest n => n + 1 + rest.length ≤ s.length) (fun rest n => Paid 0 s rest n) := by
  have hdrop := length_dropWhile_le isspace
  apply parsePair_meets (K := fun _ rest n => n = 1 ∧ rest.length + 2 ≤ s.length)
  · intro c s' _ _
    exact (Nat.zero_add _).le.trans (hdrop s)
  · intro s' hs
    have hlen := hdrop s
    rw [hs, List.length_cons] at hlen
    refine (stringBody_paid s').mono ?_ ?_
    · rintro key rest n ⟨rfl, h⟩
      have hrest := hdrop rest
      exact ⟨rfl, by omega⟩
    · rintro rest n ⟨rfl, rfl⟩
      exact Nat.zero_le _
  · rintro key rest n ⟨rfl, h⟩ -
    unfold Paid
    omega
  · rintro key rest n ⟨rfl, h⟩
    rw [List.length_cons] at h
    refine (hv rest).mono ?_ ?_
    · intro v r m hm
      unfold Paid at hm
      omega
    · intro r m hm
      unfold Paid at hm ⊢
      omega

/-- The loop of `parse_array` and `parse_object`: one character is owed. -/
theorem elements_paid {α : Type} {item : Parser Byte α}
    (hitem : ∀ s, (item s).Meets (fun _ rest n => Paid 0 s rest n) (fun rest n => Paid 1 s rest n)) (s : Text) :
    (elements item s).Meets (fun _ rest n => Paid 1 s rest n) (fun rest n => Paid 1 s rest n) := by
  apply Meets.separated (P := fun s _ rest n => Paid 1 s rest n) (Q := fun s _ rest n => Paid 1 s rest n)
    (F := fun s rest n => Paid 1 s rest n)
  · intro s
    apply Meets.bind_node
    refine (hitem s).mono (fun a rest n h => ?_) (fun _ _ h => h)
    unfold Paid at h ⊢
    omega
  · exact fun s a rest n h _ => h
  · intro s a rest m h as r n h'
    unfold Paid at h h' ⊢
    rw [List.length_cons] at h
    omega
  · intro s a rest m h r n h'
    unfold Paid at h h' ⊢
    rw [List.length_cons] at h
    omega

/-- `parse_array` and `parse_object`: the opening character pays what the loop owes. -/
theorem container_paid {α : Type} {close : Byte} {item : Parser Byte α} {make : List α → Value} {what : String}
    (hitems : ∀ s, (elements item s).Meets (fun _ rest n => Paid 1 s rest n) (fun rest n => Paid 1 s rest n))
    (x : Byte) (s : Text) :
    (container close item make what (x :: s)).Meets (fun _ rest n => Paid 0 (x :: s) rest n)
      (fun rest n => Paid 0 (x :: s) rest n) := by
  have hdrop := length_dropWhile_le isspace s
  apply container_meets (R := fun _ rest n => Paid 0 (x :: s) rest n)
  · intro rest h
    unfold Paid
    rw [h] at hdrop
    simp only [List.length_cons] at hdrop ⊢
    omega
  · intro _
    refine (hitems _).mono (fun xs rest n h => ?_) (fun rest n h => ?_) <;>
    · unfold Paid at h ⊢
      rw [List.length_cons]
      omega
  · intro xs rest n h
    unfold Paid at h ⊢
    rw [List.length_cons] at h
    omega
  · exact fun xs rest n h _ => h

/-- **Nodes are paid for by characters**, by induction on the nesting bound. -/
theorem parseValue_paid : ∀ depth, ValuePaid (parseValue depth) := by
  intro depth
  induction depth with
  | zero => exact fun _ => trivial
  | succ depth ih =>
      intro s
      have hdrop := length_dropWhile_le isspace
      -- the blanks around the value are free
      suffices hvalue : ∀ c s', s.dropWhile isspace = c :: s' →
          (dispatch (parseValue depth) (c :: s')).Meets (fun _ rest n => Paid 0 (c :: s') rest n)
            (fun rest n => Paid 0 (c :: s') rest n) by
        apply parseValue_meets
        intro c s' hs _
        have hlen := hdrop s
        rw [hs] at hlen
        refine (hvalue c s' hs).mono (fun v rest n h => ?_) (fun rest n h => ?_) <;>
        · have hrest := hdrop rest
          unfold Paid at h ⊢
          omega
      intro c s' _
      apply dispatch_meets
      · intro _
        have hlen := length_dropWhile_le isnum s'
        unfold Paid
        rw [List.length_cons]
        omega
      · intro _
        refine (stringBody_paid s').mono ?_ ?_
        · rintro text rest n ⟨rfl, h⟩
          unfold Paid
          rw [List.length_cons]
          omega
        · rintro rest n ⟨rfl, rfl⟩
          exact Nat.zero_le _
      · intro _
        exact container_paid (elements_paid (fun s => (ih s).mono (fun _ _ _ h => h)
          (fun rest n h => Nat.le_trans h (Nat.le_succ _)))) c s'
      · intro _
        exact container_paid (elements_paid (fun s => (parsePair_paid ih s).mono
          (fun p rest n h => by unfold Paid; omega) (fun rest n h => Nat.le_trans h (Nat.le_succ _)))) c s'
      · intro _
        have hlen := length_dropWhile_le isident s'
        unfold Paid
        rw [List.length_cons]
        omega

/-! ## The arena -/

/-- `sizeof(Rep)`: an `int`, padded, and two pointers. -/
def sizeofRep : Int := 24

/-- `Document::allocate` from a buffer, so many times. -/
def allocateNodes : Nat → Memory.BufferAllocator → Option Memory.BufferAllocator
  | 0, b => some b
  | n + 1, b => do
      let (b, _) ← b.allocate sizeofRep
      allocateNodes n b

/-- The nodes fit if and only if there is room for all of them. -/
theorem allocateNodes_isSome_iff : ∀ (n : Nat) (b : Memory.BufferAllocator), b.offset ≤ b.size →
    ((allocateNodes n b).isSome ↔ b.offset + sizeofRep * n ≤ b.size) := by
  intro n
  induction n with
  | zero =>
      intro b hb
      simp [allocateNodes, hb]
  | succ n ih =>
      intro b hb
      have hsizeof : sizeofRep = 24 := rfl
      unfold allocateNodes Memory.BufferAllocator.allocate
      by_cases hfit : b.offset + sizeofRep ≤ b.size
      · rw [if_pos hfit]
        show (allocateNodes n _).isSome ↔ _
        rw [ih _ hfit]
        dsimp only
        rw [hsizeof]
        push_cast
        omega
      · rw [if_neg hfit]
        constructor
        · intro h
          cases h
        · intro h
          rw [hsizeof] at *
          push_cast at h
          omega

/-- **Nodes are bounded by characters**, whether the parse returns or throws; so a buffer of one node for each character
    of the input is large enough. -/
theorem parse_nodes_le (s : Text) :
    (∀ v rest n, parse s = .value v rest n →
      (∃ consumed, s = consumed ++ rest ∧ n ≤ consumed.length) ∧
        (allocateNodes n ⟨sizeofRep * s.length, 0⟩).isSome) ∧
    ∀ what rest n, parse s = .thrown what rest n →
      (∃ consumed, s = consumed ++ rest ∧ n ≤ consumed.length) ∧
        (allocateNodes n ⟨sizeofRep * s.length, 0⟩).isSome := by
  have hpaid := parseValue_paid (s.length + 1) s
  have hbounds := parseValue_follows (s.length + 1) [] s (Nat.lt_succ_self _)
  have hcount : ∀ (rest : Text) (n : Nat), rest <:+ s → Paid 0 s rest n →
      (∃ consumed, s = consumed ++ rest ∧ n ≤ consumed.length) ∧
        (allocateNodes n ⟨sizeofRep * s.length, 0⟩).isSome := by
    rintro rest n ⟨consumed, rfl⟩ h
    unfold Paid at h
    rw [List.length_append] at h
    refine ⟨⟨consumed, rfl, by omega⟩, ?_⟩
    have hsizeof : sizeofRep = 24 := rfl
    rw [hsizeof, allocateNodes_isSome_iff _ _ (by dsimp only; omega), hsizeof, List.length_append]
    push_cast
    omega
  constructor
  · intro v rest n h
    rw [show parseValue (s.length + 1) s = _ from h] at hpaid hbounds
    exact hcount rest n hbounds.1 hpaid
  · intro what rest n h
    rw [show parseValue (s.length + 1) s = _ from h] at hpaid hbounds
    exact hcount rest n hbounds.1 hpaid

end Json
end Freeflow
