import Mathlib.Data.List.TakeWhile
import Freeflow.Lib.Fault

/-!
# `Lib.Fields` — strings copied into adjacent fixed-width fields of a buffer

A buffer holds fields of `w` cells each, one after the other. A writer copies every string to the start of its
field without looking at its length; a reader takes a field to be the cells from its start up to the next
terminator, wherever that is. `FieldsFit` is the condition under which the reader gets every string back.

## Contents
- `copyTo`, `copyFields`: the writer.
- `cstring`, `readFields`: the reader.
- `copyFields_ok`, `readFields_eq_iff`.
-/

namespace Freeflow

variable {α : Type}

/-- Copy `xs` into the buffer from index `i` on. -/
def copyTo (buf : List α) (i : Nat) (xs : List α) : Checked (List α) :=
  if i + xs.length ≤ buf.length then .ok (buf.take i ++ xs ++ buf.drop (i + xs.length))
  else .error .outOfBounds

/-- Copy the strings into successive fields of width `w`, the first at index `i`. -/
def copyFields (w : Nat) : Nat → List (List α) → List α → Checked (List α)
  | _, [], buf => .ok buf
  | i, x :: xs, buf => do
      let buf ← copyTo buf i x
      copyFields w (i + w) xs buf

/-- Each copy ends inside a buffer of `n` cells. -/
def copiesFit (w n : Nat) : Nat → List (List α) → Bool
  | _, [] => true
  | i, x :: xs => i + x.length ≤ n && copiesFit w n (i + w) xs

variable [DecidableEq α] (nul : α)

/-- The string that begins at index `i`. -/
def cstring (buf : List α) (i : Nat) : Checked (List α) :=
  if nul ∈ buf.drop i then .ok ((buf.drop i).takeWhile (· ≠ nul)) else .error .outOfBounds

/-- The strings of `n` successive fields. -/
def readFields (w : Nat) (buf : List α) : Nat → Nat → Checked (List (List α))
  | _, 0 => .ok []
  | i, n + 1 => do
      let x ← cstring nul buf i
      let xs ← readFields w buf (i + w) n
      return x :: xs

/-- Each string leaves room for a terminator, or fills its field exactly with a terminator right behind it:
    the start of an empty field, or the end of all fields. -/
def FieldsFit (w : Nat) : List (List α) → Prop
  | [] => True
  | [x] => x.length ≤ w
  | x :: y :: xs => (x.length < w ∨ (x.length = w ∧ y = [])) ∧ FieldsFit w (y :: xs)

instance decidableFieldsFit (w : Nat) : (xs : List (List α)) → Decidable (FieldsFit w xs)
  | [] => inferInstanceAs (Decidable True)
  | [x] => inferInstanceAs (Decidable (x.length ≤ w))
  | x :: y :: xs =>
      have := decidableFieldsFit w (y :: xs)
      inferInstanceAs (Decidable ((x.length < w ∨ (x.length = w ∧ y = [])) ∧ FieldsFit w (y :: xs)))

omit [DecidableEq α] in
/-- Whether the copies stay inside the buffer depends on the lengths only. -/
theorem copyFields_ok_iff (w : Nat) : ∀ (xs : List (List α)) (i : Nat) (buf : List α),
    (∃ buf', copyFields w i xs buf = .ok buf') ↔ copiesFit w buf.length i xs = true
  | [], i, buf => by simp [copyFields, copiesFit]
  | x :: xs, i, buf => by
      by_cases h : i + x.length ≤ buf.length
      · have hlen : (buf.take i ++ x ++ buf.drop (i + x.length)).length = buf.length := by
          simp only [List.length_append, List.length_take, List.length_drop]
          omega
        have ih := copyFields_ok_iff w xs (i + w) (buf.take i ++ x ++ buf.drop (i + x.length))
        rw [hlen] at ih
        simpa [copyFields, copyTo, copiesFit, h] using ih
      · simp [copyFields, copyTo, copiesFit, h]

/-- A string and the terminators behind it, up to the width of the field. -/
def padTo (w : Nat) (x : List α) : List α := x ++ List.replicate (w - x.length) nul

omit [DecidableEq α] in
theorem length_padTo {w : Nat} {x : List α} (h : x.length ≤ w) : (padTo nul w x).length = w := by
  simp only [padTo, List.length_append, List.length_replicate]
  omega

omit [DecidableEq α] in
/-- **What the writer leaves behind** when no string is longer than its field. -/
theorem copyFields_eq (w : Nat) : ∀ (xs : List (List α)) (pre : List α) (m : Nat),
    (∀ x ∈ xs, x.length ≤ w) → w * xs.length ≤ m →
    copyFields w pre.length xs (pre ++ List.replicate m nul)
      = .ok (pre ++ (xs.map (padTo nul w)).flatten ++ List.replicate (m - w * xs.length) nul)
  | [], pre, m, _, _ => by simp [copyFields]
  | x :: xs, pre, m, hx, hm => by
      have hxw : x.length ≤ w := hx x (by simp)
      rw [List.length_cons, Nat.mul_succ] at hm
      have hpad : (pre ++ padTo nul w x).length = pre.length + w := by
        rw [List.length_append, length_padTo nul hxw]
      have hcopy : copyTo (pre ++ List.replicate m nul) pre.length x
          = .ok (pre ++ padTo nul w x ++ List.replicate (m - w) nul) := by
        rw [copyTo, if_pos (by simp only [List.length_append, List.length_replicate]; omega),
          List.take_left, List.drop_append, List.drop_of_length_le (Nat.le_add_right _ _), List.nil_append,
          List.drop_replicate, padTo, List.append_assoc, List.append_assoc, List.append_assoc,
          List.replicate_append_replicate]
        congr 4
        omega
      have hrest : m - w - w * xs.length = m - (w * xs.length + w) := by omega
      rw [copyFields, hcopy, ok_bind, ← hpad,
        copyFields_eq w xs _ (m - w) (fun y hy => hx y (List.mem_cons_of_mem x hy)) (by omega), hrest]
      simp only [List.map_cons, List.flatten_cons, List.append_assoc, List.length_cons, Nat.mul_succ]

/-- A string that holds no terminator is read up to the terminator that follows. -/
theorem takeWhile_append_nul {x rest : List α} (hx : nul ∉ x) :
    (x ++ rest).takeWhile (· ≠ nul) = x ↔ ∀ c, rest.head? = some c → c = nul := by
  have hall : ∀ c ∈ x, decide (c ≠ nul) = true := fun c hc => by
    simp only [decide_eq_true_eq]
    rintro rfl
    exact hx hc
  rw [List.takeWhile_append_of_pos hall]
  cases rest with
  | nil => simp
  | cons c rest =>
      by_cases hc : c = nul
      · simp [hc]
      · simp [hc]

omit [DecidableEq α] in
/-- The cell behind a string holds a terminator if the field has room for one or the next field is empty. -/
theorem behind_eq_nul_iff {w m : Nat} (hw : 0 < w) (hm : 0 < m) {x : List α} {xs : List (List α)}
    (hxw : x.length ≤ w) (hnul : ∀ y ∈ xs, nul ∉ y) :
    (∀ c, (List.replicate (w - x.length) nul ++ (xs.map (padTo nul w)).flatten
        ++ List.replicate m nul).head? = some c → c = nul) ↔
      (x.length < w ∨ ∀ y, xs.head? = some y → y = []) := by
  rcases Nat.lt_or_eq_of_le hxw with hlt | heq
  · obtain ⟨d, hd⟩ := Nat.exists_eq_add_of_lt hlt
    rw [show w - x.length = d + 1 by omega, List.replicate_succ]
    simp [hlt]
  · rw [heq, Nat.sub_self, List.replicate_zero, List.nil_append]
    cases xs with
    | nil =>
        obtain ⟨d, rfl⟩ := Nat.exists_eq_add_of_le' hm
        simp [List.replicate_succ]
    | cons y ys =>
        cases y with
        | nil =>
            obtain ⟨d, rfl⟩ := Nat.exists_eq_add_of_le' hw
            simp [padTo, List.replicate_succ]
        | cons c cs =>
            have hc : c ≠ nul := fun hc => hnul (c :: cs) (by simp) (by simp [hc])
            simp [padTo, hc]

omit [DecidableEq α] in
theorem fieldsFit_cons {w : Nat} {x : List α} (hxw : x.length ≤ w) (xs : List (List α)) :
    FieldsFit w (x :: xs) ↔ (x.length < w ∨ ∀ y, xs.head? = some y → y = []) ∧ FieldsFit w xs := by
  cases xs with
  | nil => simp [FieldsFit, hxw]
  | cons y ys =>
      have hor : (x.length < w ∨ x.length = w ∧ y = []) ↔ (x.length < w ∨ y = []) := by
        constructor
        · rintro (h | h)
          · exact Or.inl h
          · exact Or.inr h.2
        · rintro (h | h)
          · exact Or.inl h
          · rcases Nat.lt_or_eq_of_le hxw with hlt | heq
            · exact Or.inl hlt
            · exact Or.inr ⟨heq, h⟩
      simp [FieldsFit, hor]

/-- **The reader gets every string back exactly when the fields fit**: on fields that were written within their
    widths, from strings without terminators, with a terminator behind the last field. -/
theorem readFields_eq_iff {w m : Nat} (hw : 0 < w) (hm : 0 < m) : ∀ (xs : List (List α)) (pre : List α),
    (∀ x ∈ xs, x.length ≤ w) → (∀ x ∈ xs, nul ∉ x) →
    (readFields nul w (pre ++ (xs.map (padTo nul w)).flatten ++ List.replicate m nul) pre.length xs.length
      = .ok xs ↔ FieldsFit w xs)
  | [], pre, _, _ => by simp [readFields, FieldsFit]
  | x :: xs, pre, hx, hnul => by
      have hxw : x.length ≤ w := hx x (by simp)
      have hnuls : ∀ y ∈ xs, nul ∉ y := fun y hy => hnul y (List.mem_cons_of_mem x hy)
      have ih := readFields_eq_iff hw hm xs (pre ++ padTo nul w x)
        (fun y hy => hx y (List.mem_cons_of_mem x hy)) hnuls
      rw [List.length_append, length_padTo nul hxw] at ih
      have hbehind := behind_eq_nul_iff nul hw hm hxw hnuls
      -- what stands behind the string of the first field
      generalize hrest : List.replicate (w - x.length) nul ++ (xs.map (padTo nul w)).flatten
        ++ List.replicate m nul = rest at hbehind
      have hbuf : pre ++ ((x :: xs).map (padTo nul w)).flatten ++ List.replicate m nul
          = pre ++ padTo nul w x ++ (xs.map (padTo nul w)).flatten ++ List.replicate m nul := by
        simp only [List.map_cons, List.flatten_cons, List.append_assoc]
      have hdrop : (pre ++ padTo nul w x ++ (xs.map (padTo nul w)).flatten
          ++ List.replicate m nul).drop pre.length = x ++ rest := by
        simp only [← hrest, List.append_assoc, List.drop_left, padTo]
      have hmem : nul ∈ x ++ rest := by
        simp only [← hrest, List.mem_append, List.mem_replicate]
        exact Or.inr (Or.inr ⟨by omega, trivial⟩)
      have hfirst : cstring nul (pre ++ padTo nul w x ++ (xs.map (padTo nul w)).flatten
          ++ List.replicate m nul) pre.length = .ok ((x ++ rest).takeWhile (· ≠ nul)) := by
        rw [cstring, hdrop, if_pos hmem]
      rw [fieldsFit_cons hxw, ← ih, ← hbehind, ← takeWhile_append_nul nul (hnul x (by simp)), hbuf,
        List.length_cons, readFields, hfirst, ok_bind]
      cases readFields nul w (pre ++ padTo nul w x ++ (xs.map (padTo nul w)).flatten ++ List.replicate m nul)
          (pre.length + w) xs.length with
      | error e => simp
      | ok ys => simp

end Freeflow
