import Freeflow.Lib.Fault

/-!
# `Lib.Trace` — computations that keep a log

A computation in `Traced` appends entries to a log and may stop at undefined behaviour; the log does not influence it.
`Forgets x y` says that `y` is `x` without its log, and `Logs x R` that `x` returns, with a value and entries that `R`
relates. The rules for both follow the shape of the computation.

## Contents
- `Traced` with `note` and `ofChecked`, and `logOf`, all that a computation logs.
- `Forgets` and its rules.
- `Logs` and its rules, among them one for loops with an invariant about what is done.
- `Writes` and its rules, for computations that may stop as well.
- `level` and `Nested`: entries that open and close, and how deep they are nested.
-/

namespace Freeflow

variable {ε α β : Type}

/-- A computation with a log of entries `ε`. -/
abbrev Traced (ε α : Type) := EStateM Fault (List ε) α

namespace Traced

/-- Append one entry. -/
def note (x : ε) : Traced ε Unit := fun log => .ok () (log ++ [x])

/-- A computation that logs nothing. -/
def ofChecked (x : Checked α) : Traced ε α := fun log =>
  match x with
  | .ok a => .ok a log
  | .error f => .error f log

/-- The log in the end, whether the computation returns or not. -/
def finalLog (x : Traced ε α) (log : List ε) : List ε :=
  match x log with
  | .ok _ log' => log'
  | .error _ log' => log'

/-- All that a computation logs. -/
def logOf (x : Traced ε α) : List ε := finalLog x []

/-! ## Running a computation -/

theorem bind_run {x : Traced ε α} {f : α → Traced ε β} {a : α} {log log' : List ε} (h : x log = .ok a log') :
    (x >>= f) log = f a log' := by
  show EStateM.bind x f log = _
  rw [EStateM.bind, h]

theorem bind_run_error {x : Traced ε α} {f : α → Traced ε β} {e : Fault} {log log' : List ε}
    (h : x log = .error e log') : (x >>= f) log = .error e log' := by
  show EStateM.bind x f log = _
  rw [EStateM.bind, h]

theorem note_run {f : Unit → Traced ε β} (x : ε) (log : List ε) : (note x >>= f) log = f () (log ++ [x]) := rfl

theorem ofChecked_run {x : Checked α} {f : α → Traced ε β} {a : α} (h : x = .ok a) (log : List ε) :
    (ofChecked x >>= f) log = f a log := by
  rw [h]
  rfl

/-! ## Forgetting the log -/

/-- `y` is what `x` computes, whatever the log. -/
def Forgets (x : Traced ε α) (y : Checked α) : Prop :=
  ∀ log, (∃ a log', x log = .ok a log' ∧ y = .ok a) ∨ ∃ f log', x log = .error f log' ∧ y = .error f

theorem Forgets.pure (a : α) : Forgets (Pure.pure a : Traced ε α) (.ok a) := fun log => Or.inl ⟨a, log, rfl, rfl⟩

theorem Forgets.note (x : ε) : Forgets (Traced.note x) (.ok ()) := fun log => Or.inl ⟨(), log ++ [x], rfl, rfl⟩

theorem Forgets.ofChecked (x : Checked α) : Forgets (Traced.ofChecked x : Traced ε α) x := by
  intro log
  cases x with
  | ok a => exact Or.inl ⟨a, log, rfl, rfl⟩
  | error f => exact Or.inr ⟨f, log, rfl, rfl⟩

/-- The rule for a sequence. -/
theorem Forgets.bind {x : Traced ε α} {y : Checked α} {f : α → Traced ε β} {g : α → Checked β} (hx : Forgets x y)
    (hf : ∀ a, Forgets (f a) (g a)) : Forgets (x >>= f) (y >>= g) := by
  intro log
  rcases hx log with ⟨a, log', hrun, rfl⟩ | ⟨e, log', hrun, rfl⟩
  · rw [bind_run hrun]
    exact hf a log'
  · exact Or.inr ⟨e, log', bind_run_error hrun, rfl⟩

/-- The rule for a sequence whose first part is known to return. -/
theorem Forgets.bind_ok {x : Traced ε α} {a : α} {f : α → Traced ε β} {y : Checked β} (hx : Forgets x (.ok a))
    (hf : Forgets (f a) y) : Forgets (x >>= f) y := by
  intro log
  rcases hx log with ⟨b, log', hrun, hb⟩ | ⟨e, log', -, he⟩
  · cases hb
    rw [bind_run hrun]
    exact hf log'
  · cases he

/-- The rule for an entry in front of a computation. -/
theorem Forgets.note_bind {x : ε} {f : Unit → Traced ε β} {y : Checked β} (hf : Forgets (f ()) y) :
    Forgets (Traced.note x >>= f) y := (Forgets.note x).bind_ok hf

/-- What a computation returned, it returns without the log. -/
theorem Forgets.ok {x : Traced ε α} {y : Checked α} (h : Forgets x y) {a : α} {log log' : List ε}
    (hrun : x log = .ok a log') : y = .ok a := by
  rcases h log with ⟨b, log₁, hb, hy⟩ | ⟨e, log₁, he, -⟩
  · rw [hrun] at hb
    cases hb
    exact hy
  · rw [hrun] at he
    cases he

/-- The rule for a loop. -/
theorem Forgets.foldlM {σ ι : Type} {f : σ → ι → Traced ε σ} {g : σ → ι → Checked σ} (h : ∀ s i, Forgets (f s i) (g s i)) :
    ∀ (is : List ι) (s : σ), Forgets (is.foldlM f s) (is.foldlM g s)
  | [], s => Forgets.pure s
  | i :: is, s => by
      rw [List.foldlM_cons, List.foldlM_cons]
      exact (h s i).bind (fun s' => Forgets.foldlM h is s')

/-! ## What is logged -/

/-- The computation returns, and `R` relates what it logs and its value. -/
def Logs (x : Traced ε α) (R : List ε → α → Prop) : Prop := ∀ log, ∃ a es, x log = .ok a (log ++ es) ∧ R es a

section Logs

variable {x : Traced ε α} {f : α → Traced ε β} {R : List ε → α → Prop} {S : List ε → β → Prop}

theorem Logs.mono {R' : List ε → α → Prop} (h : Logs x R) (hR : ∀ es a, R es a → R' es a) : Logs x R' := by
  intro log
  obtain ⟨a, es, hrun, ha⟩ := h log
  exact ⟨a, es, hrun, hR es a ha⟩

theorem Logs.pure {a : α} (h : R [] a) : Logs (Pure.pure a : Traced ε α) R :=
  fun log => ⟨a, [], by rw [List.append_nil]; rfl, h⟩

/-- The rule for a sequence. -/
theorem Logs.bind (hx : Logs x R) (hf : ∀ es a, R es a → Logs (f a) (fun es' b => S (es ++ es') b)) :
    Logs (x >>= f) S := by
  intro log
  obtain ⟨a, es, hrun, ha⟩ := hx log
  obtain ⟨b, es', hrun', hb⟩ := hf es a ha (log ++ es)
  exact ⟨b, es ++ es', by rw [bind_run hrun, hrun', List.append_assoc], hb⟩

/-- The rule for an entry in front of a computation. -/
theorem Logs.note_bind {e : ε} {g : Unit → Traced ε β} (h : Logs (g ()) (fun es b => S (e :: es) b)) :
    Logs (Traced.note e >>= g) S := by
  intro log
  obtain ⟨b, es, hrun, hb⟩ := h (log ++ [e])
  exact ⟨b, e :: es, by rw [note_run, hrun, List.append_assoc, List.singleton_append], hb⟩

/-- The rule for a part that logs nothing. -/
theorem Logs.ofChecked_bind {y : Checked α} {a : α} (hy : y = .ok a) (h : Logs (f a) S) :
    Logs (Traced.ofChecked y >>= f) S := by
  intro log
  rw [ofChecked_run hy]
  exact h log

/-- The rule for a loop over the list `all`, with an invariant about the part that is done. -/
theorem Logs.foldlM {σ ι : Type} {g : σ → ι → Traced ε σ} {all : List ι} (inv : List ι → List ε → σ → Prop)
    (hstep : ∀ done i rest es s, all = done ++ i :: rest → inv done es s →
      Logs (g s i) (fun es' s' => inv (done ++ [i]) (es ++ es') s')) :
    ∀ (rest done : List ι) (es : List ε) (s : σ), all = done ++ rest → inv done es s →
      Logs (rest.foldlM g s) (fun es' s' => inv all (es ++ es') s') := by
  intro rest
  induction rest with
  | nil =>
      intro done es s hall hs
      rw [List.append_nil] at hall
      refine Logs.pure ?_
      rw [List.append_nil, hall]
      exact hs
  | cons i rest ih =>
      intro done es s hall hs
      rw [List.foldlM_cons]
      refine (hstep done i rest es s hall hs).bind (fun es' s' hs' => ?_)
      refine (ih (done ++ [i]) (es ++ es') s' (by rw [hall, List.append_assoc]; rfl) hs').mono (fun es'' t ht => ?_)
      rw [← List.append_assoc]
      exact ht

/-- The log of a computation that logs what `R` says. -/
theorem Logs.logOf (h : Logs x R) : ∃ a, R (logOf x) a := by
  obtain ⟨a, es, hrun, ha⟩ := h []
  refine ⟨a, ?_⟩
  rw [Traced.logOf, finalLog, hrun]
  exact ha

end Logs

/-- Every entry that the computation makes is one of `P`, whether it returns or not. -/
def Writes (P : ε → Prop) (x : Traced ε α) : Prop := ∀ log, ∃ es, finalLog x log = log ++ es ∧ ∀ e ∈ es, P e

section Writes

variable {P : ε → Prop}

theorem Writes.pure (a : α) : Writes P (Pure.pure a : Traced ε α) :=
  fun log => ⟨[], (List.append_nil log).symm, List.forall_mem_nil P⟩

theorem Writes.note {e : ε} (he : P e) : Writes P (Traced.note e) :=
  fun _ => ⟨[e], rfl, List.forall_mem_singleton.mpr he⟩

theorem Writes.ofChecked (x : Checked α) : Writes P (Traced.ofChecked x : Traced ε α) := by
  intro log
  refine ⟨[], ?_, List.forall_mem_nil P⟩
  cases x <;> exact (List.append_nil log).symm

/-- The rule for a sequence. -/
theorem Writes.bind {x : Traced ε α} {f : α → Traced ε β} (hx : Writes P x) (hf : ∀ a, Writes P (f a)) :
    Writes P (x >>= f) := by
  intro log
  obtain ⟨es, hes, hP⟩ := hx log
  cases hrun : x log with
  | ok a log' =>
      rw [finalLog, hrun] at hes
      change log' = log ++ es at hes
      obtain ⟨es', hes', hP'⟩ := hf a log'
      refine ⟨es ++ es', ?_, List.forall_mem_append.mpr ⟨hP, hP'⟩⟩
      rw [finalLog, bind_run hrun, ← finalLog, hes', hes, List.append_assoc]
  | error e log' =>
      rw [finalLog, hrun] at hes
      exact ⟨es, by rw [finalLog, bind_run_error hrun, hes], hP⟩

/-- The rule for a part that logs nothing. -/
theorem Writes.ofChecked_bind {x : Checked α} {f : α → Traced ε β} (hf : ∀ a, x = .ok a → Writes P (f a)) :
    Writes P (Traced.ofChecked x >>= f) := by
  cases x with
  | error e => exact fun log => ⟨[], (List.append_nil log).symm, List.forall_mem_nil P⟩
  | ok a => exact hf a rfl

/-- The rule for an entry in front of a computation. -/
theorem Writes.note_bind {e : ε} {f : Unit → Traced ε α} (he : P e) (hf : Writes P (f ())) :
    Writes P (Traced.note e >>= f) := (Writes.note he).bind (fun _ => hf)

theorem Writes.logOf {x : Traced ε α} (h : Writes P x) : ∀ e ∈ logOf x, P e := by
  obtain ⟨es, hes, hP⟩ := h []
  rw [Traced.logOf, hes]
  exact hP

end Writes

/-! ## Entries that open and close -/

/-- How much is open after some entries; `w` says what each of them opens and closes. -/
def level (w : ε → Int) : List ε → Int
  | [] => 0
  | e :: es => w e + level w es

/-- **Nested.** In the end everything is closed, and on the way no more than `n` is open. -/
structure Nested (w : ε → Int) (n : Nat) (es : List ε) : Prop where
  closed : level w es = 0
  depth : ∀ m, level w (es.take m) ≤ n

section Nested

variable {w : ε → Int} {n m : Nat} {e e' : ε} {es es' : List ε}

@[simp] theorem level_nil (w : ε → Int) : level w [] = 0 := rfl

@[simp] theorem level_cons (w : ε → Int) (e : ε) (es : List ε) : level w (e :: es) = w e + level w es := rfl

@[simp] theorem level_append (w : ε → Int) (es es' : List ε) : level w (es ++ es') = level w es + level w es' := by
  induction es with
  | nil => rw [List.nil_append, level_nil, Int.zero_add]
  | cons e es ih => rw [List.cons_append, level_cons, level_cons, ih, Int.add_assoc]

theorem Nested.nil (w : ε → Int) (n : Nat) : Nested w n [] := ⟨rfl, fun m => by simp⟩

theorem Nested.mono (h : Nested w n es) (hnm : n ≤ m) : Nested w m es :=
  ⟨h.closed, fun i => Int.le_trans (h.depth i) (by omega)⟩

/-- Entries that neither open nor close. -/
theorem Nested.of_forall (h : ∀ e ∈ es, w e = 0) : Nested w n es := by
  have hzero : ∀ es : List ε, (∀ e ∈ es, w e = 0) → level w es = 0 := by
    intro es h
    induction es with
    | nil => rfl
    | cons e es ih =>
        rw [List.forall_mem_cons] at h
        rw [level_cons, h.1, ih h.2, Int.zero_add]
  refine ⟨hzero es h, fun m => ?_⟩
  rw [hzero (es.take m) (fun e he => h e (List.mem_of_mem_take he))]
  omega

/-- One nest after the other. -/
theorem Nested.append (h : Nested w n es) (h' : Nested w n es') : Nested w n (es ++ es') := by
  refine ⟨by rw [level_append, h.closed, h'.closed]; rfl, fun i => ?_⟩
  rw [List.take_append, level_append]
  rcases Nat.le_total i es.length with hi | hi
  · rw [Nat.sub_eq_zero_of_le hi, List.take_zero, level_nil, Int.add_zero]
    exact h.depth i
  · rw [List.take_of_length_le hi, h.closed, Int.zero_add]
    exact h'.depth _

/-- An entry that neither opens nor closes. -/
theorem Nested.cons (he : w e = 0) (h : Nested w n es) : Nested w n (e :: es) := by
  refine ⟨by rw [level_cons, he, h.closed]; rfl, fun i => ?_⟩
  cases i with
  | zero => simp
  | succ i =>
      rw [List.take_succ_cons, level_cons, he, Int.zero_add]
      exact h.depth i

/-- What stands between an opening and its closing is nested one deeper. -/
theorem Nested.enclose (he : w e = 1) (he' : w e' = -1) (h : Nested w n es) : Nested w (n + 1) (e :: (es ++ [e'])) := by
  have hclosed := h.closed
  refine ⟨by simp only [level_cons, level_append, level_nil, he, he', hclosed]; omega, fun i => ?_⟩
  cases i with
  | zero =>
      rw [List.take_zero, level_nil]
      omega
  | succ i =>
      rw [List.take_succ_cons, level_cons, he, List.take_append, level_append]
      rcases Nat.le_total i es.length with hi | hi
      · have := h.depth i
        rw [Nat.sub_eq_zero_of_le hi, List.take_zero, level_nil]
        omega
      · rw [List.take_of_length_le hi, hclosed]
        cases i - es.length with
        | zero =>
            rw [List.take_zero, level_nil]
            omega
        | succ j =>
            rw [List.take_succ_cons, List.take_nil, level_cons, level_nil, he']
            omega

end Nested

end Traced

end Freeflow
