import Mathlib.Data.List.Infix

/-!
# `Lib.Parser` — parsers over a cursor that may run past the end of its buffer

A parser reads tokens from a cursor, represented by the tokens it has not consumed. It returns a value or
throws, leaving the cursor somewhere, or it reads at the end of the buffer (`overrun`). It also counts the
nodes it allocates. `outOfFuel` is the verdict of a bounded loop whose bound was too small.

Two kinds of facts are carried through whole parsers by one rule per combinator. `Follows` says that a
parser runs in step with a predicate on the remaining tokens which decides whether it will overrun.
`Reads` says that it reads a value off a text, whatever comes behind the text.

## Contents
- `Parsed`, `Parser`, the monad and the primitives `peek`, `advance`, `eat`, `accept`, `allocate`, `throw`.
- `padded`, `separated`.
- `Parsed.Follows` and its rules.
- `Reads`, `ReadsAll` and the rules for the loop.
-/

namespace Freeflow

/-- What running a parser comes to. -/
inductive Parsed (τ α : Type) where
  | value (a : α) (rest : List τ) (nodes : Nat)
  | thrown (what : String) (rest : List τ) (nodes : Nat)
  | overrun
  | outOfFuel
deriving DecidableEq, Repr

/-- A parser, from the tokens the cursor has before it. -/
def Parser (τ α : Type) : Type := List τ → Parsed τ α

variable {τ α β : Type}

/-- Count the nodes allocated before. -/
def Parsed.charge (m : Nat) : Parsed τ α → Parsed τ α
  | .value a rest n => .value a rest (m + n)
  | .thrown what rest n => .thrown what rest (m + n)
  | .overrun => .overrun
  | .outOfFuel => .outOfFuel

@[simp] theorem Parsed.charge_zero (r : Parsed τ α) : r.charge 0 = r := by
  cases r <;> simp [charge]

/-- Change the value. -/
def Parsed.map (f : α → β) : Parsed τ α → Parsed τ β
  | .value a rest n => .value (f a) rest n
  | .thrown what rest n => .thrown what rest n
  | .overrun => .overrun
  | .outOfFuel => .outOfFuel

/-- Go on with `f` from a value, and leave any other way. -/
def Parsed.andThen (f : α → Parser τ β) : Parsed τ α → Parsed τ β
  | .value a rest n => (f a rest).charge n
  | .thrown what rest n => .thrown what rest n
  | .overrun => .overrun
  | .outOfFuel => .outOfFuel

namespace Parser

instance : Monad (Parser τ) where
  pure a := fun s => .value a s 0
  bind p f := fun s => (p s).andThen f

/-- Leave with an exception. -/
def throw (what : String) : Parser τ α := fun s => .thrown what s 0

/-- Allocate one node. -/
def allocate : Parser τ Unit := fun s => .value () s 1

/-- Read the token under the cursor. -/
def peek : Parser τ τ
  | [] => .overrun
  | c :: s => .value c (c :: s) 0

/-- Step over the token under the cursor. -/
def advance : Parser τ τ
  | [] => .overrun
  | c :: s => .value c s 0

/-- Step over tokens while the end is not reached and `p` holds; the tokens stepped over. -/
def eat (p : τ → Bool) : Parser τ (List τ) :=
  fun s => .value (s.takeWhile p) (s.dropWhile p) 0

/-- Step over `c` if it is the token under the cursor. -/
def accept [DecidableEq τ] (c : τ) : Parser τ Bool
  | [] => .value false [] 0
  | x :: s => if x = c then .value true s 0 else .value false (x :: s) 0

/-- Step over blanks before `p`, and after it however it ends. -/
def padded (blank : τ → Bool) (p : Parser τ α) : Parser τ α := fun s =>
  match p (s.dropWhile blank) with
  | .value a rest n => .value a (rest.dropWhile blank) n
  | .thrown what rest n => .thrown what (rest.dropWhile blank) n
  | .overrun => .overrun
  | .outOfFuel => .outOfFuel

/-- One or more items with `sep` between them, as a `do … while` loop of at most `fuel` rounds. -/
def separated [DecidableEq τ] (sep : τ) (item : Parser τ α) : Nat → Parser τ (List α)
  | 0 => fun _ => .outOfFuel
  | fuel + 1 => do
      let a ← item
      if ← accept sep then do
        let as ← separated sep item fuel
        return a :: as
      else return [a]

/-! ## Equations -/

@[simp] theorem pure_apply (a : α) (s : List τ) : (pure a : Parser τ α) s = .value a s 0 := rfl

theorem bind_apply (p : Parser τ α) (f : α → Parser τ β) (s : List τ) :
    (p >>= f) s = (p s).andThen f := rfl

theorem bind_of_value {p : Parser τ α} {f : α → Parser τ β} {s rest : List τ} {a : α} {n : Nat}
    (h : p s = .value a rest n) : (p >>= f) s = (f a rest).charge n := by
  rw [bind_apply, h]
  rfl

/-- A sequence that returned: both parts did. -/
theorem bind_eq_value {p : Parser τ α} {f : α → Parser τ β} {s rest : List τ} {b : β} {n : Nat}
    (h : (p >>= f) s = .value b rest n) :
    ∃ a r m k, p s = .value a r m ∧ f a r = .value b rest k ∧ n = m + k := by
  rw [bind_apply] at h
  cases hp : p s with
  | value a r m =>
      rw [hp] at h
      change (f a r).charge m = _ at h
      cases hf : f a r with
      | value b' rest' k =>
          rw [hf] at h
          cases h
          exact ⟨a, r, m, k, rfl, hf, rfl⟩
      | thrown => rw [hf] at h; cases h
      | overrun => rw [hf] at h; cases h
      | outOfFuel => rw [hf] at h; cases h
  | thrown => rw [hp] at h; cases h
  | overrun => rw [hp] at h; cases h
  | outOfFuel => rw [hp] at h; cases h

@[simp] theorem peek_bind_cons (c : τ) (s : List τ) (f : τ → Parser τ β) :
    (peek >>= f) (c :: s) = f c (c :: s) := by
  rw [bind_of_value rfl, Parsed.charge_zero]

@[simp] theorem advance_bind_cons (c : τ) (s : List τ) (f : τ → Parser τ β) :
    (advance >>= f) (c :: s) = f c s := by
  rw [bind_of_value rfl, Parsed.charge_zero]

@[simp] theorem eat_bind (p : τ → Bool) (s : List τ) (f : List τ → Parser τ β) :
    (eat p >>= f) s = f (s.takeWhile p) (s.dropWhile p) := by
  rw [bind_of_value rfl, Parsed.charge_zero]

@[simp] theorem allocate_bind (s : List τ) (f : Unit → Parser τ β) :
    (allocate >>= f) s = (f () s).charge 1 :=
  bind_of_value rfl

section Accept

variable [DecidableEq τ]

@[simp] theorem accept_bind_self (c : τ) (s : List τ) (f : Bool → Parser τ β) :
    (accept c >>= f) (c :: s) = f true s := by
  rw [bind_of_value (by rw [accept, if_pos rfl]), Parsed.charge_zero]

/-- Without `c` under the cursor nothing is consumed. -/
theorem accept_bind_ne {c : τ} {s : List τ} (h : s.head? ≠ some c) (f : Bool → Parser τ β) :
    (accept c >>= f) s = f false s := by
  cases s with
  | nil => rw [bind_of_value rfl, Parsed.charge_zero]
  | cons x s =>
      have hx : x ≠ c := fun hx => h (by rw [hx]; rfl)
      rw [bind_of_value (by rw [accept, if_neg hx]), Parsed.charge_zero]

/-- The two ways past an optional token. -/
theorem accept_bind_cases (c : τ) (s : List τ) (f : Bool → Parser τ β) :
    (∃ s', s = c :: s' ∧ (accept c >>= f) s = f true s') ∨
    (s.head? ≠ some c ∧ (accept c >>= f) s = f false s) := by
  by_cases h : s.head? = some c
  · left
    cases s with
    | nil => simp at h
    | cons x s =>
        cases h
        exact ⟨s, rfl, accept_bind_self c s f⟩
  · exact Or.inr ⟨h, accept_bind_ne h f⟩

end Accept

end Parser

/-! ## Running in step with a predicate on the tokens ahead -/

/-- The run from `s` keeps inside the buffer unless `enter s`, in which case it overruns. When it returns, it
    has consumed at least `c` tokens, the cursor meets `post`, and `leave` takes over from `enter`. It never
    runs out of fuel. -/
def Parsed.Follows (enter leave : List τ → Bool) (post : List τ → Prop) (c : Nat) (s : List τ) :
    Parsed τ α → Prop
  | .value _ rest _ => rest <:+ s ∧ rest.length + c ≤ s.length ∧ post rest ∧ enter s = leave rest
  | .thrown _ rest _ => rest <:+ s ∧ enter s = false
  | .overrun => enter s = true
  | .outOfFuel => False

/-- No blank is under the cursor. -/
def Trimmed (blank : τ → Bool) (s : List τ) : Prop := ∀ c, s.head? = some c → blank c = false

theorem trimmed_dropWhile (blank : τ → Bool) (s : List τ) : Trimmed blank (s.dropWhile blank) := by
  intro c hc
  have h := List.head?_dropWhile_not blank s
  rw [hc] at h
  simpa using h

theorem Trimmed.dropWhile {blank : τ → Bool} {s : List τ} (h : Trimmed blank s) :
    s.dropWhile blank = s := by
  cases s with
  | nil => rfl
  | cons c s => rw [List.dropWhile_cons_of_neg (by simpa using h c rfl)]

namespace Parsed

variable {enter mid leave : List τ → Bool} {post post' : List τ → Prop} {c d : Nat} {s : List τ}

/-- A value that consumed nothing. -/
theorem Follows.pure (a : α) (n : Nat) (h : post s) (hl : enter s = leave s) :
    (Parsed.value a s n).Follows enter leave post 0 s :=
  ⟨List.suffix_refl _, Nat.le_refl _, h, hl⟩

theorem Follows.mono {r : Parsed τ α} (h : r.Follows enter leave post c s) (hd : d ≤ c) :
    r.Follows enter leave post d s := by
  cases r with
  | value a rest n => exact ⟨h.1, Nat.le_trans (Nat.add_le_add_left hd _) h.2.1, h.2.2⟩
  | thrown => exact h
  | overrun => exact h
  | outOfFuel => exact h

theorem Follows.charge {r : Parsed τ α} (h : r.Follows enter leave post c s) (m : Nat) :
    (r.charge m).Follows enter leave post c s := by
  cases r <;> exact h

theorem Follows.map {r : Parsed τ α} (h : r.Follows enter leave post c s) (f : α → β) :
    (r.map f).Follows enter leave post c s := by
  cases r <;> exact h

/-- A run from a later position counts from an earlier one. -/
theorem Follows.of_suffix {r : Parsed τ α} {t : List τ} (h : r.Follows mid leave post d t) (ht : t <:+ s)
    (hc : t.length + c ≤ s.length) (henter : enter s = mid t) :
    r.Follows enter leave post (c + d) s := by
  cases r with
  | value a rest n => exact ⟨h.1.trans ht, by have := h.2.1; omega, h.2.2.1, henter.trans h.2.2.2⟩
  | thrown => exact ⟨h.1.trans ht, henter.trans h.2⟩
  | overrun => exact henter.trans h
  | outOfFuel => exact h

/-- A run that starts by stepping over one token. -/
theorem Follows.of_tail {r : Parsed τ α} {x : τ} (h : r.Follows mid leave post d s)
    (henter : enter (x :: s) = mid s) : r.Follows enter leave post (d + 1) (x :: s) := by
  have := h.of_suffix (c := 1) (List.suffix_cons x s) (Nat.le_refl _) henter
  rwa [Nat.add_comm] at this

/-- **Sequencing.** -/
theorem Follows.bind {p : Parser τ α} {f : α → Parser τ β} (hp : (p s).Follows enter mid post c s)
    (hf : ∀ a rest, post rest → rest.length + c ≤ s.length → (f a rest).Follows mid leave post' d rest) :
    ((p >>= f) s).Follows enter leave post' (c + d) s := by
  rw [Parser.bind_apply]
  cases h : p s with
  | value a rest n =>
      rw [h] at hp
      exact ((hf a rest hp.2.2.1 hp.2.1).charge n).of_suffix hp.1 hp.2.1 hp.2.2.2
  | thrown => rw [h] at hp; exact hp
  | overrun => rw [h] at hp; exact hp
  | outOfFuel => rw [h] at hp; exact hp

/-- Sequencing with a computation that only allocates and returns. -/
theorem Follows.bind_node {p : Parser τ α} (hp : (p s).Follows enter leave post c s) (f : α → β) :
    ((do let a ← p; Parser.allocate; return f a : Parser τ β) s).Follows enter leave post c s :=
  hp.bind (d := 0) (fun _ _ h _ => Follows.pure _ _ h rfl)

/-- **Padding**, for predicates that blanks do not change. -/
theorem Follows.padded (post : List τ → Prop) {blank : τ → Bool} {p : Parser τ α}
    (henter : ∀ s, enter (s.dropWhile blank) = enter s) (hleave : ∀ s, leave (s.dropWhile blank) = leave s)
    (hp : (p (s.dropWhile blank)).Follows enter leave post c (s.dropWhile blank)) :
    (p.padded blank s).Follows enter leave (Trimmed blank) c s := by
  have hsuf : ∀ t : List τ, t.dropWhile blank <:+ t := fun t => List.dropWhile_suffix _
  unfold Parser.padded
  cases h : p (s.dropWhile blank) with
  | value a rest n =>
      rw [h] at hp
      refine ⟨((hsuf rest).trans hp.1).trans (hsuf s), ?_, trimmed_dropWhile blank rest, ?_⟩
      · have h₁ := (hsuf rest).length_le
        have h₂ := (hsuf s).length_le
        have h₃ := hp.2.1
        omega
      · rw [hleave, ← hp.2.2.2, henter]
  | thrown =>
      rw [h] at hp
      exact ⟨((hsuf _).trans hp.1).trans (hsuf s), by rw [← henter]; exact hp.2⟩
  | overrun => rw [h] at hp; exact (henter s).symm.trans hp
  | outOfFuel => rw [h] at hp; exact hp

/-- **The loop.** After a separator the items start over. -/
theorem Follows.separated [DecidableEq τ] (sep : τ) {item : Parser τ α} {N : Nat}
    (hsep : ∀ s, leave (sep :: s) = enter s)
    (hitem : ∀ s, s.length < N → (item s).Follows enter leave post 1 s) :
    ∀ fuel s, s.length < fuel → s.length < N →
      (item.separated sep fuel s).Follows enter leave (fun t => post t ∧ t.head? ≠ some sep) 1 s := by
  intro fuel
  induction fuel with
  | zero => intro s h _; exact absurd h (Nat.not_lt_zero _)
  | succ fuel ih =>
      intro s hfuel hN
      refine Follows.bind (d := 0) (hitem s hN) (fun a rest hpost hlen => ?_)
      rcases Parser.accept_bind_cases sep rest (fun b => if b = true then do
          let as ← item.separated sep fuel
          return a :: as
        else return [a]) with ⟨s', rfl, heq⟩ | ⟨hne, heq⟩
      · rw [heq, if_pos rfl]
        simp only [List.length_cons] at hlen
        have hrest : ((do let as ← item.separated sep fuel; return a :: as : Parser τ (List α)) s').Follows
            enter leave (fun t => post t ∧ t.head? ≠ some sep) 1 s' :=
          (ih s' (by omega) (by omega)).bind (d := 0) (fun _ _ h _ => Follows.pure _ _ h rfl)
        exact (hrest.of_tail (hsep s')).mono (Nat.zero_le _)
      · rw [heq]
        exact Follows.pure _ _ ⟨hpost, hne⟩ rfl

end Parsed

/-! ## Reading a value off a text -/

/-- The texts in order with `sep` between them. -/
def joined (sep : τ) : List (List τ) → List τ
  | [] => []
  | [t] => t
  | t :: u :: ts => t ++ sep :: joined sep (u :: ts)

/-- Texts of bounded lengths. -/
theorem length_joined_le (sep : τ) {n : Nat} :
    ∀ texts : List (List τ), (∀ t ∈ texts, t.length < n) → (joined sep texts).length ≤ n * texts.length
  | [], _ => by simp [joined]
  | [t], h => by
      have ht := h t (by simp)
      simp only [joined, List.length_cons, List.length_nil]
      omega
  | t :: u :: ts, h => by
      have ht := h t (by simp)
      have hrest := length_joined_le sep (u :: ts) (fun t' ht' => h t' (List.mem_cons_of_mem _ ht'))
      rw [joined, List.length_append, List.length_cons, List.length_cons, Nat.mul_succ]
      omega

/-- The separators alone are one fewer than the texts. -/
theorem length_le_count_joined [DecidableEq τ] (sep : τ) :
    ∀ texts : List (List τ), texts.length ≤ (joined sep texts).count sep + 1
  | [] => Nat.zero_le _
  | [t] => Nat.le_add_left 1 _
  | t :: u :: ts => by
      have h := length_le_count_joined sep (u :: ts)
      simp only [joined, List.length_cons, List.count_append, List.count_cons_self] at h ⊢
      omega

/-- On `text`, `p` gives `a` and allocates `n` nodes, whatever follows that meets `ends`, on inputs shorter
    than `N`. -/
def Reads (ends : List τ → Prop) (N : Nat) (p : Parser τ α) (text : List τ) (a : α) (n : Nat) : Prop :=
  ∀ t, ends t → (text ++ t).length < N → p (text ++ t) = .value a t n

/-- `item` reads each of the texts. -/
inductive ReadsAll (ends : List τ → Prop) (N : Nat) (item : Parser τ α) :
    List (List τ) → List α → Nat → Prop where
  | one {text : List τ} {a : α} {n : Nat} : Reads ends N item text a n → ReadsAll ends N item [text] [a] n
  | cons {text u : List τ} {texts : List (List τ)} {a : α} {as : List α} {n m : Nat} :
      Reads ends N item text a n → ReadsAll ends N item (u :: texts) as m →
      ReadsAll ends N item (text :: u :: texts) (a :: as) (n + m)

variable {ends : List τ → Prop} {N : Nat}

theorem Reads.bind_node {p : Parser τ α} {text : List τ} {a : α} {n : Nat} (h : Reads ends N p text a n)
    (f : α → β) : Reads ends N (do let a ← p; Parser.allocate; return f a) text (f a) (n + 1) := by
  intro t ht hN
  rw [Parser.bind_of_value (h t ht hN)]
  rfl

theorem ReadsAll.length_eq {item : Parser τ α} {texts : List (List τ)} {as : List α} {n : Nat}
    (h : ReadsAll ends N item texts as n) : texts.length = as.length := by
  induction h with
  | one _ => rfl
  | cons _ _ ih => simpa using ih

section Loop

variable [DecidableEq τ] {sep : τ} {item : Parser τ α}

/-- **The loop reads the joined texts.** -/
theorem ReadsAll.separated (hsep : ∀ t, ends (sep :: t)) {texts : List (List τ)} {as : List α} {n : Nat}
    (h : ReadsAll ends N item texts as n) :
    ∀ fuel, as.length ≤ fuel →
      Reads (fun t => ends t ∧ t.head? ≠ some sep) N (item.separated sep fuel) (joined sep texts) as n := by
  induction h with
  | one hr =>
      intro fuel hfuel t ht hN
      obtain ⟨fuel, rfl⟩ := Nat.exists_eq_add_of_le' (show 1 ≤ fuel from hfuel)
      rw [joined, Parser.separated, Parser.bind_of_value (hr t ht.1 hN), Parser.accept_bind_ne ht.2]
      rfl
  | @cons text u texts a as n m hr _ ih =>
      intro fuel hfuel t ht hN
      obtain ⟨fuel, rfl⟩ := Nat.exists_eq_add_of_le' (Nat.le_trans (Nat.le_add_left 1 _) hfuel)
      rw [joined, List.append_assoc, List.cons_append] at hN ⊢
      have hrest := ih fuel (by simpa using hfuel) t ht (by
        simp only [List.length_append, List.length_cons] at hN ⊢
        omega)
      rw [Parser.separated, Parser.bind_of_value (hr _ (hsep _) hN), Parser.accept_bind_self, if_pos rfl,
        Parser.bind_of_value hrest]
      rfl

/-- A loop that returned: each item was read, so if what `item` returns can be read back by `item'`, then
    so can the whole list. -/
theorem ReadsAll.of_separated {item' : Parser τ α} {print : α → List τ}
    (hitem : ∀ s a rest n, item s = .value a rest n → Reads ends N item' (print a) a n) :
    ∀ fuel s as rest n, item.separated sep fuel s = .value as rest n →
      ReadsAll ends N item' (as.map print) as n := by
  intro fuel
  induction fuel with
  | zero => intro s as rest n h; cases h
  | succ fuel ih =>
      intro s as rest n h
      obtain ⟨a, r, m, k, ha, hrest, rfl⟩ := Parser.bind_eq_value h
      rcases Parser.accept_bind_cases sep r (fun b => if b = true then do
          let as ← item.separated sep fuel
          return a :: as
        else return [a]) with ⟨r', rfl, heq⟩ | ⟨_, heq⟩
      · rw [heq, if_pos rfl] at hrest
        obtain ⟨as', r'', m', k', has, hret, rfl⟩ := Parser.bind_eq_value hrest
        cases hret
        have hall := ih r' as' _ m' has
        cases as' with
        | nil => cases hall
        | cons b bs => exact ReadsAll.cons (hitem s a _ m ha) hall
      · rw [heq] at hrest
        cases hrest
        exact ReadsAll.one (hitem s a _ m ha)

/-- The first item of a loop that returned. -/
theorem Parser.separated_head {fuel : Nat} {s rest : List τ} {as : List α} {n : Nat}
    (h : item.separated sep fuel s = .value as rest n) :
    ∃ a as' r m, as = a :: as' ∧ item s = .value a r m := by
  cases fuel with
  | zero => cases h
  | succ fuel =>
      obtain ⟨a, r, m, k, ha, hrest, -⟩ := Parser.bind_eq_value h
      refine ⟨a, as.tail, r, m, ?_, ha⟩
      rcases Parser.accept_bind_cases sep r (fun b => if b = true then do
          let as ← item.separated sep fuel
          return a :: as
        else return [a]) with ⟨r', rfl, heq⟩ | ⟨_, heq⟩
      · rw [heq, if_pos rfl] at hrest
        obtain ⟨as', r'', m', k', -, hret, -⟩ := Parser.bind_eq_value hrest
        cases hret
        rfl
      · rw [heq] at hrest
        cases hrest
        rfl

end Loop

end Freeflow
