import Mathlib.Algebra.Group.Nat.Defs
import Freeflow.Lib.Run
import Freeflow.Json.Correctness.Bounds
import Freeflow.Json.Correctness.Built
import Freeflow.Json.Correctness.Completeness
import Freeflow.Json.Correctness.Soundness

/-!
# `Json.Correctness.Chains` — a parsed container holds its elements, whatever is parsed after it

A node that stands for an array is the first one of a chain that has a node for each element, and `size` and `operator[]`
count and find these. Later parses do not change the nodes that are there; so what was parsed stays, and the static empty
nodes stay empty. `size` counts in an `int`, and no further than that.

## Contents
- `count_eq`, `valueAt_eq`: what `count` and `at` compute on a chain.
- `ArrayAt`, `ObjectAt`: what a container has to offer.
- `parses_run`: a sequence of parses.
-/

namespace Freeflow
namespace Json

variable {L : Linking Node Ptr} {h : Heap Node}

/-! ## `count` and `at` -/

/-- The loop of `count` counts the nodes, as long as an `int` can. -/
theorem countFrom_eq {p : Ptr} {xs : List (Nat × Ptr)} (hl : Linked L h.Has p xs) :
    ∀ (fuel : Nat) (n : Int), 0 ≤ n → n ≤ intMax → intMax < n + fuel → countFrom L h fuel p n =
      if n + xs.length ≤ intMax then .ok (n + xs.length) else .error .signedOverflow := by
  induction hl with
  | nil =>
      intro fuel n _ hmax _
      rw [List.length_nil, Int.natCast_zero, Int.add_zero, if_pos hmax]
      cases fuel <;> rfl
  | @cons a x p xs ha _ ih =>
      intro fuel n hmin hmax hfuel
      cases fuel with
      | zero =>
          rw [Int.natCast_zero, Int.add_zero] at hfuel
          omega
      | succ fuel =>
          rw [countFrom, L.load_eq ha, ok_bind]
          show (checkInt (n + 1) >>= _) = _
          rw [List.length_cons]
          push_cast at hfuel ⊢
          by_cases hnext : n + 1 ≤ intMax
          · rw [checkInt_ok (by unfold intMin; omega) hnext, ok_bind, ih fuel (n + 1) (by omega) hnext (by omega)]
            congr 2 <;> omega
          · rw [checkInt, if_neg (fun hr => hnext hr.2), if_neg (by omega)]
            rfl

/-- **`count` gives the number of nodes**, if it is an `int`, and overflows if it is not. -/
theorem count_eq {empty : Nat} {p : Ptr} {xs : List (Nat × Ptr)} (hc : Chain L empty h.Has p xs)
    (hitems : ∀ x ∈ xs, x.2 ≠ none) :
    count L h p = if (xs.length : Int) ≤ intMax then .ok (xs.length : Int) else .error .signedOverflow := by
  cases hc with
  | empty he =>
      rw [count, L.load_eq he]
      rfl
  -- the first value is not null, so that the chain is not taken for an empty one
  | @nodes a x xs hl =>
      have hcount := countFrom_eq hl (intMax.toNat + 1) 0 (Int.le_refl 0) (by decide) (by decide)
      simp only [Int.zero_add] at hcount
      rw [← hcount]
      cases hl with
      | @cons a v next _ ha _ =>
          have hv := hitems (a, v) (by simp)
          rw [count, L.load_eq ha, ok_bind]
          show (if v.isNone = true then _ else _) = _
          rw [if_neg (by simpa [Option.isNone_iff_eq_none] using hv)]

/-- The loop of `at` goes from node to node. -/
theorem valueFrom_eq {p : Ptr} {x : Nat × Ptr} {xs : List (Nat × Ptr)} (hl : Linked arrayLinking h.Has p (x :: xs))
    (n : Nat) : valueFrom h n p = .ok (((x :: xs).map Prod.snd)[n]?.join) := by
  induction n generalizing p x xs with
  | zero =>
      cases hl with
      | cons ha _ =>
          rw [valueFrom, arrayLinking.load_eq ha]
          rfl
  | succ n ih =>
      cases hl with
      | cons ha hrest =>
          rw [valueFrom, arrayLinking.load_eq ha, ok_bind]
          cases hrest with
          | nil => rfl
          | cons hb hrest => exact ih (.cons hb hrest)

/-- **`at` gives the element at an index of the array**, and null at every other. -/
theorem valueAt_eq {p : Ptr} {xs : List (Nat × Ptr)} (hc : Chain arrayLinking emptyArray h.Has p xs)
    (hitems : ∀ x ∈ xs, x.2 ≠ none) (i : Int) :
    valueAt h p i = .ok (if i < 0 then none else (xs.map Prod.snd)[i.toNat]?.join) := by
  unfold valueAt
  by_cases hi : i < 0
  · rw [if_pos hi, if_pos hi]
    rfl
  · rw [if_neg hi, if_neg hi]
    cases hc with
    | empty he =>
        rw [arrayLinking.load_eq he]
        rfl
    | @nodes a x xs hl =>
        have hvalue := valueFrom_eq hl i.toNat
        cases hl with
        | @cons a v next _ ha _ =>
            have hv := hitems (a, v) (by simp)
            rw [arrayLinking.load_eq ha, ok_bind]
            show (if v.isNone = true then _ else _) = _
            rw [if_neg (by simpa [Option.isNone_iff_eq_none] using hv), hvalue]

/-! ## Containers -/

/-- A node that stands for something is one. -/
theorem Held.ne_none {V : View} {v : Value} {p : Ptr} (hv : Held V v p) : p ≠ none := by
  have hpoints : ∀ {n : Node}, Points V p n → p ≠ none := by
    rintro n ⟨a, rfl, -⟩
    exact Option.some_ne_none a
  have hchain : ∀ {L : Linking Node Ptr} {empty : Nat} {xs : List (Nat × Ptr)}, Chain L empty V p xs → p ≠ none := by
    intro L empty xs hc
    cases hc <;> exact Option.some_ne_none _
  cases v with
  | identifier t => exact hpoints hv
  | number t => exact hpoints hv
  | string t => exact hpoints hv
  | array vs => exact hchain hv.choose_spec.1
  | object ps => exact hchain hv.choose_spec.1

theorem HeldPair.ne_none {V : View} {x : Pair} {p : Ptr} (hx : HeldPair V x p) : p ≠ none := by
  cases x with
  | mk key v =>
      obtain ⟨k, q, ⟨a, rfl, -⟩, -⟩ := hx
      exact Option.some_ne_none a

/-- The items of a chain whose items stand for something are pointers to nodes. -/
theorem items_ne_none {α : Type} {R : α → Ptr → Prop} (hR : ∀ a q, R a q → q ≠ none) {as : List α}
    {xs : List (Nat × Ptr)} (hall : List.Forall₂ R as (xs.map Prod.snd)) : ∀ x ∈ xs, x.2 ≠ none := by
  induction xs generalizing as with
  | nil => exact fun x hx => absurd hx List.not_mem_nil
  | cons x xs ih =>
      cases hall with
      | cons hx hrest => exact List.forall_mem_cons.mpr ⟨hR _ _ hx, ih hrest⟩

/-- The nodes of a container are different ones. -/
theorem Chain.nodup {empty : Nat} {p : Ptr} {xs : List (Nat × Ptr)} (hc : Chain L empty h.Has p xs) :
    (xs.map Prod.fst).Nodup := by
  cases hc with
  | empty _ => exact List.nodup_nil
  | nodes hl => exact hl.nodup (fun a n m hn hm => hn.unique hm)

/-- What the array with the elements `vs` offers at `p`, in the nodes `xs`: one node for each element, in order, the size
    as far as it is an `int`, and the element at each index. -/
structure ArrayAt (h : Heap Node) (p : Ptr) (vs : List Value) (xs : List (Nat × Ptr)) : Prop where
  chain : Chain arrayLinking emptyArray h.Has p xs
  distinct : (xs.map Prod.fst).Nodup
  elements : List.Forall₂ (Held h.Has) vs (xs.map Prod.snd)
  length : xs.length = vs.length
  empty : vs = [] → p = some emptyArray
  size : (vs.length : Int) ≤ intMax → arraySize h p = .ok (vs.length : Int)
  get : ∀ (i : Nat) (q : Ptr), (xs.map Prod.snd)[i]? = some q → arrayGet h p i = .ok q
  get_none : ∀ i : Int, i < 0 ∨ (vs.length : Int) ≤ i → arrayGet h p i = .ok none

/-- What the object with the members `ps` offers at `p`, in the nodes `xs`. -/
structure ObjectAt (h : Heap Node) (p : Ptr) (ps : List Pair) (xs : List (Nat × Ptr)) : Prop where
  chain : Chain objectLinking emptyObject h.Has p xs
  distinct : (xs.map Prod.fst).Nodup
  pairs : List.Forall₂ (HeldPair h.Has) ps (xs.map Prod.snd)
  length : xs.length = ps.length
  empty : ps = [] → p = some emptyObject
  size : (ps.length : Int) ≤ intMax → objectSize h p = .ok (ps.length : Int)

/-- A container without nodes is the static one. -/
theorem Chain.static {empty : Nat} {p : Ptr} {xs : List (Nat × Ptr)} {V : View} (hc : Chain L empty V p xs)
    (hxs : xs.length = 0) : p = some empty := by
  cases hc with
  | empty _ => rfl
  | nodes _ => cases hxs

/-- **A node that stands for an array has its elements.** -/
theorem arrayAt_of_held {vs : List Value} {p : Ptr} (hv : Held h.Has (.array vs) p) : ∃ xs, ArrayAt h p vs xs := by
  obtain ⟨xs, hc, hs⟩ := hv
  have hall := heldElements_iff.mp hs
  have hlength : xs.length = vs.length := by rw [hall.length_eq, List.length_map]
  have hitems := items_ne_none (fun _ _ => Held.ne_none) hall
  refine ⟨xs, hc, hc.nodup, hall, hlength, ?_, ?_, ?_, ?_⟩
  · rintro rfl
    exact hc.static hlength
  · intro hmax
    rw [arraySize, count_eq hc hitems, hlength, if_pos hmax]
  · intro i q hq
    rw [arrayGet, valueAt_eq hc hitems, if_neg (by omega), Int.toNat_natCast, hq]
    rfl
  · intro i hi
    rw [arrayGet, valueAt_eq hc hitems]
    by_cases hneg : i < 0
    · rw [if_pos hneg]
    · rw [if_neg hneg, List.getElem?_eq_none (by rw [List.length_map, hlength]; omega)]
      rfl

/-- **A node that stands for an object has its members.** -/
theorem objectAt_of_held {ps : List Pair} {p : Ptr} (hv : Held h.Has (.object ps) p) : ∃ xs, ObjectAt h p ps xs := by
  obtain ⟨xs, hc, hs⟩ := hv
  have hall := heldPairs_iff.mp hs
  have hlength : xs.length = ps.length := by rw [hall.length_eq, List.length_map]
  refine ⟨xs, hc, hc.nodup, hall, hlength, ?_, ?_⟩
  · rintro rfl
    exact hc.static hlength
  · intro hmax
    rw [objectSize, count_eq hc (items_ne_none (fun _ _ => HeldPair.ne_none) hall), hlength, if_pos hmax]

/-! ## Sequences of parses -/

/-- What a parse gave, seen when there may have been others after it. -/
inductive Gave (h : Heap Node) (text : Text) : Ending Byte Ptr → Prop where
  | value {v : Value} {rest : Text} {n : Nat} {p : Ptr} : parse text = .value v rest n → Held h.Has v p →
      Gave h text (.value p rest)
  | thrown {what : String} {rest : Text} {n : Nat} : parse text = .thrown what rest n → Gave h text (.thrown what rest)

theorem Gave.mono {h h' : Heap Node} {text : Text} {out : Ending Byte Ptr} (hg : Gave h text out) (hext : h.Extends h') :
    Gave h' text out := by
  cases hg with
  | value hparse hv => exact .value hparse (Held.mono hext hv)
  | thrown hparse => exact .thrown hparse

/-- **One parse** leaves the nodes that are there as they are. -/
theorem parseStep_gave (hs : StaticsEmpty h) {c : ParseCall} (hc : parse c.text ≠ .overrun) :
    ∃ h' out, parseStep h c = .ok (h', out) ∧ h.Extends h' ∧ Gave h' c.text out := by
  have hmirrors := parse_builds c.alloc h c.text hs
  have hfuel := parseValue_follows (c.text.length + 1) [] c.text (Nat.lt_succ_self _)
  rw [show parseValue (c.text.length + 1) c.text = parse c.text from rfl] at hfuel
  unfold parseStep
  generalize hr : parse c.text = r, Document.parse c.alloc h c.text = r' at hmirrors hfuel hc ⊢
  cases hmirrors with
  | value hv => exact ⟨_, _, rfl, hv.1, .value hr (Held.mono (fun _ _ ha => ha.2) hv.2)⟩
  | thrown hext => exact ⟨_, _, rfl, hext, .thrown hr⟩
  | overrun => exact absurd rfl hc
  | outOfFuel => exact absurd hfuel id

/-- **A sequence of parses** leaves the nodes that are there as they are, and so each parse what those before it gave. -/
theorem parses_run : ∀ (calls : List ParseCall) (h₀ : Heap Node), StaticsEmpty h₀ →
    (∀ c ∈ calls, parse c.text ≠ .overrun) →
    ∃ h outs, runAll parseStep h₀ calls = .ok (h, outs) ∧ h₀.Extends h ∧
      List.Forall₂ (fun c out => Gave h c.text out) calls outs := by
  intro calls
  induction calls with
  | nil => exact fun h₀ _ _ => ⟨h₀, [], rfl, Heap.Extends.refl h₀, .nil⟩
  | cons c calls ih =>
      intro h₀ hs hread
      rw [List.forall_mem_cons] at hread
      obtain ⟨h₁, out, hstep, hext₁, hgave⟩ := parseStep_gave hs hread.1
      obtain ⟨h, outs, hrun, hext, hall⟩ := ih h₁ (hs.mono hext₁) hread.2
      refine ⟨h, out :: outs, ?_, hext₁.trans hext, .cons (hgave.mono hext) hall⟩
      rw [runAll_cons_ok hstep, hrun]
      rfl

/-- What is left of a parse after others: the text of an array or an object gave one, and what was returned stands for
    what was read. -/
structure Kept (h : Heap Node) (text : Text) (out : Ending Byte Ptr) : Prop where
  array : ∀ vs, Derives readable (.element (.array vs)) text → ∃ p xs, out = .value p [] ∧ ArrayAt h p vs xs
  object : ∀ ps, Derives readable (.element (.object ps)) text → ∃ p xs, out = .value p [] ∧ ObjectAt h p ps xs
  value : ∀ p rest, out = .value p rest →
    ∃ v consumed, text = consumed ++ rest ∧ Derives accepted (.element v) consumed ∧ Held h.Has v p

/-- What was given for a text that is sure to be read. -/
theorem Gave.of_derives {text : Text} {out : Ending Byte Ptr} (hg : Gave h text out) {v : Value}
    (hd : Derives readable (.element v) text) : ∃ p, out = .value p [] ∧ Held h.Has v p := by
  obtain ⟨n, hparse⟩ := parse_readable hd
  cases hg with
  | value hvalue hv =>
      rw [hparse] at hvalue
      cases hvalue
      exact ⟨_, rfl, hv⟩
  | thrown hthrown =>
      rw [hparse] at hthrown
      cases hthrown

theorem Gave.kept {text : Text} {out : Ending Byte Ptr} (hg : Gave h text out) : Kept h text out where
  array vs hd := by
    obtain ⟨p, hout, hv⟩ := hg.of_derives hd
    obtain ⟨xs, hxs⟩ := arrayAt_of_held hv
    exact ⟨p, xs, hout, hxs⟩
  object ps hd := by
    obtain ⟨p, hout, hv⟩ := hg.of_derives hd
    obtain ⟨xs, hxs⟩ := objectAt_of_held hv
    exact ⟨p, xs, hout, hxs⟩
  value p rest hout := by
    subst hout
    cases hg with
    | value hparse hv =>
        obtain ⟨consumed, htext, hd⟩ := parse_derives hparse
        exact ⟨_, consumed, htext, hd, hv⟩

/-- **Parsed containers hold their elements**, through every sequence of parses that do not read beyond their texts, and
    the static ones stay empty. -/
theorem parses_keep_chains (calls : List ParseCall) (hread : ∀ c ∈ calls, parse c.text ≠ .overrun) :
    ∃ h outs, runAll parseStep staticNodes calls = .ok (h, outs) ∧ StaticsEmpty h ∧
      List.Forall₂ (fun c out => Kept h c.text out) calls outs ∧
      (∀ vs p, Held h.Has (.array vs) p → ∃ xs, ArrayAt h p vs xs) ∧
      ∀ ps p, Held h.Has (.object ps) p → ∃ xs, ObjectAt h p ps xs := by
  obtain ⟨h, outs, hrun, hext, hall⟩ := parses_run calls staticNodes staticNodes_empty hread
  exact ⟨h, outs, hrun, staticNodes_empty.mono hext, hall.imp (fun _ _ hg => hg.kept),
    fun _ _ => arrayAt_of_held, fun _ _ => objectAt_of_held⟩

/-- `[]` and then `[1,{}]`, an array of two elements. -/
theorem parses_keep_chains_two :
    ∃ h outs, runAll parseStep staticNodes
        [⟨.sequential, [91, 93]⟩, ⟨.sequential, [91, 49, 44, 123, 125, 93]⟩] = .ok (h, outs) ∧ StaticsEmpty h ∧
      List.Forall₂ (fun (c : ParseCall) out => Kept h c.text out)
        [⟨.sequential, [91, 93]⟩, ⟨.sequential, [91, 49, 44, 123, 125, 93]⟩] outs ∧
      (∀ vs p, Held h.Has (.array vs) p → ∃ xs, ArrayAt h p vs xs) ∧
      ∀ ps p, Held h.Has (.object ps) p → ∃ xs, ObjectAt h p ps xs := by
  apply parses_keep_chains
  have hempty : parse [91, 93] = .value (.array []) [] 0 := rfl
  have hpair : parse [91, 49, 44, 123, 125, 93] = .value (.array [.number [49], .object []]) [] 3 := rfl
  intro c hc
  rcases List.mem_pair.mp hc with rfl | rfl
  · rw [hempty]
    exact nofun
  · rw [hpair]
    exact nofun

/-! ## The size that is no `int` -/

/-- `1,1,…,1`, with `n` commas. -/
def ones : Nat → Text
  | 0 => [49]
  | n + 1 => 49 :: comma :: ones n

/-- The elements of `ones`. -/
theorem derives_ones (n : Nat) :
    Derives readable (.elements (List.replicate (n + 1) (.number [49]))) (ones n) := by
  have hone : Derives readable (.element (.number [49])) [49] := (Derives.number rfl).bare
  induction n with
  | zero => exact .oneElement hone
  | succ n ih => exact .moreElements hone ih

/-- The array with the elements of `ones`. -/
def longArray (n : Nat) : Text := openBracket :: (ones n ++ [closeBracket])

theorem derives_longArray (n : Nat) :
    Derives readable (.element (.array (List.replicate (n + 1) (.number [49])))) (longArray n) :=
  (Derives.array (derives_ones n)).bare

/-- An array of more elements than an `int` can count is parsed, and has no size. -/
theorem longArray_overflows {n : Nat} (hn : intMax ≤ n) :
    ∃ h p, runAll parseStep staticNodes [⟨.sequential, longArray n⟩] = .ok (h, [.value p []]) ∧
      arraySize h p = .error .signedOverflow := by
  obtain ⟨m, hparse⟩ := parse_readable (derives_longArray n)
  have hread : parse (longArray n) ≠ .overrun := by
    rw [hparse]
    exact nofun
  obtain ⟨h, out, hstep, -, hgave⟩ := parseStep_gave (c := ⟨.sequential, longArray n⟩) staticNodes_empty hread
  obtain ⟨p, rfl, xs, hc, hs⟩ := hgave.of_derives (derives_longArray n)
  have hall := heldElements_iff.mp hs
  have hlength : xs.length = n + 1 := by
    have := hall.length_eq
    rw [List.length_replicate, List.length_map] at this
    exact this.symm
  refine ⟨h, p, ?_, ?_⟩
  · rw [runAll_cons_ok hstep]
    rfl
  · rw [arraySize, count_eq hc (items_ne_none (fun _ _ => Held.ne_none) hall), if_neg]
    rw [hlength]
    push_cast
    omega

/-- **Not every chain has a size**: 2147483648 elements are one more than an `int` can count. And a parse may read beyond
    its text, after which nothing is defined. -/
theorem long_chain_without_size :
    (Derives readable (.element (.array (List.replicate 2147483648 (.number [49])))) (longArray 2147483647) ∧
      ∃ h p, runAll parseStep staticNodes [⟨.sequential, longArray 2147483647⟩] = .ok (h, [.value p []]) ∧
        arraySize h p = .error .signedOverflow) ∧
    runAll parseStep staticNodes [⟨.sequential, [91, 93]⟩, ⟨.sequential, []⟩] = .error .outOfBounds :=
  ⟨⟨derives_longArray 2147483647, longArray_overflows (Int.le_refl _)⟩, rfl⟩

end Json
end Freeflow
