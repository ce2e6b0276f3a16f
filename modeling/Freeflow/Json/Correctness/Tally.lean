import Freeflow.Json.Correctness.Bounds
import Freeflow.Json.Correctness.Rules

/-!
# `Json.Correctness.Tally` — counting along the scanner

Whatever is counted in the tree of a text can be counted in the text, by the scanner of `Json.Correctness.Bounds`: a
terminal counts where it begins, a string where it ends, and what a container holds counts where the item is complete.
`tally` adds the weights of the characters up, `weigh` those of a tree, and `parseValue_tallies` says that the two agree
for every choice of weights; for the weights of the nodes they also agree with what the parser allocated, even if it threw.
-/

namespace Freeflow
namespace Json

open Freeflow.Parsed

/-! ## Weights -/

/-- What counts: an identifier by its first character, the other terminals, a key, and an item in a container. -/
structure Weights where
  identifier : Byte → Nat
  number : Nat
  string : Nat
  key : Nat
  item : Frame → Nat

/-- The weight of a complete value as an item of the container around it. -/
def Weights.held (w : Weights) : List Frame → Nat
  | [] => 0
  | f :: _ => w.item f

mutual

/-- The weight of a value. -/
def weigh (w : Weights) : Value → Nat
  | .identifier t => w.identifier (t.headD 0)
  | .number _ => w.number
  | .string _ => w.string
  | .array vs => weighElements w vs
  | .object ps => weighPairs w ps

/-- The weight of a pair. -/
def weighPair (w : Weights) : Pair → Nat
  | .mk _ v => w.key + weigh w v

/-- The weight of the elements of an array. -/
def weighElements (w : Weights) : List Value → Nat
  | [] => 0
  | v :: vs => weigh w v + w.item .array + weighElements w vs

/-- The weight of the pairs of an object. -/
def weighPairs (w : Weights) : List Pair → Nat
  | [] => 0
  | p :: ps => weighPair w p + w.item .object + weighPairs w ps

end

/-- The first character of a value. -/
def startWeight (w : Weights) (st : List Frame) (c : Byte) : Nat :=
  if c = minus ∨ isdigit c then w.number + w.held st
  else if c = quote ∨ c = openBracket ∨ c = openBrace then 0
  else w.identifier c + w.held st

/-- The character after a complete value. -/
def closeWeight (w : Weights) (st : List Frame) (c : Byte) : Nat :=
  match st with
  | [] => 0
  | f :: st => if c = f.close then w.held st else 0

/-- One character. -/
def byteWeight (w : Weights) (m : Mode) (st : List Frame) (c : Byte) : Nat :=
  match m with
  | .value => if isspace c then 0 else startWeight w st c
  | .first f =>
      if isspace c then 0
      else if c = f.close then w.held st.tail
      else match f with
        | .array => startWeight w st c
        | .object => 0
  | .identifier => if isident c then 0 else if isspace c then 0 else closeWeight w st c
  | .number => if isnum c then 0 else if isspace c then 0 else closeWeight w st c
  | .string isKey => if c = quote then (if isKey then w.key else w.string + w.held st) else 0
  | .after => if isspace c then 0 else closeWeight w st c
  | .key | .escape _ | .afterKey | .stopped => 0

/-- **The weight of a text**, from a mode of the scanner on. -/
def tally (w : Weights) : Mode → List Frame → Text → Nat
  | _, _, [] => 0
  | m, st, c :: s => byteWeight w m st c + tally w (scanByte m st c).1 (scanByte m st c).2 s

/-! ## What the scanner counts in each mode -/

theorem tally_cons (w : Weights) (m : Mode) (st : List Frame) (c : Byte) (s : Text) :
    tally w m st (c :: s) = byteWeight w m st c + tally w (scanByte m st c).1 (scanByte m st c).2 s := rfl

@[simp] theorem tally_stopped (w : Weights) (st : List Frame) (s : Text) : tally w .stopped st s = 0 := by
  induction s with
  | nil => rfl
  | cons c s ih => rw [tally_cons]; exact (Nat.zero_add _).trans ih

theorem byteWeight_blank {m : Mode} (hm : m.skips = true) (w : Weights) (st : List Frame) {c : Byte}
    (hc : isspace c = true) : byteWeight w m st c = 0 := by
  cases m with
  | value | key | first f | afterKey | after => simp [byteWeight, hc]
  | identifier | number | string isKey | escape isKey | stopped => cases hm

/-- In the modes that skip blanks, blanks do not matter. -/
theorem tally_dropWhile {m : Mode} (hm : m.skips = true) (w : Weights) (st : List Frame) (s : Text) :
    tally w m st (s.dropWhile isspace) = tally w m st s := by
  induction s with
  | nil => rfl
  | cons c s ih =>
      by_cases hc : isspace c = true
      · rw [List.dropWhile_cons_of_pos hc, tally_cons, byteWeight_blank hm w st hc, scanByte_blank hm st hc,
          Nat.zero_add, ih]
      · rw [List.dropWhile_cons_of_neg hc]

/-- A terminal ends where the next character does not belong to it. -/
theorem tally_run {m : Mode} {p : Byte → Bool}
    (hrun : ∀ st c, scanByte m st c = if p c = true then (m, st) else scanByte .after st c)
    (hweight : ∀ w st c, byteWeight w m st c = if p c = true then 0 else byteWeight w .after st c)
    (w : Weights) (st : List Frame) (s : Text) : tally w m st s = tally w .after st (s.dropWhile p) := by
  induction s with
  | nil => rfl
  | cons c s ih =>
      rw [tally_cons, hrun, hweight]
      by_cases hc : p c = true
      · rw [List.dropWhile_cons_of_pos hc, if_pos hc, if_pos hc, Nat.zero_add, ← ih]
      · rw [List.dropWhile_cons_of_neg hc, if_neg hc, if_neg hc, tally_cons]

theorem tally_identifier (w : Weights) (st : List Frame) (s : Text) :
    tally w .identifier st s = tally w .after st (s.dropWhile isident) :=
  tally_run (fun _ _ => rfl) (fun _ _ _ => rfl) w st s

theorem tally_number (w : Weights) (st : List Frame) (s : Text) :
    tally w .number st s = tally w .after st (s.dropWhile isnum) :=
  tally_run (fun _ _ => rfl) (fun _ _ _ => rfl) w st s

/-- A value begins. -/
theorem tally_start {c : Byte} (hc : isspace c = false) (w : Weights) (st : List Frame) (s : Text) :
    tally w .value st (c :: s)
      = startWeight w st c + tally w (startValue st c).1 (startValue st c).2 s := by
  rw [tally_cons]
  simp [scanByte, byteWeight, hc]

theorem tally_quote (w : Weights) (isKey : Bool) (st : List Frame) (s : Text) :
    tally w (.string isKey) st (quote :: s)
      = (if isKey then w.key else w.string + w.held st) + tally w (closed isKey) st s := rfl

theorem tally_escape (w : Weights) (isKey : Bool) (st : List Frame) (d : Byte) (s : Text) :
    tally w (.string isKey) st (backslash :: d :: s) = tally w (.string isKey) st s := by
  rw [tally_cons, tally_cons]
  exact (Nat.zero_add _).trans (Nat.zero_add _)

theorem tally_string {c : Byte} (hq : c ≠ quote) (hb : c ≠ backslash) (w : Weights) (isKey : Bool) (st : List Frame)
    (s : Text) : tally w (.string isKey) st (c :: s) = tally w (.string isKey) st s := by
  rw [tally_cons]
  simp [scanByte, byteWeight, hq, hb]

/-- A key begins with a quote. -/
theorem tally_key_quote (w : Weights) (st : List Frame) (s : Text) :
    tally w .key st (quote :: s) = tally w (.string true) st s := by
  rw [tally_cons]
  exact Nat.zero_add _

theorem tally_key_of_ne {c : Byte} (hc : isspace c = false) (hq : c ≠ quote) (w : Weights) (st : List Frame) (s : Text) :
    tally w .key st (c :: s) = 0 := by
  rw [tally_cons]
  simp [scanByte, byteWeight, startKey, hc, hq]

theorem tally_colon (w : Weights) (st : List Frame) (s : Text) :
    tally w .afterKey st (colon :: s) = tally w .value st s := by
  rw [tally_cons]
  exact Nat.zero_add _

/-- After a key nothing counts without a colon. -/
theorem tally_afterKey_of_ne {s : Text} (ht : Trimmed isspace s) (hc : s.head? ≠ some colon) (w : Weights)
    (st : List Frame) : tally w .afterKey st s = 0 := by
  cases s with
  | nil => rfl
  | cons c s =>
      have hsp : isspace c = false := ht c rfl
      have hne : c ≠ colon := fun h => hc (by rw [h]; rfl)
      rw [tally_cons]
      simp [scanByte, byteWeight, hsp, hne]

/-- A container that does not close at once begins with an item. -/
theorem tally_first_of_ne {f : Frame} {s : Text} (ht : Trimmed isspace s) (hc : s.head? ≠ some f.close) (w : Weights)
    (st : List Frame) : tally w (.first f) st s = tally w f.item st s := by
  cases s with
  | nil => rfl
  | cons c s =>
      have hsp : isspace c = false := ht c rfl
      have hne : c ≠ f.close := fun h => hc (by rw [h]; rfl)
      rw [tally_cons, tally_cons]
      cases f with
      | array => simp [scanByte, byteWeight, Frame.item, hsp, hne]
      | object => simp [scanByte, byteWeight, Frame.item, hsp, hne]

/-- After an item nothing counts unless a comma or the end of the container follows. -/
theorem tally_after_of_ne {f : Frame} {s : Text} (ht : Trimmed isspace s) (hcomma : s.head? ≠ some comma)
    (hc : s.head? ≠ some f.close) (w : Weights) (st : List Frame) : tally w .after (f :: st) s = 0 := by
  cases s with
  | nil => rfl
  | cons c s =>
      have hsp : isspace c = false := ht c rfl
      have hne : c ≠ f.close := fun h => hc (by rw [h]; rfl)
      have hne' : c ≠ comma := fun h => hcomma (by rw [h]; rfl)
      rw [tally_cons]
      simp [scanByte, byteWeight, closeWeight, afterValue, hsp, hne, hne']

theorem tally_comma (w : Weights) (f : Frame) (st : List Frame) (s : Text) :
    tally w .after (f :: st) (comma :: s) = tally w f.item (f :: st) s := by
  rw [tally_cons]
  cases f <;> exact Nat.zero_add _

theorem tally_close (w : Weights) (f : Frame) (st : List Frame) (s : Text) :
    tally w .after (f :: st) (f.close :: s) = w.held st + tally w .after st s := by
  cases f <;> rfl

theorem tally_first_close (w : Weights) (f : Frame) (st : List Frame) (s : Text) :
    tally w (.first f) (f :: st) (f.close :: s) = w.held st + tally w .after st s := by
  cases f <;> rfl

/-- Behind a complete text nothing counts. -/
theorem tally_after_nil (w : Weights) (s : Text) : tally w .after [] s = 0 := by
  induction s with
  | nil => rfl
  | cons c s ih =>
      rw [tally_cons]
      by_cases hc : isspace c = true
      · simpa [scanByte, byteWeight, hc] using ih
      · simp [scanByte, byteWeight, closeWeight, hc, afterValue]

/-! ## The parser in step with the scanner -/

/-- The nodes: one for a terminal or a key, one for an element, and a pair and a node of the object for a member. -/
def nodes : Weights where
  identifier _ := 1
  number := 1
  string := 1
  key := 1
  item
    | .array => 1
    | .object => 2

/-- From mode `m` at `s` to mode `m'` at `rest` the scanner counts `x`, whatever the weights. -/
def Tallied (st : List Frame) (m m' : Mode) (x : Weights → Nat) (s rest : Text) : Prop :=
  ∀ w, tally w m st s = x w + tally w m' st rest

/-- A value parser in step with the scanner. -/
def ValueTallies (value : Parser Byte Value) : Prop :=
  ∀ st s, (value s).Meets
    (fun v rest n => Tallied st .value .after (fun w => weigh w v + w.held st) s rest ∧ Trimmed isspace rest ∧
      n = weigh nodes v)
    (fun _ n => tally nodes .value st s = n)

/-- The loop of `parse_string`; an unterminated string counts nothing. -/
theorem stringBody_tallies (isKey : Bool) (st : List Frame) (s : Text) :
    (stringBody s).Meets
      (fun _ rest n => Tallied st (.string isKey) (closed isKey)
        (fun w => if isKey then w.key else w.string + w.held st) s rest ∧ n = 0)
      (fun rest n => rest = [] ∧ n = 0 ∧ ∀ w, tally w (.string isKey) st s = 0) := by
  apply stringBody_meets
    (Q := fun s _ rest n => Tallied st (.string isKey) (closed isKey)
      (fun w => if isKey then w.key else w.string + w.held st) s rest ∧ n = 0)
    (E := fun s rest n => rest = [] ∧ n = 0 ∧ ∀ w, tally w (.string isKey) st s = 0)
  · exact ⟨rfl, rfl, fun _ => rfl⟩
  · exact fun s => ⟨fun w => tally_quote w isKey st s, rfl⟩
  · rintro d s text rest n ⟨h, hn⟩
    exact ⟨fun w => (tally_escape w isKey st d s).trans (h w), hn⟩
  · rintro d s rest n ⟨hrest, hn, h⟩
    exact ⟨hrest, hn, fun w => (tally_escape w isKey st d s).trans (h w)⟩
  · rintro c s text rest n hq hb ⟨h, hn⟩
    exact ⟨fun w => (tally_string hq hb w isKey st s).trans (h w), hn⟩
  · rintro c s rest n hq hb ⟨hrest, hn, h⟩
    exact ⟨hrest, hn, fun w => (tally_string hq hb w isKey st s).trans (h w)⟩

/-- `parse_pair`. -/
theorem parsePair_tallies {value : Parser Byte Value} (hv : ValueTallies value) (st : List Frame) (s : Text) :
    (parsePair value s).Meets
      (fun p rest n => Tallied st .key .after (fun w => weighPair w p + w.held st) s rest ∧ Trimmed isspace rest ∧
        n = weighPair nodes p + 1)
      (fun _ n => tally nodes .key st s = n) := by
  apply parsePair_meets (K := fun _ rest n =>
    (∀ w, tally w .key st s = w.key + tally w .afterKey st rest) ∧ Trimmed isspace rest ∧ n = 1)
  · intro c s' hs hq
    have ht := trimmed_dropWhile isspace s
    rw [← tally_dropWhile (m := .key) rfl]
    rw [hs] at ht ⊢
    exact tally_key_of_ne (ht c rfl) hq nodes st s'
  · intro s' hs
    have hkey : ∀ w, tally w .key st s = tally w (.string true) st s' := by
      intro w
      rw [← tally_dropWhile (m := .key) rfl, hs, tally_key_quote]
    refine (stringBody_tallies true st s').mono ?_ ?_
    · rintro key rest n ⟨h, rfl⟩
      refine ⟨fun w => ?_, trimmed_dropWhile isspace rest, rfl⟩
      rw [hkey, h w, tally_dropWhile (m := .afterKey) rfl]
      rfl
    · rintro rest n ⟨rfl, rfl, h⟩
      rw [hkey, h]
  · rintro key rest n ⟨h, ht, rfl⟩ hne
    rw [h, tally_afterKey_of_ne ht hne]
    rfl
  · rintro key rest n ⟨h, -, rfl⟩
    refine (hv st rest).mono ?_ ?_
    · rintro v r m ⟨hval, ht, rfl⟩
      refine ⟨fun w => ?_, ht, ?_⟩
      · rw [h, tally_colon, hval w]
        show w.key + (weigh w v + w.held st + _) = w.key + weigh w v + w.held st + _
        omega
      · show 1 + (weigh nodes v + 1) = 1 + weigh nodes v + 1
        omega
    · rintro r m hm
      rw [h, tally_colon, hm]
      rfl

/-- The loop of `parse_array` and `parse_object`, for items that weigh `size` and allocate all of it but one node. -/
theorem elements_tallies {α : Type} (f : Frame) (st : List Frame) {item : Parser Byte α} (size : Weights → α → Nat)
    (sizes : Weights → List α → Nat) (hnil : ∀ w, sizes w [] = 0)
    (hcons : ∀ w a as, sizes w (a :: as) = size w a + sizes w as)
    (hitem : ∀ s, (item s).Meets
      (fun a rest n => Tallied (f :: st) f.item .after (fun w => size w a) s rest ∧ Trimmed isspace rest ∧
        n + 1 = size nodes a)
      (fun _ n => tally nodes f.item (f :: st) s = n)) (s : Text) :
    (elements item s).Meets
      (fun as rest n => Tallied (f :: st) f.item .after (fun w => sizes w as) s rest ∧
        (Trimmed isspace rest ∧ rest.head? ≠ some comma) ∧ n = sizes nodes as)
      (fun _ n => tally nodes f.item (f :: st) s = n) := by
  apply Meets.separated
    (P := fun s a rest n => Tallied (f :: st) f.item .after (fun w => size w a) s rest ∧ Trimmed isspace rest ∧
      n = size nodes a)
    (Q := fun s as rest n => Tallied (f :: st) f.item .after (fun w => sizes w as) s rest ∧
      (Trimmed isspace rest ∧ rest.head? ≠ some comma) ∧ n = sizes nodes as)
    (F := fun s _ n => tally nodes f.item (f :: st) s = n)
  · exact fun s => Meets.bind_node (f := id) (hitem s)
  · rintro s a rest n ⟨h, ht, rfl⟩ hne
    refine ⟨fun w => ?_, ⟨ht, hne⟩, ?_⟩
    · show _ = sizes w [a] + _
      rw [h w, hcons, hnil, Nat.add_zero]
    · rw [hcons, hnil, Nat.add_zero]
  · rintro s a rest m ⟨h, -, rfl⟩ as r n ⟨hs, ht, rfl⟩
    refine ⟨fun w => ?_, ht, ?_⟩
    · show _ = sizes w (a :: as) + _
      rw [h w, tally_comma, hs w, hcons, Nat.add_assoc]
    · rw [hcons]
  · rintro s a rest m ⟨h, -, rfl⟩ r n hn
    rw [h, tally_comma, hn]

/-- `parse_array` and `parse_object`, with the scanner behind the opening character, and the blanks that follow. -/
theorem container_tallies {α : Type} {f : Frame} {st : List Frame} {item : Parser Byte α} (make : List α → Value)
    {what : String} {sizes : Weights → List α → Nat} (hnil : ∀ w, sizes w [] = 0)
    (hmake : ∀ w as, weigh w (make as) = sizes w as)
    (hitems : ∀ s, (elements item s).Meets
      (fun as rest n => Tallied (f :: st) f.item .after (fun w => sizes w as) s rest ∧
        (Trimmed isspace rest ∧ rest.head? ≠ some comma) ∧ n = sizes nodes as)
      (fun _ n => tally nodes f.item (f :: st) s = n)) (x : Byte) {s₀ s : Text}
    (hopen : ∀ w, tally w .value st s₀ = tally w (.first f) (f :: st) s) :
    (container f.close item make what (x :: s)).Meets
      (fun v rest n => Tallied st .value .after (fun w => weigh w v + w.held st) s₀ (rest.dropWhile isspace) ∧
        Trimmed isspace (rest.dropWhile isspace) ∧ n = weigh nodes v)
      (fun _ n => tally nodes .value st s₀ = n) := by
  apply container_meets (R := fun as rest n =>
    (∀ w, tally w (.first f) (f :: st) s = sizes w as + tally w .after (f :: st) rest) ∧
      (Trimmed isspace rest ∧ rest.head? ≠ some comma) ∧ n = sizes nodes as)
  · intro rest h
    refine ⟨fun w => ?_, trimmed_dropWhile _ _, ?_⟩
    · show _ = weigh w (make []) + w.held st + _
      rw [hopen, ← tally_dropWhile (m := .first f) rfl, h, tally_first_close, tally_dropWhile (m := .after) rfl, hmake,
        hnil, Nat.zero_add]
    · rw [hmake, hnil]
  · intro hne
    have hfirst : ∀ w, tally w (.first f) (f :: st) s = tally w f.item (f :: st) (s.dropWhile isspace) := by
      intro w
      rw [← tally_dropWhile (m := .first f) rfl, tally_first_of_ne (trimmed_dropWhile isspace s) hne]
    refine (hitems _).mono ?_ ?_
    · rintro as rest n ⟨h, ht, rfl⟩
      exact ⟨fun w => (hfirst w).trans (h w), ht, rfl⟩
    · rintro rest n hn
      rw [hopen, hfirst, hn]
  · rintro as rest n ⟨h, -, rfl⟩
    refine ⟨fun w => ?_, trimmed_dropWhile _ _, ?_⟩
    · show _ = weigh w (make as) + w.held st + _
      rw [hopen, h w, tally_close, tally_dropWhile (m := .after) rfl, hmake, Nat.add_assoc]
    · rw [hmake]
  · rintro as rest n ⟨h, ⟨ht, hcomma⟩, rfl⟩ hne
    rw [hopen, h, tally_after_of_ne ht hcomma hne, Nat.add_zero]

/-- **The parser in step with the scanner**, by induction on the nesting bound. -/
theorem parseValue_tallies : ∀ depth, ValueTallies (parseValue depth) := by
  intro depth
  induction depth with
  | zero => exact fun _ _ => trivial
  | succ depth ih =>
      intro st s
      apply parseValue_meets
      intro c s' hs hc
      have hstart : ∀ w, tally w .value st s
          = startWeight w st c + tally w (startValue st c).1 (startValue st c).2 s' := by
        intro w
        rw [← tally_dropWhile (m := .value) rfl, hs, tally_start hc]
      apply dispatch_meets
      · intro hnum
        refine ⟨fun w => ?_, trimmed_dropWhile _ _, rfl⟩
        rw [hstart, startWeight, startValue, if_pos hnum, if_pos hnum, tally_number, tally_dropWhile (m := .after) rfl]
        rfl
      · rintro rfl
        have hopen : ∀ w, tally w .value st s = tally w (.string false) st s' := by
          intro w
          rw [hstart]
          exact Nat.zero_add _
        refine (stringBody_tallies false st s').mono ?_ ?_
        · rintro text rest n ⟨h, rfl⟩
          refine ⟨fun w => ?_, trimmed_dropWhile _ _, rfl⟩
          rw [hopen, h w, tally_dropWhile (m := .after) rfl]
          rfl
        · rintro rest n ⟨-, rfl, h⟩
          rw [hopen, h]
      · rintro rfl
        have hopen : ∀ w, tally w .value st s = tally w (.first .array) (.array :: st) s' := by
          intro w
          rw [hstart]
          exact Nat.zero_add _
        have hitems := elements_tallies .array st (fun w v => weigh w v + w.item .array) weighElements (fun _ => rfl)
          (fun _ _ _ => rfl) (fun s => (ih (.array :: st) s).mono
            (fun v rest n h => ⟨h.1, h.2.1, by rw [h.2.2]; rfl⟩) (fun _ _ h => h))
        exact container_tallies Value.array (fun _ => rfl) (fun _ _ => rfl) hitems openBracket hopen
      · rintro rfl
        have hopen : ∀ w, tally w .value st s = tally w (.first .object) (.object :: st) s' := by
          intro w
          rw [hstart]
          exact Nat.zero_add _
        have hitems := elements_tallies .object st (fun w p => weighPair w p + w.item .object) weighPairs (fun _ => rfl)
          (fun _ _ _ => rfl) (fun s => (parsePair_tallies ih (.object :: st) s).mono
            (fun p rest n h => ⟨h.1, h.2.1, by rw [h.2.2]; rfl⟩) (fun _ _ h => h))
        exact container_tallies Value.object (fun _ => rfl) (fun _ _ => rfl) hitems openBrace hopen
      · intro hnamed
        refine ⟨fun w => ?_, trimmed_dropWhile _ _, rfl⟩
        simp only [named, Bool.or_eq_false_iff, decide_eq_false_iff_not] at hnamed
        obtain ⟨⟨⟨⟨hminus, hdigit⟩, hq⟩, hbracket⟩, hbrace⟩ := hnamed
        have hnum : ¬ (c = minus ∨ isdigit c = true) := by simp [hminus, hdigit]
        rw [hstart, startWeight, startValue, if_neg hnum, if_neg hnum, if_neg (by simp [hq, hbracket, hbrace]),
          if_neg hq, if_neg hbracket, if_neg hbrace, tally_identifier, tally_dropWhile (m := .after) rfl]
        rfl

/-- **A parse that returned** counted what its tree weighs. -/
theorem parse_tally {s rest : Text} {v : Value} {n : Nat} (h : parse s = .value v rest n) (w : Weights) :
    tally w .value [] s = weigh w v := by
  have hall := ((parseValue_tallies (s.length + 1) [] s).of_value h).1 w
  rw [hall, tally_after_nil]
  rfl

/-- **The nodes that a parse allocates** are counted in its text, whether it returned or threw. -/
theorem parse_nodes (s : Text) :
    (parse s).Meets (fun _ _ n => n = tally nodes .value [] s) (fun _ n => n = tally nodes .value [] s) := by
  refine (parseValue_tallies (s.length + 1) [] s).mono ?_ (fun _ _ h => h.symm)
  rintro v rest n ⟨h, -, rfl⟩
  rw [h, tally_after_nil]
  rfl

end Json
end Freeflow
