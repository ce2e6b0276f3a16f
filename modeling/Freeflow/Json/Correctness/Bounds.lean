import Freeflow.Json.Parser

/-!
# `Json.Correctness.Bounds` — which inputs make the parser read past its buffer

The parser compares with `last` inside its loops, but not where it needs a first character: at the start of a value
or a key, and after the backslash of an escape. `awaits` scans a text from left to right and says whether it
ends at such a point. The scanner keeps the open containers on a stack; in mode `after`, a complete value
stands before the cursor.

`parseValue_follows` puts the parser and the scanner in step, and `parse_safe_iff` reads the result off.
-/

namespace Freeflow
namespace Json

open Parsed

/-! ## The scanner -/

/-- An open container. -/
inductive Frame where
  | array
  | object
deriving DecidableEq, Repr

/-- The character that closes it. -/
def Frame.close : Frame → Byte
  | .array => closeBracket
  | .object => closeBrace

/-- Where the scanner stands. A string is a value or a key. -/
inductive Mode where
  | value
  | key
  | first (f : Frame)
  | identifier
  | number
  | string (isKey : Bool)
  | escape (isKey : Bool)
  | afterKey
  | after
  | stopped
deriving DecidableEq, Repr

/-- What the container holds: values, or pairs, which begin with a key. -/
def Frame.item : Frame → Mode
  | .array => .value
  | .object => .key

/-- The modes in which the parser needs another character. -/
def Mode.awaiting : Mode → Bool
  | .value | .key | .first _ | .escape _ => true
  | _ => false

/-- The first character of a value. -/
def startValue (st : List Frame) (c : Byte) : Mode × List Frame :=
  if c = minus ∨ isdigit c then (.number, st)
  else if c = quote then (.string false, st)
  else if c = openBracket then (.first .array, .array :: st)
  else if c = openBrace then (.first .object, .object :: st)
  else (.identifier, st)

/-- The first character of a key. -/
def startKey (st : List Frame) (c : Byte) : Mode × List Frame :=
  if c = quote then (.string true, st) else (.stopped, st)

/-- The character after a complete value. -/
def afterValue (st : List Frame) (c : Byte) : Mode × List Frame :=
  match st with
  | [] => (.stopped, [])
  | f :: st =>
      if c = comma then (f.item, f :: st)
      else if c = f.close then (.after, st)
      else (.stopped, f :: st)

/-- One character. -/
def scanByte (m : Mode) (st : List Frame) (c : Byte) : Mode × List Frame :=
  match m with
  | .value => if isspace c then (.value, st) else startValue st c
  | .key => if isspace c then (.key, st) else startKey st c
  | .first f =>
      if isspace c then (.first f, st)
      else if c = f.close then (.after, st.tail)
      else match f with
        | .array => startValue st c
        | .object => startKey st c
  | .identifier => if isident c then (.identifier, st) else if isspace c then (.after, st) else afterValue st c
  | .number => if isnum c then (.number, st) else if isspace c then (.after, st) else afterValue st c
  | .string isKey =>
      if c = quote then (if isKey then .afterKey else .after, st)
      else if c = backslash then (.escape isKey, st) else (.string isKey, st)
  | .escape isKey => (.string isKey, st)
  | .afterKey => if isspace c then (.afterKey, st) else if c = colon then (.value, st) else (.stopped, st)
  | .after => if isspace c then (.after, st) else afterValue st c
  | .stopped => (.stopped, st)

/-- The text ends where the parser needs another character. -/
def awaits : Mode → List Frame → Text → Bool
  | m, _, [] => m.awaiting
  | m, st, c :: s => awaits (scanByte m st c).1 (scanByte m st c).2 s

theorem awaits_cons (m : Mode) (st : List Frame) (c : Byte) (s : Text) :
    awaits m st (c :: s) = awaits (scanByte m st c).1 (scanByte m st c).2 s := rfl

@[simp] theorem awaits_stopped (st : List Frame) (s : Text) : awaits .stopped st s = false := by
  induction s with
  | nil => rfl
  | cons c s ih => rw [awaits_cons]; exact ih

/-- The modes that pass over blanks. -/
def Mode.skips : Mode → Bool
  | .value | .key | .first _ | .afterKey | .after => true
  | _ => false

theorem scanByte_blank {m : Mode} (hm : m.skips = true) (st : List Frame) {c : Byte} (hc : isspace c = true) :
    scanByte m st c = (m, st) := by
  cases m with
  | value | key | first f | afterKey | after => simp [scanByte, hc]
  | identifier | number | string isKey | escape isKey | stopped => cases hm

/-- In the modes that skip blanks, blanks do not matter. -/
theorem awaits_dropWhile {m : Mode} (hm : m.skips = true) (st : List Frame) (s : Text) :
    awaits m st (s.dropWhile isspace) = awaits m st s := by
  induction s with
  | nil => rfl
  | cons c s ih =>
      by_cases hc : isspace c = true
      · rw [List.dropWhile_cons_of_pos hc, awaits_cons, scanByte_blank hm st hc, ih]
      · rw [List.dropWhile_cons_of_neg hc]

/-- A terminal ends where the next character does not belong to it. -/
theorem awaits_run {m : Mode} {p : Byte → Bool} (hm : m.awaiting = false)
    (hrun : ∀ st c, scanByte m st c = if p c = true then (m, st) else scanByte .after st c) (st : List Frame) (s : Text) :
    awaits m st s = awaits .after st (s.dropWhile p) := by
  induction s with
  | nil => exact hm
  | cons c s ih =>
      rw [awaits_cons, hrun]
      by_cases hc : p c = true
      · rw [List.dropWhile_cons_of_pos hc, if_pos hc, ← ih]
      · rw [List.dropWhile_cons_of_neg hc, if_neg hc, awaits_cons]

/-! ## The parser in step with the scanner -/

/-- The mode after a string. -/
def closed (isKey : Bool) : Mode := if isKey then .afterKey else .after

/-- The loop of `parse_string`. -/
theorem stringBody_follows (isKey : Bool) (st : List Frame) : ∀ s : Text,
    (stringBody s).Follows (awaits (.string isKey) st) (awaits (closed isKey) st) (fun _ => True) 1 s
  | [] => ⟨List.suffix_refl _, rfl⟩
  | c :: s => by
      have hnext := stringBody_follows isKey st s
      by_cases hq : c = quote
      · subst hq
        rw [stringBody_quote]
        exact (Follows.pure _ _ trivial rfl).of_tail rfl
      · by_cases hb : c = backslash
        · subst hb
          -- an escape takes two characters at once, so the induction hypothesis is the one two down
          match s with
          | [] => rw [stringBody_backslash]; rfl
          | d :: s =>
              rw [stringBody_escape]
              have hrec := (stringBody_follows isKey st s).map fun text => backslash :: d :: text
              have hd : Follows (awaits (.escape isKey) st) _ _ _ (d :: s) _ := hrec.of_tail rfl
              exact (hd.of_tail rfl).mono (Nat.le_add_left 1 2)
        · rw [stringBody_other hq hb]
          refine ((hnext.map _).of_tail ?_).mono (Nat.le_succ 1)
          rw [awaits_cons]
          simp [scanByte, hq, hb]

theorem parseString_follows (isKey : Bool) (st : List Frame) (s : Text) :
    (parseString (quote :: s)).Follows (fun _ => awaits (.string isKey) st s) (awaits (closed isKey) st)
      (fun _ => True) 1 (quote :: s) := by
  rw [parseString, Parser.advance_bind_cons]
  exact (((stringBody_follows isKey st s).bind_node fun text => text).of_tail rfl).mono (Nat.le_succ 1)

/-- After a key comes a colon or the parser throws. -/
theorem awaits_afterKey_of_ne {st : List Frame} {s : Text} (ht : Trimmed isspace s)
    (hc : s.head? ≠ some colon) : awaits .afterKey st s = false := by
  cases s with
  | nil => rfl
  | cons c s =>
      have hsp : isspace c = false := ht c rfl
      have hne : c ≠ colon := fun h => hc (by rw [h]; rfl)
      rw [awaits_cons]
      simp [scanByte, hsp, hne]

/-- `parse_key`. -/
theorem parseKey_follows (st : List Frame) (s : Text) :
    (parseKey s).Follows (awaits .key st) (awaits .afterKey st) (Trimmed isspace) 1 s := by
  apply Follows.padded (fun _ => True) (awaits_dropWhile rfl st) (awaits_dropWhile rfl st)
  have ht := trimmed_dropWhile isspace s
  cases h : s.dropWhile isspace with
  | nil => rfl
  | cons c s' =>
      have henter : awaits .key st (c :: s') = awaits (startKey st c).1 (startKey st c).2 s' := by
        rw [awaits_cons]
        simp [scanByte, ht c (by rw [h]; rfl)]
      rw [Parser.peek_bind_cons]
      by_cases hq : c = quote
      · subst hq
        rw [if_pos rfl]
        exact (parseString_follows true st s').of_suffix (c := 0) (List.suffix_refl _) (Nat.le_refl _) henter
      · rw [if_neg hq]
        refine ⟨List.suffix_refl _, ?_⟩
        rw [henter]
        simp [startKey, hq]

/-- A value parser in step with the scanner, on inputs shorter than `N`. -/
def ValueFollows (value : Parser Byte Value) (N : Nat) : Prop :=
  ∀ st s, s.length < N → (value s).Follows (awaits .value st) (awaits .after st) (Trimmed isspace) 1 s

/-- `parse_pair`. -/
theorem parsePair_follows {value : Parser Byte Value} {N : Nat} (hv : ValueFollows value N)
    (st : List Frame) (s : Text) (hs : s.length ≤ N) :
    (parsePair value s).Follows (awaits .key st) (awaits .after st) (Trimmed isspace) 1 s := by
  refine (parseKey_follows st s).bind (d := 0) (fun k rest ht hlen => ?_)
  rcases Parser.accept_bind_cases colon rest (fun b => if b = true then do
      let v ← value
      Parser.allocate
      return Pair.mk k v
    else Parser.throw "ill-formed key/value pair") with ⟨s', rfl, heq⟩ | ⟨hne, heq⟩
  · rw [heq, if_pos rfl]
    simp only [List.length_cons] at hlen
    have hvalue := (hv st s' (by omega)).bind_node (Pair.mk k)
    exact (hvalue.of_tail rfl).mono (Nat.zero_le _)
  · rw [heq]
    exact ⟨List.suffix_refl _, awaits_afterKey_of_ne ht hne⟩

/-- A container that does not close at once begins with an item. -/
theorem awaits_first_of_ne {f : Frame} {st : List Frame} {s : Text} (ht : Trimmed isspace s)
    (hc : s.head? ≠ some f.close) : awaits (.first f) st s = awaits f.item st s := by
  cases s with
  | nil => cases f <;> rfl
  | cons c s =>
      have hsp : isspace c = false := ht c rfl
      have hne : c ≠ f.close := fun h => hc (by rw [h]; rfl)
      rw [awaits_cons, awaits_cons]
      cases f with
      | array => simp [scanByte, Frame.item, hsp, hne]
      | object => simp [scanByte, Frame.item, hsp, hne]

/-- After an item comes a comma, or the container closes, or the parser throws. -/
theorem awaits_after_of_ne {f : Frame} {st : List Frame} {s : Text} (ht : Trimmed isspace s)
    (hcomma : s.head? ≠ some comma) (hc : s.head? ≠ some f.close) :
    awaits .after (f :: st) s = false := by
  cases s with
  | nil => rfl
  | cons c s =>
      have hsp : isspace c = false := ht c rfl
      have hne : c ≠ f.close := fun h => hc (by rw [h]; rfl)
      have hne' : c ≠ comma := fun h => hcomma (by rw [h]; rfl)
      rw [awaits_cons]
      simp [scanByte, afterValue, hsp, hne, hne']

theorem awaits_comma (f : Frame) (st : List Frame) (s : Text) :
    awaits .after (f :: st) (comma :: s) = awaits f.item (f :: st) s := by
  cases f <;> rfl

theorem awaits_close (f : Frame) (st : List Frame) (s : Text) :
    awaits .after (f :: st) (f.close :: s) = awaits .after st s := by
  cases f <;> rfl

theorem awaits_first_close (f : Frame) (st : List Frame) (s : Text) :
    awaits (.first f) (f :: st) (f.close :: s) = awaits .after st s := by
  cases f <;> rfl

/-- `parse_array` and `parse_object`. -/
theorem container_follows {α : Type} {f : Frame} {st : List Frame} {item : Parser Byte α} {N : Nat}
    (hitem : ∀ s, s.length < N →
      (item s).Follows (awaits f.item (f :: st)) (awaits .after (f :: st)) (Trimmed isspace) 1 s)
    (make : List α → Value) (what : String) (x : Byte) (s : Text) (hs : s.length < N) :
    (container f.close item make what (x :: s)).Follows (fun _ => awaits (.first f) (f :: st) s)
      (awaits .after st) (fun _ => True) 1 (x :: s) := by
  rw [container, Parser.advance_bind_cons, Parser.eat_bind]
  have ht := trimmed_dropWhile isspace s
  have hlen : (s.dropWhile isspace).length < N := Nat.lt_of_le_of_lt (List.dropWhile_suffix _).length_le hs
  have henter := awaits_dropWhile (m := .first f) rfl (f :: st) s
  have hsuf : s.dropWhile isspace <:+ s := List.dropWhile_suffix _
  generalize s.dropWhile isspace = t at ht hlen henter hsuf
  suffices hbody : Follows (awaits (.first f) (f :: st)) (awaits .after st) (fun _ => True) 0 t _ from
    hbody.of_suffix (c := 1) (hsuf.trans (List.suffix_cons x s))
      (by have := hsuf.length_le; simp only [List.length_cons]; omega) henter.symm
  rcases Parser.accept_bind_cases f.close t (fun b => if b = true then pure (make []) else do
      let xs ← elements item
      if ← Parser.accept f.close then return make xs else Parser.throw what) with ⟨t', rfl, heq⟩ | ⟨hne, heq⟩
  · rw [heq, if_pos rfl]
    exact ((Follows.pure _ _ trivial rfl).of_tail (awaits_first_close f st t')).mono (Nat.zero_le _)
  · rw [heq, if_neg Bool.false_ne_true]
    have hloop := Follows.separated comma (awaits_comma f st)
      (fun s h => (hitem s h).bind_node fun a => a) (t.length + 1) t (Nat.lt_succ_self _) hlen
    refine (Follows.of_suffix (c := 0) (d := 1) ?_ (List.suffix_refl t) (Nat.le_refl _)
      (awaits_first_of_ne ht hne)).mono (Nat.zero_le _)
    refine Follows.bind (d := 0) hloop (fun xs rest hpost _ => ?_)
    rcases Parser.accept_bind_cases f.close rest (fun b => if b = true then pure (make xs) else
        Parser.throw what) with ⟨rest', rfl, heq'⟩ | ⟨hne', heq'⟩
    · rw [heq', if_pos rfl]
      exact ((Follows.pure _ _ trivial rfl).of_tail (awaits_close f st rest')).mono (Nat.zero_le _)
    · rw [heq']
      exact ⟨List.suffix_refl _, awaits_after_of_ne hpost.1 hpost.2 hne'⟩

theorem parseIdentifier_follows (st : List Frame) (c : Byte) (s : Text) :
    (parseIdentifier (c :: s)).Follows (fun _ => awaits .identifier st s) (awaits .after st)
      (fun _ => True) 1 (c :: s) := by
  rw [parseIdentifier, Parser.advance_bind_cons, Parser.eat_bind]
  have hsuf : s.dropWhile isident <:+ s := List.dropWhile_suffix _
  exact ⟨hsuf.trans (List.suffix_cons c s), Nat.succ_le_succ hsuf.length_le, trivial,
    awaits_run rfl (fun _ _ => rfl) st s⟩

theorem parseNumber_follows (st : List Frame) (c : Byte) (s : Text) :
    (parseNumber (c :: s)).Follows (fun _ => awaits .number st s) (awaits .after st)
      (fun _ => True) 1 (c :: s) := by
  rw [parseNumber, Parser.advance_bind_cons, Parser.eat_bind]
  have hsuf : s.dropWhile isnum <:+ s := List.dropWhile_suffix _
  exact ⟨hsuf.trans (List.suffix_cons c s), Nat.succ_le_succ hsuf.length_le, trivial,
    awaits_run rfl (fun _ _ => rfl) st s⟩

/-- The `switch` of `parse_value` follows the scanner's. -/
theorem dispatch_follows {value : Parser Byte Value} {N : Nat} (hv : ValueFollows value N)
    (st : List Frame) (c : Byte) (s : Text) (hs : s.length < N) :
    (dispatch value (c :: s)).Follows (fun _ => awaits (startValue st c).1 (startValue st c).2 s)
      (awaits .after st) (fun _ => True) 1 (c :: s) := by
  rw [dispatch, Parser.peek_bind_cons]
  unfold startValue
  by_cases hnum : c = minus ∨ isdigit c = true
  · rw [if_pos hnum, if_pos hnum]
    exact parseNumber_follows st c s
  · rw [if_neg hnum, if_neg hnum]
    by_cases hq : c = quote
    · subst hq
      rw [if_pos rfl, if_pos rfl]
      exact (parseString_follows false st s).bind (d := 0) (fun _ _ h _ => Follows.pure _ _ h rfl)
    · rw [if_neg hq, if_neg hq]
      by_cases hbracket : c = openBracket
      · rw [if_pos hbracket, if_pos hbracket]
        exact container_follows (f := .array) (fun t ht => hv (.array :: st) t ht) _ _ c s hs
      · rw [if_neg hbracket, if_neg hbracket]
        by_cases hbrace : c = openBrace
        · rw [if_pos hbrace, if_pos hbrace]
          exact container_follows (f := .object)
            (fun t ht => parsePair_follows hv (.object :: st) t (Nat.le_of_lt ht)) _ _ c s hs
        · rw [if_neg hbrace, if_neg hbrace]
          exact parseIdentifier_follows st c s

/-- **The parser runs in step with the scanner**, by induction on the nesting depth; an input shorter than
    the bound cannot nest deeper than it. -/
theorem parseValue_follows : ∀ depth, ValueFollows (parseValue depth) depth := by
  intro depth
  induction depth with
  | zero => intro st s h; exact absurd h (Nat.not_lt_zero _)
  | succ depth ih =>
      intro st s hs
      apply Follows.padded (fun _ => True) (awaits_dropWhile rfl st) (awaits_dropWhile rfl st)
      have ht := trimmed_dropWhile isspace s
      have hlen := (List.dropWhile_suffix (l := s) isspace).length_le
      cases h : s.dropWhile isspace with
      | nil => rfl
      | cons c s' =>
          rw [h] at ht hlen
          simp only [List.length_cons] at hlen
          refine (dispatch_follows ih st c s' (by omega)).of_suffix (c := 0) (List.suffix_refl _)
            (Nat.le_refl _) ?_
          rw [awaits_cons]
          simp [scanByte, ht c rfl]

/-! ## Safety -/

/-- The parse of `s` returned or threw, with the cursor between the first byte and the end. -/
def Parsed.InBounds {α : Type} (s : Text) : Parsed Byte α → Prop
  | .value _ rest _ => rest <:+ s
  | .thrown _ rest _ => rest <:+ s
  | .overrun => False
  | .outOfFuel => False

/-- A value followed by more text awaits nothing. -/
theorem awaits_after_nil (s : Text) : awaits .after [] s = false := by
  induction s with
  | nil => rfl
  | cons c s ih =>
      rw [awaits_cons]
      by_cases hc : isspace c = true
      · simpa [scanByte, hc] using ih
      · simp [scanByte, hc, afterValue]

/-- **Where the parser stays inside its buffer**: exactly on the texts that do not end where a value, a key or
    the character after a backslash is due. -/
theorem parse_safe_iff (s : Text) : Parsed.InBounds s (parse s) ↔ awaits .value [] s = false := by
  have h := parseValue_follows (s.length + 1) [] s (Nat.lt_succ_self _)
  rw [parse]
  cases hp : parseValue (s.length + 1) s with
  | value v rest n =>
      rw [hp] at h
      exact ⟨fun _ => h.2.2.2.trans (awaits_after_nil rest), fun _ => h.1⟩
  | thrown what rest n =>
      rw [hp] at h
      exact ⟨fun _ => h.2, fun _ => h.1⟩
  | overrun =>
      rw [hp] at h
      exact ⟨fun hf => hf.elim, fun hf => by rw [show awaits .value [] s = true from h] at hf; cases hf⟩
  | outOfFuel =>
      rw [hp] at h
      exact h.elim

/-- A text that ends in a backslash inside a string is read past its end. -/
theorem parse_overruns : ¬ Parsed.InBounds [quote, backslash] (parse [quote, backslash]) := by
  have h : parse [quote, backslash] = .overrun := by rfl
  rw [h]
  exact id

end Json
end Freeflow
