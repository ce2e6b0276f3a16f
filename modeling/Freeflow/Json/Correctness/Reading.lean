import Mathlib.Data.List.TakeWhile
import Freeflow.Json.Grammar
import Freeflow.Json.Parser

/-!
# `Json.Correctness.Reading` — what is read, and what may follow it

The lemmas that say of a routine which texts it reads, whole and as what. A terminal is read up to what stops it, a
string up to the quote that closes it, and a container if its items are (`container_reads`), whatever blanks stand in
front of them.

## Contents
- `Delimited`: what may follow a value.
- `Blind`: routines that pass over blanks in front.
- `parseIdentifier_run`, `parseNumber_run`, `parseString_raw`, `parseKey_raw`.
- `container_reads`, `empty_reads`.
-/

namespace Freeflow
namespace Json

/-! ## What may follow a value -/

/-- The text ends, or goes on with a comma or a closing character. -/
def Delimited (t : Text) : Prop :=
  ∀ c, t.head? = some c → c = comma ∨ c = closeBracket ∨ c = closeBrace

theorem delimited_nil : Delimited [] := by
  intro c hc
  cases hc

theorem delimited_comma (t : Text) : Delimited (comma :: t) := by
  intro c hc
  cases hc
  exact Or.inl rfl

/-- No delimiter belongs to a run of characters that excludes them. -/
theorem Delimited.excluded {t : Text} (ht : Delimited t) {p : Byte → Bool} (hcomma : p comma = false)
    (hbracket : p closeBracket = false) (hbrace : p closeBrace = false) : ∀ c, t.head? = some c → p c = false := by
  intro c hc
  rcases ht c hc with rfl | rfl | rfl
  · exact hcomma
  · exact hbracket
  · exact hbrace

/-- A run is followed by what stops it. -/
theorem runs_append {p : Byte → Bool} {cs t : Text} (hcs : cs.all p = true) (ht : ∀ c, t.head? = some c → p c = false) :
    (cs ++ t).takeWhile p = cs ∧ (cs ++ t).dropWhile p = t := by
  have hall : ∀ c ∈ cs, p c = true := List.all_eq_true.mp hcs
  rw [List.takeWhile_append_of_pos hall, List.dropWhile_append_of_pos hall]
  cases t with
  | nil => exact ⟨List.append_nil _, rfl⟩
  | cons c t =>
      have hc := ht c rfl
      rw [List.takeWhile_cons_of_neg (by simp [hc]), List.dropWhile_cons_of_neg (by simp [hc]), List.append_nil]
      exact ⟨rfl, rfl⟩

theorem Delimited.dropWhile_isspace {t : Text} (ht : Delimited t) : t.dropWhile isspace = t := by
  have hnil : ([] : Text).all isspace = true := rfl
  exact (runs_append hnil (ht.excluded rfl rfl rfl)).2

/-! ## Blanks in front -/

/-- Blanks in front of its text make no difference to a parser. -/
def Blind {α : Type} (p : Parser Byte α) : Prop := ∀ s, p (s.dropWhile isspace) = p s

theorem dropWhile_dropWhile (s : Text) : (s.dropWhile isspace).dropWhile isspace = s.dropWhile isspace :=
  (trimmed_dropWhile isspace s).dropWhile

theorem blind_padded {α : Type} (p : Parser Byte α) : Blind (p.padded isspace) := by
  intro s
  unfold Parser.padded
  rw [dropWhile_dropWhile]

theorem Blind.bind {α β : Type} {p : Parser Byte α} (h : Blind p) (f : α → Parser Byte β) : Blind (p >>= f) := by
  intro s
  rw [Parser.bind_apply, Parser.bind_apply, h]

theorem blind_parseValue : ∀ depth, Blind (parseValue depth)
  | 0 => fun _ => rfl
  | _ + 1 => blind_padded _

theorem blind_parsePair (value : Parser Byte Value) : Blind (parsePair value) := (blind_padded _).bind _

/-- `padded` returned: so did the routine inside. -/
theorem padded_eq_value {α : Type} {p : Parser Byte α} {s rest : Text} {a : α} {n : Nat}
    (h : p.padded isspace s = .value a rest n) :
    ∃ r, p (s.dropWhile isspace) = .value a r n ∧ rest = r.dropWhile isspace := by
  unfold Parser.padded at h
  cases hp : p (s.dropWhile isspace) with
  | value a' r m => rw [hp] at h; cases h; exact ⟨r, rfl, rfl⟩
  | thrown => rw [hp] at h; cases h
  | overrun => rw [hp] at h; cases h
  | outOfFuel => rw [hp] at h; cases h

theorem padded_of_value {α : Type} {p : Parser Byte α} {s r : Text} {a : α} {n : Nat}
    (h : p (s.dropWhile isspace) = .value a r n) :
    p.padded isspace s = .value a (r.dropWhile isspace) n := by
  unfold Parser.padded
  rw [h]

/-! ## Terminals and keys -/

/-- An identifier is read up to what stops it. -/
theorem parseIdentifier_run {c : Byte} {cs t : Text} (hcs : cs.all isident = true)
    (ht : ∀ d, t.head? = some d → isident d = false) :
    parseIdentifier (c :: (cs ++ t)) = .value (.identifier (c :: cs)) t 1 := by
  obtain ⟨htake, hdrop⟩ := runs_append hcs ht
  rw [parseIdentifier, Parser.advance_bind_cons, Parser.eat_bind, htake, hdrop]
  rfl

/-- A number is read up to what stops it. -/
theorem parseNumber_run {c : Byte} {cs t : Text} (hcs : cs.all isnum = true)
    (ht : ∀ d, t.head? = some d → isnum d = false) :
    parseNumber (c :: (cs ++ t)) = .value (.number (c :: cs)) t 1 := by
  obtain ⟨htake, hdrop⟩ := runs_append hcs ht
  rw [parseNumber, Parser.advance_bind_cons, Parser.eat_bind, htake, hdrop]
  rfl

/-- A string body is scanned up to the quote that closes it, whatever follows. -/
theorem stringBody_raw : ∀ {text : Text}, rawBody text = true → ∀ t, stringBody (text ++ quote :: t) = .value text t 0
  | [], _, t => stringBody_quote t
  | c :: s, h, t => by
      have hq : c ≠ quote := by
        rintro rfl
        rw [rawBody_quote] at h
        cases h
      by_cases hb : c = backslash
      · subst hb
        match s with
        | [] => rw [rawBody_backslash] at h; cases h
        | d :: s =>
            rw [rawBody_escape] at h
            rw [List.cons_append, List.cons_append, stringBody_escape, stringBody_raw h t]
            rfl
      · rw [rawBody_other hq hb] at h
        rw [List.cons_append, stringBody_other hq hb, stringBody_raw h t]
        rfl

theorem parseString_raw {text : Text} (h : rawBody text = true) (t : Text) :
    parseString (printString text ++ t) = .value text t 1 := by
  rw [printString, List.cons_append, List.append_assoc, List.singleton_append, parseString, Parser.advance_bind_cons,
    Parser.bind_of_value (stringBody_raw h t)]
  rfl

/-- A key between blanks. -/
theorem parseKey_raw {key ws ws' : Text} (hws : ∀ c ∈ ws, isspace c = true) (hkey : rawBody key = true)
    (hws' : ∀ c ∈ ws', isspace c = true) (t : Text) :
    parseKey (ws ++ (printString key ++ (ws' ++ colon :: t))) = .value key (colon :: t) 1 := by
  have hdrop : (ws' ++ colon :: t).dropWhile isspace = colon :: t := by
    rw [List.dropWhile_append_of_pos hws']
    rfl
  rw [← hdrop]
  apply padded_of_value
  have hraw := parseString_raw hkey (ws' ++ colon :: t)
  rw [printString, List.cons_append] at hraw ⊢
  rw [hdrop, List.dropWhile_append_of_pos hws, List.dropWhile_cons_of_neg (by decide)]
  show (Parser.peek >>= _) (quote :: _) = _
  rw [Parser.peek_bind_cons, if_pos rfl, hraw]

/-! ## Containers -/

/-- The `switch` at a container. -/
theorem dispatch_openBracket (value : Parser Byte Value) (s : Text) :
    dispatch value (openBracket :: s) = parseArray value (openBracket :: s) := by
  rw [dispatch, Parser.peek_bind_cons, if_neg (by decide), if_neg (by decide), if_pos rfl]

theorem dispatch_openBrace (value : Parser Byte Value) (s : Text) :
    dispatch value (openBrace :: s) = parseObject value (openBrace :: s) := by
  rw [dispatch, Parser.peek_bind_cons, if_neg (by decide), if_neg (by decide), if_neg (by decide), if_pos rfl]

/-- **A container is read if its items are.** -/
theorem container_reads {α : Type} {item : Parser Byte α} {texts : List Text} {as : List α} {n N : Nat}
    (hblind : Blind item)
    (hitems : ReadsAll Delimited N (do let a ← item; Parser.allocate; return a : Parser Byte α) texts as n)
    {close : Byte} (hclose : close = closeBracket ∨ close = closeBrace)
    (hfirst : ∀ t, ((joined comma texts ++ t).dropWhile isspace).head? ≠ some close)
    (make : List α → Value) (what : String) (x : Byte) (ends : Text → Prop) :
    Reads ends (N + 1) (container close item make what) (x :: (joined comma texts ++ [close])) (make as) n := by
  have hcomma : close ≠ comma := by rcases hclose with rfl | rfl <;> decide
  have hdelim : ∀ t, Delimited (close :: t) := fun t c hc => by
    cases hc
    exact Or.inr hclose
  intro t _ hN
  have hN' : (joined comma texts ++ close :: t).length < N := by
    simp only [List.length_append, List.length_cons, List.length_nil] at hN ⊢
    omega
  -- the loop has enough rounds: every comma between the items is still there when the blanks are gone
  have hfuel : as.length ≤ ((joined comma texts ++ close :: t).dropWhile isspace).length + 1 := by
    have hcount : ((joined comma texts ++ close :: t).takeWhile isspace).count comma = 0 :=
      List.count_eq_zero.mpr (fun hmem => absurd (List.mem_takeWhile_imp hmem) (by decide))
    have hsplit := List.takeWhile_append_dropWhile (p := isspace) (l := joined comma texts ++ close :: t)
    have htotal := congrArg (List.count comma) hsplit
    rw [List.count_append, hcount, List.count_append] at htotal
    have hle := length_le_count_joined comma texts
    have hlen := List.count_le_length (a := comma) (l := (joined comma texts ++ close :: t).dropWhile isspace)
    rw [hitems.length_eq] at hle
    omega
  have hloop := hitems.separated delimited_comma _ hfuel (close :: t) ⟨hdelim t, by simpa using hcomma⟩ hN'
  have helements : elements item ((joined comma texts ++ close :: t).dropWhile isspace)
      = .value as (close :: t) n := by
    rw [← hloop, elements, Parser.separated]
    exact (hblind.bind _).bind _ _
  rw [List.cons_append, List.append_assoc, List.singleton_append, container, Parser.advance_bind_cons, Parser.eat_bind,
    Parser.accept_bind_ne (hfirst _), if_neg Bool.false_ne_true, Parser.bind_of_value helements, Parser.accept_bind_self,
    if_pos rfl]
  rfl

/-- An empty container is read. -/
theorem empty_reads {α : Type} {item : Parser Byte α} {ws : Text} (hws : ∀ c ∈ ws, isspace c = true) {close : Byte}
    (hclose : isspace close = false) (make : List α → Value) (what : String) (x : Byte) (ends : Text → Prop) (N : Nat) :
    Reads ends N (container close item make what) (x :: (ws ++ [close])) (make []) 0 := by
  intro t _ _
  rw [List.cons_append, List.append_assoc, List.singleton_append, container, Parser.advance_bind_cons, Parser.eat_bind,
    List.dropWhile_append_of_pos hws, List.dropWhile_cons_of_neg (by simp [hclose]), Parser.accept_bind_self, if_pos rfl]
  rfl

end Json
end Freeflow
