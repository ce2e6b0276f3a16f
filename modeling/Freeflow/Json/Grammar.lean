import Freeflow.Json.Value

/-!
# `Json.Grammar` — what a JSON text is

One grammar for the values, and several lexes for it. `Derives` says which texts a value has: how containers, commas,
colons and blanks stand to each other. A `Lexis` says which characters are blanks and which texts an identifier, a number
and a string body may have, and this is all that the JSON of RFC 8259, the language that `json.hpp` describes, and what
the parser lets through differ in.

## Contents
- `Terminal`, `Lexis`, `Phrase`, `Derives`.
- `Value.terminals`: the terminals of a tree, in the order of its text.
- `Derives.terminals`, `Derives.relex`: a lexis matters at the terminals only.
- The lexes `rfc`, `documented`, `readable`, `accepted`.
-/

namespace Freeflow
namespace Json

/-- A terminal of the grammar, with its raw text. -/
inductive Terminal where
  | identifier (text : Text)
  | number (text : Text)
  | string (text : Text)
deriving DecidableEq, Repr

/-- The blanks and the terminals of a language. -/
structure Lexis where
  blank : Byte → Bool
  terminal : Terminal → Prop

/-- A run of blanks. -/
def Lexis.Blanks (L : Lexis) (t : Text) : Prop := ∀ c ∈ t, L.blank c = true

/-- What a text may be derived from: a value, a value between blanks, the elements of an array, a pair between blanks, or
    the members of an object. -/
inductive Phrase where
  | value (v : Value)
  | element (v : Value)
  | elements (vs : List Value)
  | member (p : Pair)
  | members (ps : List Pair)

/-- **The grammar.** -/
inductive Derives (L : Lexis) : Phrase → Text → Prop where
  | identifier {t : Text} : L.terminal (.identifier t) → Derives L (.value (.identifier t)) t
  | number {t : Text} : L.terminal (.number t) → Derives L (.value (.number t)) t
  | string {t : Text} : L.terminal (.string t) → Derives L (.value (.string t)) (printString t)
  | emptyArray {ws : Text} : L.Blanks ws → Derives L (.value (.array [])) (openBracket :: (ws ++ [closeBracket]))
  | array {vs : List Value} {t : Text} : Derives L (.elements vs) t →
      Derives L (.value (.array vs)) (openBracket :: (t ++ [closeBracket]))
  | emptyObject {ws : Text} : L.Blanks ws → Derives L (.value (.object [])) (openBrace :: (ws ++ [closeBrace]))
  | object {ps : List Pair} {t : Text} : Derives L (.members ps) t →
      Derives L (.value (.object ps)) (openBrace :: (t ++ [closeBrace]))
  | element {v : Value} {ws t ws' : Text} : L.Blanks ws → Derives L (.value v) t → L.Blanks ws' →
      Derives L (.element v) (ws ++ (t ++ ws'))
  | oneElement {v : Value} {t : Text} : Derives L (.element v) t → Derives L (.elements [v]) t
  | moreElements {v : Value} {vs : List Value} {t u : Text} : Derives L (.element v) t → Derives L (.elements vs) u →
      Derives L (.elements (v :: vs)) (t ++ comma :: u)
  | member {key : Text} {v : Value} {ws ws' t : Text} : L.Blanks ws → L.terminal (.string key) → L.Blanks ws' →
      Derives L (.element v) t → Derives L (.member (.mk key v)) (ws ++ (printString key ++ (ws' ++ colon :: t)))
  | oneMember {p : Pair} {t : Text} : Derives L (.member p) t → Derives L (.members [p]) t
  | moreMembers {p : Pair} {ps : List Pair} {t u : Text} : Derives L (.member p) t → Derives L (.members ps) u →
      Derives L (.members (p :: ps)) (t ++ comma :: u)

/-- A value without blanks around it. -/
theorem Derives.bare {L : Lexis} {v : Value} {t : Text} (h : Derives L (.value v) t) : Derives L (.element v) t := by
  have hnil : L.Blanks [] := fun _ hc => absurd hc List.not_mem_nil
  have helement := Derives.element hnil h hnil
  rwa [List.nil_append, List.append_nil] at helement

/-- A pair without blanks in front of its key and its colon. -/
theorem Derives.bareMember {L : Lexis} {key : Text} {v : Value} {t : Text} (hk : L.terminal (.string key))
    (h : Derives L (.element v) t) : Derives L (.member (.mk key v)) (printString key ++ colon :: t) := by
  have hnil : L.Blanks [] := fun _ hc => absurd hc List.not_mem_nil
  exact Derives.member hnil hk hnil h

/-! ## The terminals of a tree -/

mutual

/-- The terminals of a value. -/
def Value.terminals : Value → List Terminal
  | .identifier t => [.identifier t]
  | .number t => [.number t]
  | .string t => [.string t]
  | .array vs => elementTerminals vs
  | .object ps => pairTerminals ps

/-- The terminals of a pair; the key is one of them. -/
def Pair.terminals : Pair → List Terminal
  | .mk key v => .string key :: v.terminals

def elementTerminals : List Value → List Terminal
  | [] => []
  | v :: vs => v.terminals ++ elementTerminals vs

def pairTerminals : List Pair → List Terminal
  | [] => []
  | p :: ps => p.terminals ++ pairTerminals ps

end

/-- The terminals of what a text is derived from. -/
def Phrase.terminals : Phrase → List Terminal
  | .value v => v.terminals
  | .element v => v.terminals
  | .elements vs => elementTerminals vs
  | .member p => p.terminals
  | .members ps => pairTerminals ps

/-- The terminals of a derivation are those of its lexis. -/
theorem Derives.terminals {L : Lexis} {ph : Phrase} {t : Text} (h : Derives L ph t) :
    ∀ x ∈ ph.terminals, L.terminal x := by
  induction h with
  | identifier ht => exact List.forall_mem_singleton.mpr ht
  | number ht => exact List.forall_mem_singleton.mpr ht
  | string ht => exact List.forall_mem_singleton.mpr ht
  | emptyArray _ => exact List.forall_mem_nil _
  | array _ ih => exact ih
  | emptyObject _ => exact List.forall_mem_nil _
  | object _ ih => exact ih
  | element _ _ _ ih => exact ih
  | oneElement _ ih =>
      intro x hx
      apply ih
      simpa [Phrase.terminals, elementTerminals] using hx
  | moreElements _ _ ihv ihs => exact List.forall_mem_append.mpr ⟨ihv, ihs⟩
  | member _ hk _ _ ih => exact List.forall_mem_cons.mpr ⟨hk, ih⟩
  | oneMember _ ih =>
      intro x hx
      apply ih
      simpa [Phrase.terminals, pairTerminals] using hx
  | moreMembers _ _ ihp ihs => exact List.forall_mem_append.mpr ⟨ihp, ihs⟩

/-- **A derivation is one for every lexis that has its terminals and its blanks.** -/
theorem Derives.relex {L L' : Lexis} (hblank : ∀ c, L.blank c = true → L'.blank c = true) {ph : Phrase} {t : Text}
    (h : Derives L ph t) : (∀ x ∈ ph.terminals, L'.terminal x) → Derives L' ph t := by
  have hblanks : ∀ {ws : Text}, L.Blanks ws → L'.Blanks ws := fun hws c hc => hblank c (hws c hc)
  induction h with
  | identifier _ => exact fun hx => .identifier (hx _ (List.mem_singleton_self _))
  | number _ => exact fun hx => .number (hx _ (List.mem_singleton_self _))
  | string _ => exact fun hx => .string (hx _ (List.mem_singleton_self _))
  | emptyArray hws => exact fun _ => .emptyArray (hblanks hws)
  | array _ ih => exact fun hx => .array (ih hx)
  | emptyObject hws => exact fun _ => .emptyObject (hblanks hws)
  | object _ ih => exact fun hx => .object (ih hx)
  | element hws _ hws' ih => exact fun hx => .element (hblanks hws) (ih hx) (hblanks hws')
  | oneElement _ ih =>
      intro hx
      refine .oneElement (ih (fun x hmem => hx x ?_))
      simpa [Phrase.terminals, elementTerminals] using hmem
  | moreElements _ _ ihv ihs =>
      intro hx
      obtain ⟨hv, hs⟩ := List.forall_mem_append.mp hx
      exact .moreElements (ihv hv) (ihs hs)
  | member hws _ hws' _ ih =>
      intro hx
      obtain ⟨hk, hv⟩ := List.forall_mem_cons.mp hx
      exact .member (hblanks hws) hk (hblanks hws') (ih hv)
  | oneMember _ ih =>
      intro hx
      refine .oneMember (ih (fun x hmem => hx x ?_))
      simpa [Phrase.terminals, pairTerminals] using hmem
  | moreMembers _ _ ihp ihs =>
      intro hx
      obtain ⟨hp, hs⟩ := List.forall_mem_append.mp hx
      exact .moreMembers (ihp hp) (ihs hs)

/-! ## String bodies -/

/-- The raw body of a string: no quote but behind a backslash, and a character behind every backslash that is not
    itself behind one. -/
def rawBody : Text → Bool
  | [] => true
  | [c] => c ≠ quote && c ≠ backslash
  | c :: d :: s => c ≠ quote && if c = backslash then rawBody s else rawBody (d :: s)

@[simp] theorem rawBody_nil : rawBody [] = true := rfl

theorem rawBody_quote (s : Text) : rawBody (quote :: s) = false := by
  cases s <;> rfl

theorem rawBody_backslash : rawBody [backslash] = false := rfl

@[simp] theorem rawBody_escape (d : Byte) (s : Text) : rawBody (backslash :: d :: s) = rawBody s := by
  rw [rawBody, if_pos rfl]
  rfl

theorem rawBody_other {c : Byte} (hq : c ≠ quote) (hb : c ≠ backslash) (s : Text) : rawBody (c :: s) = rawBody s := by
  cases s with
  | nil => simp [rawBody, hq, hb]
  | cons d s => rw [rawBody, if_neg hb, decide_eq_true hq, Bool.true_and]

/-! ## Lexes of the parser -/

/-- The characters that `parse_value` looks for; any other one that is no blank begins an identifier. -/
def named (c : Byte) : Bool := c = minus || isdigit c || c = quote || c = openBracket || c = openBrace

/-- A character with a property, and characters of identifiers behind it. -/
def identifierText (first : Byte → Bool) : Text → Bool
  | [] => false
  | c :: cs => first c && cs.all isident

/-- A sign or a digit, and characters of numbers behind it. -/
def numberText : Text → Bool
  | [] => false
  | c :: cs => (c = minus || isdigit c) && cs.all isnum

/-- A lexis in which identifiers begin with certain characters. -/
def lexisOf (first : Byte → Bool) : Lexis where
  blank := isspace
  terminal
    | .identifier t => identifierText first t = true
    | .number t => numberText t = true
    | .string t => rawBody t = true

/-- **The documented language**: an identifier is a sequence of the characters that `isident` names. -/
def documented : Lexis := lexisOf isident

/-- The texts that the parser is sure to read: an identifier does not begin with a digit, which would be a number. -/
def readable : Lexis := lexisOf (fun c => isident c && !isdigit c)

/-- What the parser lets through: whatever is no blank and begins nothing else begins an identifier. -/
def accepted : Lexis := lexisOf (fun c => !isspace c && !named c)

/-! ## RFC 8259 -/

/-- Digits, at least one. -/
def Digits (t : Text) : Prop := t ≠ [] ∧ ∀ c ∈ t, isdigit c = true

/-- `number` of RFC 8259: `[ minus ] int [ frac ] [ exp ]`. -/
inductive RfcNumber : Text → Prop where
  | mk {sign int frac exp : Text} (hsign : sign = [] ∨ sign = [minus])
      (hint : int = [48] ∨ ∃ c cs, int = c :: cs ∧ isdigit c = true ∧ c ≠ 48 ∧ ∀ d ∈ cs, isdigit d = true)
      (hfrac : frac = [] ∨ ∃ ds, frac = 46 :: ds ∧ Digits ds)
      (hexp : exp = [] ∨ ∃ e sign ds, exp = e :: (sign ++ ds) ∧ (e = 101 ∨ e = 69) ∧
        (sign = [] ∨ sign = [43] ∨ sign = [minus]) ∧ Digits ds) :
      RfcNumber (sign ++ (int ++ (frac ++ exp)))

/-- `HEXDIG`, in either case. -/
def isxdigit (c : Byte) : Bool := isdigit c || (65 ≤ c && c ≤ 70) || (97 ≤ c && c ≤ 102)

/-- `*char` of RFC 8259, in ASCII. -/
inductive RfcChars : Text → Prop where
  | nil : RfcChars []
  | unescaped {c : Byte} {s : Text} : 32 ≤ c → c < 128 → c ≠ quote → c ≠ backslash → RfcChars s → RfcChars (c :: s)
  | escaped {c : Byte} {s : Text} : c ∈ [quote, backslash, 47, 98, 102, 110, 114, 116] → RfcChars s →
      RfcChars (backslash :: c :: s)
  | unicode {a b c d : Byte} {s : Text} : isxdigit a = true → isxdigit b = true → isxdigit c = true →
      isxdigit d = true → RfcChars s → RfcChars (backslash :: 117 :: a :: b :: c :: d :: s)

/-- **The JSON of RFC 8259**, in ASCII. -/
def rfc : Lexis where
  blank c := c = 32 || c = 9 || c = 10 || c = 13
  terminal
    | .identifier t => t ∈ [[116, 114, 117, 101], [102, 97, 108, 115, 101], [110, 117, 108, 108]]
    | .number t => RfcNumber t
    | .string t => RfcChars t

end Json
end Freeflow
