import Freeflow.Lib.ParserRules
import Freeflow.Json.Grammar
import Freeflow.Json.Parser

/-!
# `Json.Correctness.Rules` — postconditions of the parsing routines

One rule for each routine of `json.cpp`: what its parts meet gives what it meets. A statement about every parse is then an
induction on the nesting depth in which each routine takes one step.
-/

namespace Freeflow
namespace Json

open Freeflow.Parsed

variable {s : Text} {E : Text → Nat → Prop}

/-- A run of characters, and what follows it. -/
theorem parseIdentifier_meets {Q : Value → Text → Nat → Prop} {c : Byte}
    (h : Q (.identifier (c :: s.takeWhile isident)) (s.dropWhile isident) 1) :
    (parseIdentifier (c :: s)).Meets Q E := by
  rw [parseIdentifier, Parser.advance_bind_cons, Parser.eat_bind]
  exact h

theorem parseNumber_meets {Q : Value → Text → Nat → Prop} {c : Byte}
    (h : Q (.number (c :: s.takeWhile isnum)) (s.dropWhile isnum) 1) : (parseNumber (c :: s)).Meets Q E := by
  rw [parseNumber, Parser.advance_bind_cons, Parser.eat_bind]
  exact h

/-- The loop of `parse_string`, by two characters at an escape. -/
theorem stringBody_meets {Q : Text → Text → Text → Nat → Prop} {E : Text → Text → Nat → Prop}
    (hend : E [] [] 0) (hquote : ∀ s, Q (quote :: s) [] s 0)
    (hescape : ∀ d s text rest n, Q s text rest n → Q (backslash :: d :: s) (backslash :: d :: text) rest n)
    (hescape' : ∀ d s rest n, E s rest n → E (backslash :: d :: s) rest n)
    (hother : ∀ c s text rest n, c ≠ quote → c ≠ backslash → Q s text rest n → Q (c :: s) (c :: text) rest n)
    (hother' : ∀ c s rest n, c ≠ quote → c ≠ backslash → E s rest n → E (c :: s) rest n) :
    ∀ s : Text, (stringBody s).Meets (Q s) (E s)
  | [] => hend
  | c :: s => by
      by_cases hq : c = quote
      · subst hq
        rw [stringBody_quote]
        exact hquote s
      · by_cases hb : c = backslash
        · subst hb
          match s with
          | [] => rw [stringBody_backslash]; trivial
          | d :: s =>
              have hnext := stringBody_meets hend hquote hescape hescape' hother hother' s
              rw [stringBody_escape]
              exact Meets.map (hnext.mono (hescape d s) (hescape' d s))
        · have hnext := stringBody_meets hend hquote hescape hescape' hother hother' s
          rw [stringBody_other hq hb]
          exact Meets.map (hnext.mono (fun text rest n => hother c s text rest n hq hb)
            (fun rest n => hother' c s rest n hq hb))

theorem parseString_meets {Q : Text → Text → Nat → Prop}
    (h : (stringBody s).Meets (fun text rest n => Q text rest (n + 1)) E) : (parseString (quote :: s)).Meets Q E := by
  rw [parseString, Parser.advance_bind_cons]
  exact h.bind_node (f := id)

/-- `parse_pair`, from the first character of its key on. -/
theorem parsePair_meets {value : Parser Byte Value} {Q : Pair → Text → Nat → Prop}
    {K : Text → Text → Nat → Prop}
    (hnokey : ∀ c s', s.dropWhile isspace = c :: s' → c ≠ quote → E (s.dropWhile isspace) 0)
    (hkey : ∀ s', s.dropWhile isspace = quote :: s' →
      (stringBody s').Meets (fun key rest n => K key (rest.dropWhile isspace) (n + 1))
        (fun rest n => E (rest.dropWhile isspace) n))
    (hnocolon : ∀ key rest n, K key rest n → rest.head? ≠ some colon → E rest n)
    (hvalue : ∀ key rest n, K key (colon :: rest) n →
      (value rest).Meets (fun v r m => Q (.mk key v) r (n + (m + 1))) (fun r m => E r (n + m))) :
    (parsePair value s).Meets Q E := by
  have hparsed : (parseKey s).Meets K E := by
    apply Meets.padded
    have ht := trimmed_dropWhile isspace s
    cases h : s.dropWhile isspace with
    | nil => trivial
    | cons c s' =>
        rw [Parser.peek_bind_cons]
        by_cases hq : c = quote
        · subst hq
          rw [if_pos rfl]
          exact parseString_meets (hkey s' h)
        · rw [if_neg hq]
          have hthrow := hnokey c s' h hq
          rw [h] at ht hthrow
          show E ((c :: s').dropWhile isspace) 0
          rw [ht.dropWhile]
          exact hthrow
  refine hparsed.bind (fun key rest n hk => Meets.accept ?_ ?_) (fun _ _ h => h)
  · rintro rest rfl
    rw [if_pos rfl]
    exact (hvalue key rest n hk).bind_node
  · intro hne
    exact hnocolon key rest n hk hne

/-- `parse_array` and `parse_object`, from the first character behind the opening one on. -/
theorem container_meets {α : Type} {close : Byte} {item : Parser Byte α} {make : List α → Value} {what : String}
    {Q : Value → Text → Nat → Prop} {R : List α → Text → Nat → Prop} {x : Byte}
    (hempty : ∀ rest, s.dropWhile isspace = close :: rest → Q (make []) rest 0)
    (hitems : (s.dropWhile isspace).head? ≠ some close → (elements item (s.dropWhile isspace)).Meets R E)
    (hclose : ∀ xs rest n, R xs (close :: rest) n → Q (make xs) rest n)
    (hopen : ∀ xs rest n, R xs rest n → rest.head? ≠ some close → E rest n) :
    (container close item make what (x :: s)).Meets Q E := by
  rw [container, Parser.advance_bind_cons, Parser.eat_bind]
  apply Meets.accept
  · intro rest h
    rw [if_pos rfl]
    exact hempty rest h
  · intro hne
    rw [if_neg Bool.false_ne_true]
    refine (hitems hne).bind (fun xs rest n hxs => Meets.accept ?_ ?_) (fun _ _ h => h)
    · rintro rest rfl
      exact hclose xs rest n hxs
    · intro hne
      exact hopen xs rest n hxs hne

/-- The `switch` of `parse_value`. -/
theorem dispatch_meets {value : Parser Byte Value} {Q : Value → Text → Nat → Prop} {c : Byte}
    (hnumber : c = minus ∨ isdigit c = true → Q (.number (c :: s.takeWhile isnum)) (s.dropWhile isnum) 1)
    (hstring : c = quote → (stringBody s).Meets (fun text rest n => Q (.string text) rest (n + 1)) E)
    (harray : c = openBracket → (parseArray value (c :: s)).Meets Q E)
    (hobject : c = openBrace → (parseObject value (c :: s)).Meets Q E)
    (hident : named c = false → Q (.identifier (c :: s.takeWhile isident)) (s.dropWhile isident) 1) :
    (dispatch value (c :: s)).Meets Q E := by
  rw [dispatch, Parser.peek_bind_cons]
  by_cases hnum : c = minus ∨ isdigit c = true
  · rw [if_pos hnum]
    exact parseNumber_meets (hnumber hnum)
  rw [if_neg hnum]
  by_cases hq : c = quote
  · subst hq
    rw [if_pos rfl]
    exact (parseString_meets (hstring rfl)).bind (fun _ _ _ h => h) (fun _ _ h => h)
  rw [if_neg hq]
  by_cases hbracket : c = openBracket
  · rw [if_pos hbracket]
    exact harray hbracket
  rw [if_neg hbracket]
  by_cases hbrace : c = openBrace
  · rw [if_pos hbrace]
    exact hobject hbrace
  rw [if_neg hbrace]
  apply parseIdentifier_meets
  apply hident
  rw [not_or] at hnum
  simp [named, hnum.1, hnum.2, hq, hbracket, hbrace]

/-- `parse_value`, one container deeper. -/
theorem parseValue_meets {depth : Nat} {Q : Value → Text → Nat → Prop}
    (h : ∀ c s', s.dropWhile isspace = c :: s' → isspace c = false →
      (dispatch (parseValue depth) (c :: s')).Meets (fun v rest n => Q v (rest.dropWhile isspace) n)
        (fun rest n => E (rest.dropWhile isspace) n)) :
    (parseValue (depth + 1) s).Meets Q E := by
  apply Meets.padded
  have ht := trimmed_dropWhile isspace s
  cases hs : s.dropWhile isspace with
  | nil => trivial
  | cons c s' =>
      rw [hs] at ht
      exact h c s' hs (ht c rfl)

end Json
end Freeflow
