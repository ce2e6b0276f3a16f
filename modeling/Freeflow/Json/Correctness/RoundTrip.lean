import Freeflow.Json.Correctness.Reading
import Freeflow.Json.Correctness.Soundness

/-!
# `Json.Correctness.RoundTrip` — the parser reads back what is printed of its own results

The parser drops blanks and keeps everything else, so the printed text of a value it returned begins with the
character its own text began with, and every later decision goes the same way as the first time.
`Echoes p p'` states this for two parsers that differ in their nesting bound; the printed text may be shorter
than the original. `parseValue_echoes` is an induction on the bound of the first parse.
-/

namespace Freeflow
namespace Json

/-! ## Terminals -/

theorem parseIdentifier_reads {N : Nat} {c : Byte} {s rest : Text} {v : Value} {n : Nat}
    (h : parseIdentifier (c :: s) = .value v rest n) :
    (∃ cs, printValue v = c :: cs) ∧ Reads Delimited N parseIdentifier (printValue v) v n := by
  rw [parseIdentifier, Parser.advance_bind_cons, Parser.eat_bind] at h
  cases h
  refine ⟨⟨_, rfl⟩, fun t ht _ => ?_⟩
  rw [printValue, List.cons_append]
  exact parseIdentifier_run List.all_takeWhile (ht.excluded rfl rfl rfl)

theorem parseNumber_reads {N : Nat} {c : Byte} {s rest : Text} {v : Value} {n : Nat}
    (h : parseNumber (c :: s) = .value v rest n) :
    (∃ cs, printValue v = c :: cs) ∧ Reads Delimited N parseNumber (printValue v) v n := by
  rw [parseNumber, Parser.advance_bind_cons, Parser.eat_bind] at h
  cases h
  refine ⟨⟨_, rfl⟩, fun t ht _ => ?_⟩
  rw [printValue, List.cons_append]
  exact parseNumber_run List.all_takeWhile (ht.excluded rfl rfl rfl)

/-- The text of a string is a raw body, which is read again. -/
theorem rawBody_of_parseString {s text rest : Text} {n : Nat} (h : parseString (quote :: s) = .value text rest n) :
    rawBody text = true ∧ n = 1 := by
  have hmeets : (parseString (quote :: s)).Meets (fun text _ n => rawBody text = true ∧ n = 1) (fun _ _ => True) := by
    apply parseString_meets
    refine (stringBody_sound s).mono ?_ (fun _ _ h => h)
    rintro text rest n ⟨-, hraw, rfl⟩
    exact ⟨hraw, rfl⟩
  exact hmeets.of_value h

/-! ## Keys and pairs -/

/-- The first character of a value's text, as it was met and as it is printed. -/
def SameFirst (s printed : Text) : Prop :=
  ∃ c cs, printed = c :: cs ∧ (s.dropWhile isspace).head? = some c

/-- A key that was read stood between quotes, and is read again. -/
theorem parseKey_reads {s key rest : Text} {n : Nat} (h : parseKey s = .value key rest n) :
    (s.dropWhile isspace).head? = some quote ∧
    ∀ t, parseKey (printString key ++ colon :: t) = .value key (colon :: t) n := by
  obtain ⟨r, hr, -⟩ := padded_eq_value h
  cases hs : s.dropWhile isspace with
  | nil => rw [hs] at hr; cases hr
  | cons c s' =>
      rw [hs, Parser.peek_bind_cons] at hr
      by_cases hq : c = quote
      · subst hq
        rw [if_pos rfl] at hr
        refine ⟨rfl, fun t => ?_⟩
        obtain ⟨hraw, rfl⟩ := rawBody_of_parseString hr
        have hnil : ∀ c ∈ ([] : Text), isspace c = true := fun _ hc => absurd hc List.not_mem_nil
        exact parseKey_raw hnil hraw hnil t
      · rw [if_neg hq] at hr
        cases hr

/-- A value parser whose results `p'` reads back from their printed texts, on inputs shorter than `N`. -/
def Echoes {α : Type} (print : α → Text) (N : Nat) (p p' : Parser Byte α) : Prop :=
  ∀ s a rest n, p s = .value a rest n → SameFirst s (print a) ∧ Reads Delimited N p' (print a) a n

/-- `parse_pair`. -/
theorem parsePair_echoes {value value' : Parser Byte Value} {N : Nat} (hv : Echoes printValue N value value') :
    Echoes printPair N (parsePair value) (parsePair value') := by
  intro s p rest n h
  obtain ⟨key, r, m, k, hkey, hrest, rfl⟩ := Parser.bind_eq_value h
  obtain ⟨hfirst, hagain⟩ := parseKey_reads hkey
  rcases Parser.accept_bind_cases colon r (fun b => if b = true then do
      let v ← value
      Parser.allocate
      return Pair.mk key v
    else Parser.throw "ill-formed key/value pair") with ⟨r', rfl, heq⟩ | ⟨_, heq⟩
  · rw [heq, if_pos rfl] at hrest
    obtain ⟨v, r'', m', k', hval, hret, rfl⟩ := Parser.bind_eq_value hrest
    cases hret
    refine ⟨⟨quote, _, rfl, hfirst⟩, fun t ht hN => ?_⟩
    have hvagain := (hv r' v _ m' hval).2.bind_node (Pair.mk key) t ht (by
      simp only [printPair, List.length_append, List.length_cons] at hN ⊢
      omega)
    rw [printPair, List.append_assoc, List.cons_append, parsePair, Parser.bind_of_value (hagain _),
      Parser.accept_bind_self, if_pos rfl, hvagain]
    rfl
  · rw [heq] at hrest
    cases hrest

/-! ## Containers -/

/-- The items of a container, with their nodes. -/
theorem elements_echoes {α : Type} {item item' : Parser Byte α} {print : α → Text} {N : Nat}
    (hitem : Echoes print N item item') {s rest : Text} {xs : List α} {n : Nat}
    (h : elements item s = .value xs rest n) :
    SameFirst s (joined comma (xs.map print)) ∧
      ReadsAll Delimited N (do let a ← item'; Parser.allocate; return a) (xs.map print) xs n := by
  have hnode : Echoes print N (do let a ← item; Parser.allocate; return a)
      (do let a ← item'; Parser.allocate; return a) := by
    intro s a rest n h
    obtain ⟨a', r, m, k, ha, hret, rfl⟩ := Parser.bind_eq_value h
    cases hret
    exact ⟨(hitem s _ _ _ ha).1, (hitem s _ _ _ ha).2.bind_node fun a => a⟩
  obtain ⟨a, as, r, m, rfl, ha⟩ := Parser.separated_head h
  obtain ⟨c, cs, hprint, hc⟩ := (hnode s a r m ha).1
  refine ⟨⟨c, ?_⟩, ReadsAll.of_separated (fun s a rest n h => (hnode s a rest n h).2) _ _ _ _ _ h⟩
  cases as with
  | nil => exact ⟨cs, hprint, hc⟩
  | cons b bs =>
      rw [List.map_cons, List.map_cons, joined, hprint, List.cons_append]
      exact ⟨_, rfl, hc⟩

/-- `parse_array` and `parse_object`. -/
theorem container_echoes {α : Type} {item item' : Parser Byte α} {print : α → Text} {N : Nat}
    (hblind : Blind item') (hitem : Echoes print N item item') {close : Byte}
    (hclose : close = closeBracket ∨ close = closeBrace)
    {make : List α → Value} {what : String} {x : Byte} {s rest : Text} {v : Value} {n : Nat}
    (h : container close item make what (x :: s) = .value v rest n) :
    ∃ xs, v = make xs ∧ Reads Delimited (N + 1) (container close item' make what)
      (x :: (joined comma (xs.map print) ++ [close])) v n := by
  rw [container, Parser.advance_bind_cons, Parser.eat_bind] at h
  rcases Parser.accept_bind_cases close (s.dropWhile isspace) (fun b => if b = true then pure (make []) else do
      let xs ← elements item
      if ← Parser.accept close then return make xs else Parser.throw what) with ⟨t', _, heq⟩ | ⟨hne, heq⟩
  · rw [heq, if_pos rfl] at h
    cases h
    have hnil : ∀ c ∈ ([] : Text), isspace c = true := fun _ hc => absurd hc List.not_mem_nil
    have hblank : isspace close = false := by rcases hclose with rfl | rfl <;> rfl
    exact ⟨[], rfl, empty_reads hnil hblank make what x Delimited (N + 1)⟩
  · rw [heq, if_neg Bool.false_ne_true] at h
    obtain ⟨xs, r, m, k, hxs, hrest, rfl⟩ := Parser.bind_eq_value h
    obtain ⟨⟨c, cs, hprint, hc⟩, hall⟩ := elements_echoes hitem hxs
    rcases Parser.accept_bind_cases close r (fun b => if b = true then pure (make xs) else Parser.throw what)
      with ⟨r', rfl, heq'⟩ | ⟨_, heq'⟩
    · rw [heq', if_pos rfl] at hrest
      cases hrest
      refine ⟨xs, rfl, container_reads hblind hall hclose (fun t => ?_) make what x Delimited⟩
      -- the first item begins with the character it began with before, which is neither blank nor `close`
      rw [dropWhile_dropWhile] at hc
      have hcblank : isspace c = false := trimmed_dropWhile isspace s c hc
      rw [hprint, List.cons_append, List.dropWhile_cons_of_neg (by simp [hcblank])]
      intro hcc
      exact hne (by rw [hc, ← hcc, List.head?_cons])
    · rw [heq'] at hrest
      cases hrest

/-! ## Values -/

/-- The `switch` goes the way of the first character, which is printed first. -/
theorem dispatch_echoes {value value' : Parser Byte Value} {N : Nat} (hblind : Blind value')
    (hv : Echoes printValue N value value')
    {c : Byte} {s rest : Text} {v : Value} {n : Nat} (h : dispatch value (c :: s) = .value v rest n) :
    (∃ cs, printValue v = c :: cs) ∧ Reads Delimited (N + 1) (dispatch value') (printValue v) v n := by
  rw [dispatch, Parser.peek_bind_cons] at h
  by_cases hnum : c = minus ∨ isdigit c = true
  · rw [if_pos hnum] at h
    obtain ⟨⟨cs, hprint⟩, hread⟩ := parseNumber_reads (N := N + 1) h
    refine ⟨⟨cs, hprint⟩, fun t ht hN => ?_⟩
    rw [← hread t ht hN, hprint, List.cons_append, dispatch, Parser.peek_bind_cons, if_pos hnum]
  · rw [if_neg hnum] at h
    by_cases hq : c = quote
    · subst hq
      rw [if_pos rfl] at h
      obtain ⟨text, r, m, k, htext, hret, rfl⟩ := Parser.bind_eq_value h
      cases hret
      obtain ⟨hraw, rfl⟩ := rawBody_of_parseString htext
      refine ⟨⟨_, rfl⟩, fun t _ _ => ?_⟩
      have hagain := parseString_raw hraw t
      rw [printValue, printString, List.cons_append] at *
      rw [dispatch, Parser.peek_bind_cons, if_neg hnum, if_pos rfl, Parser.bind_of_value hagain]
      rfl
    · rw [if_neg hq] at h
      by_cases hbracket : c = openBracket
      · subst hbracket
        rw [if_pos rfl] at h
        obtain ⟨vs, rfl, hread⟩ := container_echoes hblind hv (Or.inl rfl) h
        rw [← printElements_eq_map] at hread
        refine ⟨⟨_, rfl⟩, fun t ht hN => ?_⟩
        rw [printValue] at hN ⊢
        rw [← hread t ht hN, List.cons_append, dispatch_openBracket]
        rfl
      · rw [if_neg hbracket] at h
        by_cases hbrace : c = openBrace
        · subst hbrace
          rw [if_pos rfl] at h
          obtain ⟨ps, rfl, hread⟩ := container_echoes (blind_parsePair value') (parsePair_echoes hv) (Or.inr rfl) h
          rw [← printPairs_eq_map] at hread
          refine ⟨⟨_, rfl⟩, fun t ht hN => ?_⟩
          rw [printValue] at hN ⊢
          rw [← hread t ht hN, List.cons_append, dispatch_openBrace]
          rfl
        · rw [if_neg hbrace] at h
          obtain ⟨⟨cs, hprint⟩, hread⟩ := parseIdentifier_reads (N := N + 1) h
          refine ⟨⟨cs, hprint⟩, fun t ht hN => ?_⟩
          rw [← hread t ht hN, hprint, List.cons_append, dispatch, Parser.peek_bind_cons, if_neg hnum,
            if_neg hq, if_neg hbracket, if_neg hbrace]

/-- **The parser reads back its own results**, by induction on the nesting bound of the first parse. The
    second needs no more than the length of what it reads. -/
theorem parseValue_echoes : ∀ depth N, Echoes printValue N (parseValue depth) (parseValue N) := by
  intro depth
  induction depth with
  | zero => intro N s v rest n h; cases h
  | succ depth ih =>
      have hsucc : ∀ N, Echoes printValue (N + 1) (parseValue (depth + 1)) (parseValue (N + 1)) := by
        intro N s v rest n h
        obtain ⟨r, hr, -⟩ := padded_eq_value h
        have ht := trimmed_dropWhile isspace s
        cases hs : s.dropWhile isspace with
        | nil => rw [hs] at hr; cases hr
        | cons c s' =>
            rw [hs] at hr ht
            obtain ⟨⟨cs, hprint⟩, hread⟩ := dispatch_echoes (blind_parseValue N) (ih N) hr
            refine ⟨⟨c, cs, hprint, by rw [hs]; rfl⟩, fun t htd hN => ?_⟩
            have hblank : isspace c = false := ht c rfl
            have hdrop : (printValue v ++ t).dropWhile isspace = printValue v ++ t := by
              rw [hprint, List.cons_append, List.dropWhile_cons_of_neg (by simp [hblank])]
            rw [parseValue, padded_of_value (r := t) (by rw [hdrop]; exact hread t htd hN),
              htd.dropWhile_isspace]
      intro N s v rest n h
      cases N with
      | zero => exact ⟨(hsucc 0 s v rest n h).1, fun t _ hN => absurd hN (Nat.not_lt_zero _)⟩
      | succ N => exact hsucc N s v rest n h

/-- **Printing and parsing again is the identity on the results of the parser**: the whole printed text is
    consumed and the same value comes back, with as many nodes as before. -/
theorem parse_printValue {s rest : Text} {v : Value} {n : Nat} (h : parse s = .value v rest n) :
    parse (printValue v) = .value v [] n := by
  have hread := (parseValue_echoes (s.length + 1) ((printValue v).length + 1) s v rest n h).2 []
    delimited_nil (by simp)
  rw [List.append_nil] at hread
  exact hread

/-- The array `[a,{"k":1}]`, read from a text with blanks and a rest. -/
theorem parse_printValue_nested :
    parse (printValue (.array [.identifier [97], .object [.mk [107] (.number [49])]]))
      = .value (.array [.identifier [97], .object [.mk [107] (.number [49])]]) [] 7 :=
  parse_printValue (s := [32, 91, 97, 44, 32, 123, 34, 107, 34, 58, 49, 125, 93, 32, 120]) rfl

end Json
end Freeflow
