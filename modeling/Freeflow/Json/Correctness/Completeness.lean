import Freeflow.Json.Correctness.Reading

/-!
# `Json.Correctness.Completeness` — the parser reads every text of its language

What the grammar derives over the lexis `readable` the parser reads, blanks and all, and gives the tree of the derivation.
`Derives.reads` is an induction on the derivation; `Json.Correctness.Reading` has the terminals and the containers.
-/

namespace Freeflow
namespace Json

/-! ## What may follow a terminal -/

/-- No terminal goes on with the first character. -/
def Stops (t : Text) : Prop := ∀ c, t.head? = some c → isident c = false ∧ isnum c = false

theorem isident_not_isspace {c : Byte} (h : isident c = true) : isspace c = false := by
  simp only [isident, isalnum, isdigit, isspace] at *
  grind

theorem isspace_not_isnum {c : Byte} (h : isspace c = true) : isident c = false ∧ isnum c = false := by
  simp only [isident, isalnum, isnum, isdigit, isspace] at *
  grind

theorem isdigit_not_isspace {c : Byte} (h : isdigit c = true) : isspace c = false := by
  simp only [isdigit, isspace] at *
  grind

theorem Delimited.stops {t : Text} (h : Delimited t) : Stops t := by
  intro c hc
  rcases h c hc with rfl | rfl | rfl <;> exact ⟨rfl, rfl⟩

/-- Blanks in front of a delimiter stop a terminal. -/
theorem Delimited.stops_blanks {ws t : Text} (hws : ∀ c ∈ ws, isspace c = true) (h : Delimited t) : Stops (ws ++ t) := by
  cases ws with
  | nil => exact h.stops
  | cons b ws =>
      intro c hc
      cases hc
      exact isspace_not_isnum (hws _ (by simp))

/-! ## Blanks in front -/

/-- The first character that is no blank is there, and closes nothing. -/
def Begins (t : Text) : Prop :=
  ∃ c cs, t.dropWhile isspace = c :: cs ∧ c ≠ closeBracket ∧ c ≠ closeBrace

theorem Begins.append {t : Text} (h : Begins t) (u : Text) : Begins (t ++ u) := by
  obtain ⟨c, cs, ht, hc⟩ := h
  refine ⟨c, cs ++ u, ?_, hc⟩
  rw [List.dropWhile_append, ht]
  rfl

theorem Begins.blanks {ws t : Text} (hws : ∀ c ∈ ws, isspace c = true) (h : Begins t) : Begins (ws ++ t) := by
  obtain ⟨c, cs, ht, hc⟩ := h
  refine ⟨c, cs, ?_, hc⟩
  rw [List.dropWhile_append_of_pos hws, ht]

theorem begins_cons {c : Byte} (hc : isspace c = false) (hbracket : c ≠ closeBracket) (hbrace : c ≠ closeBrace)
    (cs : Text) : Begins (c :: cs) :=
  ⟨c, cs, List.dropWhile_cons_of_neg (by simp [hc]), hbracket, hbrace⟩

/-- What begins so does not begin with the end of a container. -/
theorem Begins.ne_close {t : Text} (h : Begins t) {close : Byte}
    (hclose : close = closeBracket ∨ close = closeBrace) (u : Text) :
    ((t ++ u).dropWhile isspace).head? ≠ some close := by
  obtain ⟨c, cs, hs, hbracket, hbrace⟩ := h.append u
  rw [hs]
  intro h
  cases h
  rcases hclose with rfl | rfl
  · exact hbracket rfl
  · exact hbrace rfl

/-! ## Derivations -/

/-- How the parser reads a text that is derived from a phrase: what begins it, what the routines give, and how many nodes
    they allocate, for every bound on the length of the input. -/
def Phrase.Read : Phrase → Text → Prop
  | .value v, t => (∃ c cs, t = c :: cs ∧ isspace c = false ∧ c ≠ closeBracket ∧ c ≠ closeBrace) ∧
      ∃ n, ∀ N, Reads Stops (N + 1) (dispatch (parseValue N)) t v n
  | .element v, t => Begins t ∧ ∃ n, ∀ N, Reads Delimited N (parseValue N) t v n
  | .elements vs, t => Begins t ∧ ∃ texts n, t = joined comma texts ∧
      ∀ N, ReadsAll Delimited N (do let v ← parseValue N; Parser.allocate; return v) texts vs n
  | .member p, t => Begins t ∧ ∃ n, ∀ N, Reads Delimited N (parsePair (parseValue N)) t p n
  | .members ps, t => Begins t ∧ ∃ texts n, t = joined comma texts ∧
      ∀ N, ReadsAll Delimited N (do let p ← parsePair (parseValue N); Parser.allocate; return p) texts ps n

/-- One more item, in front of those that are read. -/
theorem joined_cons {α : Type} {item : Nat → Parser Byte α} {t : Text} {texts : List Text} {a : α} {as : List α}
    {n m : Nat} (h : ∀ N, Reads Delimited N (item N) t a n) (hs : ∀ N, ReadsAll Delimited N (item N) texts as m) :
    t ++ comma :: joined comma texts = joined comma (t :: texts) ∧
      ∀ N, ReadsAll Delimited N (item N) (t :: texts) (a :: as) (n + m) := by
  cases texts with
  | nil => cases hs 0
  | cons u us => exact ⟨rfl, fun N => .cons (h N) (hs N)⟩

/-- A value between blanks. -/
theorem Phrase.Read.element {v : Value} {ws t ws' : Text} (hws : ∀ c ∈ ws, isspace c = true)
    (hws' : ∀ c ∈ ws', isspace c = true) (h : Phrase.Read (.value v) t) :
    Phrase.Read (.element v) (ws ++ (t ++ ws')) := by
  obtain ⟨⟨c, cs, rfl, hblank, hclose⟩, n, hread⟩ := h
  refine ⟨((begins_cons hblank hclose.1 hclose.2 cs).append ws').blanks hws, n, fun N u hu hN => ?_⟩
  cases N with
  | zero => exact absurd hN (Nat.not_lt_zero _)
  | succ N =>
      have hdrop : (ws ++ (c :: cs ++ ws') ++ u).dropWhile isspace = c :: cs ++ (ws' ++ u) := by
        rw [List.append_assoc, List.append_assoc, List.dropWhile_append_of_pos hws, List.cons_append,
          List.dropWhile_cons_of_neg (by simp [hblank])]
      have hvalue := hread N (ws' ++ u) (hu.stops_blanks hws') (by
        simp only [List.length_append] at hN ⊢
        omega)
      rw [← hdrop] at hvalue
      rw [parseValue, padded_of_value hvalue, List.dropWhile_append_of_pos hws', hu.dropWhile_isspace]

/-- A pair between blanks. -/
theorem Phrase.Read.member {key : Text} {v : Value} {ws ws' t : Text} (hws : ∀ c ∈ ws, isspace c = true)
    (hkey : rawBody key = true) (hws' : ∀ c ∈ ws', isspace c = true) (h : Phrase.Read (.element v) t) :
    Phrase.Read (.member (.mk key v)) (ws ++ (printString key ++ (ws' ++ colon :: t))) := by
  obtain ⟨-, n, hread⟩ := h
  refine ⟨(begins_cons (c := quote) rfl (by decide) (by decide) _).blanks hws, 1 + (n + 1), fun N u hu hN => ?_⟩
  have hvalue := (hread N).bind_node (Pair.mk key) u hu (by
    simp only [List.length_append, List.length_cons] at hN ⊢
    omega)
  simp only [List.append_assoc, List.cons_append]
  rw [parsePair, Parser.bind_of_value (parseKey_raw hws hkey hws' (t ++ u)), Parser.accept_bind_self, if_pos rfl, hvalue]
  rfl

/-- **Completeness.** The parser reads what the grammar derives. -/
theorem Derives.reads {ph : Phrase} {t : Text} (h : Derives readable ph t) : ph.Read t := by
  induction h with
  | @identifier t ht =>
      cases t with
      | nil => cases ht
      | cons c cs =>
          replace ht : (isident c && !isdigit c && cs.all isident) = true := ht
          simp only [Bool.and_eq_true, Bool.not_eq_true'] at ht
          obtain ⟨⟨hc, hdigit⟩, hcs⟩ := ht
          have hne : ∀ d : Byte, isident d = false → c ≠ d := by
            rintro d hd rfl
            rw [hc] at hd
            cases hd
          refine ⟨⟨c, cs, rfl, isident_not_isspace hc, hne _ rfl, hne _ rfl⟩, 1, fun N u hu _ => ?_⟩
          rw [List.cons_append, dispatch, Parser.peek_bind_cons, if_neg (by simp [hne minus rfl, hdigit]),
            if_neg (hne quote rfl), if_neg (hne openBracket rfl), if_neg (hne openBrace rfl)]
          exact parseIdentifier_run hcs (fun d hd => (hu d hd).1)
  | @number t ht =>
      cases t with
      | nil => cases ht
      | cons c cs =>
          replace ht : ((c = minus || isdigit c) && cs.all isnum) = true := ht
          simp only [Bool.and_eq_true, Bool.or_eq_true, decide_eq_true_eq] at ht
          obtain ⟨hc, hcs⟩ := ht
          have hfirst : isspace c = false ∧ c ≠ closeBracket ∧ c ≠ closeBrace := by
            rcases hc with rfl | hdigit
            · decide
            · refine ⟨isdigit_not_isspace hdigit, ?_, ?_⟩ <;>
              · rintro rfl
                cases hdigit
          refine ⟨⟨c, cs, rfl, hfirst⟩, 1, fun N u hu _ => ?_⟩
          rw [List.cons_append, dispatch, Parser.peek_bind_cons, if_pos hc]
          exact parseNumber_run hcs (fun d hd => (hu d hd).2)
  | @string t ht =>
      refine ⟨⟨quote, _, rfl, rfl, by decide, by decide⟩, 1, fun N u _ _ => ?_⟩
      have hraw := parseString_raw ht u
      rw [printString, List.cons_append] at hraw ⊢
      rw [dispatch, Parser.peek_bind_cons, if_neg (by decide), if_pos rfl, Parser.bind_of_value hraw]
      rfl
  | emptyArray hws =>
      refine ⟨⟨openBracket, _, rfl, rfl, by decide, by decide⟩, 0, fun N u hu hN => ?_⟩
      rw [List.cons_append, dispatch_openBracket]
      exact empty_reads hws (by decide) .array "ill-formed array" openBracket Stops (N + 1) u hu hN
  | emptyObject hws =>
      refine ⟨⟨openBrace, _, rfl, rfl, by decide, by decide⟩, 0, fun N u hu hN => ?_⟩
      rw [List.cons_append, dispatch_openBrace]
      exact empty_reads hws (by decide) .object "ill-formed object" openBrace Stops (N + 1) u hu hN
  | array _ ih =>
      obtain ⟨hbegins, texts, n, rfl, hread⟩ := ih
      refine ⟨⟨openBracket, _, rfl, rfl, by decide, by decide⟩, n, fun N u hu hN => ?_⟩
      rw [List.cons_append, dispatch_openBracket]
      exact container_reads (blind_parseValue N) (hread N) (Or.inl rfl) (hbegins.ne_close (Or.inl rfl)) .array
        "ill-formed array" openBracket Stops u hu hN
  | object _ ih =>
      obtain ⟨hbegins, texts, n, rfl, hread⟩ := ih
      refine ⟨⟨openBrace, _, rfl, rfl, by decide, by decide⟩, n, fun N u hu hN => ?_⟩
      rw [List.cons_append, dispatch_openBrace]
      exact container_reads (blind_parsePair _) (hread N) (Or.inr rfl) (hbegins.ne_close (Or.inr rfl)) .object
        "ill-formed object" openBrace Stops u hu hN
  | element hws _ hws' ih => exact Phrase.Read.element hws hws' ih
  | @oneElement v t _ ih =>
      obtain ⟨hbegins, n, hread⟩ := ih
      exact ⟨hbegins, [t], n + 1, rfl, fun N => .one ((hread N).bind_node id)⟩
  | moreElements _ _ ihv ihs =>
      obtain ⟨hbegins, n, hread⟩ := ihv
      obtain ⟨-, texts, m, rfl, hreads⟩ := ihs
      obtain ⟨hjoined, hall⟩ := joined_cons (fun N => (hread N).bind_node id) hreads
      exact ⟨hbegins.append _, _, _, hjoined, hall⟩
  | member hws hk hws' _ ih => exact Phrase.Read.member hws hk hws' ih
  | @oneMember p t _ ih =>
      obtain ⟨hbegins, n, hread⟩ := ih
      exact ⟨hbegins, [t], n + 1, rfl, fun N => .one ((hread N).bind_node id)⟩
  | moreMembers _ _ ihp ihs =>
      obtain ⟨hbegins, n, hread⟩ := ihp
      obtain ⟨-, texts, m, rfl, hreads⟩ := ihs
      obtain ⟨hjoined, hall⟩ := joined_cons (fun N => (hread N).bind_node id) hreads
      exact ⟨hbegins.append _, _, _, hjoined, hall⟩

/-- A text of the language is consumed whole. -/
theorem parse_readable {v : Value} {t : Text} (h : Derives readable (.element v) t) :
    ∃ n, parse t = .value v [] n := by
  obtain ⟨-, n, hread⟩ := h.reads
  have hparse := hread (t.length + 1) [] delimited_nil (by simp)
  rw [List.append_nil] at hparse
  exact ⟨n, hparse⟩

end Json
end Freeflow
