import Freeflow.Json.Correctness.Completeness
import Freeflow.Json.Correctness.Soundness

/-!
# `Json.Correctness.Rfc` — which texts of RFC 8259 are read

The parser reads whatever the standard allows, with one exception: `isnum` does not know the sign of an exponent, so that
a number ends in front of it. `parse_rfc_iff` says that no other text is refused or misread.
-/

namespace Freeflow
namespace Json

/-- The sign `+`. -/
def plus : Byte := 43

/-- There is a sign behind the first character: in a number, the sign of its exponent. -/
def signed (t : Text) : Bool := t.tail.any (fun c => c = plus || c = minus)

theorem isdigit_isnum {c : Byte} (h : isdigit c = true) : isnum c = true := by
  simp only [isnum, h, Bool.true_or]

/-- A number begins with a sign or a digit, and but for signs all its characters are those that `isnum` names. -/
theorem RfcNumber.chars {t : Text} (h : RfcNumber t) :
    ∃ c cs, t = c :: cs ∧ (c = minus ∨ isdigit c = true) ∧ ∀ d ∈ cs, isnum d = true ∨ d = plus ∨ d = minus := by
  cases h with
  | @mk sign int frac exp hsign hint hfrac hexp =>
      have hdigits : ∀ {ds : Text}, Digits ds → ∀ d ∈ ds, isnum d = true ∨ d = plus ∨ d = minus :=
        fun h d hd => Or.inl (isdigit_isnum (h.2 d hd))
      have hfrac' : ∀ d ∈ frac, isnum d = true ∨ d = plus ∨ d = minus := by
        rcases hfrac with rfl | ⟨ds, rfl, hds⟩
        · exact List.forall_mem_nil _
        · exact List.forall_mem_cons.mpr ⟨Or.inl rfl, hdigits hds⟩
      have hexp' : ∀ d ∈ exp, isnum d = true ∨ d = plus ∨ d = minus := by
        rcases hexp with rfl | ⟨e, es, ds, rfl, he, hes, hds⟩
        · exact List.forall_mem_nil _
        · refine List.forall_mem_cons.mpr ⟨?_, List.forall_mem_append.mpr ⟨?_, hdigits hds⟩⟩
          · rcases he with rfl | rfl <;> exact Or.inl rfl
          · rcases hes with rfl | rfl | rfl
            · exact List.forall_mem_nil _
            · exact List.forall_mem_singleton.mpr (Or.inr (Or.inl rfl))
            · exact List.forall_mem_singleton.mpr (Or.inr (Or.inr rfl))
      have htail : ∀ d ∈ frac ++ exp, isnum d = true ∨ d = plus ∨ d = minus :=
        List.forall_mem_append.mpr ⟨hfrac', hexp'⟩
      -- the integer part has a digit, which comes first unless there is a sign
      obtain ⟨i, is, rfl, hi, his⟩ : ∃ i is, int = i :: is ∧ isdigit i = true ∧ ∀ d ∈ is, isdigit d = true := by
        rcases hint with rfl | ⟨c, cs, rfl, hc, -, hcs⟩
        · exact ⟨48, [], rfl, rfl, List.forall_mem_nil _⟩
        · exact ⟨c, cs, rfl, hc, hcs⟩
      have his' : ∀ d ∈ is ++ (frac ++ exp), isnum d = true ∨ d = plus ∨ d = minus :=
        List.forall_mem_append.mpr ⟨fun d hd => Or.inl (isdigit_isnum (his d hd)), htail⟩
      rcases hsign with rfl | rfl
      · exact ⟨i, _, rfl, Or.inr hi, his'⟩
      · exact ⟨minus, _, rfl, Or.inl rfl, List.forall_mem_cons.mpr ⟨Or.inl (isdigit_isnum hi), his'⟩⟩

/-- A number without a sign in its exponent is one that the parser reads. -/
theorem numberText_of_rfc {t : Text} (h : RfcNumber t) (hs : signed t = false) : numberText t = true := by
  obtain ⟨c, cs, rfl, hc, hcs⟩ := h.chars
  show ((c = minus || isdigit c) && cs.all isnum) = true
  rw [Bool.and_eq_true, Bool.or_eq_true, decide_eq_true_eq, List.all_eq_true]
  refine ⟨hc, fun d hd => (hcs d hd).resolve_right (fun hsign => ?_)⟩
  have hany : cs.any (fun c => c = plus || c = minus) = true :=
    List.any_eq_true.mpr ⟨d, hd, by simpa using hsign⟩
  rw [signed, List.tail_cons, hany] at hs
  cases hs

/-- What the parser reads as a number has no sign behind its first character. -/
theorem not_signed_of_numberText {t : Text} (h : numberText t = true) : signed t = false := by
  cases t with
  | nil => rfl
  | cons c cs =>
      replace h : ((c = minus || isdigit c) && cs.all isnum) = true := h
      rw [Bool.and_eq_true, List.all_eq_true] at h
      rw [signed, List.tail_cons, List.any_eq_false]
      intro d hd
      have hnum := h.2 d hd
      simp only [Bool.or_eq_true, decide_eq_true_eq]
      rintro (rfl | rfl) <;> cases hnum

/-- The characters of a string of the standard are a raw body. -/
theorem RfcChars.rawBody {t : Text} (h : RfcChars t) : rawBody t = true := by
  induction h with
  | nil => rfl
  | unescaped _ _ hq hb _ ih => rw [rawBody_other hq hb, ih]
  | escaped _ _ ih => rw [rawBody_escape, ih]
  | @unicode a b c d s ha hb hc hd _ ih =>
      have hplain : ∀ {x : Byte}, isxdigit x = true → x ≠ quote ∧ x ≠ backslash := by
        intro x hx
        constructor <;>
        · rintro rfl
          cases hx
      rw [rawBody_escape, rawBody_other (hplain ha).1 (hplain ha).2, rawBody_other (hplain hb).1 (hplain hb).2,
        rawBody_other (hplain hc).1 (hplain hc).2, rawBody_other (hplain hd).1 (hplain hd).2, ih]

/-- A terminal of the standard is one that the parser reads, if it is no number with a signed exponent. -/
theorem readable_of_rfc {x : Terminal} (h : rfc.terminal x) (hs : ∀ t, x = .number t → signed t = false) :
    readable.terminal x := by
  cases x with
  | identifier t =>
      simp only [rfc, List.mem_cons, List.not_mem_nil, or_false] at h
      rcases h with rfl | rfl | rfl <;> rfl
  | number t => exact numberText_of_rfc h (hs t rfl)
  | string t => exact RfcChars.rawBody h

theorem rfc_blank_isspace {c : Byte} (h : rfc.blank c = true) : isspace c = true := by
  simp only [rfc, Bool.or_eq_true, decide_eq_true_eq] at h
  rcases h with ((rfl | rfl) | rfl) | rfl <;> rfl

/-- **A JSON text is read whole, and as what it is, exactly when no number in it has a signed exponent.** -/
theorem parse_rfc_iff {v : Value} {t : Text} (h : Derives rfc (.element v) t) :
    (∃ n, parse t = .value v [] n) ↔ ∀ x, .number x ∈ v.terminals → signed x = false := by
  constructor
  · rintro ⟨n, hparse⟩ x hx
    obtain ⟨t', -, haccepted⟩ := parse_derives hparse
    exact not_signed_of_numberText (haccepted.terminals _ hx)
  · intro hs
    have hreadable : ∀ x ∈ v.terminals, readable.terminal x := by
      intro x hx
      apply readable_of_rfc (h.terminals x hx)
      rintro x rfl
      exact hs x hx
    have hblank : ∀ c, rfc.blank c = true → readable.blank c = true := fun c hc => rfc_blank_isspace hc
    exact parse_readable (h.relex hblank hreadable)

/-- The text `null`. -/
theorem parse_rfc_iff_null :
    (∃ n, parse [110, 117, 108, 108] = .value (.identifier [110, 117, 108, 108]) [] n) ↔
      ∀ x, .number x ∈ (Value.identifier [110, 117, 108, 108]).terminals → signed x = false :=
  parse_rfc_iff (Derives.identifier (by simp [rfc])).bare

/-- **A number with a signed exponent**: `1e-5` is a JSON text, and the parser stops in front of the sign. -/
theorem parse_signed_exponent : Derives rfc (.element (.number [49, 101, 45, 53])) [49, 101, 45, 53] ∧
    ¬ ∃ n, parse [49, 101, 45, 53] = .value (.number [49, 101, 45, 53]) [] n := by
  have hnumber : RfcNumber ([] ++ ([49] ++ ([] ++ [101, 45, 53]))) :=
    .mk (Or.inl rfl) (Or.inr ⟨49, [], rfl, rfl, by decide, by simp⟩) (Or.inl rfl)
      (Or.inr ⟨101, [45], [53], rfl, Or.inl rfl, Or.inr (Or.inr rfl), by decide, by simp [isdigit]⟩)
  have hparse : parse [49, 101, 45, 53] = .value (.number [49, 101]) [45, 53] 1 := rfl
  refine ⟨(Derives.number hnumber).bare, ?_⟩
  rintro ⟨n, h⟩
  rw [hparse] at h
  cases h

end Json
end Freeflow
