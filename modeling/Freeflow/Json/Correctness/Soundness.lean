import Mathlib.Data.List.TakeWhile
import Freeflow.Json.Correctness.Rules

/-!
# `Json.Correctness.Soundness` — what a parse consumed

A value that the parser returned is the tree of the text it consumed, by the grammar of `Json.Grammar` over the lexis
`accepted`: strings end at their closing quote, and anything that is no blank and begins nothing else begins an
identifier. `parse_derives` is the whole of what the later modules need of a parse that returned.
-/

namespace Freeflow
namespace Json

open Freeflow.Parsed

/-- Between the two positions stands a text that satisfies `D`. -/
def Consumes (D : Text → Prop) (s rest : Text) : Prop := ∃ t, s = t ++ rest ∧ D t

/-- A value parser that consumes what the grammar derives. -/
def ValueSound (value : Parser Byte Value) : Prop :=
  ∀ s, (value s).Meets (fun v rest _ => Consumes (Derives accepted (.element v)) s rest) (fun _ _ => True)

/-! ## Blanks -/

theorem blanks_takeWhile (s : Text) : accepted.Blanks (s.takeWhile isspace) := fun _ hc => List.mem_takeWhile_imp hc

theorem Blanks.append {L : Lexis} {ws ws' : Text} (h : L.Blanks ws) (h' : L.Blanks ws') : L.Blanks (ws ++ ws') :=
  List.forall_mem_append.mpr ⟨h, h'⟩

/-- What stands between blanks stands between more blanks. -/
theorem Derives.pad {L : Lexis} {ws : Text} (hws : L.Blanks ws) {ph : Phrase} {t : Text} (h : Derives L ph t) :
    match ph with
    | .value _ => True
    | .element _ | .elements _ | .member _ | .members _ => Derives L ph (ws ++ t) := by
  induction h with
  | element h hv h' _ =>
      dsimp only
      rw [← List.append_assoc]
      exact .element (Blanks.append hws h) hv h'
  | oneElement _ ih => exact .oneElement ih
  | moreElements _ hs ih _ =>
      dsimp only
      rw [← List.append_assoc]
      exact .moreElements ih hs
  | member h hk h' hv _ =>
      dsimp only
      rw [← List.append_assoc]
      exact .member (Blanks.append hws h) hk h' hv
  | oneMember _ ih => exact .oneMember ih
  | moreMembers _ hs ih _ =>
      dsimp only
      rw [← List.append_assoc]
      exact .moreMembers ih hs
  | identifier _ => trivial
  | number _ => trivial
  | string _ => trivial
  | emptyArray _ => trivial
  | array _ _ => trivial
  | emptyObject _ => trivial
  | object _ _ => trivial

/-- What was consumed behind blanks, and the blanks behind it. -/
theorem Consumes.element {v : Value} {s rest : Text}
    (h : Consumes (Derives accepted (.value v)) (s.dropWhile isspace) rest) :
    Consumes (Derives accepted (.element v)) s (rest.dropWhile isspace) := by
  obtain ⟨t, hs, hv⟩ := h
  refine ⟨s.takeWhile isspace ++ (t ++ rest.takeWhile isspace), ?_,
    .element (blanks_takeWhile s) hv (blanks_takeWhile rest)⟩
  rw [List.append_assoc, List.append_assoc, List.takeWhile_append_dropWhile, ← hs, List.takeWhile_append_dropWhile]

/-! ## Strings, keys and pairs -/

/-- A string ends at the first quote that is not escaped. -/
theorem stringBody_sound (s : Text) :
    (stringBody s).Meets (fun text rest n => s = text ++ quote :: rest ∧ rawBody text = true ∧ n = 0)
      (fun _ _ => True) := by
  apply stringBody_meets (Q := fun s text rest n => s = text ++ quote :: rest ∧ rawBody text = true ∧ n = 0)
    (E := fun _ _ _ => True)
  · trivial
  · exact fun s => ⟨rfl, rfl, rfl⟩
  · rintro d s text rest n ⟨rfl, h, hn⟩
    exact ⟨rfl, by rw [rawBody_escape]; exact h, hn⟩
  · intros
    trivial
  · rintro c s text rest n hq hb ⟨rfl, h, hn⟩
    exact ⟨rfl, by rw [rawBody_other hq hb]; exact h, hn⟩
  · intros
    trivial

/-- `parse_pair`. -/
theorem parsePair_sound {value : Parser Byte Value} (hv : ValueSound value) (s : Text) :
    (parsePair value s).Meets (fun p rest _ => Consumes (Derives accepted (.member p)) s rest) (fun _ _ => True) := by
  apply parsePair_meets (K := fun key rest _ =>
    Consumes (fun t => ∃ ws ws', t = ws ++ (printString key ++ ws') ∧ accepted.Blanks ws ∧ accepted.Blanks ws' ∧
      rawBody key = true) s rest)
  · intros
    trivial
  · intro s' hs
    refine (stringBody_sound s').mono ?_ (fun _ _ h => h)
    rintro key rest n ⟨rfl, hkey, -⟩
    refine ⟨_, ?_, s.takeWhile isspace, rest.takeWhile isspace, rfl, blanks_takeWhile s, blanks_takeWhile rest, hkey⟩
    rw [List.append_assoc, List.append_assoc, List.takeWhile_append_dropWhile, printString, List.cons_append,
      List.append_assoc, List.singleton_append, ← hs, List.takeWhile_append_dropWhile]
  · intros
    trivial
  · rintro key rest n ⟨_, rfl, ws, ws', rfl, hws, hws', hkey⟩
    refine (hv rest).mono ?_ (fun _ _ h => h)
    rintro v r m ⟨t, rfl, ht⟩
    exact ⟨_, by simp [List.append_assoc], .member hws hkey hws' ht⟩

/-! ## Containers -/

/-- The loop of `parse_array` and `parse_object`. -/
theorem elements_sound {α : Type} {item : Parser Byte α} {D : α → Text → Prop} {Ds : List α → Text → Prop}
    (hone : ∀ {a t}, D a t → Ds [a] t) (hmore : ∀ {a as t u}, D a t → Ds as u → Ds (a :: as) (t ++ comma :: u))
    (hitem : ∀ s, (item s).Meets (fun a rest _ => Consumes (D a) s rest) (fun _ _ => True)) (s : Text) :
    (elements item s).Meets (fun as rest _ => Consumes (Ds as) s rest) (fun _ _ => True) := by
  apply Meets.separated (P := fun s a rest _ => Consumes (D a) s rest)
    (Q := fun s as rest _ => Consumes (Ds as) s rest) (F := fun _ _ _ => True)
  · exact fun s => (hitem s).bind_node (f := id)
  · rintro s a rest n ⟨t, hs, ht⟩ -
    exact ⟨t, hs, hone ht⟩
  · rintro s a rest m ⟨t, rfl, ht⟩ as r n ⟨u, rfl, hu⟩
    exact ⟨t ++ comma :: u, by simp, hmore ht hu⟩
  · intros
    trivial

/-- `parse_array` and `parse_object`. -/
theorem container_sound {α : Type} {close : Byte} {item : Parser Byte α} {make : List α → Value} {what : String}
    {Ds : List α → Text → Prop} (hpad : ∀ {ws t as}, accepted.Blanks ws → Ds as t → Ds as (ws ++ t))
    (hitems : ∀ s, (elements item s).Meets (fun as rest _ => Consumes (Ds as) s rest) (fun _ _ => True)) (x : Byte)
    (hempty : ∀ {ws}, accepted.Blanks ws → Derives accepted (.value (make [])) (x :: (ws ++ [close])))
    (hfull : ∀ {as t}, Ds as t → Derives accepted (.value (make as)) (x :: (t ++ [close]))) (s : Text) :
    (container close item make what (x :: s)).Meets
      (fun v rest _ => Consumes (Derives accepted (.value v)) (x :: s) rest) (fun _ _ => True) := by
  apply container_meets (R := fun as rest _ => Consumes (Ds as) s rest)
  · intro rest h
    refine ⟨_, ?_, hempty (blanks_takeWhile s)⟩
    rw [List.cons_append, List.append_assoc, List.singleton_append, ← h, List.takeWhile_append_dropWhile]
  · intro _
    refine (hitems _).mono ?_ (fun _ _ h => h)
    rintro as rest n ⟨t, hs, ht⟩
    refine ⟨s.takeWhile isspace ++ t, ?_, hpad (blanks_takeWhile s) ht⟩
    rw [List.append_assoc, ← hs, List.takeWhile_append_dropWhile]
  · rintro as rest n ⟨t, rfl, ht⟩
    exact ⟨_, by simp, hfull ht⟩
  · intros
    trivial

/-! ## Values -/

/-- **What a parse consumed has the tree that it returned**, by induction on the nesting bound. -/
theorem parseValue_sound : ∀ depth, ValueSound (parseValue depth) := by
  intro depth
  induction depth with
  | zero => exact fun _ => trivial
  | succ depth ih =>
      intro s
      apply parseValue_meets
      intro c s' hs hc
      have hvalue : (dispatch (parseValue depth) (c :: s')).Meets
          (fun v rest _ => Consumes (Derives accepted (.value v)) (c :: s') rest) (fun _ _ => True) := by
        apply dispatch_meets
        · intro hnum
          refine ⟨c :: s'.takeWhile isnum, ?_, .number ?_⟩
          · rw [List.cons_append, List.takeWhile_append_dropWhile]
          · show numberText (c :: s'.takeWhile isnum) = true
            simp only [numberText, Bool.and_eq_true, List.all_takeWhile, and_true, Bool.or_eq_true, decide_eq_true_eq]
            exact hnum
        · rintro rfl
          refine (stringBody_sound s').mono ?_ (fun _ _ h => h)
          rintro text rest n ⟨rfl, h, -⟩
          exact ⟨printString text, by simp [printString], .string h⟩
        · rintro rfl
          exact container_sound (fun hws h => Derives.pad hws h)
            (elements_sound (D := fun v => Derives accepted (.element v)) .oneElement .moreElements ih)
            openBracket .emptyArray .array s'
        · rintro rfl
          exact container_sound (fun hws h => Derives.pad hws h)
            (elements_sound (D := fun p => Derives accepted (.member p)) .oneMember .moreMembers (parsePair_sound ih))
            openBrace .emptyObject .object s'
        · intro hnamed
          refine ⟨c :: s'.takeWhile isident, ?_, .identifier ?_⟩
          · rw [List.cons_append, List.takeWhile_append_dropWhile]
          · show identifierText _ (c :: s'.takeWhile isident) = true
            simp [identifierText, hc, hnamed]
      rw [← hs] at hvalue ⊢
      exact hvalue.mono (fun v rest n h => h.element) (fun _ _ h => h)

/-- **Soundness.** A parse that returned consumed a text of the accepted language. -/
theorem parse_derives {s rest : Text} {v : Value} {n : Nat} (h : parse s = .value v rest n) :
    ∃ t, s = t ++ rest ∧ Derives accepted (.element v) t :=
  (parseValue_sound (s.length + 1) s).of_value h

end Json
end Freeflow
