import Freeflow.Flowctl.SearchPath

/-!
# `Flowctl.Correctness.SearchPath` — which module flowctl takes

The search path is the list of what stands between the colons, with nothing left out; it is joined again to the string
it was read from. So a module is found in the first of these directories that has it.
-/

namespace Freeflow
namespace Flowctl

open Json (Text Byte ascii)

/-! ## The list -/

/-- The pieces of a list that is split do not hold what it is split at. -/
theorem not_mem_of_mem_splitOn {α : Type} [BEq α] [LawfulBEq α] {a : α} : ∀ {xs p : List α}, p ∈ xs.splitOn a → a ∉ p
  | [], p, h => by
      rw [List.splitOn_nil, List.mem_singleton] at h
      simp [h]
  | x :: xs, p, h => by
      rw [List.splitOn_cons_eq_if_modifyHead] at h
      split at h
      · rcases List.mem_cons.mp h with rfl | h
        · exact List.not_mem_nil
        · exact not_mem_of_mem_splitOn h
      · rename_i hx
        obtain ⟨q, qs, hsplit⟩ := List.exists_cons_of_ne_nil (List.splitOn_ne_nil a xs)
        have hmem : ∀ r ∈ q :: qs, a ∉ r := fun r hr => not_mem_of_mem_splitOn (hsplit ▸ hr)
        rw [hsplit, List.modifyHead_cons, List.mem_cons] at h
        rcases h with rfl | h
        · have hxa : a ≠ x := fun heq => hx (by simp [heq])
          simp [hxa, hmem q (by simp)]
        · exact hmem p (by simp [h])

/-- The next colon ends the piece before it. -/
theorem splitOn_drop_of_found {str : Text} {n m : Nat} (h : findFirstOf str colon n = some m) :
    n ≤ m ∧ m < str.length ∧ (str.drop n).splitOn colon = (str.drop n).take (m - n) :: (str.drop (m + 1)).splitOn colon := by
  unfold findFirstOf at h
  rw [Option.map_eq_some_iff] at h
  obtain ⟨k, hfind, rfl⟩ := h
  rw [List.findIdx?_eq_some_iff_getElem] at hfind
  obtain ⟨hk, hat, hbefore⟩ := hfind
  have hlen := hk
  rw [List.length_drop] at hlen
  have hcolon : (str.drop n)[k] = colon := beq_iff_eq.mp hat
  have hpieces : (str.drop n).take k ++ colon :: str.drop (n + k + 1) = str.drop n := by
    rw [← hcolon, Nat.add_assoc, ← List.drop_drop, ← List.drop_eq_getElem_cons hk, List.take_append_drop]
  have hfree : colon ∉ (str.drop n).take k := by
    intro hmem
    obtain ⟨j, hj, heq⟩ := List.mem_iff_getElem.mp hmem
    rw [List.length_take] at hj
    have hne := hbefore j (by omega)
    rw [List.getElem_take] at heq
    simp [heq] at hne
  refine ⟨Nat.le_add_right n k, by omega, ?_⟩
  rw [Nat.add_sub_cancel_left]
  conv_lhs => rw [← hpieces]
  exact List.splitOn_append_cons_self_of_not_mem hfree _

/-- Without another colon the rest is one piece. -/
theorem splitOn_drop_of_not_found {str : Text} {n : Nat} (h : findFirstOf str colon n = none) :
    (str.drop n).splitOn colon = [str.drop n] := by
  unfold findFirstOf at h
  rw [Option.map_eq_none_iff, List.findIdx?_eq_none_iff] at h
  exact List.splitOn_eq_singleton_of_beq_eq_false h

/-- The loop stands before the last piece when it ends. -/
theorem searchLoop_eq (str : Text) : ∀ (fuel n : Nat) (ret : List Text), n ≤ str.length → str.length < n + fuel →
    ∃ ret' n', searchLoop str fuel n ret = .ok (ret', n') ∧ n' ≤ str.length ∧
      ret' ++ [str.drop n'] = ret ++ (str.drop n).splitOn colon := by
  intro fuel
  induction fuel with
  | zero =>
      intro n ret hn hfuel
      omega
  | succ fuel ih =>
      intro n ret hn hfuel
      unfold searchLoop
      cases hfind : findFirstOf str colon n with
      | none => exact ⟨ret, n, rfl, hn, by rw [splitOn_drop_of_not_found hfind]⟩
      | some m =>
          obtain ⟨hnm, hm, hsplit⟩ := splitOn_drop_of_found hfind
          obtain ⟨ret', n', hloop, hn', heq⟩ := ih (m + 1) (ret ++ [(str.drop n).take (m - n)]) hm (by omega)
          refine ⟨ret', n', ?_, hn', ?_⟩
          · simp only [substr, if_pos hn, ok_bind]
            exact hloop
          · rw [heq, hsplit, List.append_assoc, List.singleton_append]

/-- **The list is what stands between the colons.** -/
theorem parseSearchPath_eq (str : Text) : parseSearchPath str = .ok (str.splitOn colon) := by
  obtain ⟨ret, n, hloop, hn, heq⟩ := searchLoop_eq str (str.length + 1) 0 [] (Nat.zero_le _) (by omega)
  rw [List.drop_zero, List.nil_append] at heq
  simp only [parseSearchPath, hloop, ok_bind, substr, if_pos hn, heq]
  rfl

/-- **The list is read from the string that joins it**, and from no other. -/
theorem parseSearchPath_iff (str : Text) (ps : List Text) :
    parseSearchPath str = .ok ps ↔ ps ≠ [] ∧ (∀ p ∈ ps, colon ∉ p) ∧ str = [colon].intercalate ps := by
  rw [parseSearchPath_eq, Except.ok.injEq]
  constructor
  · rintro rfl
    exact ⟨List.splitOn_ne_nil _ _, fun p hp => not_mem_of_mem_splitOn hp, (List.intercalate_splitOn colon).symm⟩
  · rintro ⟨hne, hfree, rfl⟩
    exact List.splitOn_intercalate colon hfree hne

/-! ## The module -/

/-- The file of a data plane type in a directory. -/
def moduleFile (type dir : Text) : Text := dir ++ ascii "/pipelines" ++ ascii "/lib" ++ type ++ ascii ".so"

/-- The first directory that has the file. -/
theorem resolveDataPlaneType_iff (cfg : Config) (type file : Text) : resolveDataPlaneType cfg type = some file ↔
    ∃ before dir after, cfg.modulePath = before ++ dir :: after ∧ cfg.access (moduleFile type dir) = true ∧
      (∀ d ∈ before, cfg.access (moduleFile type d) = false) ∧ file = moduleFile type dir := by
  have hresolve : resolveDataPlaneType cfg type =
      (cfg.modulePath.find? (cfg.access ∘ moduleFile type)).map (moduleFile type) := List.find?_map
  rw [hresolve, Option.map_eq_some_iff]
  constructor
  · rintro ⟨dir, hfind, rfl⟩
    obtain ⟨hdir, before, after, hpath, hbefore⟩ := List.find?_eq_some_iff_append.mp hfind
    exact ⟨before, dir, after, hpath, hdir, fun d hd => by simpa using hbefore d hd, rfl⟩
  · rintro ⟨before, dir, after, hpath, hdir, hbefore, rfl⟩
    refine ⟨dir, List.find?_eq_some_iff_append.mpr ⟨hdir, before, after, hpath, fun d hd => ?_⟩, rfl⟩
    simpa using hbefore d hd

/-- The first directory that has the file, of those between the colons of a string. -/
theorem resolveDataPlaneType_splitOn_iff (access : Text → Bool) (path type file : Text) :
    resolveDataPlaneType ⟨path.splitOn colon, access⟩ type = some file ↔
      ∃ before dir after, path = [colon].intercalate (before ++ dir :: after) ∧ (∀ d ∈ before ++ dir :: after, colon ∉ d) ∧
        access (moduleFile type dir) = true ∧ (∀ d ∈ before, access (moduleFile type d) = false) ∧
        file = moduleFile type dir := by
  have hsplit : ∀ ps, path.splitOn colon = ps ↔ ps ≠ [] ∧ (∀ p ∈ ps, colon ∉ p) ∧ path = [colon].intercalate ps := by
    intro ps
    rw [← parseSearchPath_iff, parseSearchPath_eq, Except.ok.injEq]
  rw [resolveDataPlaneType_iff]
  constructor
  · rintro ⟨before, dir, after, hpath, hdir, hbefore, rfl⟩
    obtain ⟨-, hfree, hjoin⟩ := (hsplit _).mp hpath
    exact ⟨before, dir, after, hjoin, hfree, hdir, hbefore, rfl⟩
  · rintro ⟨before, dir, after, hjoin, hfree, hdir, hbefore, rfl⟩
    exact ⟨before, dir, after, (hsplit _).mpr ⟨by simp, hfree, hjoin⟩, hdir, hbefore, rfl⟩

/-- `dp add` is found in the tables. -/
theorem main_addDataplane (cfg : Config) (name dp type : Text) :
    main cfg [name, ascii "dp", ascii "add", dp, type] =
      match resolveDataPlaneType cfg type with
      | some path => .ok (.sent (pairs "dp" "add" [("dp", dp), ("path", path)]))
      | none => .ok .refused := rfl

/-- **Which module flowctl takes.** `flowctl dp add` sends the file of the type in the first directory that has it, of those
    that stand between the colons of `FREEFLOW_MODULE_PATH`; an empty one is the root. If there is none, the command is
    refused. -/
theorem module_found_iff (access : Text → Bool) (env : Option Text) (name dp type : Text) :
    ∃ result, flowctl access env [name, ascii "dp", ascii "add", dp, type] = .ok result ∧
      (result = .refused ∨ ∃ args, result = .sent args) ∧ ∀ args, result = .sent args ↔
      ∃ before dir after, env = some ([colon].intercalate (before ++ dir :: after)) ∧
        (∀ d ∈ before ++ dir :: after, colon ∉ d) ∧ access (moduleFile type dir) = true ∧
        (∀ d ∈ before, access (moduleFile type d) = false) ∧
        args = pairs "dp" "add" [("dp", dp), ("path", moduleFile type dir)] := by
  cases env with
  | none =>
      refine ⟨.refused, main_addDataplane ⟨[], access⟩ name dp type, .inl rfl, fun args => ?_⟩
      simp
  | some path =>
      have hmain : flowctl access (some path) [name, ascii "dp", ascii "add", dp, type] =
          main ⟨path.splitOn colon, access⟩ [name, ascii "dp", ascii "add", dp, type] := by
        simp only [flowctl, parseEnvironmentOptions, parseSearchPath_eq, ok_bind, pure_eq_ok]
      have hfile := resolveDataPlaneType_splitOn_iff access path type
      rw [hmain, main_addDataplane]
      cases hresolved : resolveDataPlaneType ⟨path.splitOn colon, access⟩ type with
      | none =>
          refine ⟨.refused, rfl, .inl rfl, fun args => iff_of_false (by simp) ?_⟩
          rintro ⟨before, dir, after, henv, hfree, hdir, hbefore, -⟩
          have hfound := (hfile _).mpr ⟨before, dir, after, Option.some.inj henv, hfree, hdir, hbefore, rfl⟩
          rw [hresolved] at hfound
          cases hfound
      | some file =>
          refine ⟨_, rfl, .inr ⟨_, rfl⟩, fun args => ?_⟩
          rw [Result.sent.injEq]
          constructor
          · rintro rfl
            obtain ⟨before, dir, after, hjoin, hfree, hdir, hbefore, rfl⟩ := (hfile _).mp hresolved
            exact ⟨before, dir, after, congrArg some hjoin, hfree, hdir, hbefore, rfl⟩
          · rintro ⟨before, dir, after, henv, hfree, hdir, hbefore, rfl⟩
            have hfound := (hfile _).mpr ⟨before, dir, after, Option.some.inj henv, hfree, hdir, hbefore, rfl⟩
            rw [hresolved, Option.some.injEq] at hfound
            rw [hfound]

end Flowctl
end Freeflow
