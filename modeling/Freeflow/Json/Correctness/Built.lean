import Mathlib.Data.List.Forall2
import Freeflow.Json.Document

/-!
# `Json.Correctness.Built` — what a parse builds stands for what it reads

`Held V v p` says that the node behind `p` stands for the value `v`, as far as the view `V` shows the nodes. A parse that
starts with certain nodes there leaves all of them as they are, and what it returns is made of new ones and of the static
ones alone (`Since`). So it cannot come to the last node of a chain that is still being built, and that is the only one
that `make_array` and `make_object` write to.

## Contents
- `Held`, and that it may be seen through a wider view.
- `Builds`: a routine that builds what another one reads; one lemma for each routine.
- `parse_builds`.
-/

namespace Freeflow
namespace Json

open Freeflow.StateParser

/-- Which nodes one sees. -/
abbrev View := Nat → Node → Prop

/-- A pointer to a node. -/
def Points (V : View) (p : Ptr) (n : Node) : Prop := ∃ a, p = some a ∧ V a n

/-- The nodes of a container: one for each element, or else the static one, which has none. -/
inductive Chain (L : Linking Node Ptr) (empty : Nat) (V : View) : Ptr → List (Nat × Ptr) → Prop where
  | empty : V empty (L.node none none) → Chain L empty V (some empty) []
  | nodes {a : Nat} {x : Nat × Ptr} {xs : List (Nat × Ptr)} : Linked L V (some a) (x :: xs) →
      Chain L empty V (some a) (x :: xs)

mutual

/-- The node that stands for a value. -/
def Held (V : View) : Value → Ptr → Prop
  | .identifier t, p => Points V p (.identifier t)
  | .number t, p => Points V p (.number t)
  | .string t, p => Points V p (.string t)
  | .array vs, p => ∃ xs, Chain arrayLinking emptyArray V p xs ∧ HeldElements V vs (xs.map Prod.snd)
  | .object ps, p => ∃ xs, Chain objectLinking emptyObject V p xs ∧ HeldPairs V ps (xs.map Prod.snd)

/-- The node that stands for a pair. -/
def HeldPair (V : View) : Pair → Ptr → Prop
  | .mk key v, p => ∃ k q, Points V p (.pair k q) ∧ Points V k (.string key) ∧ Held V v q

def HeldElements (V : View) : List Value → List Ptr → Prop
  | [], [] => True
  | v :: vs, q :: qs => Held V v q ∧ HeldElements V vs qs
  | _, _ => False

def HeldPairs (V : View) : List Pair → List Ptr → Prop
  | [], [] => True
  | p :: ps, q :: qs => HeldPair V p q ∧ HeldPairs V ps qs
  | _, _ => False

end

variable {V W : View}

theorem Points.mono {p : Ptr} {n : Node} (h : Points V p n) (hVW : ∀ a n, V a n → W a n) : Points W p n := by
  obtain ⟨a, rfl, ha⟩ := h
  exact ⟨a, rfl, hVW a n ha⟩

theorem Chain.mono {L : Linking Node Ptr} {empty : Nat} {p : Ptr} {xs : List (Nat × Ptr)} (h : Chain L empty V p xs)
    (hVW : ∀ a n, V a n → W a n) : Chain L empty W p xs := by
  cases h with
  | empty h => exact .empty (hVW _ _ h)
  | nodes h => exact .nodes (h.mono hVW)

mutual

/-- Through a wider view a node stands for the same value. -/
theorem Held.mono (hVW : ∀ a n, V a n → W a n) : ∀ {v : Value} {p : Ptr}, Held V v p → Held W v p
  | .identifier _, _, h => Points.mono h hVW
  | .number _, _, h => Points.mono h hVW
  | .string _, _, h => Points.mono h hVW
  | .array _, _, ⟨xs, hchain, hs⟩ => ⟨xs, hchain.mono hVW, HeldElements.mono hVW hs⟩
  | .object _, _, ⟨xs, hchain, hs⟩ => ⟨xs, hchain.mono hVW, HeldPairs.mono hVW hs⟩

theorem HeldPair.mono (hVW : ∀ a n, V a n → W a n) : ∀ {p : Pair} {q : Ptr}, HeldPair V p q → HeldPair W p q
  | .mk _ _, _, ⟨k, q, hp, hk, hv⟩ => ⟨k, q, hp.mono hVW, hk.mono hVW, Held.mono hVW hv⟩

theorem HeldElements.mono (hVW : ∀ a n, V a n → W a n) :
    ∀ {vs : List Value} {qs : List Ptr}, HeldElements V vs qs → HeldElements W vs qs
  | [], [], _ => trivial
  | _ :: _, _ :: _, ⟨hv, hvs⟩ => ⟨Held.mono hVW hv, HeldElements.mono hVW hvs⟩

theorem HeldPairs.mono (hVW : ∀ a n, V a n → W a n) :
    ∀ {ps : List Pair} {qs : List Ptr}, HeldPairs V ps qs → HeldPairs W ps qs
  | [], [], _ => trivial
  | _ :: _, _ :: _, ⟨hp, hps⟩ => ⟨HeldPair.mono hVW hp, HeldPairs.mono hVW hps⟩

end

/-- The elements of an array are held one by one. -/
theorem heldElements_iff : ∀ {vs : List Value} {qs : List Ptr}, HeldElements V vs qs ↔ List.Forall₂ (Held V) vs qs
  | [], [] => by simp [HeldElements]
  | [], _ :: _ => by simp [HeldElements]
  | _ :: _, [] => by simp [HeldElements]
  | v :: vs, q :: qs => by rw [HeldElements, List.forall₂_cons, heldElements_iff]

/-- The pairs of an object are held one by one. -/
theorem heldPairs_iff : ∀ {ps : List Pair} {qs : List Ptr}, HeldPairs V ps qs ↔ List.Forall₂ (HeldPair V) ps qs
  | [], [] => by simp [HeldPairs]
  | [], _ :: _ => by simp [HeldPairs]
  | _ :: _, [] => by simp [HeldPairs]
  | p :: ps, q :: qs => by rw [HeldPairs, List.forall₂_cons, heldPairs_iff]

/-! ## The nodes of a parse -/

/-- The static nodes are empty. -/
structure StaticsEmpty (h : Heap Node) : Prop where
  array : h.Has emptyArray (.array none none)
  object : h.Has emptyObject (.object none none)

theorem StaticsEmpty.mono {h h' : Heap Node} (hs : StaticsEmpty h) (hext : h.Extends h') : StaticsEmpty h' :=
  ⟨hext _ _ hs.array, hext _ _ hs.object⟩

theorem staticNodes_empty : StaticsEmpty staticNodes := ⟨rfl, rfl⟩

/-- The nodes of `h` that are static, or were not there in `h₀`. -/
def Since (h₀ h : Heap Node) (a : Nat) (n : Node) : Prop :=
  (a = emptyArray ∨ a = emptyObject ∨ h₀.cells a = none) ∧ h.Has a n

/-- Since an earlier time there are more new nodes. -/
theorem Since.mono {h₀ h₁ h h' : Heap Node} (h₀₁ : h₀.Extends h₁) (hext : h.Extends h') {a : Nat} {n : Node}
    (ha : Since h₁ h a n) : Since h₀ h' a n :=
  ⟨ha.1.imp_right (Or.imp_right h₀₁.free), hext a n ha.2⟩

/-- A node that was there, other than the static ones, is not new. -/
theorem Since.ne {h₀ h : Heap Node} {a b : Nat} {m n : Node} (hb : h₀.Has b m)
    (hstatic : b ≠ emptyArray ∧ b ≠ emptyObject) (ha : Since h₀ h a n) : a ≠ b := by
  rintro rfl
  rcases ha.1 with h | h | h
  · exact hstatic.1 h
  · exact hstatic.2 h
  · exact hb.ne h rfl

/-- The address of a new node is not that of a static one. -/
theorem StaticsEmpty.ne {h : Heap Node} (hs : StaticsEmpty h) {b : Nat} (hb : h.cells b = none) :
    b ≠ emptyArray ∧ b ≠ emptyObject := ⟨(hs.array.ne hb).symm, (hs.object.ne hb).symm⟩

/-- What `q` builds stands for what `p` reads, and the nodes that are there stay as they are. -/
def Builds {α : Type} (Holds : View → α → Ptr → Prop) (p : Parser Byte α) (q : Builder Ptr) : Prop :=
  ∀ h t, StaticsEmpty h → Mirrors (fun h' a r => h.Extends h' ∧ Holds (Since h h') a r) h.Extends (p t) (q h t)

variable (alloc : Allocator)

/-- A single new node. -/
theorem make_mirrors {α : Type} {R : Heap Node → α → Ptr → Prop} {E : Heap Node → Prop} (n : Node) {h : Heap Node} {a : α}
    {t : Text} (hR : ∀ h' p, h.Extends h' → Points (Since h h') p n → R h' a p) :
    Mirrors R E ((do Parser.allocate; return a : Parser Byte α) t) (Document.make alloc n h t) := by
  have hfree := alloc.fresh h
  apply Mirrors.allocate rfl
  apply hR _ _ (Heap.extends_place hfree n)
  exact ⟨_, rfl, Or.inr (Or.inr hfree), Heap.has_place h _ n⟩

/-- Two parts of a text, and a node for them. -/
theorem terminal_builds {α β γ : Type} {Holds : View → α → Ptr → Prop} {p : Parser Byte β} {q : Parser Byte γ}
    {f : β → γ → α} {n : β → γ → Node} (hholds : ∀ V b c r, Points V r (n b c) → Holds V (f b c) r) :
    Builds Holds (do let b ← p; let c ← q; Parser.allocate; return f b c)
      (do let b ← lift p; let c ← lift q; Document.make alloc (n b c)) := by
  intro h t _
  have hrefl := Heap.Extends.refl h
  apply Mirrors.lift_bind hrefl
  intro b rest
  apply Mirrors.lift_bind hrefl
  intro c rest
  exact make_mirrors alloc _ (fun h' r hext hr => ⟨hext, hholds _ b c r hr⟩)

theorem parseIdentifier_builds : Builds Held parseIdentifier (Document.parseIdentifier alloc) :=
  terminal_builds alloc (fun _ _ _ _ h => h)

theorem parseNumber_builds : Builds Held parseNumber (Document.parseNumber alloc) :=
  terminal_builds alloc (fun _ _ _ _ h => h)

theorem parseString_builds :
    Builds (fun V text p => Points V p (.string text)) parseString (Document.parseString alloc) :=
  terminal_builds alloc (fun _ _ _ _ h => h)

theorem parseKey_builds : Builds (fun V key p => Points V p (.string key)) parseKey (Document.parseKey alloc) := by
  intro h t hs
  have hrefl := Heap.Extends.refl h
  apply Mirrors.padded
  apply Mirrors.lift_bind hrefl
  intro c rest
  by_cases hq : c = quote
  · rw [if_pos hq, if_pos hq]
    exact parseString_builds alloc h rest hs
  · rw [if_neg hq, if_neg hq]
    exact .thrown hrefl

variable {value : Parser Byte Value} {value' : Builder Ptr}

/-- `parse_pair`: the key, the value, and the node that points to both. -/
theorem parsePair_builds (hv : Builds Held value value') :
    Builds HeldPair (parsePair value) (Document.parsePair alloc value') := by
  intro h t hs
  apply (parseKey_builds alloc h t hs).bind
  rintro h₁ key k rest ⟨hext₁, hk⟩
  apply Mirrors.lift_bind hext₁
  intro b rest
  cases b with
  | false => exact .thrown hext₁
  | true =>
      rw [if_pos rfl, if_pos rfl]
      have hvalue := (hv h₁ rest (hs.mono hext₁)).mono (fun _ _ _ h => h) (fun _ => hext₁.trans)
      apply hvalue.bind
      rintro h₂ v q rest ⟨hext₂, hq⟩
      apply make_mirrors alloc
      intro h₃ p hext₃ hp
      have hext₁₂ := hext₁.trans hext₂
      have hext₂₃ := hext₂.trans hext₃
      refine ⟨hext₁₂.trans hext₃, k, q, hp.mono (fun _ _ => Since.mono hext₁₂ (Heap.Extends.refl h₃)), ?_, ?_⟩
      · exact hk.mono (fun _ _ => Since.mono (Heap.Extends.refl h) hext₂₃)
      · exact Held.mono (fun _ _ => Since.mono hext₁ hext₃) hq

/-! ## Containers -/

/-- **The loop invariant** of `parse_array` and `parse_object`, which began with the nodes `h₀`: the local variables are
    the ends of a chain of new nodes, and without its last node the elements are there all the same. -/
inductive Built {α : Type} (L : Linking Node Ptr) (Holds : View → α → Ptr → Prop) (h₀ h : Heap Node) :
    List α → Document.Ends → Prop where
  | none : h₀.Extends h → Built L Holds h₀ h [] ⟨none, none⟩
  | some {as : List α} {xs : List (Nat × Ptr)} {b f : Nat} {y : Ptr} : h₀.Extends h → h₀.cells b = none →
      Linked L (Since h₀ h) (some f) (xs ++ [(b, y)]) →
      List.Forall₂ (Holds (fun a n => a ≠ b ∧ Since h₀ h a n)) as ((xs ++ [(b, y)]).map Prod.snd) →
      Built L Holds h₀ h as ⟨some b, some f⟩

/-- What is seen through a view is seen through a wider one. -/
def Widens {α : Type} (Holds : View → α → Ptr → Prop) : Prop :=
  ∀ V W : View, (∀ a n, V a n → W a n) → ∀ x p, Holds V x p → Holds W x p

section Loop

variable {α : Type} {L : Linking Node Ptr} {Holds : View → α → Ptr → Prop} {h₀ h : Heap Node} {as : List α}
  {ends : Document.Ends}

theorem Built.extends (hb : Built L Holds h₀ h as ends) : h₀.Extends h := by
  cases hb with
  | none hext => exact hext
  | some hext _ _ _ => exact hext

/-- `make_array` and `make_object` return the address that was allocated. -/
theorem makeLink_bind {β : Type} {v prev : Ptr} {h' : Heap Node}
    (happend : L.append h (alloc.allocate h) v prev = .ok h') (f : Ptr → Builder β) (t : Text) :
    (Document.makeLink alloc L v prev >>= f) h t = f (some (alloc.allocate h)) h' t := by
  show ((L.append h (alloc.allocate h) v prev >>= _) >>= _) >>= _ = _
  rw [happend]
  rfl

/-- **One round.** The new node is none of those that the elements are made of, and neither was the last one, which now
    points to it. -/
theorem round_mirrors (hwidens : Widens Holds) {item : Parser Byte α} {item' : Builder Ptr}
    (hitem : Builds Holds item item') (hs : StaticsEmpty h₀) (hbuilt : Built L Holds h₀ h as ends) (t : Text) :
    Mirrors (fun h' a ends' => Built L Holds h₀ h' (as ++ [a]) ends') h₀.Extends
      ((do let a ← item; Parser.allocate; return a : Parser Byte α) t)
      (Document.round item' (Document.makeLink alloc L) ends h t) := by
  have hext := hbuilt.extends
  have hone := (hitem h t (hs.mono hext)).mono (fun _ _ _ h => h) (fun _ => hext.trans)
  apply hone.bind
  rintro h₁ a p rest ⟨hext₁, hp⟩
  have hfree := alloc.fresh h₁
  have hfree₀ : h₀.cells (alloc.allocate h₁) = none := (hext.trans hext₁).free hfree
  cases hbuilt with
  -- the first round: the new node is a chain of its own
  | none _ =>
      rw [makeLink_bind alloc (L.append_none h₁ _ p)]
      have hplaced := Heap.extends_place hfree (L.node p none)
      have hchain : Linked L (Since h₀ (h₁.place (alloc.allocate h₁) (L.node p none))) (some (alloc.allocate h₁))
          ([] ++ [(alloc.allocate h₁, p)]) := .cons ⟨Or.inr (Or.inr hfree₀), Heap.has_place h₁ _ _⟩ .nil
      refine .value (.some (hext.trans (hext₁.trans hplaced)) hfree₀ hchain (.cons ?_ .nil))
      exact hwidens _ _ (fun c n hc => ⟨hc.2.ne hfree, hc.mono hext hplaced⟩) a p hp
  -- a later one: of what is there only the last node `b` changes, and no element is made of it
  | @some _ xs b f y _ hb hlinked hall =>
      obtain ⟨h₂, happend, hnode, hlast, hkeep⟩ := L.append_some hfree (x := p) (hext₁ _ _ hlinked.last.2)
      rw [makeLink_bind alloc happend]
      have hsince : ∀ c n, c ≠ b → Since h₀ h₁ c n → Since h₀ h₂ c n := fun c n hc h => ⟨h.1, hkeep c n hc h.2⟩
      have hold : ∀ c n, Since h₀ h c n → Since h₀ h₁ c n := fun c n h => h.mono (Heap.Extends.refl h₀) hext₁
      have hext₂ : h₀.Extends h₂ := by
        intro c n hc
        exact hkeep c n (hc.ne hb) (hext₁ c n (hext c n hc))
      have hnodup := hlinked.nodup (fun a n m hn hm => hn.2.unique hm.2)
      rw [List.map_append, List.nodup_append] at hnodup
      have hchain : Linked L (Since h₀ h₂) (some f) (xs ++ [(b, y)] ++ [(alloc.allocate h₁, p)]) := by
        apply (hlinked.mono hold).snoc
        · exact fun hmem => hnodup.2.2 b hmem b (List.mem_singleton_self b) rfl
        · exact hsince
        · exact ⟨Or.inr (Or.inr hb), hlast⟩
        · exact ⟨Or.inr (Or.inr hfree₀), hnode⟩
      refine .value (.some hext₂ hfree₀ hchain ?_)
      rw [List.map_append]
      apply List.rel_append
      · refine hall.imp (fun x q => hwidens _ _ (fun c n hc => ?_) x q)
        have hc₁ := hold c n hc.2
        exact ⟨hc₁.2.ne hfree, hsince c n hc.1 hc₁⟩
      · refine .cons (hwidens _ _ (fun c n hc => ?_) a p hp) .nil
        have hc₁ := hc.mono hext (Heap.Extends.refl h₁)
        exact ⟨hc.2.ne hfree, hsince c n (hc.ne hlinked.last.2 (hs.ne hb)) hc₁⟩

/-- When the loop is left, the first node is that of a container of what was read. -/
theorem Built.chain (hwidens : Widens Holds) (hbuilt : Built L Holds h₀ h as ends) (hne : as ≠ []) (empty : Nat) :
    ∃ xs, Chain L empty (Since h₀ h) ends.first xs ∧ List.Forall₂ (Holds (Since h₀ h)) as (xs.map Prod.snd) := by
  cases hbuilt with
  | none _ => exact absurd rfl hne
  | @some _ xs b f y _ _ hlinked hall =>
      refine ⟨xs ++ [(b, y)], ?_, hall.imp (fun x q => hwidens _ _ (fun _ _ hc => hc.2) x q)⟩
      generalize hnodes : xs ++ [(b, y)] = nodes at hlinked
      cases nodes with
      | nil => exact absurd hnodes (List.append_ne_nil_of_right_ne_nil xs (List.cons_ne_nil _ _))
      | cons x nodes => exact .nodes hlinked

/-- `parse_array` and `parse_object`. -/
theorem container_builds (hwidens : Widens Holds) {item : Parser Byte α} {item' : Builder Ptr}
    (hitem : Builds Holds item item') {close : Byte} {empty : Nat} {make : List α → Value} {what : String}
    (hempty : ∀ h h', StaticsEmpty h' → Since h h' empty (L.node none none))
    (hmake : ∀ V as p xs, Chain L empty V p xs → List.Forall₂ (Holds V) as (xs.map Prod.snd) → Held V (make as) p) :
    Builds Held (container close item make what)
      (Document.container close empty item' (Document.makeLink alloc L) what) := by
  intro h t hs
  have hrefl := Heap.Extends.refl h
  apply Mirrors.lift_bind hrefl
  intro _ rest
  apply Mirrors.lift_bind hrefl
  intro _ rest
  apply Mirrors.lift_bind hrefl
  intro b rest
  cases b with
  | true => exact .value ⟨hrefl, hmake _ [] _ [] (.empty (hempty h h hs)) .nil⟩
  | false =>
      have hloop : Mirrors (fun h' as ends => as ≠ [] ∧ Built L Holds h h' as ends) h.Extends (elements item rest)
          (repeated comma (Document.round item' (Document.makeLink alloc L)) (rest.length + 1) ⟨none, none⟩ h rest) :=
        Mirrors.separated (J := Built L Holds h) (fun _ _ _ hbuilt => hbuilt.extends)
          (fun h' as ends t hbuilt => round_mirrors alloc hwidens hitem hs hbuilt t) _ h [] _ rest (.none hrefl)
      apply hloop.bind
      rintro h' as ends rest ⟨hne, hbuilt⟩
      apply Mirrors.lift_bind hbuilt.extends
      intro b rest
      cases b with
      | false => exact .thrown hbuilt.extends
      | true =>
          obtain ⟨xs, hchain, hall⟩ := hbuilt.chain hwidens hne empty
          exact .value ⟨hbuilt.extends, hmake _ as _ xs hchain hall⟩

end Loop

/-! ## Values -/

theorem held_widens : Widens Held := fun _ _ hVW _ _ h => Held.mono hVW h

theorem heldPair_widens : Widens HeldPair := fun _ _ hVW _ _ h => HeldPair.mono hVW h

theorem parseArray_builds (hv : Builds Held value value') :
    Builds Held (parseArray value) (Document.parseArray alloc value') := by
  apply container_builds alloc held_widens hv
  · exact fun h h' hs => ⟨Or.inl rfl, hs.array⟩
  · exact fun V vs p xs hchain hall => ⟨xs, hchain, heldElements_iff.mpr hall⟩

theorem parseObject_builds (hv : Builds Held value value') :
    Builds Held (parseObject value) (Document.parseObject alloc value') := by
  apply container_builds alloc heldPair_widens (parsePair_builds alloc hv)
  · exact fun h h' hs => ⟨Or.inr (Or.inl rfl), hs.object⟩
  · exact fun V vs p xs hchain hall => ⟨xs, hchain, heldPairs_iff.mpr hall⟩

/-- The `switch` of `parse_value`. -/
theorem dispatch_builds (hv : Builds Held value value') :
    Builds Held (dispatch value) (Document.dispatch alloc value') := by
  intro h t hs
  apply Mirrors.lift_bind (Heap.Extends.refl h)
  intro c rest
  by_cases hnum : c = minus ∨ isdigit c = true
  · rw [if_pos hnum, if_pos hnum]
    exact parseNumber_builds alloc h rest hs
  rw [if_neg hnum, if_neg hnum]
  by_cases hq : c = quote
  · rw [if_pos hq, if_pos hq]
    exact (parseString_builds alloc h rest hs).map_left (fun _ _ _ h => h)
  rw [if_neg hq, if_neg hq]
  by_cases hbracket : c = openBracket
  · rw [if_pos hbracket, if_pos hbracket]
    exact parseArray_builds alloc hv h rest hs
  rw [if_neg hbracket, if_neg hbracket]
  by_cases hbrace : c = openBrace
  · rw [if_pos hbrace, if_pos hbrace]
    exact parseObject_builds alloc hv h rest hs
  rw [if_neg hbrace, if_neg hbrace]
  exact parseIdentifier_builds alloc h rest hs

/-- `parse_value`, by induction on the nesting bound. -/
theorem parseValue_builds : ∀ depth, Builds Held (parseValue depth) (Document.parseValue alloc depth) := by
  intro depth
  induction depth with
  | zero => exact fun _ _ _ => .outOfFuel
  | succ depth ih => exact fun h t hs => Mirrors.padded (dispatch_builds alloc ih h _ hs)

/-- **What `Document::parse` builds stands for what `Json.Parser` reads.** -/
theorem parse_builds : Builds Held parse (Document.parse alloc) :=
  fun h t hs => parseValue_builds alloc (t.length + 1) h t hs

end Json
end Freeflow
