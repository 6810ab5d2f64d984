import Mathlib.Tactic
import TandemZ80.Memory.Cell

/-!
# What a cell shows

A cell keeps what is shown beside what every holder has put there, and changes the two apart. They
fit together as long as the cell is *coherent*: what is shown is the mapping of the holder in the
lowest slot, and a slot that does not hold the page has left nothing there.

* `Cell.held`, what a slot holds, and what `grant` and `revoke` do to it;
* `Cell.top_eq`, the top holder by what is held;
* `Cell.Coherent`, which both keep.
-/

namespace TandemZ80.Cell

variable {c : Cell} {s t : Slot} {e : Mapping}

/-- What a slot has put in the page, if it holds the page. -/
def held (c : Cell) (s : Slot) : Option Mapping :=
  if c.holders.get s then some (c.own.get s) else none

theorem isSome_held (c : Cell) (s : Slot) : (c.held s).isSome = c.holders.get s := by
  unfold held
  cases c.holders.get s <;> rfl

/-- The top holder depends on nothing but what is held. -/
theorem top_eq (c : Cell) : c.top = (List.finRange slotCount).find? fun s => (c.held s).isSome := by
  simp only [isSome_held]
  rfl

theorem top_eq_some_iff : c.top = some s ↔ (c.held s).isSome ∧ ∀ t < s, c.held t = none := by
  simp only [top_eq_some, ← isSome_held, Option.isSome_eq_false_iff, Option.isNone_iff_eq_none]

theorem held_of_top (h : c.top = some s) : c.held s = some (c.own.get s) := by
  unfold held
  rw [if_pos (top_eq_some.1 h).1]

theorem held_empty (s : Slot) : empty.held s = none := by
  have h : empty.holders.get s = false := by
    simp [empty, Vector.get]
  unfold held
  rw [h]
  rfl

/-! ### Changes -/

theorem get_set {α : Type} (v : Vector α slotCount) (s t : Slot) (a : α) :
    (v.set s a s.isLt).get t = if t = s then a else v.get t := by
  show (v.set s a s.isLt)[t.val] = if t = s then a else v[t.val]
  rw [Vector.getElem_set]
  simp only [Fin.ext_iff, eq_comm]

theorem holders_grant (c : Cell) (s : Slot) (e : Mapping) :
    (c.grant s e).holders = c.holders.set s true s.isLt := by
  unfold grant
  dsimp only
  split <;> rfl

theorem own_grant (c : Cell) (s : Slot) (e : Mapping) :
    (c.grant s e).own = c.own.set s e s.isLt := by
  unfold grant
  dsimp only
  split <;> rfl

theorem held_grant (c : Cell) (s : Slot) (e : Mapping) (t : Slot) :
    (c.grant s e).held t = if t = s then some e else c.held t := by
  unfold held
  rw [holders_grant, own_grant, get_set, get_set]
  by_cases h : t = s
  · simp only [if_pos h, if_true]
  · simp only [if_neg h]

theorem shown_grant (c : Cell) (s : Slot) (e : Mapping) :
    (c.grant s e).shown = if (c.grant s e).top = some s then e else c.shown := by
  have h : (c.grant s e).top =
      top { c with holders := c.holders.set s true s.isLt, own := c.own.set s e s.isLt } := by
    unfold top
    rw [holders_grant]
  rw [h]
  unfold grant
  dsimp only
  split <;> rfl

theorem revoke_of_not_held (h : c.held s = none) : c.revoke s = c := by
  have hs : c.holders.get s = false := by rw [← isSome_held, h]; rfl
  unfold revoke
  rw [hs]
  rfl

theorem holders_revoke (h : c.held s ≠ none) :
    (c.revoke s).holders = c.holders.set s false s.isLt := by
  have hs : c.holders.get s = true := by rw [← isSome_held]; exact Option.isSome_iff_ne_none.2 h
  unfold revoke
  rw [if_pos hs]
  dsimp only
  split <;> rfl

theorem own_revoke (h : c.held s ≠ none) :
    (c.revoke s).own = c.own.set s .unmapped s.isLt := by
  have hs : c.holders.get s = true := by rw [← isSome_held]; exact Option.isSome_iff_ne_none.2 h
  unfold revoke
  rw [if_pos hs]
  dsimp only
  split <;> rfl

theorem held_revoke (c : Cell) (s t : Slot) :
    (c.revoke s).held t = if t = s then none else c.held t := by
  by_cases hs : c.held s = none
  · rw [revoke_of_not_held hs]
    by_cases h : t = s
    · rw [if_pos h, h, hs]
    · rw [if_neg h]
  · unfold held
    rw [holders_revoke hs, own_revoke hs, get_set, get_set]
    by_cases h : t = s
    · simp [h]
    · simp only [if_neg h]

/-! ### Coherence -/

/-- What a holder shows, or nothing if there is none. -/
def shownBy (held : Slot → Option Mapping) (top : Option Slot) : Mapping :=
  (top.bind held).getD .unmapped

theorem shownBy_top (c : Cell) :
    shownBy c.held c.top = match c.top with
      | some s => c.own.get s
      | none => .unmapped := by
  cases h : c.top with
  | none => rfl
  | some s =>
    rw [shownBy, Option.bind_some, held_of_top h]
    rfl

theorem shown_revoke (h : c.held s ≠ none) :
    (c.revoke s).shown =
      if c.top = some s then shownBy (c.revoke s).held (c.revoke s).top else c.shown := by
  have hs : c.holders.get s = true := by rw [← isSome_held]; exact Option.isSome_iff_ne_none.2 h
  rw [shownBy_top, own_revoke h]
  have htop : (c.revoke s).top =
      top { c with
        holders := c.holders.set s false s.isLt, own := c.own.set s .unmapped s.isLt } := by
    unfold top
    rw [holders_revoke h]
  rw [htop]
  unfold revoke
  rw [if_pos hs]
  dsimp only
  split <;> rfl

/-- What is shown is the mapping of the top holder, and slots that do not hold the page have left
nothing there. -/
structure Coherent (c : Cell) : Prop where
  shown : c.shown = shownBy c.held c.top
  own : ∀ s, c.own.get s = (c.held s).getD .unmapped

theorem coherent_empty : Coherent empty := by
  have htop : empty.top = none := by
    rw [top_eq]
    simp [held_empty]
  refine ⟨?_, fun s => ?_⟩
  · rw [htop]
    rfl
  · rw [held_empty]
    simp [empty, Vector.get]

theorem Coherent.grant (h : c.Coherent) (s : Slot) (e : Mapping) : (c.grant s e).Coherent := by
  refine ⟨?_, fun t => ?_⟩
  · rw [shown_grant]
    by_cases htop : (c.grant s e).top = some s
    · rw [if_pos htop, htop, shownBy, Option.bind_some, held_grant, if_pos rfl]
      rfl
    · -- A lower slot holds the page, and did so before.
      rw [if_neg htop, h.shown]
      cases hnew : (c.grant s e).top with
      | none =>
        rw [top_eq, List.find?_eq_none] at hnew
        exact (hnew s (List.mem_finRange s) (by rw [held_grant, if_pos rfl]; rfl)).elim
      | some t =>
        obtain ⟨ht, hlow⟩ := top_eq_some_iff.1 hnew
        have hts : t ≠ s := fun h => htop (h ▸ hnew)
        have hlt : ∀ u ≤ t, u ≠ s := by
          rintro u hu rfl
          have := hlow u (lt_of_le_of_ne hu (Ne.symm hts))
          rw [held_grant, if_pos rfl] at this
          cases this
        have hsame : ∀ u ≤ t, (c.grant s e).held u = c.held u := fun u hu => by
          rw [held_grant, if_neg (hlt u hu)]
        have hold : c.top = some t := by
          refine top_eq_some_iff.2 ⟨?_, fun u hu => ?_⟩
          · rw [← hsame t le_rfl]
            exact ht
          · rw [← hsame u hu.le]
            exact hlow u hu
        rw [hold, shownBy, shownBy, Option.bind_some, Option.bind_some, hsame t le_rfl]
  · rw [own_grant, get_set, held_grant]
    by_cases hts : t = s
    · rw [if_pos hts, if_pos hts]
      rfl
    · rw [if_neg hts, if_neg hts]
      exact h.own t

theorem Coherent.revoke (h : c.Coherent) (s : Slot) : (c.revoke s).Coherent := by
  by_cases hs : c.held s = none
  · rw [revoke_of_not_held hs]
    exact h
  refine ⟨?_, fun t => ?_⟩
  · rw [shown_revoke hs]
    by_cases htop : c.top = some s
    · rw [if_pos htop]
    · -- The slot that shows its mapping is another one, which keeps it.
      rw [if_neg htop, h.shown]
      cases hold : c.top with
      | none =>
        rw [top_eq, List.find?_eq_none] at hold
        exact (hold s (List.mem_finRange s) (Option.isSome_iff_ne_none.2 hs)).elim
      | some t =>
        obtain ⟨ht, hlow⟩ := top_eq_some_iff.1 hold
        have hts : t ≠ s := fun h => htop (h ▸ hold)
        have hnew : (c.revoke s).top = some t := by
          refine top_eq_some_iff.2 ⟨?_, fun u hu => ?_⟩
          · rw [held_revoke, if_neg hts]
            exact ht
          · rw [held_revoke, hlow u hu, ite_self]
        rw [hnew, shownBy, shownBy, Option.bind_some, Option.bind_some, held_revoke, if_neg hts]
  · rw [own_revoke hs, get_set, held_revoke]
    by_cases hts : t = s
    · rw [if_pos hts, if_pos hts]
      rfl
    · rw [if_neg hts, if_neg hts]
      exact h.own t

end TandemZ80.Cell
