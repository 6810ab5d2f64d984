import TandemZ80.Proofs.Memory.Backed

/-!
# Memory that is mapped everywhere

The backstop holds every page, and nothing that a client holds is unmapped. So every page shows
something: what a client holds in front of the backstop, or else what the backstop holds.

* `MemoryMap.Operation.maps`, operations that map something for a slot;
  `MemoryMap.Backed.held_perform`, what an operation does to what a slot holds;
* `MemoryMap.Grounded`, memory whose backstop holds every page; `MemoryMap.Grounded.perform`;
* `MemoryMap.Grounded.exists_owner` and `MemoryMap.Grounded.uncovered`, what such memory shows.
-/

namespace TandemZ80.MemoryMap

variable {m m' : MemoryMap} {s t : Slot} {p : Page} {q : Access}

/-! ### What an operation does to what is held -/

/-- An operation that maps pages for a slot. -/
def Operation.maps (t : Slot) : Operation → Prop
  | .alloc s .. => s = t
  | _ => False

/-- A slot gets what is mapped for it, which is never nothing. -/
theorem held_alloc {addr : UInt16} {len : ℕ} {target : Target} {access : Access} {r : Bool}
    (h : m.alloc s addr len target access = .ok (r, m')) :
    m'.held q p t = m.held q p t ∨ s = t ∧ ∃ e ≠ .unmapped, m'.held q p t = some e := by
  rcases alloc_cases h with ⟨-, rfl⟩ | ⟨-, mapping, hmapping, rfl⟩
  · exact .inl rfl
  · rw [held_grant]
    split_ifs with hp
    · exact .inr ⟨hp.2.2.symm, mapping p, hmapping p, rfl⟩
    · exact .inl rfl

/-- A slot keeps what it holds, or gives it back, or gets what is mapped for it. The last slot gives
nothing back. -/
theorem Backed.held_perform (h : m.Backed) {δ : Type} [Device δ] {op : Operation} {x : Answer}
    {ds ds' : Devices δ} (hop : system.perform op (m, ds) = .ok (x, m', ds')) :
    m'.held q p t = m.held q p t ∨ t ≠ .last ∧ m'.held q p t = none ∨
      op.maps t ∧ ∃ e ≠ .unmapped, m'.held q p t = some e := by
  cases op with
  | addBuffer bytes =>
    cases hop
    exact .inl rfl
  | setByte b i v =>
    obtain ⟨m₁, hset, hr⟩ := Fault.map_eq_ok hop
    cases hr
    exact .inl ((samePages_setByte hset).held q p t)
  | connect device priority =>
    cases hop
    exact .inl (held_connect q p t)
  | disconnect s =>
    obtain rfl : (m.disconnect s).2 = m' := by
      cases hop
      rfl
    by_cases hs : s = .last
    · unfold MemoryMap.disconnect
      rw [if_pos (.inl (hs ▸ h.backstop_eq))]
      exact .inl rfl
    · rw [h.held_disconnect hs]
      split_ifs with hts
      · exact .inr (.inl ⟨hts ▸ hs, rfl⟩)
      · exact .inl rfl
  | alloc s addr len target access =>
    obtain ⟨⟨r, m₁⟩, halloc, hr⟩ := Fault.map_eq_ok hop
    cases hr
    exact (held_alloc halloc).imp_right .inr
  | release s addr len access =>
    obtain ⟨m₁, hrelease, hr⟩ := Fault.map_eq_ok hop
    cases hr
    rcases release_cases hrelease with ⟨-, rfl⟩ | ⟨hs, rfl⟩
    · exact .inl rfl
    · rw [held_revoke]
      split_ifs with hp
      · refine .inr (.inl ⟨?_, rfl⟩)
        rintro rfl
        exact hs (.inl (hp.2.2 ▸ h.backstop_eq))
      · exact .inl rfl
  | read a =>
    obtain ⟨⟨v, ds₁⟩, -, hr⟩ := Fault.map_eq_ok hop
    cases hr
    exact .inl rfl
  | write a v =>
    obtain ⟨⟨m₁, ds₁⟩, hwrite, hr⟩ := Fault.map_eq_ok hop
    cases hr
    exact .inl ((samePages_write hwrite).held q p t)

/-! ### A backstop that holds every page -/

/-- Memory whose backstop holds every page. Nobody holds a page without a mapping for it. -/
structure Grounded (m : MemoryMap) : Prop where
  backed : m.Backed
  last : ∀ q p, (m.held q p .last).isSome
  mapped : ∀ q p s, m.held q p s ≠ some .unmapped

namespace Grounded

theorem of_samePages (h : m.Grounded) (hm : m.SamePages m') (hsizes : m.Retains m') :
    m'.Grounded where
  backed := h.backed.of_samePages hm hsizes
  last q p := by
    rw [hm.held]
    exact h.last q p
  mapped q p s := by
    rw [hm.held]
    exact h.mapped q p s

/-- Whatever is done to such memory, its backstop goes on holding every page. -/
theorem perform (h : m.Grounded) {δ : Type} [Device δ] {op : Operation} {x : Answer}
    {ds ds' : Devices δ} (hop : system.perform op (m, ds) = .ok (x, m', ds')) : m'.Grounded where
  backed := h.backed.perform hop
  last q p := by
    rcases h.backed.held_perform hop with hkept | ⟨hne, -⟩ | ⟨-, e, -, he⟩
    · rw [hkept]
      exact h.last q p
    · exact absurd rfl hne
    · rw [he]
      rfl
  mapped q p s := by
    rcases h.backed.held_perform hop with hkept | ⟨-, hnone⟩ | ⟨-, e, hne, he⟩
    · rw [hkept]
      exact h.mapped q p s
    · rw [hnone]
      exact Option.some_ne_none _ |>.symm
    · rw [he]
      exact fun heq => hne (Option.some.inj heq)

/-- What a client holds is what it has put there. -/
theorem ownPage_of_held (h : m.Grounded) {a : UInt16} {e : Mapping}
    (he : m.held q (.of a) s = some e) : m.ownPage s a q = some e ∧ e ≠ .unmapped := by
  have hclient : (m.clients.get s).isSome := by
    rw [Option.isSome_iff_ne_none]
    intro hnone
    rw [h.backed.sound.clients q _ s hnone] at he
    cases he
  refine ⟨?_, fun hunmapped => h.mapped q _ s (hunmapped ▸ he)⟩
  rw [h.backed.sound.ownPage_eq, if_pos hclient, he, Option.getD_some]

/-- Every page shows what somebody has put there, which is never nothing. -/
theorem exists_owner (h : m.Grounded) (a : UInt16) (q : Access) :
    ∃ s, m.owner a q = some s ∧ m.ownPage s a q = some (m.page a q) ∧ m.page a q ≠ .unmapped := by
  obtain ⟨s, hs⟩ : ∃ s, m.holder? q (.of a) = some s := by
    refine Option.isSome_iff_exists.1 (List.find?_isSome.2 ⟨.last, List.mem_finRange _, ?_⟩)
    exact h.last q (.of a)
  have hheld : (m.held q (.of a) s).isSome :=
    List.find?_some (p := fun s => (m.held q (.of a) s).isSome) hs
  obtain ⟨e, he⟩ := Option.isSome_iff_exists.1 hheld
  have hpage : m.page a q = e := by
    rw [h.backed.sound.page_eq, hs, Option.bind_some, he, Option.getD_some]
  rw [hpage]
  exact ⟨s, (owner_eq m a q).trans hs, h.ownPage_of_held he⟩

/-- What the backstop has put in a page. -/
theorem ownPage_last (h : m.Grounded) (a : UInt16) (q : Access) :
    ∃ e ≠ .unmapped, m.held q (.of a) .last = some e ∧ m.ownPage .last a q = some e := by
  obtain ⟨e, he⟩ := Option.isSome_iff_exists.1 (h.last q (.of a))
  obtain ⟨hown, hne⟩ := h.ownPage_of_held he
  exact ⟨e, hne, he, hown⟩

/-- Where nobody else has put anything, the backstop's mapping shows. -/
theorem uncovered (h : m.Grounded) {a : UInt16}
    (ha : ∀ s, s ≠ .last → (m.ownPage s a q).getD .unmapped = .unmapped) :
    m.owner a q = some .last ∧ m.ownPage .last a q = some (m.page a q) := by
  obtain ⟨s, howner, hown, hne⟩ := h.exists_owner a q
  obtain rfl : s = .last := by
    by_contra hs
    have hnothing := ha s hs
    rw [hown] at hnothing
    exact hne hnothing
  exact ⟨howner, hown⟩

end Grounded
end TandemZ80.MemoryMap
