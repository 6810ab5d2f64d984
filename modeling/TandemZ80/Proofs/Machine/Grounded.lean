import TandemZ80.Proofs.Machine.Handles
import TandemZ80.Proofs.Memory.Grounded

/-!
# The backstop of a machine

Whatever is done to a machine, its RAM is mapped everywhere behind what clients map in front of it.
A page from which the last of these has gone shows again what the backstop has there.

* `MemoryMap.Changes.grounded`, the backstop through any changes;
* `Machine.Operation.SparesBackstop`, operations that map nothing for the backstop itself;
* `Machine.Session.BackedAs`, sessions whose backstop holds what it holds in some machine, and
  `Machine.Session.BackedAs.perform`;
* `Machine.Reached.grounded` and `Machine.pages_stay_backed`.
-/

namespace TandemZ80

namespace MemoryMap

variable {m m' : MemoryMap} {P : Operation → Prop} {ram : BufferId}

theorem Grounded.change (h : m.Grounded) (hc : Change P ram m m') : m'.Grounded := by
  cases hc with
  | store a bytes => exact h.of_samePages (samePages_store ..) (retains_store _ _ _ _)
  | replace hsize => exact h.of_samePages (samePages_replaceBuffer ..) (retains_replaceBuffer hsize)
  | perform _ hr => exact h.perform hr

/-- However a map is changed, its backstop goes on holding every page. -/
theorem Changes.grounded (hc : Changes P ram m m') (h : m.Grounded) : m'.Grounded := by
  induction hc with
  | refl => exact h
  | tail _ hc ih => exact ih.change hc

/-- The backstop holds what it has held, unless something is mapped for it. -/
theorem Changes.held_last (hc : Changes (fun op => ¬op.maps .last) ram m m') (h : m.Grounded)
    (q : Access) (p : Page) : m'.held q p .last = m.held q p .last := by
  induction hc with
  | refl => rfl
  | @tail m₁ m₂ hcs hc ih =>
    rw [← ih]
    cases hc with
    | store a bytes => exact (samePages_store ..).held q p .last
    | replace hsize => exact (samePages_replaceBuffer ..).held q p .last
    | perform hop hr =>
      rcases (Changes.grounded hcs h).backed.held_perform hr with hkept | ⟨hne, -⟩ | ⟨hmaps, -⟩
      · exact hkept
      · exact absurd rfl hne
      · exact absurd hmaps hop

/-- In new memory the backstop holds every page. -/
theorem grounded_ofRam (device : DeviceId) : (ofRam device).Grounded where
  backed := backed_ofRam device
  last q p := by
    rw [Machine.held_ofRam, if_pos rfl]
    rfl
  mapped q p s := by
    rw [Machine.held_ofRam]
    split_ifs <;> simp

/-- The backstop is the only client of new memory. -/
theorem client_ofRam (device : DeviceId) (s : Slot) :
    (ofRam device).clients.get s = if s = .last then some device else none := by
  show (empty.clients.set Slot.last (some device) Slot.last.isLt).get s = _
  rw [get_set_client]
  split_ifs
  · rfl
  · simp [MemoryMap.empty, Vector.get]

end MemoryMap

namespace Machine

variable {δ : Type} {m : Machine δ}

/-- An operation that maps nothing for the backstop itself. -/
def Operation.SparesBackstop : Operation δ → Prop
  | .memory _ op => ¬op.maps .last
  | _ => True

/-- Images are mapped in front of the backstop. -/
theorem held_last_loadRom (m : Machine δ) (s : Side) (a : UInt16) (bytes : List UInt8) {t : Side}
    (h : ∀ s, (m.board s).memory.Backed) (q : Access) (p : Page) :
    ((m.loadRom s a bytes).2.board t).memory.held q p .last =
      (m.board t).memory.held q p .last := by
  rcases m.loadRom_cases s a bytes with ⟨-, he⟩ | ⟨-, -, he⟩ | ⟨hbytes, slot, hfree, he⟩ <;> rw [he]
  · rw [memory_remapped]
    split_ifs with hts
    · rw [hts]
    · rfl
  · rw [memory_remapped]
    split_ifs with hts
    · have hslot : Slot.last ≠ slot := ((h s).free_ne_last hfree).symm
      rw [MemoryMap.held_loaded hbytes, if_neg fun hp => hslot hp.2.2, hts]
    · rfl

/-- Taking an image away does nothing to the backstop, whatever slot the handle names. -/
theorem held_last_unloadRom (m : Machine δ) (rom : RomHandle) {t : Side}
    (h : ∀ s, (m.board s).memory.Grounded) (q : Access) (p : Page) :
    ((m.unloadRom rom).board t).memory.held q p .last = (m.board t).memory.held q p .last := by
  rw [unloadRom_eq, memory_remapped]
  split_ifs with hts
  · have hspares : ¬MemoryMap.Operation.maps .last (.disconnect rom.slot) := not_false
    have hdisconnect := MemoryMap.perform_disconnect (.empty : Devices ParallelLink)
      (m.board rom.side).memory rom.slot
    have hchanges : MemoryMap.Changes (fun op => ¬op.maps .last) (m.ramBuffers.get rom.side)
        (m.board rom.side).memory ((m.board rom.side).memory.disconnect rom.slot).2 :=
      .single (.perform hspares hdisconnect)
    rw [hchanges.held_last (h rom.side), hts]
  · rfl

variable [Device δ] {t t' : Session δ}

/-- A session whose backstop holds what it holds in a machine. -/
structure Session.BackedAs (m : Machine δ) (t : Session δ) : Prop where
  ram : t.machine.HasRam
  grounded : ∀ s, (t.machine.board s).memory.Grounded
  last : ∀ s q p, (t.machine.board s).memory.held q p .last = (m.board s).memory.held q p .last

namespace Session.BackedAs

theorem perform (h : t.BackedAs m) {op : Operation δ} (hop : op.SparesBackstop)
    {r : Answer × Session δ} (hr : system.perform op t = .ok r) : r.2.BackedAs m := by
  have hchanged : Changed (fun _ => True) t.machine r.2.machine :=
    .perform (fun _ _ => trivial) h.ram (op.limited fun _ => trivial) hr
  refine ⟨h.ram.perform hr, fun s => (hchanged.memory s).grounded (h.grounded s), fun s q p => ?_⟩
  rw [← h.last s q p]
  -- Images do come with a mapping, but for a slot of their own.
  have hlimited : op.Limited (fun op => ¬op.maps .last) →
      (r.2.machine.board s).memory.held q p .last = (t.machine.board s).memory.held q p .last :=
    fun hlimited => ((Changed.perform (fun _ _ => not_false) h.ram hlimited hr).memory s).held_last
      (h.grounded s) q p
  cases op with
  | loadRom u a bytes =>
    cases hr
    exact held_last_loadRom t.machine u a bytes (fun s => (h.grounded s).backed) q p
  | unloadRom n =>
    cases hr
    dsimp only
    cases t.images[n]?.join with
    | none => rfl
    | some rom => exact held_last_unloadRom t.machine rom h.grounded q p
  | memory u op => exact hlimited hop
  | _ => exact hlimited trivial

theorem run (h : t.BackedAs m) {ops : List (Operation δ)} (hops : ∀ op ∈ ops, op.SparesBackstop)
    (hrun : system.run ops t = .ok t') : t'.BackedAs m :=
  System.run_keeps (P := Operation.SparesBackstop) (I := fun t => t.BackedAs m)
    (fun _ hop _ _ ht hr => ht.perform hop hr) hops h hrun

end Session.BackedAs

/-- The backstop of every machine holds every page. -/
theorem Reached.grounded (h : m.Reached) (s : Side) : (m.board s).memory.Grounded := by
  obtain ⟨config, m₀, ops, images, hnew, hrun⟩ := h
  obtain ⟨-, hchanged⟩ := run_changes (P := fun _ => True) (fun _ _ => trivial) (hasRam_new hnew)
    (fun op _ => op.limited fun _ => trivial) hrun
  refine (hchanged.memory s).grounded ?_
  rw [new_eq_ok hnew]
  cases s <;> exact MemoryMap.grounded_ofRam _

/-- Every page of a machine shows what somebody has put there, for reading and for writing. Behind
that there is always what the backstop has put there, which stays as it is as long as nothing is
mapped for the backstop itself: once nobody else has put anything in the page, it shows that. -/
theorem pages_stay_backed (h : m.Reached) (s : Side) (a : UInt16) (q : Access) :
    (∃ u, (m.board s).memory.owner a q = some u ∧
      (m.board s).memory.ownPage u a q = some ((m.board s).memory.page a q) ∧
      (m.board s).memory.page a q ≠ .unmapped) ∧
    ∃ e ≠ .unmapped, (m.board s).memory.ownPage .last a q = some e ∧
      ∀ ops images t, (∀ op ∈ ops, op.SparesBackstop) → system.run ops ⟨m, images⟩ = .ok t →
        (t.machine.board s).memory.ownPage .last a q = some e ∧
        ((∀ u, u ≠ .last →
            ((t.machine.board s).memory.ownPage u a q).getD .unmapped = .unmapped) →
          (t.machine.board s).memory.owner a q = some .last ∧
          (t.machine.board s).memory.page a q = e) := by
  refine ⟨(h.grounded s).exists_owner a q, ?_⟩
  obtain ⟨e, hne, hheld, hown⟩ := (h.grounded s).ownPage_last a q
  refine ⟨e, hne, hown, fun ops images t hops hrun => ?_⟩
  have hstart : Session.BackedAs m ⟨m, images⟩ := ⟨h.hasRam, h.grounded, fun _ _ _ => rfl⟩
  have hend := hstart.run hops hrun
  have hlast : (t.machine.board s).memory.ownPage .last a q = some e :=
    ((hend.grounded s).ownPage_of_held ((hend.last s q _).trans hheld)).1
  refine ⟨hlast, fun hothers => ?_⟩
  obtain ⟨howner, hshown⟩ := (hend.grounded s).uncovered hothers
  exact ⟨howner, Option.some.inj (hshown.symm.trans hlast)⟩

/-- An image is mapped over RAM and taken away again: RAM shows. -/
theorem pages_stay_backed_under_image :
    ∃ (m : Machine ParallelLink) (images : List (Option RomHandle)) (t : Session ParallelLink),
      m.Reached ∧ (m.board .main).memory.page 0 .read = .direct ⟨1⟩ 0 ∧
      system.run [.unloadRom 0] ⟨m, images⟩ = .ok t ∧
      (t.machine.board .main).memory.owner 0 .read = some .last ∧
      (t.machine.board .main).memory.page 0 .read = .direct ⟨0⟩ 0 := by
  obtain ⟨m₀, hnew⟩ : ∃ m : Machine ParallelLink, new .standard = .ok m := ⟨_, rfl⟩
  obtain ⟨⟨m, images⟩, hrun⟩ : ∃ t, system.run [.loadRom .main 0 [0x11]] ⟨m₀, []⟩ = .ok t :=
    ⟨_, rfl⟩
  obtain ⟨t, hrun'⟩ : ∃ t, system.run [.unloadRom 0] ⟨m, images⟩ = .ok t := by
    cases hrun
    exact ⟨_, rfl⟩
  have hreached : m.Reached := ⟨.standard, m₀, [.loadRom .main 0 [0x11]], images, hnew, hrun⟩
  have hops : ∀ op ∈ ([.unloadRom 0] : List (Operation ParallelLink)), op.SparesBackstop := by
    simp [Operation.SparesBackstop]
  obtain ⟨-, e, -, hlast, hruns⟩ := pages_stay_backed hreached .main 0 .read
  obtain ⟨-, huncovered⟩ := hruns _ images t hops hrun'
  -- What the memory comes to with the image, and without it.
  have hbacked := MemoryMap.backed_ofRam ⟨0⟩
  have hbytes : ([0x11] : List UInt8) ≠ [] := List.cons_ne_nil _ _
  obtain ⟨slot, hslot, hfree⟩ : ∃ slot : Slot, slot.val = 0 ∧
    (MemoryMap.ofRam ⟨0⟩).freeSlot? true = some slot := ⟨⟨0, by decide⟩, rfl, rfl⟩
  have hmemory : (m.board .main).memory =
      ((MemoryMap.ofRam ⟨0⟩).connect ⟨2⟩ true).2.mapRom slot (RomImage.place 0 [0x11]) := by
    obtain rfl : slot = ⟨0, by decide⟩ := Fin.ext hslot
    cases hrun
    rw [new_eq_ok hnew]
    rfl
  have hmemory' : (t.machine.board .main).memory = ((m.board .main).memory.disconnect slot).2 := by
    obtain rfl : slot = ⟨0, by decide⟩ := Fin.ext hslot
    cases hrun
    cases hrun'
    rw [new_eq_ok hnew]
    rfl
  have hshown : (m.board .main).memory.page 0 .read = .direct ⟨1⟩ 0 := by
    have hexposed : (MemoryMap.ofRam ⟨0⟩).Exposed slot 0 [0x11] 0 :=
      ⟨⟨0, Nat.one_pos, rfl⟩,
        fun u hu => absurd hu (by rw [Fin.lt_def, hslot]; exact Nat.not_lt_zero _)⟩
    rw [hmemory, (hbacked.covered hfree 0 hbytes).shown 0 hexposed]
    rfl
  have huncovers : (t.machine.board .main).memory.page 0 .read = .direct ⟨0⟩ 0 := by
    rw [hmemory', hmemory, hbacked.page_unloaded hfree hbytes]
    rfl
  have hempty : ∀ u : Slot, u ≠ .last →
      ((t.machine.board .main).memory.ownPage u 0 .read).getD .unmapped = .unmapped := by
    intro u hu
    have hclient : (t.machine.board .main).memory.clients.get u = none := by
      rw [hmemory', hmemory, (hbacked.connect_mapRom ⟨2⟩ hfree 0 hbytes).client_disconnect
        (hbacked.free_ne_last hfree), MemoryMap.client_loaded hfree, MemoryMap.client_ofRam,
        if_neg hu]
      split_ifs <;> rfl
    unfold MemoryMap.ownPage
    rw [hclient]
    rfl
  exact ⟨m, images, t, hreached, hshown, hrun', (huncovered hempty).1, huncovers⟩

end Machine
end TandemZ80
