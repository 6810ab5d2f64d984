import TandemZ80.Proofs.Machine.Windows
import TandemZ80.Proofs.Machine.Wiring
import TandemZ80.Proofs.Schedule.Alike

/-!
# Machines that run alike

Two machines run alike if their processors agree, their memories show the same bytes and their links
are in the same state. The windows of their processors, the names of their devices and all that lies
in the devices beside the link may differ.

* `MemoryMap.ShowsLike`, two memory maps that show the same;
* `Backplane.Like`, two buses of this kind, and `Backplane.pairing`, which makes one `Bus.Pairing`
  of them;
* `Hardware.Like`, and `Hardware.processors_alike`.
-/

namespace TandemZ80

variable {δ : Type}

/-! ### Memory -/

namespace MemoryMap

/-- What images show at an address over the RAM, if one of them lies there. -/
def overlay? (m : MemoryMap) (a : UInt16) : Option UInt8 :=
  ((List.finRange slotCount).filter (· ≠ Slot.last)).findSome? fun s => m.image? s a

theorem view_eq (m : MemoryMap) (a : UInt16) :
    m.view a = ((m.overlay? a).or (m.image? .last a)).getD 0xFF := by
  have hslots :
      List.finRange slotCount = (List.finRange slotCount).filter (· ≠ Slot.last) ++ [.last] := by
    decide
  unfold view overlay?
  rw [hslots, List.findSome?_append, ← hslots]
  cases h : m.image? .last a <;> simp [h]

/-- Two memory maps with the same RAM, over which images show the same, whoever has put them
there. -/
structure ShowsLike (m m' : MemoryMap) : Prop where
  overlay : ∀ a, m'.overlay? a = m.overlay? a
  ram : ∀ a, m'.image? .last a = m.image? .last a

variable {m m' : MemoryMap}

theorem overlay?_congr {a : UInt16} (h : ∀ t ≠ Slot.last, m'.image? t a = m.image? t a) :
    m'.overlay? a = m.overlay? a := by
  have himages : ∀ t ∈ (List.finRange slotCount).filter (· ≠ Slot.last), m'.image? t a =
      m.image? t a :=
    fun t ht => h t (of_decide_eq_true (List.mem_filter.1 ht).2)
  unfold overlay?
  rw [← List.head?_filterMap, ← List.head?_filterMap, List.filterMap_congr himages]

theorem ShowsLike.of_images (h : ∀ t a, m'.image? t a = m.image? t a) : m.ShowsLike m' :=
  ⟨fun a => overlay?_congr fun t _ => h t a, h .last⟩

theorem ShowsLike.view_eq (h : m.ShowsLike m') (a : UInt16) : m'.view a = m.view a := by
  rw [MemoryMap.view_eq, MemoryMap.view_eq, h.overlay, h.ram]

/-- A write changes the bytes of RAM only. -/
theorem ShowsLike.write (h : m.ShowsLike m') (hm : m.Layered) (hm' : m'.Layered) (a : UInt16)
    (v : UInt8) : (m.store ⟨0⟩ a [v]).ShowsLike (m'.store ⟨0⟩ a [v]) := by
  refine ⟨fun a' => ?_, fun a' => ?_⟩
  · have hover : ∀ memory : MemoryMap, memory.Layered →
        (memory.store ⟨0⟩ a [v]).overlay? a' = memory.overlay? a' := fun memory hmemory =>
      overlay?_congr fun t ht => by rw [hmemory.image?_write, if_neg fun hlast => ht hlast.1]
    rw [hover m hm, hover m' hm', h.overlay]
  · rw [hm.image?_write, hm'.image?_write, h.ram]

end MemoryMap

/-! ### Buses -/

/-- The bus of a side in a machine with RAM, images and the link, beside a processor with window
`w`. -/
structure Backplane.Plain (s : Side) (c : Setting) (w : Option Window) (b : Backplane (Part δ)) :
    Prop where
  layered : b.memory.Layered
  dated : MemoryMap.Dated c.changes b.memory w
  ports : b.ports = .linked s c.link

/-- Two buses of a side that show the same. -/
structure Backplane.Like (s : Side) (c c' : Setting) (w w' : Option Window)
    (b b' : Backplane (Part δ)) : Prop where
  left : b.Plain s c w
  right : b'.Plain s c' w'
  memory : b.memory.ShowsLike b'.memory
  link : Devices.SameLink c c' b.devices b'.devices

namespace Backplane

variable {s : Side} {c c' : Setting} {w w' : Option Window} {b b' : Backplane (Part δ)}

theorem Plain.write (h : b.Plain s c w) (a : UInt16) (v : UInt8) :
    Plain s c w { b with memory := b.memory.store ⟨0⟩ a [v] } :=
  ⟨h.layered.store a [v], h.dated.of_reading Array.size_modify rfl rfl, h.ports⟩

theorem Like.write (h : Like s c c' w w' b b') (a : UInt16) (v : UInt8) :
    Like s c c' w w' { b with memory := b.memory.store ⟨0⟩ a [v] }
      { b' with memory := b'.memory.store ⟨0⟩ a [v] } where
  left := h.left.write a v
  right := h.right.write a v
  memory := h.memory.write h.left.layered h.right.layered a v
  link := h.link

theorem Like.withDevices (h : Like s c c' w w' b b') {ds ds' : Devices (Part δ)}
    (hlink : Devices.SameLink c c' ds ds') :
    Like s c c' w w' { b with devices := ds } { b' with devices := ds' } :=
  ⟨⟨h.left.layered, h.left.dated, h.left.ports⟩, ⟨h.right.layered, h.right.dated, h.right.ports⟩,
    h.memory, hlink⟩

theorem reading_eq {α : Type}
    (access : Devices (Part δ) → Except Fault (α × Devices (Part δ))) {v : α}
    {ds : Devices (Part δ)} (h : access b.devices = .ok (v, ds)) :
    reading access b = .done (v, { b with devices := ds }) := by
  obtain ⟨memory, ports, devices⟩ := b
  unfold reading
  dsimp only at h ⊢
  rw [h]

variable [Device δ]

theorem serve_write (h : b.memory.Layered) (a : UInt16) (v : UInt8) :
    serve (.write a v) b = .done ((), { b with memory := b.memory.store ⟨0⟩ a [v] }) := by
  obtain ⟨memory, ports, devices⟩ := b
  unfold serve
  dsimp only
  rw [h.write_eq]

theorem serve_output {p : UInt16} {v : UInt8} {ds : Devices (Part δ)}
    (h : b.ports.output (portOf p) v b.devices = .ok ds) :
    serve (.output p v) b = .done ((), { b with devices := ds }) := by
  have haccess :
      (do return ((), ← b.ports.output (portOf p) v b.devices)) = Except.ok ((), ds) := by
    rw [h]
    rfl
  exact reading_eq (fun devices => do return ((), ← b.ports.output (portOf p) v devices)) haccess

theorem serve_acknowledge (h : b.Plain s c w) : serve .acknowledge b = .done (0xFF, b) := by
  refine reading_eq _ ?_
  rw [h.ports, Ports.acknowledge_linked]

/-- Buses that show the same answer alike, and go on showing the same. -/
theorem Like.serve (h : Like s c c' w w' b b') {q : Bus.Call} (hq : q.fetches = false) :
    Dialogue.Alike (· = .overflow) (fun r r' => r.1 = r'.1 ∧ Like s c c' w w' r.2 r'.2)
      (Backplane.serve q b) (Backplane.serve q b') := by
  cases q with
  | read a =>
    rw [h.left.layered.serve_read, h.right.layered.serve_read]
    exact .done ⟨(h.memory.view_eq a).symm, h⟩
  | write a v =>
    rw [serve_write h.left.layered, serve_write h.right.layered]
    exact .done ⟨rfl, h.write a v⟩
  | input p =>
    obtain ⟨v, ds, ds', hin, hin', hlink⟩ := Ports.input_linked h.link s (portOf p)
    show Dialogue.Alike _ _ (reading (b.ports.input _) b) (reading (b'.ports.input _) b')
    rw [h.left.ports, h.right.ports, reading_eq _ hin, reading_eq _ hin']
    exact .done ⟨rfl, h.withDevices hlink⟩
  | output p v =>
    obtain ⟨ds, ds', hout, hout', hlink⟩ := Ports.output_linked h.link s (portOf p) v
    rw [serve_output (h.left.ports ▸ hout), serve_output (h.right.ports ▸ hout')]
    exact .done ⟨rfl, h.withDevices hlink⟩
  | acknowledge =>
    rw [serve_acknowledge h.left, serve_acknowledge h.right]
    exact .done ⟨rfl, h⟩
  | isShared p =>
    refine .done ⟨?_, h⟩
    rw [h.left.ports, h.right.ports]
    exact Ports.isShared_linked h.link.isSome_eq s _
  | sync elapsed => exact .ask _ fun granted => .done ⟨rfl, h⟩
  | stop clocks => exact .ask _ fun _ => .done ⟨rfl, h⟩
  | window a => cases hq
  | readWindow v a => cases hq

/-- The buses of a side in two machines. -/
def pairing (δ : Type) [Device δ] (s : Side) (hc : c.changes < UInt32.size)
    (hc' : c'.changes < UInt32.size) :
    Bus.Pairing Rendezvous.Reply (Backplane (Part δ)) (Backplane (Part δ)) where
  left := serve
  right := serve
  fault := (· = .overflow)
  related := Like s c c'
  overflow := rfl
  call := by
    intro q hq w w' b b' h
    exact h.serve hq
  fetch a := by
    intro w w' b b' h
    obtain ⟨w₁, he, hdated⟩ := h.left.layered.relay_fetch h.left.dated hc a
    obtain ⟨w₁', he', hdated'⟩ := h.right.layered.relay_fetch h.right.dated hc' a
    rw [he, he']
    refine .done ⟨(h.memory.view_eq a).symm, ?_, ?_, h.memory, h.link⟩
    · exact ⟨h.left.layered, hdated, h.left.ports⟩
    · exact ⟨h.right.layered, hdated', h.right.ports⟩

end Backplane

/-! ### Hardware -/

/-- Hardware whose processors agree, on buses that show the same. -/
structure Hardware.Like (c c' : Setting) (h h' : Hardware δ) : Prop where
  cpu : ∀ s, (h.boards.get s).cpu.Agree (h'.boards.get s).cpu
  plane : ∀ s, Backplane.Like s c c' (h.boards.get s).cpu.window (h'.boards.get s).cpu.window
    (h.plane s) (h'.plane s)

theorem Registers.Agree.refresh {r r' : Registers} (h : r.Agree r') (n : ℕ) :
    (Nat.repeat Registers.refresh n r).Agree (Nat.repeat Registers.refresh n r') := by
  induction n with
  | zero => exact h
  | succ n ih => exact (Blind.of_settled (f := Registers.refresh) fun _ => rfl).agree ih

/-- Processors that agree are credited with time alike. -/
theorem Cpu.Agree.advanceIdle {s t : Cpu} (h : s.Agree t) (n : Ticks) :
    Fault.Alike (fun u v => u.Agree v ∧ u.window = s.window ∧ v.window = t.window) (s.advanceIdle n)
      (t.advanceIdle n) := by
  obtain ⟨r, w, hr, rfl⟩ := h.exists_eq
  obtain ⟨l, -, rfl⟩ := hr.exists_eq
  unfold Cpu.advanceIdle
  dsimp only
  refine .bind (.refl (fun _ => rfl) _) fun u u' hu => ?_
  refine .bind (.refl (fun _ => rfl) _) fun ticks ticks' hticks => ?_
  obtain rfl : ticks = ticks' := hticks
  refine .ok ⟨?_, rfl, rfl⟩
  exact agree_of_regs (s := { s with regs := Nat.repeat Registers.refresh _ s.regs, ticks })
    (hr.refresh _) w

namespace Hardware

variable {c c' : Setting} {h h' : Hardware δ}

/-- One processor and its bus have changed, and with the bus the devices that the other bus leads
to. -/
theorem Like.settle (hh : Like c c' h h') {s : Side} {u v : Cpu} {b b' : Backplane (Part δ)}
    (huv : u.Agree v) (hb : Backplane.Like s c c' u.window v.window b b') :
    Like c c' (h.settle s u b) (h'.settle s v b') := by
  refine ⟨fun t => ?_, fun t => ?_⟩
  · rw [boards_settle, boards_settle]
    split_ifs
    · exact huv
    · exact hh.cpu t
  · rw [plane_settle, plane_settle, boards_settle, boards_settle]
    split_ifs with hts
    · exact hts ▸ hb
    · exact (hh.plane t).withDevices hb.link

variable [Device δ]

/-- The processors of machines that are alike run alike, and stop on nothing but an overflow. -/
theorem processors_alike (hc : c.changes < UInt32.size) (hc' : c'.changes < UInt32.size) :
    (processors (δ := δ)).Alike (· = .overflow) (Like c c') processors where
  step := by
    intro s h h' hh
    show Dialogue.Alike _ _ (step s h) (step s h')
    rw [step_eq, step_eq]
    refine (Cpu.step_alike (B := Backplane.pairing δ s hc hc') ⟨hh.cpu s, hh.plane s⟩).bind ?_
    rintro ⟨⟨cost, u⟩, b⟩ ⟨⟨cost', v⟩, b'⟩ ⟨hcost, huv, hb⟩
    exact .done ⟨hcost, hh.settle huv hb⟩
  skipIdle := by
    intro s n h h' hh
    show Fault.Alike _ (skipIdle s n h) (skipIdle s n h')
    rw [skipIdle_eq, skipIdle_eq]
    refine ((hh.cpu s).advanceIdle ⟨n⟩).map ?_
    rintro u v ⟨huv, hw, hw'⟩
    refine hh.settle huv ?_
    rw [hw, hw']
    exact hh.plane s

end Hardware
end TandemZ80
