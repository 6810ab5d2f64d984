import TandemZ80.Proofs.Machine.Parts

/-!
# What processors keep

Processors reach memory only by reading and writing. Whatever writing keeps of the two memory maps
is kept by every step, and so by every run.

* `MemoryMap.KeptByWrites`; `Hardware.Keeping`;
* `Backplane.serve_keeps`, `Hardware.processors_keep`, and `Machine.execute_keeps`.
-/

namespace TandemZ80

variable {δ : Type}

/-- What holds of a memory map still holds after a write. -/
def MemoryMap.KeptByWrites (δ : Type) [Device δ] (I : MemoryMap → Prop) : Prop :=
  ∀ (m m' : MemoryMap) (a : UInt16) (v : UInt8) (ds ds' : Devices δ),
    I m → m.write a v ds = .ok (m', ds') → I m'

namespace Backplane

theorem reading_keeps {α : Type} {I : MemoryMap → Prop} {b : Backplane δ} (h : I b.memory)
    (access : Devices δ → Except Fault (α × Devices δ)) :
    Dialogue.Alike (fun _ => True) (fun r r' => r = r' ∧ I r.2.memory) (reading access b)
      (reading access b) := by
  obtain ⟨memory, ports, devices⟩ := b
  unfold reading
  dsimp only
  cases access devices with
  | ok r => exact .done ⟨rfl, h⟩
  | error f => exact .fail trivial

variable [Device δ]

theorem serve_keeps {I : MemoryMap → Prop} (hI : MemoryMap.KeptByWrites δ I) (q : Bus.Call)
    {b : Backplane δ} (h : I b.memory) :
    Dialogue.Alike (fun _ => True) (fun r r' => r = r' ∧ I r.2.memory) (serve q b) (serve q b) := by
  cases q with
  | read a => exact reading_keeps h _
  | write a v =>
    obtain ⟨memory, ports, devices⟩ := b
    unfold serve
    dsimp only
    cases hw : memory.write a v devices with
    | ok r => exact .done ⟨rfl, hI _ _ _ _ _ _ h hw⟩
    | error f => exact .fail trivial
  | input p => exact reading_keeps h _
  | output p v =>
    exact reading_keeps h fun devices => do return ((), ← b.ports.output (portOf p) v devices)
  | acknowledge => exact reading_keeps h _
  | window a => exact .done ⟨rfl, h⟩
  | readWindow w a => exact .done ⟨rfl, h⟩
  | isShared p => exact .done ⟨rfl, h⟩
  | sync elapsed => exact .ask _ fun _ => .done ⟨rfl, h⟩
  | stop clocks => exact .ask _ fun _ => .done ⟨rfl, h⟩

end Backplane

namespace Hardware

/-- The same hardware, with memory of which `I` holds. -/
def Keeping (I : Side → MemoryMap → Prop) (h h' : Hardware δ) : Prop :=
  h = h' ∧ ∀ s, I s (h.boards.get s).memory

theorem Keeping.settle {I : Side → MemoryMap → Prop} {h : Hardware δ}
    (hm : ∀ s, I s (h.boards.get s).memory) {s : Side} (cpu : Cpu) {b : Backplane (Part δ)}
    (hb : I s b.memory) : Keeping I (h.settle s cpu b) (h.settle s cpu b) := by
  refine ⟨rfl, fun t => ?_⟩
  rw [boards_settle]
  split_ifs with hts
  · exact hts ▸ hb
  · exact hm t

variable [Device δ]

theorem processors_keep {I : Side → MemoryMap → Prop}
    (hI : ∀ s, MemoryMap.KeptByWrites (Part δ) (I s)) :
    (processors (δ := δ)).Alike (fun _ => True) (Keeping I) processors where
  step := by
    rintro s h _ ⟨rfl, hm⟩
    show Dialogue.Alike _ _ (step s h) (step s h)
    rw [step_eq]
    have hserve : ∀ q (b b' : Backplane (Part δ)), b = b' ∧ I s b.memory →
        Dialogue.Alike (fun _ => True) (fun r r' => r.1 = r'.1 ∧ r.2 = r'.2 ∧ I s r.2.memory)
          (Backplane.serve q b) (Backplane.serve q b') := by
      rintro q b _ ⟨rfl, hb⟩
      exact (Backplane.serve_keeps (hI s) q hb).mono fun r r' hr =>
        ⟨congrArg Prod.fst hr.1, congrArg Prod.snd hr.1, hr.2⟩
    have hbody := Dialogue.Alike.relay hserve (s := h.plane s)
      (.refl (R := Eq) (fun _ => trivial) (fun _ => rfl) (h.boards.get s).cpu.step) ⟨rfl, hm s⟩
    refine hbody.bind ?_
    rintro ⟨r, b⟩ ⟨r', b'⟩ ⟨rfl, rfl, hb⟩
    exact .done ⟨rfl, .settle hm _ hb⟩
  skipIdle := by
    rintro s n h _ ⟨rfl, hm⟩
    show Fault.Alike _ (skipIdle s n h) (skipIdle s n h)
    rw [skipIdle_eq]
    refine (Fault.Alike.refl (fun _ => rfl) _).map fun cpu cpu' hcpu => ?_
    rw [← (hcpu : cpu = cpu')]
    exact .settle hm _ (hm s)

end Hardware

/-- A run keeps of both memory maps what writes keep. -/
theorem Machine.execute_keeps [Device δ] {I : Side → MemoryMap → Prop}
    (hI : ∀ s, MemoryMap.KeptByWrites (Part δ) (I s)) {m m' : Machine δ}
    (hm : ∀ s, I s (m.board s).memory) {budget : UInt32} {n : UInt64}
    (he : m.execute budget = .ok (n, m')) :
    m'.ramBuffers = m.ramBuffers ∧ ∀ s, I s (m'.board s).memory := by
  rw [execute_eq] at he
  obtain ⟨r, hr, he⟩ := Fault.map_eq_ok he
  cases he
  have hkeep := Hardware.processors_keep hI
  have hstart : Hardware.Keeping I m.hardware m.hardware := ⟨rfl, hm⟩
  refine ⟨rfl, ?_⟩
  obtain ⟨_, _, _, _, hk⟩ := (runs_alike hkeep rfl rfl rfl hstart budget).exists_eq_ok hr
  exact hk.2

end TandemZ80
