import TandemZ80.Proofs.Machine.Runs

/-!
# Leaving an idle processor out

A sub processor that waits for an interrupt may be left out of a run. The main processor is then
never refused a port, but that is all it is spared: nothing that it can see is different.

* `Machine.withIdleSkip`, the machine with idle processors left out of its runs, or not;
* `Machine.SameToMain`, machines that differ in the time that their sub processors have waited;
* `Machine.idle_skip_invisible`.
-/

namespace TandemZ80.Machine

variable {δ : Type} {m : Machine δ} {k : ℕ}

/-- The machine with idle processors left out of its runs, or not. -/
def withIdleSkip (m : Machine δ) (skip : Bool) : Machine δ :=
  { m with config := { m.config with idleSkip := skip } }

theorem Starting.withIdleSkip {program : List UInt8} (h : m.Starting program) (skip : Bool) :
    (m.withIdleSkip skip).Starting program :=
  ⟨h.scheduler, h.main, h.sub, h.ram⟩

theorem Plain.withIdleSkip (h : m.Plain k) (skip : Bool) : (m.withIdleSkip skip).Plain k :=
  ⟨h.ramBuffers, h.layered, h.dated, h.ports, h.link, h.weights⟩

/-- Machines that differ in the time that their sub processors have waited. -/
structure SameToMain (m m' : Machine δ) : Prop where
  main : (m.cpu .main).save = (m'.cpu .main).save
  ram : ∀ s, m.ram s = m'.ram s
  link : m.link? = m'.link?
  clock : m.scheduler.clocks.main = m'.scheduler.clocks.main
  targets : m.scheduler.targets = m'.scheduler.targets
  sub : (m.cpu .sub).regs.SameButR (m'.cpu .sub).regs

theorem Plain.beside (h : m.Plain k) (hidle : (m.cpu .sub).isIdle = true) :
    Hardware.Beside (m.setting k) (m.setting k) m.hardware m.hardware :=
  ⟨.refl _, hidle, hidle, .refl _, h.like.hardware.plane⟩

variable [Device δ]

/-- The main processor is not told whether an idle sub processor was left out of a run: unless a
counter overflows, be it one of T-states or the generations of a mapping, both runs return the same
count, and machines that differ in the time that the sub processor has waited. -/
theorem idle_skip_invisible (hm : m.PlainlyReached) (hbuffers : m.bufferCount ≤ 2 ^ 31)
    (hidle : (m.cpu .sub).isIdle = true)
    (hweights : m.scheduler.weights = m.config.ratio.weights) (budget : UInt32)
    (hskip : (m.withIdleSkip true).execute budget ≠ .error .overflow)
    (hstep : (m.withIdleSkip false).execute budget ≠ .error .overflow) :
    ∃ moved m₁ m₂, (m.withIdleSkip true).execute budget = .ok (moved, m₁) ∧
      (m.withIdleSkip false).execute budget = .ok (moved, m₂) ∧ SameToMain m₁ m₂ := by
  obtain ⟨k, hk, hplain⟩ := hm.exists_plain hbuffers
  have hruns : (m.withIdleSkip true).runs budget =
      m.scheduler.execMain Hardware.processors budget m.hardware := if_pos hidle
  have hruns' : (m.withIdleSkip false).runs budget =
      m.scheduler.execBoth Hardware.processors m.config.ratio.weights budget m.hardware :=
    if_neg Bool.false_ne_true
  rw [execute_eq, hruns] at hskip ⊢
  rw [execute_eq, hruns'] at hstep ⊢
  obtain ⟨moved, s₂, s₁, h₂, h₁, hboth, hmain, hbeside, hclock, htargets⟩ :=
    Scheduler.execBoth_beside (Hardware.processors_idle hk hk) (hplain.beside hidle) hweights
      (fun he => hstep (by rw [he]; rfl)) (fun he => hskip (by rw [he]; rfl))
  rw [hmain, hboth]
  refine ⟨moved, _, _, rfl, rfl, ?_⟩
  exact {
    main := (Cpu.save_eq_iff.2 hbeside.main).symm
    ram := fun s => ram_of_plane (hbeside.plane s) hplain.ramBuffers hplain.ramBuffers
    link := link?_of_sameLink (hbeside.plane .main).link rfl rfl
    clock := hclock
    targets := htargets
    sub := hbeside.sub.symm }

/-- A machine whose main processor polls the link: while the sub processor is stepped it is refused
the port at times, and while that one is left out it never is. -/
theorem polling_skip_invisible :
    ∃ m : Machine ParallelLink, m.Starting polling ∧ m.link?.isSome ∧ m.PlainlyReached ∧
      m.bufferCount ≤ 2 ^ 31 ∧ (m.cpu .sub).isIdle = true ∧
      m.scheduler.weights = m.config.ratio.weights ∧
      (m.withIdleSkip true).execute 1000 ≠ .error .overflow ∧
      (m.withIdleSkip false).execute 1000 ≠ .error .overflow ∧
      ∃ moved m₁ m₂, (m.withIdleSkip true).execute 1000 = .ok (moved, m₁) ∧
        (m.withIdleSkip false).execute 1000 = .ok (moved, m₂) ∧ SameToMain m₁ m₂ := by
  obtain ⟨m₀, hnew⟩ : ∃ m₀ : Machine ParallelLink, new .standard = .ok m₀ := ⟨_, rfl⟩
  have hbuilt : m₀.attachLink.2.PlainlyReached :=
    ⟨.standard, m₀, [.attachLink], [], hnew, by simp [Operation.plain], rfl⟩
  have hfields : m₀.attachLink.2.config = .standard ∧ m₀.attachLink.2.linkId.isSome ∧
      m₀.attachLink.2.bufferCount = 2 := by
    rw [new_eq_ok hnew]
    exact ⟨rfl, rfl, rfl⟩
  obtain ⟨m, hload, hplain, hstarting, hconfig, hid, hcount⟩ :=
    (plain_new hnew).attachLink.load_starting polling (by decide)
  have hlink : m.link?.isSome := by
    rw [hplain.isSome_link?_eq, hid]
    exact hfields.2.1
  have hbuffers : m.bufferCount ≤ 2 ^ 31 := by
    rw [hcount, hfields.2.2]
    decide
  have hweights : m.scheduler.weights = m.config.ratio.weights := by
    rw [hstarting.scheduler, hconfig, hfields.1]
    rfl
  have hfits : ∀ skip, (m.withIdleSkip skip).execute 1000 ≠ .error .overflow := by
    intro skip he
    obtain ⟨r, hr⟩ :=
      (hstarting.withIdleSkip skip).execute_returns (hplain.withIdleSkip skip) (by decide) 1000
    rw [hr] at he
    cases he
  have hreached := hbuilt.load hload
  exact ⟨m, hstarting, hlink, hreached, hbuffers, hstarting.isIdle_sub, hweights, hfits true,
    hfits false, idle_skip_invisible hreached hbuffers hstarting.isIdle_sub hweights 1000
    (hfits true)
      (hfits false)⟩

end TandemZ80.Machine
