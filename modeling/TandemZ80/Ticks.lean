import TandemZ80.Fault

/-!
# Time

Time is counted in T-states, in counters of 64 bits. A sum that does not fit is a fault; a
difference stops at zero.

* `Counter`, checked arithmetic on 64-bit counters;
* `Ticks`, a count of T-states;
* `MasterClock`, the crystal of the main processor, and its T-states per video frame.
-/

namespace TandemZ80

namespace Counter

/-- The number `n` as a counter, if it fits. -/
def ofNat (n : Nat) : Except Fault UInt64 :=
  if n < UInt64.size then .ok (UInt64.ofNat n) else .error .overflow

/-- The sum of two counters, if it fits. -/
def add (a b : UInt64) : Except Fault UInt64 := ofNat (a.toNat + b.toNat)

theorem ofNat_eq_ok {n : Nat} {c : UInt64} : ofNat n = .ok c ↔ n = c.toNat := by
  simp only [ofNat, UInt64.size]
  have := c.toNat_lt
  constructor
  · intro h
    split at h
    · obtain rfl := Except.ok.inj h
      simp; omega
    · cases h
  · rintro rfl
    rw [if_pos this, UInt64.ofNat_toNat]

theorem ofNat_eq_error {n : Nat} {f : Fault} (h : ofNat n = .error f) : f = .overflow := by
  unfold ofNat at h
  split at h
  · cases h
  · cases h
    rfl

theorem add_eq_ok {a b c : UInt64} : add a b = .ok c ↔ a.toNat + b.toNat = c.toNat := ofNat_eq_ok

end Counter

/-- A count of T-states. -/
structure Ticks where
  count : UInt64
  deriving DecidableEq

namespace Ticks

/-- No time. -/
def zero : Ticks := ⟨0⟩

instance : Inhabited Ticks := ⟨zero⟩

/-- The cost of one step as a count. -/
def ofCost (n : UInt32) : Ticks := ⟨n.toUInt64⟩

/-- Both times together. -/
def add (a b : Ticks) : Except Fault Ticks := Ticks.mk <$> Counter.add a.count b.count

/-- The time from `b` to `a`, none if `b` is later. -/
def sub (a b : Ticks) : Ticks := ⟨if b.count ≤ a.count then a.count - b.count else 0⟩

instance : LT Ticks := ⟨fun a b => a.count < b.count⟩

instance (a b : Ticks) : Decidable (a < b) := inferInstanceAs (Decidable (a.count < b.count))

theorem add_eq_error {a b : Ticks} {f : Fault} (h : add a b = .error f) : f = .overflow := by
  unfold add at h
  cases hn : Counter.add a.count b.count with
  | ok n =>
    rw [hn] at h
    cases h
  | error e =>
    rw [hn] at h
    cases h
    exact Counter.ofNat_eq_error hn

end Ticks

/-- The crystal that drives the main processor. -/
structure MasterClock where
  hertz : UInt64
  deriving DecidableEq

/-- Whole T-states in one frame at `fps` frames a second. -/
def MasterClock.ticksPerFrame (c : MasterClock) (fps : UInt64) : Except Fault Ticks :=
  if fps = 0 then .error .divisionByZero else .ok ⟨c.hertz / fps⟩

end TandemZ80
