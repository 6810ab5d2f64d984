/-!
# Bytes and words

A word is two bytes, the high one first. Addresses and ports are words, and arithmetic on them
wraps.

* `word`, `high`, `low`, and that they undo one another;
* `displace`, an address moved by a signed byte.
-/

namespace TandemZ80

/-- The word with the given high and low bytes. -/
def word (hi lo : UInt8) : UInt16 := UInt16.ofNat (hi.toNat * 256 + lo.toNat)

/-- The high byte of a word. -/
def high (w : UInt16) : UInt8 := UInt8.ofNat (w.toNat / 256)

/-- The low byte of a word. -/
def low (w : UInt16) : UInt8 := UInt8.ofNat (w.toNat % 256)

/-- The address `d` bytes away, `d` taken as a signed byte. -/
def displace (a : UInt16) (d : UInt8) : UInt16 :=
  if d < 0x80 then a + d.toUInt16 else a + d.toUInt16 - 0x100

theorem toNat_word (hi lo : UInt8) : (word hi lo).toNat = hi.toNat * 256 + lo.toNat := by
  have := hi.toNat_lt; have := lo.toNat_lt
  simp [word]; omega

theorem toNat_high (w : UInt16) : (high w).toNat = w.toNat / 256 := by
  have := w.toNat_lt
  simp [high]; omega

theorem toNat_low (w : UInt16) : (low w).toNat = w.toNat % 256 := by
  simp [low]

@[simp] theorem high_word (hi lo : UInt8) : high (word hi lo) = hi := by
  have := hi.toNat_lt; have := lo.toNat_lt
  apply UInt8.toNat_inj.mp
  rw [toNat_high, toNat_word]; omega

@[simp] theorem low_word (hi lo : UInt8) : low (word hi lo) = lo := by
  have := hi.toNat_lt; have := lo.toNat_lt
  apply UInt8.toNat_inj.mp
  rw [toNat_low, toNat_word]; omega

@[simp] theorem word_high_low (w : UInt16) : word (high w) (low w) = w := by
  apply UInt16.toNat_inj.mp
  rw [toNat_word, toNat_high, toNat_low]; omega

end TandemZ80
