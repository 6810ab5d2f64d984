import TandemZ80.Cpu.Basic
import TandemZ80.Json.Record
import TandemZ80.StateError

/-!
# Processor snapshots

A snapshot holds everything of a processor that its further course depends on. F is stored settled,
and the fetch window is not stored.

* `Cpu.Snapshot`; `Cpu.save`, `Cpu.load`;
* its JSON form: `Snapshot.toJson`, `Snapshot.ofJson?`.
-/

namespace TandemZ80.Cpu

/-- The stored state of a processor. -/
structure Snapshot where
  rev : UInt8
  af : UInt16
  bc : UInt16
  de : UInt16
  hl : UInt16
  afAlt : UInt16
  bcAlt : UInt16
  deAlt : UInt16
  hlAlt : UInt16
  ix : UInt16
  iy : UInt16
  sp : UInt16
  pc : UInt16
  wz : UInt16
  i : UInt8
  r : UInt8
  im : UInt8
  iff1 : Bool
  iff2 : Bool
  halted : Bool
  intLine : Bool
  nmiPending : Bool
  afterEI : Bool
  ticks : UInt64
  deriving DecidableEq

/-- The layout of snapshots. -/
def revision : UInt8 := 1

/-- The snapshot of a processor. -/
def save (s : Cpu) : Snapshot :=
  { rev := revision
    af := s.regs.af, bc := s.regs.bc, de := s.regs.de, hl := s.regs.hl
    afAlt := s.regs.afAlt, bcAlt := s.regs.bcAlt, deAlt := s.regs.deAlt, hlAlt := s.regs.hlAlt
    ix := s.regs.ix, iy := s.regs.iy, sp := s.regs.sp, pc := s.regs.pc, wz := s.regs.wz
    i := s.regs.i, r := s.regs.r, im := s.regs.im.toByte
    iff1 := s.regs.iff1, iff2 := s.regs.iff2, halted := s.regs.halted
    intLine := s.intLine, nmiPending := s.nmiPending, afterEI := s.afterEI
    ticks := s.ticks.count }

/-- The bank with the given pairs. -/
def bank (bc de hl : UInt16) : Bank := ⟨high bc, low bc, high de, low de, high hl, low hl⟩

/-- The processor that a snapshot describes, if its interrupt mode exists. -/
def Snapshot.restore? (p : Snapshot) : Option Cpu :=
  (InterruptMode.ofByte? p.im).map fun im =>
    { regs :=
        { a := high p.af, f := .ofByte (low p.af), main := bank p.bc p.de p.hl
          aAlt := high p.afAlt, fAlt := low p.afAlt, alt := bank p.bcAlt p.deAlt p.hlAlt
          ix := p.ix, iy := p.iy, sp := p.sp, pc := p.pc, i := p.i, r := p.r, wz := p.wz
          iff1 := p.iff1, iff2 := p.iff2, im, halted := p.halted }
      window := none
      intLine := p.intLine, nmiPending := p.nmiPending, afterEI := p.afterEI
      ticks := ⟨p.ticks⟩ }

/-- Read a snapshot back. -/
def load (p : Snapshot) : Except StateError Cpu :=
  if p.rev ≠ revision then .error (.revision "z80" revision p.rev)
  else
    match p.restore? with
    | some s => .ok s
    | none => .error (.invalid "z80" "im")

/-- Loading gives a processor with the same snapshot. -/
theorem save_of_load {p : Snapshot} {s : Cpu} (h : load p = .ok s) : s.save = p := by
  unfold load at h
  split at h
  · cases h
  · next hr =>
    split at h
    · next t ht =>
      cases h
      simp only [Snapshot.restore?, Option.map_eq_some_iff, InterruptMode.ofByte?_eq_some] at ht
      obtain ⟨im, him, rfl⟩ := ht
      have hr : p.rev = revision := Classical.not_not.mp hr
      simp [save, Registers.af, Registers.bc, Registers.de, Registers.hl, Registers.afAlt,
        Registers.bcAlt, Registers.deAlt, Registers.hlAlt, bank, Flags.Lazy.peek,
        Flags.Lazy.ofByte, ← him, ← hr]
    · cases h

/-! ### JSON -/

namespace Snapshot

/-- The fields in their order. -/
def fields : List String :=
  ["rev", "af", "bc", "de", "hl", "af_alt", "bc_alt", "de_alt", "hl_alt", "ix", "iy", "sp", "pc",
    "wz", "i", "r", "im", "iff1", "iff2", "halted", "int_line", "nmi_pending", "after_ei", "ticks"]

/-- A snapshot as an object. -/
def toJson (p : Snapshot) : Json :=
  let byte (v : UInt8) : Json := .nat v.toNat
  let word (v : UInt16) : Json := .nat v.toNat
  .object (fields.zip
    [byte p.rev, word p.af, word p.bc, word p.de, word p.hl, word p.afAlt, word p.bcAlt,
      word p.deAlt, word p.hlAlt, word p.ix, word p.iy, word p.sp, word p.pc, word p.wz, byte p.i,
      byte p.r, byte p.im, .bool p.iff1, .bool p.iff2, .bool p.halted, .bool p.intLine,
      .bool p.nmiPending, .bool p.afterEI, .nat p.ticks.toNat])

/-- Read a snapshot; no field may be missing. -/
def ofJson? (j : Json) : Option Snapshot := do
  let r ← j.record? fields false
  return {
    rev := ← r.required "rev" Json.byte?
    af := ← r.required "af" Json.word?
    bc := ← r.required "bc" Json.word?
    de := ← r.required "de" Json.word?
    hl := ← r.required "hl" Json.word?
    afAlt := ← r.required "af_alt" Json.word?
    bcAlt := ← r.required "bc_alt" Json.word?
    deAlt := ← r.required "de_alt" Json.word?
    hlAlt := ← r.required "hl_alt" Json.word?
    ix := ← r.required "ix" Json.word?
    iy := ← r.required "iy" Json.word?
    sp := ← r.required "sp" Json.word?
    pc := ← r.required "pc" Json.word?
    wz := ← r.required "wz" Json.word?
    i := ← r.required "i" Json.byte?
    r := ← r.required "r" Json.byte?
    im := ← r.required "im" Json.byte?
    iff1 := ← r.required "iff1" Json.bool?
    iff2 := ← r.required "iff2" Json.bool?
    halted := ← r.required "halted" Json.bool?
    intLine := ← r.required "int_line" Json.bool?
    nmiPending := ← r.required "nmi_pending" Json.bool?
    afterEI := ← r.required "after_ei" Json.bool?
    ticks := ← r.required "ticks" Json.count? }

end Snapshot
end TandemZ80.Cpu
