import TandemZ80.Cpu.Snapshot
import TandemZ80.Decimal
import TandemZ80.Hex

/-!
# Trace lines

* `Cpu.Snapshot.line`, a snapshot on one line, as it is written in traces.
-/

namespace TandemZ80.Cpu.Snapshot

/-- The registers in four digits each, I and R together, the interrupt mode followed by a mark for
every flag that is set, and the T-states in decimal. -/
def line (p : Snapshot) : String :=
  let words :=
    [p.af, p.bc, p.de, p.hl, p.afAlt, p.bcAlt, p.deAlt, p.hlAlt, p.ix, p.iy, p.sp, p.pc, p.wz]
  let mark (b : Bool) (letter : Char) : Char := if b then letter else '-'
  let marks := String.ofList
    [mark p.iff1 '1', mark p.iff2 '2', mark p.halted 'H', mark p.intLine 'I',
      mark p.nmiPending 'N', mark p.afterEI 'E']
  String.intercalate " "
    (words.map Hex.word ++
      [Hex.byte p.i ++ Hex.byte p.r, decimal p.im.toNat ++ marks, decimal p.ticks.toNat])

end TandemZ80.Cpu.Snapshot
