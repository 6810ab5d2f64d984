import TandemZ80.Cpu.Basic
import TandemZ80.Observation

/-!
# Observing a processor

* `Cpu.observables`, the paths of a processor and what they show;
* `Cpu.query`, `Cpu.queryBelow`.
-/

namespace TandemZ80.Cpu

/-- A flag of F. -/
def flag (mask : UInt8) (s : Cpu) : Value := .flag (s.regs.f.isSet mask)

/-- The paths of a processor. -/
def observables : Observables Cpu :=
  [("a", fun s => .byte s.regs.a),
    ("f", fun s => .byte s.regs.f.peek),
    ("b", fun s => .byte s.regs.main.b),
    ("c", fun s => .byte s.regs.main.c),
    ("d", fun s => .byte s.regs.main.d),
    ("e", fun s => .byte s.regs.main.e),
    ("h", fun s => .byte s.regs.main.h),
    ("l", fun s => .byte s.regs.main.l),
    ("af", fun s => .word s.regs.af),
    ("bc", fun s => .word s.regs.bc),
    ("de", fun s => .word s.regs.de),
    ("hl", fun s => .word s.regs.hl),
    ("af'", fun s => .word s.regs.afAlt),
    ("bc'", fun s => .word s.regs.bcAlt),
    ("de'", fun s => .word s.regs.deAlt),
    ("hl'", fun s => .word s.regs.hlAlt),
    ("ix", fun s => .word s.regs.ix),
    ("iy", fun s => .word s.regs.iy),
    ("ixh", fun s => .byte (high s.regs.ix)),
    ("ixl", fun s => .byte (low s.regs.ix)),
    ("iyh", fun s => .byte (high s.regs.iy)),
    ("iyl", fun s => .byte (low s.regs.iy)),
    ("sp", fun s => .word s.regs.sp),
    ("pc", fun s => .word s.regs.pc),
    ("i", fun s => .byte s.regs.i),
    ("r", fun s => .byte s.regs.r),
    ("wz", fun s => .word s.regs.wz),
    ("flags.s", flag SF),
    ("flags.z", flag ZF),
    ("flags.y", flag YF),
    ("flags.h", flag HF),
    ("flags.x", flag XF),
    ("flags.p", flag PF),
    ("flags.n", flag NF),
    ("flags.c", flag CF),
    ("iff1", fun s => .flag s.regs.iff1),
    ("iff2", fun s => .flag s.regs.iff2),
    ("im", fun s => .byte s.regs.im.toByte),
    ("int_line", fun s => .flag s.intLine),
    ("halted", fun s => .flag s.regs.halted),
    ("ticks", fun s => .count s.ticks.count)]

/-- What a path shows. -/
def query (s : Cpu) (path : String) : Option Value := observables.query s path

/-- What a path shows that begins with the name of this processor. -/
def queryBelow (s : Cpu) (name path : String) : Option Value := (below name path).bind s.query

end TandemZ80.Cpu
