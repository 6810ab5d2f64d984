import TandemZ80.Cpu.Basic

/-!
# Parts of an instruction

An instruction works on the processor and talks to the bus. It may also find a shared port
*refused*: the partner is behind, and the whole step has to be tried again later.

* `Exec α`, a part of an instruction; its sequencing stops at a refusal;
* opcode and operand fetches, through the window where that is possible;
* words in memory and on the stack;
* `rendezvous`, which has to come before any access to a port.
-/

namespace TandemZ80

/-- A part of an instruction: it ends with a result, or with none if a port was refused. -/
def Exec (α : Type) : Type := Cpu → Bus.Program (Option α × Cpu)

namespace Exec

variable {α β γ : Type}

/-- Go on with a result; a refusal ends the instruction. -/
def andThen (f : α → Exec β) : Option α × Cpu → Bus.Program (Option β × Cpu)
  | (some a, s) => f a s
  | (none, s) => .done (none, s)

instance : Monad Exec where
  pure a := fun s => .done (some a, s)
  bind m f := fun s => m s >>= andThen f

@[simp] theorem pure_apply (a : α) (s : Cpu) : (pure a : Exec α) s = .done (some a, s) := rfl

theorem bind_apply (m : Exec α) (f : α → Exec β) (s : Cpu) : (m >>= f) s = m s >>= andThen f := rfl

@[simp] theorem andThen_some (f : α → Exec β) (a : α) (s : Cpu) :
    andThen f (some a, s) = f a s := rfl

theorem bind_pure_exec (m : Exec α) : (m >>= pure) = m := by
  funext s
  have h : andThen (pure : α → Exec α) = Dialogue.done := by
    funext p
    rcases p with ⟨_ | a, s⟩ <;> rfl
  rw [bind_apply, h]
  exact Dialogue.bind_done _

theorem bind_assoc_exec (m : Exec α) (f : α → Exec β) (g : β → Exec γ) :
    (m >>= f >>= g) = m >>= fun a => f a >>= g := by
  funext s
  simp only [bind_apply, Dialogue.bind_assoc]
  congr 1
  funext p
  rcases p with ⟨_ | a, s⟩ <;> rfl

instance : LawfulMonad Exec :=
  LawfulMonad.mk' _ bind_pure_exec (fun _ _ => rfl) bind_assoc_exec

/-! ### Building blocks -/

/-- The processor as it stands. -/
def state : Exec Cpu := fun s => .done (some s, s)

/-- The registers as they stand. -/
def regs : Exec Registers := fun s => .done (some s.regs, s)

/-- Change the processor. -/
def modify (f : Cpu → Cpu) : Exec Unit := fun s => .done (some (), f s)

/-- Change the registers. -/
def update (f : Registers → Registers) : Exec Unit := modify fun s => { s with regs := f s.regs }

/-- Call the bus. -/
def call (q : Bus.Call) : Exec (Bus.Reply q) := fun s => .ask q fun x => .done (some x, s)

/-- Give up: a port was refused. -/
def refuse : Exec α := fun s => .done (none, s)

/-- Stop on a fault. -/
def fault (f : Fault) : Exec α := fun _ => .fail f

/-- Read a byte from memory. -/
def read (a : UInt16) : Exec UInt8 := call (.read a)

/-- Write a byte to memory. -/
def write (a : UInt16) (v : UInt8) : Exec Unit := call (.write a v)

/-! ### Fetching -/

/-- The byte at `a` by way of the bus, which may issue a new window on the occasion. -/
def lookUp (a : UInt16) : Exec UInt8 := do
  let w ← call (.window a)
  modify fun s => { s with window := w }
  read a

/-- The byte at `a`, through the window if it covers `a` and is not stale. -/
def fetchAt (a : UInt16) : Exec UInt8 := do
  match (← state).window with
  | none => lookUp a
  | some w =>
    if w.contains a then
      match ← call (.readWindow w a) with
      | some v => return v
      | none => lookUp a
    else lookUp a

/-- The byte at PC, which stays. -/
def peekOpcode : Exec UInt8 := do fetchAt (← regs).pc

/-- The operand byte at PC, which moves on. -/
def fetchByte : Exec UInt8 := do
  let a := (← regs).pc
  let v ← fetchAt a
  update fun r => { r with pc := a + 1 }
  return v

/-- The opcode at PC, which moves on; R counts the fetch. -/
def fetchOpcode : Exec UInt8 := do
  update Registers.refresh
  fetchByte

/-- The operand word at PC, low byte first. -/
def fetchWord : Exec UInt16 := do
  let lo ← fetchByte
  let hi ← fetchByte
  return word hi lo

/-! ### Words in memory -/

/-- The word at `a`, low byte first. -/
def readWord (a : UInt16) : Exec UInt16 := do
  let lo ← read a
  let hi ← read (a + 1)
  return word hi lo

/-- Store a word, low byte first. -/
def writeWord (a v : UInt16) : Exec Unit := do
  write a (low v)
  write (a + 1) (high v)

/-- Put a word on the stack. The high byte is written first. -/
def push (v : UInt16) : Exec Unit := do
  update fun r => { r with sp := r.sp - 1 }
  write (← regs).sp (high v)
  update fun r => { r with sp := r.sp - 1 }
  write (← regs).sp (low v)

/-- Take a word from the stack. -/
def pop : Exec UInt16 := do
  let v ← readWord (← regs).sp
  update fun r => { r with sp := r.sp + 2 }
  return v

/-- Go on at `a`, which the address latch takes over. -/
def jump (a : UInt16) : Exec Unit := update fun r => { r with pc := a, wz := a }

/-- Go on at an address that is `d` bytes away. -/
def jumpBy (d : UInt8) : Exec Unit := do jump (displace (← regs).pc d)

/-! ### Shared ports -/

/-- Ask for a port, `elapsed` T-states into the step. A port that is not shared is free; for a
shared port the partner may have to catch up first. -/
def rendezvous (elapsed : Nat) (port : UInt16) : Exec Unit := do
  if ← call (.isShared port) then
    if elapsed < UInt32.size then
      if ← call (.sync elapsed) then return ()
      refuse
    else fault .overflow

end Exec
end TandemZ80
