import TandemZ80.Proofs.Machine.Wiring

/-!
# The register of the ports

What was ever done to the ports can be written down as a list: a row for each handler that was
attached, in the order in which they were, without those of devices that were detached since. The
ports answer as this register says, whatever has become of the devices in the meantime.

* `Devices.Called`, devices that are called one after the other, and `Ports.askAll_eq` and
  `Ports.tellAll_eq`, by which an access to a port is a sequence of calls;
* `Outlet`, what can be reached over the ports: 256 ports, and the line for interrupts;
* `Registration`, `Register`, and `Register.on`, the handlers at an outlet;
* `Wiring`, what can be done to the ports, and `Wiring.run`, the ports and the register after it;
* `Ports.Lists`, ports that have a register, and `Wiring.lists_run`;
* `Ports.Serves`, what a processor finds at its ports, and `Ports.ports_follow_register`.
-/

namespace TandemZ80

/-! ### Devices that are called in turn -/

namespace Devices

variable {δ α : Type} {call : Handler → δ → Except Fault (α × δ)} {ds : Devices δ}

/-- Whether the device of a handler is there still. -/
def alive (ds : Devices δ) (h : Handler) : Bool := (ds.get? h.device).isSome

/-- The devices of all these handlers are called in turn, each call once and on what the calls
before it have left. A fault of one call is the end. -/
inductive Called (call : Handler → δ → Except Fault (α × δ)) :
    List Handler → Devices δ → Except Fault (List α × Devices δ) → Prop
  | nil (ds : Devices δ) : Called call [] ds (.ok ([], ds))
  | answer {h : Handler} {hs : List Handler} {ds : Devices δ} {d d' : δ} {a : α}
      {r : Except Fault (List α × Devices δ)} (hd : ds.get? h.device = some d)
      (ha : call h d = .ok (a, d')) (hr : Called call hs (ds.put h.device (some d')) r) :
      Called call (h :: hs) ds ((fun r => (a :: r.1, r.2)) <$> r)
  | fault {h : Handler} {hs : List Handler} {ds : Devices δ} {d : δ} {f : Fault}
      (hd : ds.get? h.device = some d) (hf : call h d = .error f) :
      Called call (h :: hs) ds (.error f)

/-- Call every device in turn that is there. -/
def callEach (call : Handler → δ → Except Fault (α × δ)) :
    List Handler → Devices δ → Except Fault (List α × Devices δ)
  | [], ds => .ok ([], ds)
  | h :: hs, ds =>
    match ds.get? h.device with
    | none => callEach call hs ds
    | some d => do
      let (a, d) ← call h d
      (fun r => (a :: r.1, r.2)) <$> callEach call hs (ds.put h.device (some d))

/-- A call takes no device away. -/
theorem alive_put {id : DeviceId} {d : δ} (hd : ds.get? id = some d) (d' : δ) :
    (ds.put id (some d')).alive = ds.alive := by
  funext h
  by_cases hid : h.device = id
  · rw [alive, alive, hid, get?_put hd, hd]
    rfl
  · rw [alive, alive, get?_put_of_ne hid]

theorem called_callEach (call : Handler → δ → Except Fault (α × δ)) (hs : List Handler)
    (ds : Devices δ) : Called call (hs.filter ds.alive) ds (callEach call hs ds) := by
  induction hs generalizing ds with
  | nil => exact .nil ds
  | cons h hs ih =>
    unfold callEach
    cases hd : ds.get? h.device with
    | none =>
      have hgone : ds.alive h = false := by rw [alive, hd]; rfl
      rw [List.filter_cons_of_neg (by rw [hgone]; exact Bool.false_ne_true)]
      exact ih ds
    | some d =>
      have halive : ds.alive h = true := by rw [alive, hd]; rfl
      rw [List.filter_cons_of_pos halive]
      dsimp only
      cases hcall : call h d with
      | error f => exact .fault hd hcall
      | ok r =>
        obtain ⟨a, d'⟩ := r
        have hrest := ih (ds.put h.device (some d'))
        rw [alive_put hd] at hrest
        exact .answer hd hcall hrest

end Devices

namespace Ports

variable {δ : Type} [Device δ]

/-- An input by a function of a device. -/
def inputBy (port : UInt16) (h : Handler) (d : δ) : Except Fault (UInt8 × δ) :=
  Device.input d h.func port

/-- An output by a function of a device. -/
def outputBy (port : UInt16) (v : UInt8) (h : Handler) (d : δ) : Except Fault (Unit × δ) :=
  (fun d => ((), d)) <$> Device.output d h.func port v

/-- All bytes together on one bus: a line is low if one of them pulls it down. -/
def wiredAnd (vs : List UInt8) : UInt8 := vs.foldr (· &&& ·) 0xFF

theorem askAll_eq (port : UInt16) (hs : List Handler) (ds : Devices δ) :
    askAll port hs ds =
      (fun r => (wiredAnd r.1, r.2)) <$> Devices.callEach (inputBy port) hs ds := by
  induction hs generalizing ds with
  | nil => rfl
  | cons h hs ih =>
    rw [askAll, Devices.callEach, Devices.input, Devices.readBy]
    cases hd : ds.get? h.device with
    | none =>
      show askAll port hs ds >>= _ = _
      rw [ih]
      cases Devices.callEach (inputBy port) hs ds with
      | error f => rfl
      | ok r =>
        show Except.ok ((0xFF : UInt8) &&& wiredAnd r.1, r.2) = _
        rw [UInt8.and_comm, show (0xFF : UInt8) = -1 from rfl, UInt8.and_neg_one]
        rfl
    | some d =>
      dsimp only [inputBy]
      cases Device.input d h.func port with
      | error f => rfl
      | ok r =>
        show askAll port hs _ >>= _ = _
        rw [ih]
        show _ = (fun c : List UInt8 × Devices δ => (wiredAnd c.1, c.2)) <$>
          (_ <$> Devices.callEach (inputBy port) hs _)
        cases Devices.callEach (inputBy port) hs (ds.put h.device (some r.2)) <;> rfl

theorem tellAll_eq (port : UInt16) (v : UInt8) (hs : List Handler) (ds : Devices δ) :
    tellAll port v hs ds = Prod.snd <$> Devices.callEach (outputBy port v) hs ds := by
  induction hs generalizing ds with
  | nil => rfl
  | cons h hs ih =>
    rw [tellAll, Devices.callEach, Devices.output, Devices.writeBy]
    cases hd : ds.get? h.device with
    | none => exact ih ds
    | some d =>
      dsimp only [outputBy]
      cases Device.output d h.func port v with
      | error f => rfl
      | ok d' =>
        show tellAll port v hs _ = Prod.snd <$> (_ <$> Devices.callEach (outputBy port v) hs _)
        rw [ih]
        cases Devices.callEach (outputBy port v) hs (ds.put h.device (some d')) <;> rfl

end Ports

/-! ### The register -/

/-- What can be reached over the ports. -/
inductive Outlet
  | port (n : UInt8)
  /-- The line for interrupt acknowledge cycles. -/
  | acknowledge
  deriving DecidableEq

namespace Outlet

/-- The outlet that a port number leads to. -/
def of (port : UInt16) : Outlet :=
  if port = Ports.acknowledgePort then .acknowledge else .port port.toUInt8

/-- The number by which an outlet is wired. -/
def number : Outlet → UInt16
  | port n => n.toUInt16
  | acknowledge => Ports.acknowledgePort

theorem of_number (o : Outlet) : of o.number = o := by
  cases o with
  | port n =>
    have hne : n.toUInt16 ≠ Ports.acknowledgePort := by
      intro h
      have hnat := congrArg UInt16.toNat h
      have hlt := n.toNat_lt
      rw [UInt8.toNat_toUInt16, Ports.acknowledgePort] at hnat
      simp at hnat
      omega
    rw [number, of, if_neg hne, UInt8.toUInt8_toUInt16]
  | acknowledge => rfl

/-- Two numbers lead to one outlet if the low bytes are equal, and both or neither are that of the
line for interrupts. -/
theorem lineOf_eq_iff (a b : UInt16) : Ports.lineOf a = Ports.lineOf b ↔ of a = of b := by
  unfold Ports.lineOf of
  have hport : ∀ n : UInt16, (256 : Fin 257) ≠ ⟨n.toNat % 256, by omega⟩ := by
    intro n h
    have hval : 256 = n.toNat % 256 := congrArg Fin.val h
    omega
  split_ifs with ha hb hb
  · simp
  · simp [hport]
  · simp [(hport a).symm]
  · rw [Fin.mk.injEq, port.injEq, ← UInt8.toNat_inj]
    simp

/-- A port address of a processor leads to one of the 256 ports. -/
theorem number_port (a : UInt16) : (Outlet.port a.toUInt8).number = Backplane.portOf a := by
  rw [number, Backplane.portOf, ← UInt16.toNat_inj]
  simp
  omega

end Outlet

/-- A handler, with the place where it is attached. -/
structure Registration where
  outlet : Outlet
  direction : Direction
  handler : Handler
  deriving DecidableEq

/-- A row of the wiring of a device. -/
def Registration.ofRow (device : DeviceId) (c : Connector) : Registration :=
  ⟨.of c.port, c.direction, ⟨device, c.func⟩⟩

/-- All handlers that are attached somewhere, in the order in which they were. -/
abbrev Register : Type := List Registration

namespace Register

/-- The handlers at an outlet, in their order. -/
def on (r : Register) (o : Outlet) (direction : Direction) : List Handler :=
  (r.filter fun e => e.outlet = o ∧ e.direction = direction).map Registration.handler

/-- The register without a device. -/
def without (r : Register) (device : DeviceId) : Register :=
  r.filter fun e => e.handler.device ≠ device

theorem on_append (r r' : Register) (o : Outlet) (direction : Direction) :
    (r ++ r').on o direction = r.on o direction ++ r'.on o direction := by
  simp [on]

theorem on_singleton (e : Registration) (o : Outlet) (direction : Direction) :
    on [e] o direction = if e.outlet = o ∧ e.direction = direction then [e.handler] else [] := by
  unfold on
  split_ifs with h <;> simp [h]

theorem on_without (r : Register) (device : DeviceId) (o : Outlet) (direction : Direction) :
    (r.without device).on o direction =
      (r.on o direction).filter fun h => h.device ≠ device := by
  simp only [on, without, List.filter_filter, List.filter_map]
  congr 2
  funext e
  exact Bool.and_comm _ _

end Register

/-- What can be done to the ports. The arena is the one of that moment. -/
inductive Wiring (δ : Type)
  | connect (ds : Devices δ) (device : DeviceId) (rows : List Connector)
  | attach (direction : Direction) (port : UInt16) (device : DeviceId) (func : ℕ)
  | disconnect (device : DeviceId)
  | setShared (port : UInt16) (shared : Bool)

namespace Wiring

variable {δ : Type}

/-- Do it, and say whether it was accepted. -/
def perform [Device δ] : Wiring δ → Ports → Bool × Ports
  | connect ds device rows, p => p.connect ds device rows
  | attach direction port device func, p => (true, p.attach direction port device func)
  | disconnect device, p => (true, p.disconnect device)
  | setShared port shared, p => (true, p.setShared port shared)

/-- Write down what was accepted. -/
def record (r : Register) : Wiring δ → Register
  | connect _ device rows => r ++ rows.map (.ofRow device)
  | attach direction port device func => r ++ [⟨.of port, direction, ⟨device, func⟩⟩]
  | disconnect device => r.without device
  | setShared .. => r

/-- The ports and their register after one more thing was done. -/
def next [Device δ] (s : Ports × Register) (op : Wiring δ) : Ports × Register :=
  match op.perform s.1 with
  | (true, p) => (p, op.record s.2)
  | (false, p) => (p, s.2)

/-- The ports and their register after all that was done from the beginning. -/
def run [Device δ] (ops : List (Wiring δ)) : Ports × Register := ops.foldl next (.empty, [])

end Wiring

namespace Ports

variable {δ : Type} {p p' : Ports} {r : Register} {device : DeviceId}

/-- At every outlet there are the handlers that the register lists for it, in its order. -/
def Lists (p : Ports) (r : Register) : Prop :=
  ∀ o direction, (p.line o.number).handlers direction = r.on o direction

theorem line_modify_number (p : Ports) (port : UInt16) (f : Line → Line) (o : Outlet) :
    (p.modify port f).line o.number =
      if Outlet.of port = o then f (p.line o.number) else p.line o.number := by
  have hiff := Outlet.lineOf_eq_iff port o.number
  rw [Outlet.of_number] at hiff
  rw [line_modify]
  by_cases ho : Outlet.of port = o
  · have hline : p.line port = p.line o.number :=
      congrArg (fun i : Fin 257 => p.lines[i]) (hiff.2 ho)
    rw [if_pos (hiff.2 ho), if_pos ho, hline]
  · rw [if_neg ho, if_neg fun h => ho (hiff.1 h)]

theorem handlers_attach (l : Line) (h : Handler) (direction other : Direction) :
    (l.attach h direction).handlers other =
      l.handlers other ++ if direction = other then [h] else [] := by
  cases direction <;> cases other <;> simp [Line.attach, Line.handlers]

theorem handlers_detach (l : Line) (device : DeviceId) (direction : Direction) :
    (l.detach device).handlers direction =
      (l.handlers direction).filter fun h => h.device ≠ device := by
  cases direction <;> rfl

theorem line_disconnect (p : Ports) (device : DeviceId) (port : UInt16) :
    (p.disconnect device).line port = (p.line port).detach device := by
  simp [disconnect, line]

theorem lists_empty : empty.Lists [] := by
  intro o direction
  rw [line_empty]
  cases direction <;> rfl

theorem Lists.attach (h : p.Lists r) (direction : Direction) (port : UInt16) (device : DeviceId)
    (func : ℕ) :
    (p.attach direction port device func).Lists
      (r ++ [⟨.of port, direction, ⟨device, func⟩⟩]) := by
  intro o other
  rw [Ports.attach, line_modify_number, Register.on_append, Register.on_singleton, ← h o other]
  by_cases ho : Outlet.of port = o
  · simp [ho, handlers_attach]
  · simp [ho]

theorem Lists.setShared (h : p.Lists r) (port : UInt16) (shared : Bool) :
    (p.setShared port shared).Lists r := by
  intro o direction
  rw [← h o direction, Ports.setShared, line_modify_number]
  split_ifs
  · cases direction <;> rfl
  · rfl

theorem Lists.wire (h : p.Lists r) (device : DeviceId) (c : Connector) :
    (Ports.wire device p c).Lists (r ++ [.ofRow device c]) := by
  have hattach := h.attach c.direction c.port device c.func
  unfold Ports.wire
  dsimp only
  split_ifs
  · exact hattach.setShared c.port true
  · exact hattach

theorem Lists.foldl_wire (h : p.Lists r) (device : DeviceId) (rows : List Connector) :
    (rows.foldl (Ports.wire device) p).Lists (r ++ rows.map (.ofRow device)) := by
  induction rows generalizing p r with
  | nil => simpa using h
  | cons c rows ih => simpa using ih (h.wire device c)

theorem Lists.disconnect (h : p.Lists r) (device : DeviceId) :
    (p.disconnect device).Lists (r.without device) := by
  intro o direction
  rw [line_disconnect, handlers_detach, Register.on_without, h o direction]

variable [Device δ]

/-- A device is wired as a whole, or not at all. -/
theorem connect_cases (p : Ports) (ds : Devices δ) (device : DeviceId) (rows : List Connector) :
    p.connect ds device rows = (false, p) ∨
      p.connect ds device rows = (true, rows.foldl (wire device) p) := by
  unfold connect
  cases ds.descriptor? device with
  | none => exact .inl rfl
  | some d =>
    dsimp only
    split_ifs
    · exact .inr rfl
    · exact .inl rfl

/-- What is accepted is in the register, and what is not has changed nothing. -/
theorem Lists.next (h : p.Lists r) (op : Wiring δ) :
    (Wiring.next (p, r) op).1.Lists (Wiring.next (p, r) op).2 := by
  cases op with
  | connect ds device rows =>
    rcases p.connect_cases ds device rows with hconnect | hconnect
    · simpa [Wiring.next, Wiring.perform, hconnect] using h
    · simpa [Wiring.next, Wiring.perform, Wiring.record, hconnect] using h.foldl_wire device rows
  | attach direction port device func => exact h.attach direction port device func
  | disconnect device => exact h.disconnect device
  | setShared port shared => exact h.setShared port shared

end Ports

theorem Wiring.lists_run {δ : Type} [Device δ] (ops : List (Wiring δ)) :
    (run ops).1.Lists (run ops).2 := by
  suffices h : ∀ s : Ports × Register, s.1.Lists s.2 →
      (ops.foldl next s).1.Lists (ops.foldl next s).2 from h _ Ports.lists_empty
  induction ops with
  | nil => exact fun s hs => hs
  | cons op ops ih => exact fun s hs => ih _ (hs.next op)

/-! ### What a processor finds -/

theorem Backplane.reading_eq_ofExcept {δ α : Type}
    (access : Devices δ → Except Fault (α × Devices δ)) (memory : MemoryMap) (p : Ports)
    (ds : Devices δ) :
    reading access ⟨memory, p, ds⟩ =
      .ofExcept ((fun c => (c.1, ⟨memory, p, c.2⟩)) <$> access ds) := by
  unfold reading
  dsimp only
  cases access ds <;> rfl

namespace Ports

variable {δ : Type} [Device δ] {p : Ports} {r : Register}

/-- What a processor finds at its ports: for each access the handlers that the register lists at the
port are called in turn, each once, as far as their devices are there. -/
structure Serves (δ : Type) [Device δ] (p : Ports) (r : Register) : Prop where
  input : ∀ (memory : MemoryMap) (ds : Devices δ) (a : UInt16), ∃ calls,
    ds.Called (inputBy (Backplane.portOf a))
      ((r.on (.port a.toUInt8) .input).filter ds.alive) calls ∧
      Backplane.serve (.input a) ⟨memory, p, ds⟩ =
        .ofExcept ((fun c => (wiredAnd c.1, ⟨memory, p, c.2⟩)) <$> calls)
  output : ∀ (memory : MemoryMap) (ds : Devices δ) (a : UInt16) (v : UInt8), ∃ calls,
    ds.Called (outputBy (Backplane.portOf a) v) ((r.on (.port a.toUInt8) .output).filter ds.alive)
        calls ∧
      Backplane.serve (.output a v) ⟨memory, p, ds⟩ =
        .ofExcept ((fun c => ((), ⟨memory, p, c.2⟩)) <$> calls)
  acknowledge : ∀ (memory : MemoryMap) (ds : Devices δ), ∃ calls,
    ds.Called (inputBy acknowledgePort) ((r.on .acknowledge .input).filter ds.alive) calls ∧
      Backplane.serve .acknowledge ⟨memory, p, ds⟩ =
        .ofExcept ((fun c => (wiredAnd c.1, ⟨memory, p, c.2⟩)) <$> calls)
  /-- What is attached to the line for interrupts is seen there only. -/
  unseen : ∀ q : Bus.Call, q ≠ .acknowledge →
    ∀ (memory : MemoryMap) (ds : Devices δ) (p' : Ports),
      (∀ n : UInt8, p'.line n.toUInt16 = p.line n.toUInt16) →
        Backplane.serve q ⟨memory, p', ds⟩ =
          Backplane.serve q ⟨memory, p, ds⟩ >>= fun x => .done (x.1, { x.2 with ports := p' })

theorem Lists.inputs (h : p.Lists r) (a : UInt16) :
    (p.line (Backplane.portOf a)).inputs = r.on (.port a.toUInt8) .input := by
  rw [← Outlet.number_port, ← h]
  rfl

theorem Lists.outputs (h : p.Lists r) (a : UInt16) :
    (p.line (Backplane.portOf a)).outputs = r.on (.port a.toUInt8) .output := by
  rw [← Outlet.number_port, ← h]
  rfl

/-- No access of a processor but the one for interrupts depends on the line for interrupts. -/
theorem serve_elsewhere {q : Bus.Call} (hq : q ≠ .acknowledge) (memory : MemoryMap)
    (ds : Devices δ) {p p' : Ports} (hp : ∀ n : UInt8, p'.line n.toUInt16 = p.line n.toUInt16) :
    Backplane.serve q ⟨memory, p', ds⟩ =
      Backplane.serve q ⟨memory, p, ds⟩ >>= fun x => .done (x.1, { x.2 with ports := p' }) := by
  have hline : ∀ a, p'.line (Backplane.portOf a) = p.line (Backplane.portOf a) := by
    intro a
    rw [← Outlet.number_port]
    exact hp _
  have hreading : ∀ {α : Type} (access : Devices δ → Except Fault (α × Devices δ)),
      Backplane.reading access ⟨memory, p', ds⟩ =
        Backplane.reading access ⟨memory, p, ds⟩ >>= fun x =>
          .done (x.1, { x.2 with ports := p' }) := by
    intro α access
    rw [Backplane.reading_eq_ofExcept, Backplane.reading_eq_ofExcept]
    cases access ds <;> rfl
  cases q with
  | read a => exact hreading _
  | write a v =>
    unfold Backplane.serve
    dsimp only
    cases memory.write a v ds <;> rfl
  | input a =>
    have hinput :
        (p'.input (Backplane.portOf a) : Devices δ → _) = p.input (Backplane.portOf a) := by
      funext ds
      rw [Ports.input, Ports.input, hline]
    show Backplane.reading (p'.input (Backplane.portOf a)) ⟨memory, p', ds⟩ = _
    rw [hinput]
    exact hreading _
  | output a v =>
    unfold Backplane.serve
    simp only [Ports.output, hline]
    exact hreading _
  | acknowledge => exact absurd rfl hq
  | isShared a =>
    unfold Backplane.serve
    simp only [Ports.isShared, hline]
    rfl
  | window a => rfl
  | readWindow w a => rfl
  | sync elapsed => rfl
  | stop clocks => rfl

theorem Lists.serves (h : p.Lists r) : p.Serves δ r where
  input memory ds a := by
    refine ⟨_, Devices.called_callEach _ _ ds, ?_⟩
    rw [Backplane.serve, Backplane.reading_eq_ofExcept, Ports.input, h.inputs, askAll_eq]
    cases Devices.callEach (inputBy (Backplane.portOf a)) (r.on (.port a.toUInt8) .input) ds <;> rfl
  output memory ds a v := by
    refine ⟨_, Devices.called_callEach _ _ ds, ?_⟩
    rw [Backplane.serve, Backplane.reading_eq_ofExcept, Ports.output, h.outputs, tellAll_eq]
    cases Devices.callEach (outputBy (Backplane.portOf a) v) (r.on (.port a.toUInt8) .output) ds <;>
      rfl
  acknowledge memory ds := by
    refine ⟨_, Devices.called_callEach _ _ ds, ?_⟩
    have hline : (p.line acknowledgePort).inputs = r.on .acknowledge .input := h .acknowledge .input
    rw [Backplane.serve, Backplane.reading_eq_ofExcept, Ports.acknowledge, Ports.input, hline,
      askAll_eq]
    cases Devices.callEach (inputBy acknowledgePort) (r.on .acknowledge .input) ds <;> rfl
  unseen q hq memory ds p' hp := serve_elsewhere hq memory ds hp

/-- After anything that was done to the ports, a processor finds there what the register says. A
device that is connected next is wired with all its rows behind the others, or changes nothing; one
that is disconnected leaves the others in their order. -/
theorem ports_follow_register (ops : List (Wiring δ)) :
    (Wiring.run ops).1.Serves δ (Wiring.run ops).2 ∧
      (∀ (ds : Devices δ) (device : DeviceId) (rows : List Connector),
        match (Wiring.run ops).1.connect ds device rows with
        | (false, p) => p = (Wiring.run ops).1
        | (true, p) => p.Lists ((Wiring.run ops).2 ++ rows.map (.ofRow device))) ∧
      ∀ device : DeviceId,
        ((Wiring.run ops).1.disconnect device).Lists ((Wiring.run ops).2.without device) := by
  have hlists := Wiring.lists_run ops
  refine ⟨hlists.serves, fun ds device rows => ?_, fun device => hlists.disconnect device⟩
  rcases (Wiring.run ops).1.connect_cases ds device rows with hconnect | hconnect
  · rw [hconnect]
  · rw [hconnect]
    exact hlists.foldl_wire device rows

end Ports
end TandemZ80
