import TandemZ80.Bench.Recorder
import TandemZ80.Proofs.Ports.Register

/-!
# Devices that leave

A device can be detached from the ports, or taken out of the arena while handlers at the ports and
pages of memory still name it. To everybody else both are the same: a handler whose device is gone
is passed over, and its name is never given again.

* `Devices.Event`, what can happen to an arena, and `Devices.callEach_remove`;
* `Ports.Request` and `Ports.serveAll`, accesses with events between them, and
  `Ports.serveAll_remove`;
* `Devices.Inert` and `Ports.removed_inert`, what is left of a device that was taken out;
* `Wiring.lastMark` and `Ports.isShared_run`, whether a port without handlers is a shared one;
* `Ports.disconnect_elsewhere`, what detaching does at ports where the device has no handler.
-/

namespace TandemZ80

namespace Devices

variable {δ : Type} {ds : Devices δ} {d id : DeviceId}

/-! ### An arena without a device -/

/-- The name was given to a device of this arena, which may be gone. -/
def Issued (ds : Devices δ) (d : DeviceId) : Prop := d.index < ds.slots.size

instance (ds : Devices δ) (d : DeviceId) : Decidable (ds.Issued d) :=
  inferInstanceAs (Decidable (_ < _))

theorem Issued.put (hd : ds.Issued d) (id : DeviceId) (x : Option δ) : (ds.put id x).Issued d :=
  hd.trans_eq (size_put ds id x).symm

/-- A device that is added gets a name of its own. -/
theorem Issued.ne_add (hd : ds.Issued d) (x : δ) : (ds.add x).1 ≠ d := by
  rintro rfl
  exact lt_irrefl _ hd

theorem remove_put_self (ds : Devices δ) (d : DeviceId) (x : Option δ) :
    ((ds.put d x).remove d).2 = (ds.remove d).2 :=
  congrArg Devices.mk (Array.setIfInBounds_setIfInBounds x)

theorem remove_put_of_ne (h : id ≠ d) (x : Option δ) :
    ((ds.put id x).remove d).2 = (ds.remove d).2.put id x :=
  congrArg Devices.mk (Array.setIfInBounds_comm x none (DeviceId.index_ne h))

theorem remove_add (hd : ds.Issued d) (x : δ) :
    ((ds.add x).2.remove d).2 = ((ds.remove d).2.add x).2 := by
  refine congrArg Devices.mk (Array.ext_getElem? fun i => ?_)
  unfold Issued at hd
  simp only [add, remove, put, Array.getElem?_setIfInBounds, Array.getElem?_push, Array.size_push,
    Array.size_setIfInBounds]
  split_ifs <;> first | rfl | omega

/-- What can happen to an arena between two accesses. -/
inductive Event (δ : Type)
  | add (x : δ)
  | remove (id : DeviceId)
  /-- The owner of a device does something to it. -/
  | change (id : DeviceId) (f : δ → δ)
  | reset

/-- Let it happen. -/
def Event.perform [Device δ] : Event δ → Devices δ → Devices δ
  | add x, ds => (ds.add x).2
  | remove id, ds => (ds.remove id).2
  | change id f, ds => ds.put id ((ds.get? id).map f)
  | reset, ds => ds.resetAll

section Events

variable [Device δ]

theorem Issued.perform (hd : ds.Issued d) (e : Event δ) : (e.perform ds).Issued d := by
  cases e with
  | add x =>
    have hsize : (ds.slots.push (some x)).size = ds.slots.size + 1 := Array.size_push _
    exact (Nat.lt_succ_of_lt hd).trans_eq hsize.symm
  | remove id => exact hd.put id none
  | change id f => exact hd.put id _
  | reset => exact hd.trans_eq Array.size_map.symm

/-- It makes no difference whether a device is taken out before or after. -/
theorem Event.perform_remove (hd : ds.Issued d) (e : Event δ) :
    e.perform (ds.remove d).2 = ((e.perform ds).remove d).2 := by
  cases e with
  | add x => exact (remove_add hd x).symm
  | remove id =>
    by_cases h : id = d
    · rw [h]
      rfl
    · exact (remove_put_of_ne h none).symm
  | change id f =>
    by_cases h : id = d
    · rw [h, perform, perform, get?_remove_self, remove_put_self]
      exact remove_put_self ds d none
    · rw [perform, perform, get?_remove_of_ne _ h, remove_put_of_ne h]
  | reset => exact congrArg Devices.mk Array.map_setIfInBounds

end Events

/-! ### Calls past a device that is gone -/

variable {α : Type}

theorem Issued.callEach {call : Handler → δ → Except Fault (α × δ)} {hs : List Handler}
    {as : List α} {after : Devices δ} (hd : ds.Issued d)
    (h : callEach call hs ds = .ok (as, after)) : after.Issued d := by
  induction hs generalizing ds as with
  | nil =>
    cases h
    exact hd
  | cons _ hs ih =>
    unfold Devices.callEach at h
    split at h
    · exact ih hd h
    · obtain ⟨⟨a, x'⟩, -, hrest⟩ := Fault.bind_eq_ok h
      obtain ⟨⟨as', after'⟩, hafter, ⟨⟩⟩ := Fault.map_eq_ok hrest
      exact ih (hd.put _ _) hafter

/-- A device that is gone is not called, and the calls of the others are the same as without its
handlers. -/
theorem callEach_remove (call : Handler → δ → Except Fault (α × δ)) (hs : List Handler)
    (ds : Devices δ) (d : DeviceId) :
    callEach call hs (ds.remove d).2 =
      (fun r => (r.1, (r.2.remove d).2)) <$>
        callEach call (hs.filter fun h => h.device ≠ d) ds := by
  induction hs generalizing ds with
  | nil => rfl
  | cons h hs ih =>
    by_cases hd : h.device = d
    · rw [List.filter_cons_of_neg (by simpa using hd), ← ih, callEach, hd, get?_remove_self]
    · rw [List.filter_cons_of_pos (by simpa using hd), callEach, callEach, get?_remove_of_ne _ hd]
      cases ds.get? h.device with
      | none => exact ih ds
      | some x =>
        dsimp only
        cases call h x with
        | error f => rfl
        | ok r =>
          show
            (_ <$> callEach call hs ((ds.remove d).2.put h.device (some r.2)) : Except Fault _) = _
          rw [← remove_put_of_ne hd, ih]
          show _ = _ <$> (_ <$> callEach call (hs.filter fun h => h.device ≠ d)
            (ds.put h.device (some r.2)) : Except Fault _)
          rw [Functor.map_map, Functor.map_map]

end Devices

namespace Ports

variable {δ : Type} [Device δ] {ds : Devices δ} {d : DeviceId}

theorem input_remove (p : Ports) (port : UInt16) (ds : Devices δ) (d : DeviceId) :
    p.input port (ds.remove d).2 =
      (fun r => (r.1, (r.2.remove d).2)) <$> (p.disconnect d).input port ds := by
  rw [input, input, line_disconnect, askAll_eq, askAll_eq, Devices.callEach_remove, Functor.map_map,
    Functor.map_map]
  rfl

theorem output_remove (p : Ports) (port : UInt16) (v : UInt8) (ds : Devices δ) (d : DeviceId) :
    p.output port v (ds.remove d).2 =
      (fun ds => (ds.remove d).2) <$> (p.disconnect d).output port v ds := by
  rw [output, output, line_disconnect, tellAll_eq, tellAll_eq, Devices.callEach_remove,
    Functor.map_map, Functor.map_map]
  rfl

/-! ### Accesses to the ports -/

/-- What can be asked of the ports, and what can happen to the devices in between. -/
inductive Request (δ : Type)
  | input (port : UInt16)
  | output (port : UInt16) (v : UInt8)
  | acknowledge
  | meanwhile (e : Devices.Event δ)

/-- The bytes that are read, and the devices afterwards. -/
def serve (p : Ports) : Request δ → Devices δ → Except Fault (List UInt8 × Devices δ)
  | .input port, ds => (fun r => ([r.1], r.2)) <$> p.input port ds
  | .output port v, ds => (fun ds => ([], ds)) <$> p.output port v ds
  | .acknowledge, ds => (fun r => ([r.1], r.2)) <$> p.acknowledge ds
  | .meanwhile e, ds => .ok ([], e.perform ds)

/-- One request after the other, with all bytes that are read. -/
def serveAll (p : Ports) : List (Request δ) → Devices δ → Except Fault (List UInt8 × Devices δ)
  | [], ds => .ok ([], ds)
  | q :: qs, ds => do
    let (bytes, ds) ← p.serve q ds
    (fun r => (bytes ++ r.1, r.2)) <$> p.serveAll qs ds

theorem issued_input {p : Ports} {port : UInt16} {v : UInt8} {after : Devices δ} (hd : ds.Issued d)
    (h : p.input port ds = .ok (v, after)) : after.Issued d := by
  rw [input, askAll_eq] at h
  obtain ⟨⟨vs, after'⟩, hafter, ⟨⟩⟩ := Fault.map_eq_ok h
  exact hd.callEach hafter

theorem issued_output {p : Ports} {port : UInt16} {v : UInt8} {after : Devices δ} (hd : ds.Issued d)
    (h : p.output port v ds = .ok after) : after.Issued d := by
  rw [output, tellAll_eq] at h
  obtain ⟨⟨us, after'⟩, hafter, ⟨⟩⟩ := Fault.map_eq_ok h
  exact hd.callEach hafter

theorem issued_serve {p : Ports} {q : Request δ} {bytes : List UInt8} {after : Devices δ}
    (hd : ds.Issued d) (h : p.serve q ds = .ok (bytes, after)) : after.Issued d := by
  cases q with
  | input port =>
    obtain ⟨⟨v, after'⟩, hafter, ⟨⟩⟩ := Fault.map_eq_ok h
    exact issued_input hd hafter
  | output port v =>
    obtain ⟨after', hafter, ⟨⟩⟩ := Fault.map_eq_ok h
    exact issued_output hd hafter
  | acknowledge =>
    obtain ⟨⟨v, after'⟩, hafter, ⟨⟩⟩ := Fault.map_eq_ok h
    exact issued_input hd hafter
  | meanwhile e =>
    cases h
    exact hd.perform e

/-- No name is taken back. -/
theorem issued_serveAll {p : Ports} {qs : List (Request δ)} {bytes : List UInt8} {after : Devices δ}
    (hd : ds.Issued d) (h : p.serveAll qs ds = .ok (bytes, after)) : after.Issued d := by
  induction qs generalizing ds bytes with
  | nil =>
    cases h
    exact hd
  | cons q qs ih =>
    obtain ⟨⟨bytes₁, ds₁⟩, hfirst, hrest⟩ := Fault.bind_eq_ok h
    obtain ⟨⟨bytes₂, ds₂⟩, hsecond, ⟨⟩⟩ := Fault.map_eq_ok hrest
    exact ih (issued_serve hd hfirst) hsecond

theorem serve_remove (p : Ports) (q : Request δ) (hd : ds.Issued d) :
    p.serve q (ds.remove d).2 =
      (fun r => (r.1, (r.2.remove d).2)) <$> (p.disconnect d).serve q ds := by
  cases q with
  | input port =>
    rw [serve, serve, input_remove, Functor.map_map, Functor.map_map]
  | output port v =>
    rw [serve, serve, output_remove, Functor.map_map, Functor.map_map]
  | acknowledge =>
    rw [serve, serve, acknowledge, acknowledge, input_remove, Functor.map_map, Functor.map_map]
  | meanwhile e =>
    rw [serve, serve, Devices.Event.perform_remove hd]
    rfl

/-- Accesses to ports with handlers of a device that is gone are those to ports from which the
device was detached, and leave the arena they leave there, without the device. -/
theorem serveAll_remove (p : Ports) (qs : List (Request δ)) (hd : ds.Issued d) :
    p.serveAll qs (ds.remove d).2 =
      (fun r => (r.1, (r.2.remove d).2)) <$> (p.disconnect d).serveAll qs ds := by
  induction qs generalizing ds with
  | nil => rfl
  | cons q qs ih =>
    rw [serveAll, serveAll, serve_remove p q hd]
    cases hq : (p.disconnect d).serve q ds with
    | error f => rfl
    | ok r =>
      show (_ <$> p.serveAll qs (r.2.remove d).2 : Except Fault _) = _
      rw [ih (issued_serve hd hq)]
      show _ = _ <$> (_ <$> (p.disconnect d).serveAll qs r.2 : Except Fault _)
      rw [Functor.map_map, Functor.map_map]

end Ports

/-- A device that is gone for good: nobody answers for it, and its name is not given again. -/
structure Devices.Inert {δ : Type} [Device δ] (ds : Devices δ) (d : DeviceId) : Prop where
  gone : ds.get? d = none
  read : ∀ (m : MemoryMap) (a : UInt16), m.page a .read = .routed d → m.read a ds = .ok (0xFF, ds)
  write : ∀ (m : MemoryMap) (a : UInt16) (v : UInt8), m.page a .write = .routed d →
    m.write a v ds = .ok (m, ds)
  unnamed : ∀ x : δ, (ds.add x).1 ≠ d

theorem Devices.Issued.inert {δ : Type} [Device δ] {ds : Devices δ} {d : DeviceId}
    (hd : ds.Issued d) (hgone : ds.get? d = none) : ds.Inert d where
  gone := hgone
  read m a ha := by
    rw [MemoryMap.read, ha]
    show Devices.readBy _ d ds = _
    rw [readBy, hgone]
  write m a v ha := by
    rw [MemoryMap.write, ha]
    show (Devices.writeBy _ d ds >>= _) = _
    rw [writeBy, hgone]
    rfl
  unnamed := hd.ne_add

namespace Ports

variable {δ : Type} [Device δ] {ds : Devices δ} {d : DeviceId}

/-- A device that was taken out is inert. Whatever is asked of the ports from then on, and whatever
else happens to the arena, the bytes that are read and the other devices are as if the device had
been detached from the ports instead. -/
theorem removed_inert (p : Ports) (hd : ds.Issued d) (qs : List (Request δ)) :
    Prod.fst <$> p.serveAll qs (ds.remove d).2 = Prod.fst <$> (p.disconnect d).serveAll qs ds ∧
      (∀ id, id ≠ d → (fun r => r.2.get? id) <$> p.serveAll qs (ds.remove d).2 =
        (fun r => r.2.get? id) <$> (p.disconnect d).serveAll qs ds) ∧
      ∀ bytes after, p.serveAll qs (ds.remove d).2 = .ok (bytes, after) → after.Inert d := by
  refine ⟨?_, fun id hid => ?_, fun bytes after h => ?_⟩
  · rw [serveAll_remove p qs hd, Functor.map_map]
  · rw [serveAll_remove p qs hd, Functor.map_map]
    simp only [Devices.get?_remove_of_ne _ hid]
  · refine (issued_serveAll (hd.put d none) h).inert ?_
    rw [serveAll_remove p qs hd] at h
    obtain ⟨⟨bytes', after'⟩, -, ⟨⟩⟩ := Fault.map_eq_ok h
    exact Devices.get?_remove_self _ _

end Ports

namespace Bench

open Ports (Request)

/-- A latch and an echo. -/
def latchAndEcho : Devices Recorder := ⟨#[some (.new .latch 0x0F), some (.new .echo 0xF0)]⟩

/-- Both at one port, at which only the echo takes outputs. -/
def sharedInput : Ports :=
  ((Ports.empty.attach .input 0x30 ⟨0⟩ 0).attach .input 0x30 ⟨1⟩ 0).attach .output 0x30 ⟨1⟩ 0

/-- Between two inputs another latch is added, and a byte is put out. -/
def visits : List (Request Recorder) :=
  [.input 0x30, .meanwhile (.add (.new .latch 0)), .output 0x30 0x5A, .input 0x30]

end Bench

/-- Without the latch the echo alone drives the port. -/
theorem Ports.removed_latch_inert :
    Bench.latchAndEcho.Issued ⟨0⟩ ∧
      Prod.fst <$> Bench.sharedInput.serveAll Bench.visits Bench.latchAndEcho = .ok [0x00, 0x0A] ∧
      Prod.fst <$> (Bench.sharedInput.disconnect ⟨0⟩).serveAll Bench.visits Bench.latchAndEcho =
        .ok [0xF0, 0x5A] := by
  have hd : Bench.latchAndEcho.Issued ⟨0⟩ := by decide
  exact ⟨hd, rfl, (removed_inert Bench.sharedInput hd Bench.visits).1.symm.trans rfl⟩

/-! ### Lines without a device -/

namespace Line

variable {l : Line} {d : DeviceId}

/-- No device has a handler there. -/
def Bare (l : Line) : Prop := ∀ direction, l.handlers direction = []

/-- The device has no handler there. -/
def Lacks (l : Line) (d : DeviceId) : Prop := ∀ direction, ∀ h ∈ l.handlers direction, h.device ≠ d

theorem Lacks.handlers_detach (h : l.Lacks d) (direction : Direction) :
    (l.detach d).handlers direction = l.handlers direction := by
  rw [Ports.handlers_detach, List.filter_eq_self]
  exact fun k hk => decide_eq_true (h direction k hk)

/-- A line with handlers of others stays as it is. -/
theorem Lacks.detach_eq (h : l.Lacks d) (hbare : ¬l.Bare) : l.detach d = l := by
  have hinputs : (l.detach d).inputs = l.inputs := h.handlers_detach .input
  have houtputs : (l.detach d).outputs = l.outputs := h.handlers_detach .output
  have hempty : (l.inputs.isEmpty && l.outputs.isEmpty) = false := by
    rw [← Bool.not_eq_true, Bool.and_eq_true, List.isEmpty_iff, List.isEmpty_iff]
    rintro ⟨hin, hout⟩
    exact hbare fun direction => by cases direction <;> assumption
  have hshared : (l.detach d).shared = l.shared := by
    show (l.shared && !((l.detach d).inputs.isEmpty && (l.detach d).outputs.isEmpty)) = l.shared
    rw [hinputs, houtputs, hempty, Bool.not_false, Bool.and_true]
  calc
    l.detach d = ⟨(l.detach d).inputs, (l.detach d).outputs, (l.detach d).shared⟩ := rfl
    _ = ⟨l.inputs, l.outputs, l.shared⟩ := by rw [hinputs, houtputs, hshared]

theorem Bare.detach (h : l.Bare) (d : DeviceId) : (l.detach d).Bare := fun direction => by
  rw [Ports.handlers_detach, h, List.filter_nil]

/-- A line without handlers is not a shared one, once a device was detached. -/
theorem Bare.shared_detach (h : (l.detach d).Bare) : (l.detach d).shared = false := by
  have hinputs : (l.detach d).inputs = [] := h .input
  have houtputs : (l.detach d).outputs = [] := h .output
  show (l.shared && !((l.detach d).inputs.isEmpty && (l.detach d).outputs.isEmpty)) = false
  rw [hinputs, houtputs, List.isEmpty_nil, Bool.and_self, Bool.not_true, Bool.and_false]

end Line

theorem Register.outlet_ne {r : Register} {o : Outlet} (h : ∀ direction, r.on o direction = []) :
    ∀ e ∈ r, e.outlet ≠ o := by
  rintro e he rfl
  have hmem : e.handler ∈ r.on e.outlet e.direction :=
    List.mem_map_of_mem (List.mem_filter.2 ⟨he, by simp⟩)
  rw [h] at hmem
  cases hmem

namespace Wiring

variable {δ : Type}

theorem run_concat [Device δ] (ops : List (Wiring δ)) (op : Wiring δ) :
    run (ops ++ [op]) = next (run ops) op := List.foldl_concat ..

/-- What is said of a port without handlers: whether it shall be a shared one, which is forgotten
whenever a device is detached. -/
def mark (o : Outlet) : Wiring δ → Option Bool
  | disconnect _ => some false
  | setShared port shared => if Outlet.of port = o then some shared else none
  | _ => none

/-- The latest that was said of a port, by which it is a shared one as long as it has no
handlers. -/
def lastMark (ops : List (Wiring δ)) (o : Outlet) : Bool :=
  (ops.reverse.findSome? (mark o)).getD false

theorem lastMark_concat (ops : List (Wiring δ)) (op : Wiring δ) (o : Outlet) :
    lastMark (ops ++ [op]) o = (mark o op).getD (lastMark ops o) := by
  rw [lastMark, lastMark, List.reverse_concat, List.findSome?_cons]
  cases mark o op <;> rfl

end Wiring

namespace Ports

variable {δ : Type} [Device δ] {p : Ports} {r : Register} {o : Outlet}

/-- A port that has no handlers afterwards was left alone, or something was said of it. -/
theorem Lists.line_next (h : p.Lists r) (op : Wiring δ)
    (hbare : ((Wiring.next (p, r) op).1.line o.number).Bare) :
    (Wiring.mark o op = none ∧ (Wiring.next (p, r) op).1.line o.number = p.line o.number) ∨
      Wiring.mark o op = some ((Wiring.next (p, r) op).1.isShared o.number) := by
  -- No handler has been attached there, or it would be in the register.
  have houtlet : ∀ e ∈ (Wiring.next (p, r) op).2, e.outlet ≠ o :=
    Register.outlet_ne fun direction =>
    (h.next op o direction).symm.trans (hbare direction)
  cases op with
  | connect ds device rows =>
    refine .inl ⟨rfl, ?_⟩
    rcases p.connect_cases ds device rows with hconnect | hconnect
    · simp only [Wiring.next, Wiring.perform, hconnect]
    · simp only [Wiring.next, Wiring.perform, Wiring.record, hconnect] at houtlet ⊢
      refine line_foldl_wire fun c hc hline => ?_
      rw [Outlet.lineOf_eq_iff, Outlet.of_number] at hline
      exact houtlet _ (List.mem_append_right _ (List.mem_map_of_mem hc)) hline
  | attach direction port device func =>
    refine .inl ⟨rfl, ?_⟩
    have hne : Outlet.of port ≠ o := houtlet _ (List.mem_append_right _ (List.mem_singleton_self _))
    exact (line_modify_number ..).trans (if_neg hne)
  | disconnect device =>
    have hline : (p.disconnect device).line o.number = (p.line o.number).detach device :=
      line_disconnect p device o.number
    have hdetached : ((p.line o.number).detach device).Bare := hline ▸ hbare
    refine .inr (congrArg some (Eq.symm ?_))
    exact (congrArg Line.shared hline).trans hdetached.shared_detach
  | setShared port shared =>
    by_cases ho : Outlet.of port = o
    · refine .inr ((if_pos ho).trans (congrArg some (Eq.symm ?_)))
      exact congrArg Line.shared ((line_modify_number ..).trans (if_pos ho))
    · exact .inl ⟨if_neg ho, (line_modify_number ..).trans (if_neg ho)⟩

/-- Whether a port without handlers is a shared one is what was last said of it. -/
theorem isShared_run (ops : List (Wiring δ)) (o : Outlet)
    (hbare : ((Wiring.run ops).1.line o.number).Bare) :
    (Wiring.run ops).1.isShared o.number = Wiring.lastMark ops o := by
  induction ops using List.reverseRecOn with
  | nil => exact congrArg Line.shared (line_empty _)
  | append_singleton ops op ih =>
    rw [Wiring.run_concat] at hbare ⊢
    rw [Wiring.lastMark_concat]
    rcases (Wiring.lists_run ops).line_next op hbare with ⟨hmark, hline⟩ | hmark
    · rw [hmark, Option.getD_none, ← ih (hline ▸ hbare), isShared, hline, isShared]
    · rw [hmark, Option.getD_some]

/-- To detach a device changes nothing at a port where it has no handler, if others have one. A port
without handlers is not a shared one afterwards, though it was if that was the last that was said of
it. -/
theorem disconnect_elsewhere (ops : List (Wiring δ)) (d : DeviceId) (o : Outlet)
    (hd : ((Wiring.run ops).1.line o.number).Lacks d) :
    (∀ direction, (((Wiring.run ops).1.disconnect d).line o.number).handlers direction =
        ((Wiring.run ops).1.line o.number).handlers direction) ∧
      (¬((Wiring.run ops).1.line o.number).Bare →
        ((Wiring.run ops).1.disconnect d).isShared o.number =
          (Wiring.run ops).1.isShared o.number) ∧
      (((Wiring.run ops).1.line o.number).Bare →
        (Wiring.run ops).1.isShared o.number = Wiring.lastMark ops o ∧
          ((Wiring.run ops).1.disconnect d).isShared o.number = false) := by
  refine ⟨fun direction => ?_, fun hbare => ?_, fun hbare => ⟨isShared_run ops o hbare, ?_⟩⟩
  · rw [line_disconnect, hd.handlers_detach]
  · rw [isShared, line_disconnect, hd.detach_eq hbare, isShared]
  · rw [isShared, line_disconnect, (hbare.detach d).shared_detach]

end Ports

namespace Bench

/-- A port that was made a shared one before anything is attached to it. -/
def sharedAhead : List (Wiring Recorder) := [.setShared 0x30 true]

/-- The same port with a handler. -/
def sharedLatch : List (Wiring Recorder) := sharedAhead ++ [.attach .input 0x30 ⟨1⟩ 0]

theorem lacks_sharedAhead :
    ((Wiring.run sharedAhead).1.line (Outlet.port 0x30).number).Lacks ⟨0⟩ := by
  intro direction
  cases direction <;> exact List.forall_mem_nil _

theorem lacks_sharedLatch :
    ((Wiring.run sharedLatch).1.line (Outlet.port 0x30).number).Lacks ⟨0⟩ := by
  intro direction
  cases direction with
  | input => exact List.forall_mem_singleton.2 (by decide)
  | output => exact List.forall_mem_nil _

end Bench

namespace Ports

/-- The port with the handler of another device stays a shared one. -/
theorem disconnect_beside_latch :
    ((Wiring.run Bench.sharedLatch).1.line (Outlet.port 0x30).number).Lacks ⟨0⟩ ∧
      ((Wiring.run Bench.sharedLatch).1.disconnect ⟨0⟩).isShared (Outlet.port 0x30).number =
        true := by
  have hbare : ¬((Wiring.run Bench.sharedLatch).1.line (Outlet.port 0x30).number).Bare := fun h =>
    absurd (h .input) (List.cons_ne_nil _ _)
  exact ⟨Bench.lacks_sharedLatch,
    ((disconnect_elsewhere _ _ _ Bench.lacks_sharedLatch).2.1 hbare).trans rfl⟩

/-- The port without handlers does not, though the device that is detached had none there. -/
theorem disconnect_unshares_elsewhere :
    ((Wiring.run Bench.sharedAhead).1.line (Outlet.port 0x30).number).Lacks ⟨0⟩ ∧
      (Wiring.run Bench.sharedAhead).1.isShared (Outlet.port 0x30).number = true ∧
      ((Wiring.run Bench.sharedAhead).1.disconnect ⟨0⟩).isShared (Outlet.port 0x30).number =
        false := by
  refine ⟨Bench.lacks_sharedAhead, rfl, ?_⟩
  rw [isShared, line_disconnect]
  rfl

end Ports
end TandemZ80
