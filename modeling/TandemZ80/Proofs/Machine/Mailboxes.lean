import TandemZ80.Proofs.Machine.Plain
import TandemZ80.Proofs.Ports.Register

/-!
# The link as a pair of mailboxes

With the link attached to its four ports, and nothing else to these, a side finds there what its
partner and itself have put out: the byte that was put out last, and the lines as they were set
last. What has happened on the buses decides it, in whatever order the two sides took turns.

* `ParallelLink.shown` and `ParallelLink.take`, inputs and outputs by the number of the port;
* `Hardware.Linked`, hardware with the link on its ports, and `Machine.linked_attachLink`;
* `Hardware.Linked.call`, what one call on a bus does to the link;
* `Hardware.Event`, with `Event.datum?` and `Event.line?`, what an event puts out;
  `Hardware.History`;
* `Hardware.Linked.follows`, and `Hardware.Linked.mailbox`, what is found after any history.
-/

namespace TandemZ80

/-! ### Bits of a byte -/

namespace ParallelLink

theorem and_ne_zero_iff (v : UInt8) (i : ℕ) (m : UInt8) (hm : m.toNat = 2 ^ i) :
    v &&& m ≠ 0 ↔ v.toNat.testBit i = true := by
  rw [ne_eq, ← UInt8.toNat_inj, UInt8.toNat_and, hm, Nat.and_two_pow]
  cases v.toNat.testBit i <;> simp

theorem testBit_shift (k : UInt8) (hk : k.toNat < 8) (i : ℕ) :
    ((1 : UInt8) <<< k).toNat.testBit i = decide (k.toNat = i) := by
  rw [UInt8.toNat_shiftLeft, Nat.mod_eq_of_lt hk, Nat.testBit_mod_two_pow]
  show (decide (i < 8) && (1 <<< k.toNat).testBit i) = _
  rw [Nat.one_shiftLeft, Nat.testBit_two_pow]
  by_cases h : k.toNat = i
  · simp [h, h ▸ hk]
  · simp [h]

theorem testBit_not (v : UInt8) {i : ℕ} (hi : i < 8) :
    (~~~v).toNat.testBit i = !v.toNat.testBit i := by
  show (~~~v).toBitVec.getLsbD i = !v.toBitVec.getLsbD i
  rw [UInt8.toBitVec_not, BitVec.getLsbD_not, decide_eq_true hi, Bool.true_and]

theorem testBit_high {i : ℕ} (hi : 4 ≤ i ∧ i < 8) : (0xF0 : UInt8).toNat.testBit i = true := by
  obtain ⟨h4, h8⟩ := hi
  interval_cases i <;> rfl

theorem testBit_and_high (v : UInt8) {i : ℕ} (hi : 4 ≤ i ∧ i < 8) :
    (v &&& 0xF0).toNat.testBit i = v.toNat.testBit i := by
  rw [UInt8.toNat_and, Nat.testBit_and, testBit_high hi, Bool.and_true]

/-! ### Inputs and outputs by their ports -/

/-- What a side finds at one of its ports. -/
def shown (l : ParallelLink) (s : Side) (n : UInt8) : UInt8 :=
  if n = 0xFC then (l.side s.partner).data
  else if n = 0xFD then (l.side s).data
  else if n = 0xFE then l.lines s
  else 0xFF

/-- What a side puts out after an output to one of its ports. -/
def put (n v : UInt8) (x : Latches) : Latches :=
  if n = 0xFD then { x with data := v }
  else if n = 0xFE then { x with ctrl := v &&& 0xF0 }
  else if n = 0xFF then control v x
  else x

/-- The link after an output of a side to one of its ports. -/
def take (l : ParallelLink) (s : Side) (n v : UInt8) : ParallelLink := l.update s (put n v)

variable {l : ParallelLink} {s t : Side} {n v : UInt8} {i : ℕ}

theorem side_update (l : ParallelLink) (s t : Side) (f : Latches → Latches) :
    (l.update s f).side t = if t = s then f (l.side s) else l.side t :=
  PerSide.get_set _ _ _ _

theorem take_of_put_eq (h : ∀ x, put n v x = x) : l.take s n v = l := by
  obtain ⟨⟨main, sub⟩⟩ := l
  unfold take update
  rw [h]
  cases s <;> rfl

/-- The lines of both sides in one byte. -/
theorem testBit_lines (l : ParallelLink) (s : Side) (hi : i < 8) :
    (l.lines s).toNat.testBit i =
      if 4 ≤ i then (l.side s).ctrl.toNat.testBit i
      else (l.side s.partner).ctrl.toNat.testBit (i + 4) := by
  unfold lines
  rw [UInt8.toNat_or, Nat.testBit_or, UInt8.toNat_shiftRight, UInt8.toNat_and, Nat.testBit_and,
    Nat.testBit_shiftRight]
  split_ifs with h4
  · rw [testBit_high ⟨h4, hi⟩, Bool.and_true]
    have hlt : (l.side s.partner).ctrl.toNat < 2 ^ (4 + i) :=
      (UInt8.toNat_lt _).trans_le (Nat.pow_le_pow_right (by decide) (by omega : 8 ≤ 4 + i))
    show (_ || (l.side s.partner).ctrl.toNat.testBit (4 + i)) = _
    rw [Nat.testBit_lt_two_pow hlt, Bool.or_false]
  · have hlow : (0xF0 : UInt8).toNat.testBit i = false := by
      have : i < 4 := not_le.1 h4
      interval_cases i <;> rfl
    rw [hlow, Bool.and_false, Bool.false_or]
    show (l.side s.partner).ctrl.toNat.testBit (4 + i) = _
    rw [Nat.add_comm]

theorem testBit_setLine (v : UInt8) (x : Latches) (hi : 4 ≤ i ∧ i < 8) :
    (setLine v x).ctrl.toNat.testBit i =
      if v.toNat / 2 % 8 = i then v.toNat.testBit 0 else x.ctrl.toNat.testBit i := by
  have hline : ((v >>> (1 : UInt8)) &&& 7).toNat = v.toNat / 2 % 8 := by
    rw [UInt8.toNat_and, UInt8.toNat_shiftRight]
    show (v.toNat >>> 1) &&& (2 ^ 3 - 1) = _
    rw [Nat.and_two_pow_sub_one_eq_mod, Nat.shiftRight_eq_div_pow]
  have hbit := testBit_shift ((v >>> (1 : UInt8)) &&& 7) (by rw [hline]; omega) i
  rw [hline] at hbit
  unfold setLine
  dsimp only
  rw [testBit_and_high _ hi]
  by_cases hset : v &&& 1 ≠ 0
  · rw [if_pos hset, UInt8.toNat_or, Nat.testBit_or, hbit,
      (and_ne_zero_iff v 0 1 rfl).1 hset]
    split_ifs with h <;> simp [h]
  · rw [if_neg hset, UInt8.toNat_and, Nat.testBit_and, testBit_not _ hi.2, hbit,
      Bool.eq_false_iff.2 fun h => hset ((and_ne_zero_iff v 0 1 rfl).2 h)]
    split_ifs with h <;> simp [h]

theorem data_put (n v : UInt8) (x : Latches) :
    (put n v x).data =
      if n = 0xFD then v else if n = 0xFF ∧ v.toNat.testBit 7 then 0 else x.data := by
  unfold put control
  simp only [and_ne_zero_iff v 7 0x80 rfl]
  by_cases hdata : n = 0xFD
  · rw [if_pos hdata, if_pos hdata]
  rw [if_neg hdata, if_neg hdata]
  by_cases hctrl : n = 0xFE
  · subst hctrl
    rfl
  rw [if_neg hctrl]
  by_cases hmode : n = 0xFF
  · by_cases hbit : v.toNat.testBit 7
    · rw [if_pos hmode, if_pos hbit, if_pos ⟨hmode, hbit⟩]
      rfl
    · rw [if_pos hmode, if_neg hbit, if_neg fun h => hbit h.2]
      rfl
  · rw [if_neg hmode, if_neg fun h => hmode h.1]

theorem testBit_put (n v : UInt8) (x : Latches) (hi : 4 ≤ i ∧ i < 8) :
    (put n v x).ctrl.toNat.testBit i =
      if n = 0xFE then v.toNat.testBit i
      else if n = 0xFF then
        if v.toNat.testBit 7 then false
        else if v.toNat / 2 % 8 = i then v.toNat.testBit 0
        else x.ctrl.toNat.testBit i
      else x.ctrl.toNat.testBit i := by
  unfold put control
  simp only [and_ne_zero_iff v 7 0x80 rfl]
  by_cases hdata : n = 0xFD
  · subst hdata
    rfl
  rw [if_neg hdata]
  by_cases hctrl : n = 0xFE
  · rw [if_pos hctrl, if_pos hctrl]
    exact testBit_and_high v hi
  rw [if_neg hctrl, if_neg hctrl]
  by_cases hmode : n = 0xFF
  · rw [if_pos hmode, if_pos hmode]
    by_cases hbit : v.toNat.testBit 7
    · rw [if_pos hbit, if_pos hbit]
      exact Nat.zero_testBit i
    · rw [if_neg hbit, if_neg hbit]
      exact testBit_setLine v x hi
  · rw [if_neg hmode, if_neg hmode]

/-! ### Functions by their ports -/

/-- The functions of the link that a side has at a port. -/
def on (id : DeviceId) (s : Side) (n : UInt8) (direction : Direction) : List Handler :=
  Register.on ((connectors s).map (.ofRow id)) (.port n) direction

theorem eq_of_le {n : UInt8} (hn : 0xFC ≤ n) : n = 0xFC ∨ n = 0xFD ∨ n = 0xFE ∨ n = 0xFF := by
  have hlt := n.toNat_lt
  rw [UInt8.le_iff_toNat_le] at hn
  simp only [← UInt8.toNat_inj]
  revert hn
  show 252 ≤ n.toNat → n.toNat = 252 ∨ n.toNat = 253 ∨ n.toNat = 254 ∨ n.toNat = 255
  omega

/-- At most one function is asked at a port, and answers with what is shown there. -/
theorem on_input (id : DeviceId) (l : ParallelLink) (s : Side) (hn : 0xFC ≤ n) :
    (on id s n .input = [] ∧ l.shown s n = 0xFF) ∨
      ∃ func, on id s n .input = [⟨id, func⟩] ∧ l.input func = .ok (l.shown s n) := by
  rcases eq_of_le hn with rfl | rfl | rfl | rfl
  · exact .inr ⟨firstFunction s, by cases s <;> rfl, by cases s <;> rfl⟩
  · exact .inr ⟨firstFunction s + 1, by cases s <;> rfl, by cases s <;> rfl⟩
  · exact .inr ⟨firstFunction s + 2, by cases s <;> rfl, by cases s <;> rfl⟩
  · exact .inl ⟨by cases s <;> rfl, by cases s <;> rfl⟩

theorem on_output (id : DeviceId) (l : ParallelLink) (s : Side) (hn : 0xFC ≤ n) (v : UInt8) :
    (on id s n .output = [] ∧ l.take s n v = l) ∨
      ∃ func, on id s n .output = [⟨id, func⟩] ∧ l.output func v = .ok (l.take s n v) := by
  rcases eq_of_le hn with rfl | rfl | rfl | rfl
  · exact .inl ⟨by cases s <;> rfl, take_of_put_eq fun _ => rfl⟩
  · exact .inr ⟨firstFunction s, by cases s <;> rfl, by cases s <;> rfl⟩
  · exact .inr ⟨firstFunction s + 1, by cases s <;> rfl, by cases s <;> rfl⟩
  · exact .inr ⟨firstFunction s + 2, by cases s <;> rfl, by cases s <;> rfl⟩

end ParallelLink

open ParallelLink (connectors)

/-! ### Hardware with the link on its ports -/

variable {δ : Type}

namespace Ports

/-- The handlers at an outlet. -/
def attached (p : Ports) (o : Outlet) (direction : Direction) : List Handler :=
  (p.line o.number).handlers direction

/-- Wiring a device puts its functions behind what is there. -/
theorem attached_foldl_wire (p : Ports) (id : DeviceId) (rows : List Connector) (o : Outlet)
    (direction : Direction) :
    (rows.foldl (wire id) p).attached o direction =
      p.attached o direction ++ Register.on (rows.map (.ofRow id)) o direction := by
  induction rows generalizing p with
  | nil => exact (List.append_nil _).symm
  | cons c rows ih =>
    have hwire : (wire id p c).attached o direction =
        p.attached o direction ++ Register.on [.ofRow id c] o direction := by
      have hattach : (p.attach c.direction c.port id c.func).attached o direction =
          p.attached o direction ++ Register.on [.ofRow id c] o direction := by
        rw [Register.on_singleton]
        unfold Ports.attached attach
        rw [line_modify_number]
        by_cases ho : Outlet.of c.port = o
        · simp [ho, handlers_attach, Registration.ofRow]
        · simp [ho, Registration.ofRow]
      unfold wire
      dsimp only
      split_ifs
      · rw [← hattach]
        unfold Ports.attached setShared
        rw [line_modify_number]
        split_ifs
        · cases direction <;> rfl
        · rfl
      · exact hattach
    rw [List.foldl_cons, ih, hwire, List.append_assoc, ← Register.on_append]
    rfl

end Ports

/-- The link is attached to its ports on both sides, and to no other; and nothing else to these. -/
structure Hardware.Linked (id : DeviceId) (l : ParallelLink) (h : Hardware δ) : Prop where
  link : h.devices.get? id = some (.link l)
  own : ∀ s n direction, 0xFC ≤ n →
    (h.boards.get s).ports.attached (.port n) direction = ParallelLink.on id s n direction
  others : ∀ s o direction, (∀ n, 0xFC ≤ n → o ≠ .port n) →
    ∀ k ∈ (h.boards.get s).ports.attached o direction, k.device ≠ id

/-- What no row of the link names. -/
theorem ParallelLink.on_elsewhere (id : DeviceId) (s : Side) {o : Outlet}
    (ho : ∀ n, 0xFC ≤ n → o ≠ .port n) (direction : Direction) :
    Register.on ((connectors s).map (.ofRow id)) o direction = [] := by
  have hrows : ∀ c ∈ connectors s, 0xFC ≤ c.port.toUInt8 ∧
      Outlet.of c.port = .port c.port.toUInt8 := by
    cases s <;> decide
  unfold Register.on
  rw [List.map_eq_nil_iff, List.filter_eq_nil_iff]
  intro e he
  obtain ⟨c, hc, rfl⟩ := List.mem_map.1 he
  obtain ⟨hn, hport⟩ := hrows c hc
  intro hboth
  rw [decide_eq_true_eq] at hboth
  exact ho _ hn (hboth.1.symm.trans hport)

/-! ### What leaves the link as it is -/

variable {id other : DeviceId} {l : ParallelLink}

namespace Hardware.Linked

variable {h : Hardware δ} {s : Side} {p : UInt16}

theorem inputs_eq (hl : h.Linked id l) (hp : 0xFC ≤ p.toUInt8) :
    ((h.boards.get s).ports.line (Backplane.portOf p)).inputs =
      ParallelLink.on id s p.toUInt8 .input := by
  rw [← Outlet.number_port]
  exact hl.own s _ .input hp

theorem outputs_eq (hl : h.Linked id l) (hp : 0xFC ≤ p.toUInt8) :
    ((h.boards.get s).ports.line (Backplane.portOf p)).outputs =
      ParallelLink.on id s p.toUInt8 .output := by
  rw [← Outlet.number_port]
  exact hl.own s _ .output hp

theorem settle (hl : h.Linked id l) {l' : ParallelLink} (cpu : Cpu) {b : Backplane (Part δ)}
    (hports : b.ports = (h.plane s).ports) (hlink : b.devices.get? id = some (.link l')) :
    (h.settle s cpu b).Linked id l' := by
  have hboard : ∀ t, ((h.settle s cpu b).boards.get t).ports = (h.boards.get t).ports := fun t => by
    rw [boards_settle]
    split_ifs with ht
    · rw [ht]
      exact hports
    · rfl
  refine ⟨hlink, fun t n direction hn => ?_, fun t o direction ho => ?_⟩
  · rw [hboard]
    exact hl.own t n direction hn
  · rw [hboard]
    exact hl.others t o direction ho

end Hardware.Linked

namespace Devices

variable {ds ds' : Devices (Part δ)}

/-- Reading leaves the link as it is, if what the link answers does. -/
theorem readBy_keeps {handler : Part δ → Except Fault (UInt8 × Part δ)}
    (hhandler : ∀ l r, handler (.link l) = .ok r → r.2 = .link l) (hl : ds.get? id = some (.link l))
    {r : UInt8 × Devices (Part δ)} (h : readBy handler other ds = .ok r) :
    r.2.get? id = some (.link l) := by
  unfold readBy at h
  cases hd : ds.get? other with
  | none =>
    rw [hd] at h
    cases h
    exact hl
  | some d =>
    rw [hd] at h
    obtain ⟨⟨v, d'⟩, hr, h⟩ := Fault.bind_eq_ok h
    cases h
    by_cases hid : id = other
    · subst hid
      obtain rfl := Option.some.inj (hd.symm.trans hl)
      obtain rfl := hhandler l _ hr
      exact Devices.get?_put hl _
    · exact (get?_put_of_ne hid _).trans hl

/-- Writing leaves the link as it is, if it goes to another device, or the link does not mind. -/
theorem writeBy_keeps {handler : Part δ → Except Fault (Part δ)}
    (hhandler : id = other → ∀ l d, handler (.link l) = .ok d → d = .link l)
    (hl : ds.get? id = some (.link l)) (h : writeBy handler other ds = .ok ds') :
    ds'.get? id = some (.link l) := by
  unfold writeBy at h
  cases hd : ds.get? other with
  | none =>
    rw [hd] at h
    cases h
    exact hl
  | some d =>
    rw [hd] at h
    obtain ⟨d', hr, h⟩ := Fault.bind_eq_ok h
    cases h
    by_cases hid : id = other
    · subst hid
      obtain rfl := Option.some.inj (hd.symm.trans hl)
      obtain rfl := hhandler rfl l _ hr
      exact Devices.get?_put hl _
    · exact (get?_put_of_ne hid _).trans hl

end Devices

namespace Backplane

variable {α : Type} {b b' : Backplane δ}

theorem reading_eq_done {access : Devices δ → Except Fault (α × Devices δ)} {v : α}
    (h : reading access b = .done (v, b')) :
    ∃ ds, access b.devices = .ok (v, ds) ∧ b' = { b with devices := ds } := by
  obtain ⟨memory, ports, devices⟩ := b
  unfold reading at h
  dsimp only at h
  cases hr : access devices with
  | ok r =>
    rw [hr] at h
    cases h
    exact ⟨_, rfl, rfl⟩
  | error f =>
    rw [hr] at h
    cases h

end Backplane

variable [Device δ]

namespace Ports

variable {ds ds' : Devices (Part δ)} {hs : List Handler} {port : UInt16}

/-- No input changes the link, wherever it leads. -/
theorem askAll_keeps (hl : ds.get? id = some (.link l)) {r : UInt8 × Devices (Part δ)}
    (h : askAll port hs ds = .ok r) : r.2.get? id = some (.link l) := by
  induction hs generalizing ds r with
  | nil =>
    cases h
    exact hl
  | cons k hs ih =>
    obtain ⟨⟨v, ds₁⟩, hk, h⟩ := Fault.bind_eq_ok h
    obtain ⟨⟨w, ds₂⟩, hrest, h⟩ := Fault.bind_eq_ok h
    cases h
    refine ih (r := (w, ds₂)) (Devices.readBy_keeps (fun l r hr => ?_) hl hk) hrest
    obtain ⟨r', hr', rfl⟩ := Fault.map_eq_ok hr
    obtain ⟨v, -, rfl⟩ := Fault.map_eq_ok hr'
    rfl

/-- No output changes the link that does not lead to it. -/
theorem tellAll_keeps {v : UInt8} (hs' : ∀ k ∈ hs, k.device ≠ id) (hl : ds.get? id = some (.link l))
    (h : tellAll port v hs ds = .ok ds') : ds'.get? id = some (.link l) := by
  induction hs generalizing ds with
  | nil =>
    cases h
    exact hl
  | cons k hs ih =>
    rw [List.forall_mem_cons] at hs'
    obtain ⟨ds₁, hk, h⟩ := Fault.bind_eq_ok h
    exact ih hs'.2 (Devices.writeBy_keeps (fun heq => absurd heq.symm hs'.1) hl hk) h

end Ports

namespace MemoryMap

variable {m m' : MemoryMap} {ds ds' : Devices (Part δ)} {a : UInt16} {v : UInt8}

/-- The link has no memory. -/
theorem read_keeps (hl : ds.get? id = some (.link l)) {r : UInt8 × Devices (Part δ)}
    (h : m.read a ds = .ok r) : r.2.get? id = some (.link l) := by
  unfold read at h
  split at h
  · obtain ⟨v, -, h⟩ := Fault.bind_eq_ok h
    cases h
    exact hl
  · refine Devices.readBy_keeps (fun l r hr => ?_) hl h
    cases hr
    rfl
  · cases h
    exact hl

theorem write_keeps (hl : ds.get? id = some (.link l)) (h : m.write a v ds = .ok (m', ds')) :
    ds'.get? id = some (.link l) := by
  rcases write_cases h with ⟨b, offset, -, -, rfl⟩ | ⟨-, rfl | ⟨d, -, hds⟩⟩
  · exact hl
  · exact hl
  · refine Devices.writeBy_keeps (fun _ l d hr => ?_) hl hds
    cases hr
    rfl

end MemoryMap

/-! ### One call on a bus -/

/-- The link after a call on the bus of a side. -/
def ParallelLink.after (l : ParallelLink) (s : Side) : Bus.Call → ParallelLink
  | .output p v => l.take s p.toUInt8 v
  | _ => l

theorem ParallelLink.take_elsewhere (l : ParallelLink) (s : Side) {n : UInt8} (hn : ¬0xFC ≤ n)
    (v : UInt8) : l.take s n v = l := by
  have hne : ∀ k : UInt8, 0xFC ≤ k → n ≠ k := fun k hk h => hn (h ▸ hk)
  refine take_of_put_eq fun x => ?_
  unfold put
  rw [if_neg (hne _ (by decide)), if_neg (hne _ (by decide)), if_neg (hne _ (by decide))]

namespace Hardware

variable {h : Hardware δ} {s : Side} {p : UInt16} {v : UInt8}

namespace Linked

/-- An input from a port of the link. -/
theorem input (hl : h.Linked id l) (s : Side) (hp : 0xFC ≤ p.toUInt8) :
    ∃ b, Backplane.serve (.input p) (h.plane s) = .done (l.shown s p.toUInt8, b) := by
  rw [Backplane.serve, Hardware.plane, Backplane.reading_eq_ofExcept, Ports.input]
  dsimp only
  rw [hl.inputs_eq hp]
  rcases ParallelLink.on_input id l s hp with ⟨hon, hshown⟩ | ⟨func, hon, hshown⟩
  · rw [hon, hshown]
    exact ⟨_, rfl⟩
  · rw [hon, Ports.askAll, Devices.input_link hl.link hshown]
    refine ⟨⟨(h.boards.get s).memory, (h.boards.get s).ports, h.devices.put id (some (.link l))⟩,
      ?_⟩
    show Dialogue.done (l.shown s p.toUInt8 &&& 0xFF, _) = _
    rw [show (0xFF : UInt8) = -1 from rfl, UInt8.and_neg_one]

/-- An output to a port of the link. -/
theorem output (hl : h.Linked id l) (s : Side) (hp : 0xFC ≤ p.toUInt8) (v : UInt8) :
    ∃ ds, Backplane.serve (.output p v) (h.plane s) = .done ((), { h.plane s with devices := ds }) ∧
      ds.get? id = some (.link (l.take s p.toUInt8 v)) := by
  rw [Backplane.serve, Hardware.plane, Backplane.reading_eq_ofExcept]
  unfold Ports.output
  dsimp only
  rw [hl.outputs_eq hp]
  rcases ParallelLink.on_output id l s hp v with ⟨hon, htake⟩ | ⟨func, hon, htake⟩
  · rw [hon, htake]
    exact ⟨_, rfl, hl.link⟩
  · rw [hon, Ports.tellAll, Devices.output_link hl.link htake]
    exact ⟨_, rfl, Devices.get?_put hl.link _⟩

/-- What a call on a bus does to the link. -/
theorem call (hl : h.Linked id l) {q : Bus.Call} {r : Bus.Reply q} {b : Backplane (Part δ)}
    (cpu : Cpu) (hserve : Backplane.serve q (h.plane s) = .done (r, b)) :
    (h.settle s cpu b).Linked id (l.after s q) := by
  cases q with
  | read a =>
    rw [Backplane.serve] at hserve
    obtain ⟨ds, hread, rfl⟩ := Backplane.reading_eq_done hserve
    exact hl.settle cpu rfl (MemoryMap.read_keeps hl.link hread)
  | write a v =>
    unfold Backplane.serve at hserve
    dsimp only at hserve
    split at hserve
    · next memory ds hwrite =>
      cases hserve
      exact hl.settle cpu rfl (MemoryMap.write_keeps hl.link hwrite)
    · cases hserve
  | input p =>
    rw [Backplane.serve] at hserve
    obtain ⟨ds, hask, rfl⟩ := Backplane.reading_eq_done hserve
    exact hl.settle cpu rfl (Ports.askAll_keeps hl.link hask)
  | output p v =>
    by_cases hp : 0xFC ≤ p.toUInt8
    · obtain ⟨ds, hdone, hlink⟩ := hl.output s hp v
      rw [hdone] at hserve
      cases hserve
      exact hl.settle cpu rfl hlink
    · rw [Backplane.serve] at hserve
      obtain ⟨ds, htell, rfl⟩ := Backplane.reading_eq_done hserve
      obtain ⟨ds₁, htell, heq⟩ := Fault.bind_eq_ok htell
      cases heq
      refine hl.settle cpu rfl ?_
      show ds.get? id = some (.link (l.take s p.toUInt8 v))
      rw [l.take_elsewhere s hp]
      refine Ports.tellAll_keeps (fun k hk => hl.others s (.port p.toUInt8) .output
        (fun n hn heq => hp ?_) k ?_) hl.link htell
      · cases heq
        exact hn
      · rw [← Outlet.number_port] at hk
        exact hk
  | acknowledge =>
    rw [Backplane.serve] at hserve
    obtain ⟨ds, hask, rfl⟩ := Backplane.reading_eq_done hserve
    exact hl.settle cpu rfl (Ports.askAll_keeps hl.link hask)
  | window a =>
    cases hserve
    exact hl.settle cpu rfl hl.link
  | readWindow w a =>
    cases hserve
    exact hl.settle cpu rfl hl.link
  | isShared p =>
    cases hserve
    exact hl.settle cpu rfl hl.link
  | sync elapsed => cases hserve
  | stop clocks => cases hserve

end Linked

/-! ### What happens on the buses -/

/-- Something that happens on the buses. -/
inductive Event
  /-- A side makes a call on its bus. -/
  | call (s : Side) (q : Bus.Call)
  | reset

/-- What an event puts out as the data of a side, if anything. A mode and a reset put out 0. -/
def Event.datum? (s : Side) : Event → Option UInt8
  | .call t (.output p v) =>
    if t ≠ s then none
    else if p.toUInt8 = 0xFD then some v
    else if p.toUInt8 = 0xFF ∧ v.toNat.testBit 7 then some 0
    else none
  | .call _ _ => none
  | .reset => some 0

/-- The level that an event puts out on a line of a side, if any. A mode and a reset put out low
levels. -/
def Event.line? (s : Side) (i : ℕ) : Event → Option Bool
  | .call t (.output p v) =>
    if t ≠ s then none
    else if p.toUInt8 = 0xFE then some (v.toNat.testBit i)
    else if p.toUInt8 = 0xFF then
      if v.toNat.testBit 7 then some false
      else if v.toNat / 2 % 8 = i then some (v.toNat.testBit 0)
      else none
    else none
  | .call _ _ => none
  | .reset => some false

/-- What was put out by the latest of some events that put out anything. -/
def latest {α : Type} (f : Event → Option α) (start : α) (es : List Event) : α :=
  (es.reverse.findSome? f).getD start

theorem latest_concat {α : Type} (f : Event → Option α) (start : α) (es : List Event) (e : Event) :
    latest f start (es ++ [e]) = (f e).getD (latest f start es) := by
  unfold latest
  rw [List.reverse_append, List.reverse_singleton, List.singleton_append, List.findSome?_cons]
  cases f e <;> rfl

/-- The data of a side after some events, where the link was in state `l` before them. -/
def datum (l : ParallelLink) (es : List Event) (s : Side) : UInt8 :=
  latest (Event.datum? s) (l.side s).data es

/-- A line of a side after some events. -/
def line (l : ParallelLink) (es : List Event) (s : Side) (i : ℕ) : Bool :=
  latest (Event.line? s i) ((l.side s).ctrl.toNat.testBit i) es

theorem datum_after (l : ParallelLink) (t : Side) (q : Bus.Call) (s : Side) :
    ((l.after t q).side s).data = ((Event.call t q).datum? s).getD (l.side s).data := by
  cases q with
  | output p v =>
    show ((l.take t p.toUInt8 v).side s).data = _
    unfold ParallelLink.take Event.datum?
    dsimp only
    rw [ParallelLink.side_update]
    by_cases ht : t = s
    · subst ht
      rw [if_pos rfl, ParallelLink.data_put, if_neg (not_not.2 rfl)]
      split_ifs <;> rfl
    · rw [if_neg (Ne.symm ht), if_pos ht]
      rfl
  | _ => rfl

theorem line_after (l : ParallelLink) (t : Side) (q : Bus.Call) (s : Side) {i : ℕ}
    (hi : 4 ≤ i ∧ i < 8) :
    ((l.after t q).side s).ctrl.toNat.testBit i =
      ((Event.call t q).line? s i).getD ((l.side s).ctrl.toNat.testBit i) := by
  cases q with
  | output p v =>
    show ((l.take t p.toUInt8 v).side s).ctrl.toNat.testBit i = _
    unfold ParallelLink.take Event.line?
    dsimp only
    rw [ParallelLink.side_update]
    by_cases ht : t = s
    · subst ht
      rw [if_pos rfl, ParallelLink.testBit_put _ _ _ hi, if_neg (not_not.2 rfl)]
      split_ifs <;> rfl
    · rw [if_neg (Ne.symm ht), if_pos ht]
      rfl
  | _ => rfl

/-- What a reset of a machine does to its hardware: memory is left as it is. -/
def reset (h : Hardware δ) : Hardware δ :=
  { boards := h.boards.map fun b => { b with cpu := b.cpu.reset }, devices := h.devices.resetAll }

/-- An event takes one hardware to another. What becomes of the processor that makes a call is left
open. -/
inductive Happens : Event → Hardware δ → Hardware δ → Prop
  | call {h : Hardware δ} {s : Side} {q : Bus.Call} {r : Bus.Reply q} {b : Backplane (Part δ)}
      (cpu : Cpu) (hserve : Backplane.serve q (h.plane s) = .done (r, b)) :
      Happens (.call s q) h (h.settle s cpu b)
  | reset (h : Hardware δ) : Happens .reset h h.reset

/-- Events one after the other, in any order of the sides. -/
inductive History : List Event → Hardware δ → Hardware δ → Prop
  | nil (h : Hardware δ) : History [] h h
  | concat {es : List Event} {e : Event} {h h' h'' : Hardware δ} (hes : History es h h')
    (he : Happens e h' h'') : History (es ++ [e]) h h''

/-- A link `l'` that shows what the events since the link `l` have put out. -/
structure Follows (l : ParallelLink) (es : List Event) (l' : ParallelLink) : Prop where
  data : ∀ s, (l'.side s).data = datum l es s
  lines : ∀ s i, 4 ≤ i ∧ i < 8 → (l'.side s).ctrl.toNat.testBit i = line l es s i

variable {h' : Hardware δ} {l' : ParallelLink} {e : Event} {es : List Event}

theorem Linked.reset (hl : h.Linked id l) : h.reset.Linked id .initial := by
  have hports : ∀ s, (h.reset.boards.get s).ports = (h.boards.get s).ports := fun s => by
    cases s <;> rfl
  refine ⟨Machine.get?_resetAll hl.link, fun s n direction hn => ?_, fun s o direction ho => ?_⟩
  · rw [hports]
    exact hl.own s n direction hn
  · rw [hports]
    exact hl.others s o direction ho

/-- The link follows one more event. -/
theorem Follows.happens (hf : Follows l es l') (hl : h.Linked id l') (he : Happens e h h') :
    ∃ l'', h'.Linked id l'' ∧ Follows l (es ++ [e]) l'' := by
  cases he with
  | @call _ s q r b cpu hserve =>
    refine ⟨_, hl.call cpu hserve, fun t => ?_, fun t i hi => ?_⟩
    · rw [datum_after, datum, latest_concat, hf.data t]
      rfl
    · rw [line_after _ _ _ _ hi, line, latest_concat, hf.lines t i hi]
      rfl
  | reset =>
    refine ⟨_, hl.reset, fun t => ?_, fun t i hi => ?_⟩
    · rw [datum, latest_concat]
      cases t <;> rfl
    · rw [line, latest_concat]
      have hclear : (ParallelLink.initial.side t).ctrl = 0 := by cases t <;> rfl
      rw [hclear]
      exact Nat.zero_testBit i

/-- The link follows whatever happens on the buses. -/
theorem Linked.follows (hl : h.Linked id l) (hes : History es h h') :
    ∃ l', h'.Linked id l' ∧ Follows l es l' := by
  induction hes with
  | nil h => exact ⟨l, hl, fun s => rfl, fun s i _ => rfl⟩
  | concat _ he ih =>
    obtain ⟨l', hl', hf⟩ := ih hl
    exact hf.happens hl' he

/-! ### What a side finds -/

/-- What a side finds at the ports of the link after some events, and does there. The link was in
state `l` before them. -/
structure Mailbox (id : DeviceId) (l : ParallelLink) (es : List Event) (h : Hardware δ) (s : Side) :
    Prop where
  partner : ∀ p : UInt16, p.toUInt8 = 0xFC →
    ∃ b, Backplane.serve (.input p) (h.plane s) = .done (datum l es s.partner, b)
  own : ∀ p : UInt16, p.toUInt8 = 0xFD →
    ∃ b, Backplane.serve (.input p) (h.plane s) = .done (datum l es s, b)
  lines : ∀ p : UInt16, p.toUInt8 = 0xFE →
    ∃ v b, Backplane.serve (.input p) (h.plane s) = .done (v, b) ∧
      ∀ i < 4, v.toNat.testBit (i + 4) = line l es s (i + 4) ∧
        v.toNat.testBit i = line l es s.partner (i + 4)
  empty : ∀ p : UInt16, p.toUInt8 = 0xFF →
    ∃ b, Backplane.serve (.input p) (h.plane s) = .done (0xFF, b)
  /-- Every output is taken. -/
  accepts : ∀ (p : UInt16) v, 0xFC ≤ p.toUInt8 →
    ∃ b, Backplane.serve (.output p v) (h.plane s) = .done ((), b)
  ignores : ∀ (p : UInt16) v, p.toUInt8 = 0xFC →
    Backplane.serve (.output p v) (h.plane s) = .done ((), h.plane s)
  /-- No output, to whatever port, changes what the partner puts out. -/
  spares : ∀ (p : UInt16) v b, Backplane.serve (.output p v) (h.plane s) = .done ((), b) →
    ∃ x y, h.devices.get? id = some (.link x) ∧ b.devices.get? id = some (.link y) ∧
      y.side s.partner = x.side s.partner

/-- The link is a pair of mailboxes with crossed lines: at any time it shows each side what the
latest events have put out, and nobody's output disturbs what the partner has put out. -/
theorem Linked.mailbox (hl : h.Linked id l) (hes : History es h h') (s : Side) :
    h'.Mailbox id l es s := by
  obtain ⟨l', hl', hf⟩ := hl.follows hes
  have hinput : ∀ (p : UInt16) n, 0xFC ≤ n → p.toUInt8 = n →
      ∃ b, Backplane.serve (.input p) (h'.plane s) = .done (l'.shown s n, b) := fun p n hn hp =>
    hp ▸ hl'.input s (hp ▸ hn)
  refine ⟨fun p hp => ?_, fun p hp => ?_, fun p hp => ?_, fun p hp => ?_, fun p v hp => ?_,
    fun p v hp => ?_, fun p v b hserve => ?_⟩
  · rw [← hf.data]
    exact hinput p 0xFC (by decide) hp
  · rw [← hf.data]
    exact hinput p 0xFD (by decide) hp
  · obtain ⟨b, hserve⟩ := hinput p 0xFE (by decide) hp
    refine ⟨_, b, hserve, fun i hi => ?_⟩
    rw [← hf.lines s (i + 4) (by omega), ← hf.lines s.partner (i + 4) (by omega)]
    constructor
    · exact (l'.testBit_lines s (by omega)).trans (if_pos (by omega))
    · exact (l'.testBit_lines s (by omega)).trans (if_neg (by omega))
  · exact hinput p 0xFF (by decide) hp
  · obtain ⟨ds, hserve, -⟩ := hl'.output s hp v
    exact ⟨_, hserve⟩
  · have hnone : ((h'.boards.get s).ports.line (Backplane.portOf p)).outputs = [] := by
      have hle : 0xFC ≤ p.toUInt8 := by
        rw [hp]
        decide
      rw [hl'.outputs_eq hle, hp]
      cases s <;> rfl
    rw [Backplane.serve, Hardware.plane, Backplane.reading_eq_ofExcept]
    unfold Ports.output
    dsimp only
    rw [hnone]
    rfl
  · have hafter := (hl'.call (h'.boards.get s).cpu hserve).link
    refine ⟨l', _, hl'.link, hafter, ?_⟩
    show (ParallelLink.update ..).side _ = _
    rw [ParallelLink.side_update, if_neg (Side.partner_ne s)]

end Hardware

/-! ### Attaching the link -/

namespace Machine

variable {m : Machine δ}

/-- The link fits the ports of both sides. -/
theorem connect_eq (p : Ports) {ds : Devices (Part δ)} (hl : ds.get? id = some (.link l))
    (s : Side) :
    (p.connect ds id (connectors s)).2 = (connectors s).foldl (Ports.wire id) p := by
  have hfits : ∀ c ∈ connectors s, Ports.Fits (Device.descriptor (.link l : Part δ)) c := by
    show ∀ c ∈ connectors s, Ports.Fits ParallelLink.descriptor c
    cases s <;> decide
  unfold Ports.connect Devices.descriptor?
  rw [hl]
  exact congrArg Prod.snd (if_pos hfits)

/-- Attached to a machine with free ports, the link is linked, with all latches clear. No handler
may name a device that is still to come. -/
theorem linked_attachLink (hid : m.linkId = none)
    (hfree : ∀ s n direction, 0xFC ≤ n → (m.board s).ports.attached (.port n) direction = [])
    (hnames : ∀ s o direction, ∀ k ∈ (m.board s).ports.attached o direction,
      k.device.index < m.hardware.devices.slots.size) :
    m.attachLink.2.hardware.Linked ⟨m.hardware.devices.slots.size⟩ .initial := by
  have hlink : (m.hardware.devices.add (.link .initial)).2.get? ⟨m.hardware.devices.slots.size⟩ =
      some (.link .initial) := Devices.get?_add_self _ _
  have hports : ∀ s, (m.attachLink.2.hardware.boards.get s).ports =
      (connectors s).foldl (Ports.wire ⟨m.hardware.devices.slots.size⟩) (m.board s).ports := by
    intro s
    rw [attachLink_of_none hid, ← connect_eq _ hlink]
    cases s <;> rfl
  refine ⟨?_, fun s n direction hn => ?_, fun s o direction ho k hk => ?_⟩
  · rw [attachLink_of_none hid]
    exact hlink
  · rw [hports, Ports.attached_foldl_wire, hfree s n direction hn]
    rfl
  · rw [hports, Ports.attached_foldl_wire, ParallelLink.on_elsewhere _ s ho, List.append_nil] at hk
    have hlt := hnames s o direction k hk
    intro hdevice
    rw [hdevice] at hlt
    exact lt_irrefl _ hlt

end Machine

namespace Hardware

/-- The link is attached to a new machine. The main processor puts out a byte and sets a line, and
the sub processor a line of its own; then the sub processor finds the byte, and both lines. -/
theorem mailbox_new :
    ∃ (m : Machine ParallelLink) (h : Hardware ParallelLink) (es : List Event),
      Machine.new .standard = .ok m ∧ m.attachLink.2.hardware.Linked ⟨2⟩ .initial ∧
      History es m.attachLink.2.hardware h ∧ h.Mailbox ⟨2⟩ .initial es .sub ∧
      datum .initial es .main = 0x5A ∧ datum .initial es .sub = 0 ∧
      (∃ b, Backplane.serve (.input 0x12FC) (h.plane .sub) = .done (0x5A, b)) ∧
      line .initial es .main 5 = true ∧ line .initial es .sub 7 = true ∧
      line .initial es .sub 4 = false := by
  obtain ⟨m, hnew⟩ : ∃ m : Machine ParallelLink, Machine.new .standard = .ok m := ⟨_, rfl⟩
  have hlinked : m.attachLink.2.hardware.Linked ⟨2⟩ .initial := by
    have hempty : ∀ s o direction, (m.board s).ports.attached o direction = [] := by
      intro s o direction
      have hports : (m.board s).ports = .empty := by
        rw [Machine.new_eq_ok hnew]
        cases s <;> rfl
      rw [hports]
      exact Ports.lists_empty o direction
    have hsize : m.hardware.devices.slots.size = 2 := by
      rw [Machine.new_eq_ok hnew]
      rfl
    have hattached := Machine.linked_attachLink (m := m) (by rw [Machine.new_eq_ok hnew])
      (fun s n direction _ => hempty s _ _) fun s o direction k hk => by
        rw [hempty] at hk
        exact absurd hk (List.not_mem_nil)
    rwa [hsize] at hattached
  -- Every output is taken, so the three of them make a history.
  obtain ⟨b₁, h₁⟩ := (hlinked.mailbox (.nil _) .main).accepts 0x34FD 0x5A (by decide)
  have hes₁ := History.concat (.nil _) (.call .initial h₁)
  obtain ⟨b₂, h₂⟩ := (hlinked.mailbox hes₁ .sub).accepts 0x00FE 0x8F (by decide)
  have hes₂ := hes₁.concat (.call .initial h₂)
  obtain ⟨b₃, h₃⟩ := (hlinked.mailbox hes₂ .main).accepts 0x00FF 0x0B (by decide)
  have hes₃ := hes₂.concat (.call .initial h₃)
  have hfound := hlinked.mailbox hes₃ .sub
  exact ⟨m, _, _, hnew, hlinked, hes₃, hfound, rfl, rfl, hfound.partner 0x12FC (by decide), rfl,
    rfl, rfl⟩

end Hardware
end TandemZ80
