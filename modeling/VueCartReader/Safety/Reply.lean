import VueCartReader.Device.Parts
import VueCartReader.Program.Pieces
import VueCartReader.Safety.Answer
import VueCartReader.Safety.Header

/-!
# What is replied to a request

Every request has its answer (`UsbRequestHeader.answer`): the packets of its data stage, which
are no longer than the host asks for and show their end (`dataStage`), or the empty packet of its
status stage. Whatever the host does while the request is served, the packets that are committed
are a beginning of the answer; a host that is patient gets all of it (`serveSetup_replies`).
-/

set_option autoImplicit false

namespace VueCartReader

open Program

/-! ## Replies -/

/-- The packets that are committed on the control endpoint. -/
def Event.replied : Event → Option (List Byte)
  | .reply data => some data
  | _ => none

def repliesOf (log : List Event) : List (List Byte) := occurrences Event.replied log

/-- On the way from one world to another some packets have been committed. -/
structure Told (told : List (List Byte)) (s t : World) : Prop where
  bank : t.usb.controlBank = s.usb.controlBank
  request : t.usb.controlRequest = s.usb.controlRequest
  log : ∃ new, t.log = new ++ s.log ∧ repliesOf new = told

/-- Nothing has been committed. -/
abbrev Hushed : World → World → Prop := Told []

theorem Told.trans {a b : List (List Byte)} {s t u : World} (one : Told a s t) (two : Told b t u) :
    Told (a ++ b) s u := by
  obtain ⟨bank, request, new, log, told⟩ := one
  obtain ⟨bank', request', new', log', told'⟩ := two
  refine ⟨bank'.trans bank, request'.trans request, new' ++ new, ?_, ?_⟩
  · rw [log', log, List.append_assoc]
  · rw [repliesOf, occurrences_append, ← told, ← told', repliesOf, repliesOf]

theorem Hushed.trans {a : List (List Byte)} {s t u : World} (one : Hushed s t) (two : Told a t u) :
    Told a s u := Told.trans one two

instance : IsPreorder World Hushed where
  refl _ := ⟨rfl, rfl, [], rfl, rfl⟩
  trans _ _ _ := Told.trans

/-- Nothing but the controller has changed, or events that are no replies have been recorded. -/
theorem Hushed.of_logs {s t : World} (new : List Event)
    (bank : t.usb.controlBank = s.usb.controlBank)
    (request : t.usb.controlRequest = s.usb.controlRequest) (log : t.log = new ++ s.log)
    (quiet : ∀ e ∈ new, e.replied = none) : Hushed s t :=
  ⟨bank, request, new, log, occurrences_eq_nil _ quiet⟩

/-- The host lets the device send and asks nothing of it. -/
structure ControlPoll.Willing (p : ControlPoll) : Prop extends p.Calm where
  quiet : p.interrupts = []
  ready : p.inReady = true

/-- So the host is for so many looks. -/
structure Obliging (n : Nat) (polls : List ControlPoll) : Prop where
  enough : n ≤ polls.length
  willing : ∀ p ∈ polls.take n, p.Willing

/-- The device is attached, and the host is patient for so many looks. -/
structure World.Awaited (n : Nat) (s : World) : Prop where
  attending : Attending s
  obliging : Obliging n s.usb.polls

theorem Obliging.of_le {n k : Nat} {polls : List ControlPoll} (obliging : Obliging n polls)
    (fewer : k ≤ n) : Obliging k polls :=
  ⟨fewer.trans obliging.enough, fun p member => obliging.willing p
    (List.take_subset_take_left polls fewer member)⟩

theorem Obliging.cons {n : Nat} {polls : List ControlPoll} (obliging : Obliging (n + 1) polls) :
    ∃ p rest, polls = p :: rest ∧ p.Willing ∧ Obliging n rest := by
  cases polls with
  | nil => exact absurd obliging.enough (Nat.not_succ_le_zero n)
  | cons p rest =>
      refine ⟨p, rest, rfl, obliging.willing p (List.mem_cons_self ..), ?_, fun q member => ?_⟩
      · exact Nat.le_of_succ_le_succ obliging.enough
      · exact obliging.willing q (List.mem_cons_of_mem p member)

theorem World.Awaited.still {n k : Nat} {s t : World} (awaited : s.Awaited n)
    (device : t.usb.deviceState = s.usb.deviceState) (asked : t.usb.setupReceived = false)
    (polls : t.usb.polls = s.usb.polls) (fewer : k ≤ n) : t.Awaited k where
  attending := ⟨by rw [device]; exact awaited.attending.attached, asked⟩
  obliging := by
    rw [polls]
    exact awaited.obliging.of_le fewer

/-- A beginning of some packets has been committed, and all of them if the host is patient. -/
def Telling (patient : Prop) (target : List (List Byte)) (s t : World) : Prop :=
  ∃ told, Told told s t ∧ told <+: target ∧ (patient → told = target)

theorem Telling.early {patient : Prop} {target : List (List Byte)} {s t : World}
    (hushed : Hushed s t) (impatient : ¬ patient) : Telling patient target s t :=
  ⟨[], hushed, List.nil_prefix, fun yes => absurd yes impatient⟩

theorem Telling.after {patient patient' : Prop} {target : List (List Byte)} {s t u : World}
    (hushed : Hushed s t) (still : patient → patient') (telling : Telling patient' target t u) :
    Telling patient target s u := by
  obtain ⟨told, later, begun, all⟩ := telling
  exact ⟨told, hushed.trans later, begun, fun yes => all (still yes)⟩

theorem Telling.impatient {patient patient' : Prop} {target : List (List Byte)} {s t u : World}
    (telling : Telling patient' target t u) (hushed : Hushed s t) (impatient : ¬ patient) :
    Telling patient target s u :=
  .after hushed (fun yes => absurd yes impatient) telling

/-- One packet more has been committed before. -/
theorem Telling.cons {patient patient' : Prop} {first : List Byte} {target : List (List Byte)}
    {s t u : World} (one : Told [first] s t) (still : patient → patient')
    (telling : Telling patient' target t u) : Telling patient (first :: target) s u := by
  obtain ⟨told, later, begun, all⟩ := telling
  exact ⟨first :: told, one.trans later, List.cons_prefix_cons.mpr ⟨rfl, begun⟩,
    fun yes => congrArg _ (all (still yes))⟩

theorem Telling.then {patient : Prop} {target : List (List Byte)} {s t u : World}
    (telling : Telling patient target s t) (hushed : Hushed t u) : Telling patient target s u := by
  obtain ⟨told, earlier, begun, all⟩ := telling
  have both := earlier.trans hushed
  rw [List.append_nil] at both
  exact ⟨told, both, begun, all⟩

/-- The packets that are still to be sent. -/
def packetsLeft (data : List Byte) (full : Bool) : List (List Byte) :=
  if data.isEmpty && !full then [] else pieces fixedControlEndpointSize data

/-- The packets of a data stage for so many bytes. -/
def dataStage (length : BitVec 16) (data : List Byte) : List (List Byte) :=
  packetsLeft (data.take length.toNat) data.isEmpty

namespace UsbRequestHeader

/-- The answer of the firmware. -/
def vendorAnswer (r : UsbRequestHeader) (cartridge : Cartridge) : List (List Byte) :=
  if r.bmRequestType = vendorToDevice then [[]]
  else if r.bmRequestType = vendorToHost then
    if r.bRequest = reqReadHeader then dataStage r.wLength (headerOf cartridge)
    else if r.bRequest = reqReadDebug then dataStage r.wLength [0xDE#8, 0xAD#8, 0xBE#8, 0xEF#8]
    else []
  else []

end UsbRequestHeader

namespace UsbRequestHeader

def endpointIndex (r : UsbRequestHeader) : Nat := (r.wIndex &&& 0x0F#16).toNat

/-- The answer of the library. -/
def standardAnswer (r : UsbRequestHeader) (u : Usb) : List (List Byte) :=
  if r.bRequest = 0#8 then
    if r.bmRequestType = 0x80#8 then [[0#8, 0#8]]
    else if r.bmRequestType = 0x82#8 then [[if u.halted r.endpointIndex then 1#8 else 0#8, 0#8]]
    else []
  else if r.bRequest = 1#8 ∨ r.bRequest = 3#8 then
    if r.bmRequestType = 0x02#8 ∧
      ¬ (r.wValue.setWidth 8 = 0x00#8 ∧ r.endpointIndex = endpointControlEp)
    then [[]] else []
  else if r.bRequest = 5#8 then
    if r.bmRequestType = 0x00#8 then [[]] else []
  else if r.bRequest = 6#8 then
    if r.bmRequestType = 0x80#8 ∨ r.bmRequestType = 0x81#8 then
      if r.wValue = 0x03DC#16 then dataStage r.wLength u.serialString
      else ((callbackUsbGetDescriptor r.wValue).map (dataStage r.wLength)).getD []
    else []
  else if r.bRequest = 8#8 then
    if r.bmRequestType = 0x80#8 then [[u.configurationNumber]] else []
  else if r.bRequest = 9#8 ∧ r.bmRequestType = 0x00#8 ∧
      ¬ fixedNumConfigurations < r.wValue.setWidth 8 then [[]]
  else []

end UsbRequestHeader

/-- What the host shows at the control endpoint is as before, and the device is still attached. -/
structure Stayed (s t : World) : Prop where
  hushed : Hushed s t
  polls : t.usb.polls = s.usb.polls
  setup : t.usb.setupReceived = s.usb.setupReceived
  attached : s.usb.deviceState ≠ .unattached ∧ s.usb.deviceState ≠ .suspended →
    t.usb.deviceState ≠ .unattached ∧ t.usb.deviceState ≠ .suspended

theorem Stayed.refl (s : World) : Stayed s s := ⟨Std.Refl.refl s, rfl, rfl, id⟩

theorem Stayed.trans {s t u : World} (one : Stayed s t) (two : Stayed t u) : Stayed s u :=
  ⟨one.hushed.trans two.hushed, two.polls.trans one.polls, two.setup.trans one.setup,
    two.attached ∘ one.attached⟩

theorem Stayed.awaited {s t : World} (stayed : Stayed s t) {n : Nat}
    (awaited : s.acknowledged.Awaited n) : t.acknowledged.Awaited n where
  attending := ⟨stayed.attached awaited.attending.attached, rfl⟩
  obliging := by
    show Obliging n t.usb.polls
    rw [stayed.polls]
    exact awaited.obliging

/-- What the answers of the library depend on. -/
structure Usb.SameAnswers (u v : Usb) : Prop where
  outStalled : v.outStalled = u.outStalled
  inStalled : v.inStalled = u.inStalled
  configuration : v.configurationNumber = u.configurationNumber
  serial : v.serialString = u.serialString

theorem Usb.SameAnswers.answer {u v : Usb} (same : u.SameAnswers v) (r : UsbRequestHeader) :
    r.standardAnswer v = r.standardAnswer u := by
  have halted (endpoint : Nat) : v.halted endpoint = u.halted endpoint := by
    simp only [Usb.halted, Usb.isStalled, same.outStalled, same.inStalled]
  simp only [UsbRequestHeader.standardAnswer, halted, same.configuration, same.serial]

theorem Usb.SameAnswers.interrupted {u v : Usb} (same : u.SameAnswers v) (is : List UsbInterrupt) :
    (is.foldl (fun u i => u.interrupted i) u).SameAnswers
      (is.foldl (fun u i => u.interrupted i) v) := by
  induction is generalizing u v with
  | nil => exact same
  | cons i is ih =>
      refine ih ?_
      obtain ⟨out, in_, configuration, serial⟩ := same
      cases i with
      | endOfReset => exact ⟨rfl, rfl, rfl, serial⟩
      | suspend => exact ⟨out, in_, configuration, serial⟩
      | wakeUp => exact ⟨out, in_, configuration, serial⟩

namespace UsbRequestHeader

/-- All that is replied to a request, by the firmware or by the library. -/
def answer (r : UsbRequestHeader) (u : Usb) (cartridge : Cartridge) : List (List Byte) :=
  r.vendorAnswer cartridge ++ r.standardAnswer u

end UsbRequestHeader

theorem Telling.hushed {patient : Prop} {s t : World} (telling : Telling patient [] s t) :
    Hushed s t := by
  obtain ⟨told, moved, begun, -⟩ := telling
  obtain rfl := List.prefix_nil.mp begun
  exact moved

end VueCartReader
