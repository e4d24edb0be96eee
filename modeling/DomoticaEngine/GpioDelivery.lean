import DomoticaEngine.GpioInput

/-!
Whether an edge on a pin reaches its device.
-/

set_option autoImplicit false

namespace DomoticaEngine

/-- The level `edge` is stored in the device `d`, a press or a release is raised on it first, and
the other devices are as they were. -/
def Delivered (d : DeviceId) (edge : Bool) (s s' : GpioDevices (Moment (DeviceId × EventType))) :
    Prop :=
  (s'.inputs d).value = edge ∧
  (∃ type later, (type = .press ∨ type = .release) ∧
    s'.outside.raised = s.outside.raised ++ (d,type) :: later) ∧
  ∀ d', d' ≠ d → s'.inputs d' = s.inputs d'

/-- The pin of the GPI device `d` has a new level, more than 50 ms after the last accepted edge. -/
structure EdgeDue (devices : List Device) (d : DeviceId) (buf0 : Char)
    (s : GpioDevices (Moment (DeviceId × EventType))) : Prop where
  gpi : devices[d]?.map Device.deviceType = some .gpi
  level : (s.inputs d).value ≠ decide (buf0 = '1')
  late : UInt64.ofNat s.outside.now-(s.inputs d).lastTimeMs > 50

theorem deviceTypeInfo_name_ne (type : DeviceType) :
    (deviceTypeInfo type).name ≠ "GPIO".toList := by
  cases type <;> decide

theorem gpioInputFindByFdCb_false (fd : Int) (device : Device) (input : GpioT) :
    gpioInputFindByFdCb fd device input = false := by
  rw [gpioInputFindByFdCb,decide_eq_false (deviceTypeInfo_name_ne _),Bool.false_and]

theorem gpioFind_none (devices : List Device) (inputs : DeviceId → GpioT) (fd : Int) :
    gpioFind devices inputs fd = none := by
  refine List.findSome?_eq_none_iff.mpr (fun (device,d) _ => ?_)
  simp only [gpioInputFindByFdCb_false,Bool.false_eq_true,if_false]

theorem gpioInputEdgeDetectedCb_unchanged {σ : Type} (around : DeviceId → Around σ)
    (devices : List Device) (fd : Int) (buf0 : Char) (s : GpioDevices σ) :
    gpioInputEdgeDetectedCb around devices fd buf0 s = some s := by
  rw [gpioInputEdgeDetectedCb,gpioFind_none]

/-- Whatever devices there are, and whatever time the rules take, an edge does not reach its
device. -/
theorem edge_undelivered (devices : List Device) (spent : EventType → Nat) (d : DeviceId)
    (buf0 : Char) (s : GpioDevices (Moment (DeviceId × EventType)))
    (hdue : EdgeDue devices d buf0 s) :
    ¬∃ s', gpioInputEdgeDetectedCb (fun d => Moment.around (fun type => (d,type)) spent) devices
        (s.inputs d).fd buf0 s = some s' ∧ Delivered d (decide (buf0 = '1')) s s' := by
  rintro ⟨s',hs',hstored,-,-⟩
  rw [gpioInputEdgeDetectedCb_unchanged] at hs'
  cases hs'
  exact hdue.level hstored

def bellDevices : List Device := [⟨"BELL".toList,.plain .gpi⟩]

def bellPushed : GpioDevices (Moment (DeviceId × EventType)) :=
  ⟨fun _ => gpioInputStart 17 5 false,.empty,⟨1000,[]⟩⟩

theorem bellPushed_due : EdgeDue bellDevices 0 '1' bellPushed := by
  constructor <;> decide

theorem bell_undelivered :
    ¬∃ s', gpioInputEdgeDetectedCb (fun d => Moment.around (fun type => (d,type)) (fun _ => 3))
        bellDevices 5 '1' bellPushed = some s' ∧ Delivered 0 true bellPushed s' :=
  edge_undelivered bellDevices (fun _ => 3) 0 '1' bellPushed bellPushed_due

/-- A push that is lost. -/
theorem edges_lost : ¬∀ (devices : List Device) (spent : EventType → Nat) (d : DeviceId)
    (buf0 : Char) (s : GpioDevices (Moment (DeviceId × EventType))), EdgeDue devices d buf0 s →
    ∃ s', gpioInputEdgeDetectedCb (fun d => Moment.around (fun type => (d,type)) spent) devices
        (s.inputs d).fd buf0 s = some s' ∧ Delivered d (decide (buf0 = '1')) s s' := by
  intro h
  obtain ⟨s',hs',hstored,-,-⟩ := h bellDevices (fun _ => 3) 0 '1' bellPushed bellPushed_due
  rw [gpioInputEdgeDetectedCb_unchanged] at hs'
  cases hs'
  exact bellPushed_due.level hstored

end DomoticaEngine
