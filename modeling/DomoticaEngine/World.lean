import DomoticaEngine.Device
import DomoticaEngine.Eltako

set_option autoImplicit false

namespace DomoticaEngine

/-- What happened in a run, for statements about its order. The number of a raised
event tells it from every other event, as its address does in the program. -/
inductive Occurrence where
  | raised (n : Nat) (event : Event)
  | offered (n : Nat) (rule : Nat) (event : Event)
  deriving DecidableEq, Repr

structure World where
  userdata : DeviceId → Userdata
  loop : EventLoop
  eltako : Eltako
  pins : List (Int × Bool)
  history : List Occurrence

def World.start (userdata : DeviceId → Userdata) : World :=
  { userdata := userdata, loop := EventLoop.start,
    eltako := { sendQueue := [], sendLast := 0, transmitted := [], clock := fun _ => 0 },
    pins := [], history := [] }

/-- `engine_trigger_event`, as the functions below call it. -/
abbrev Trigger := Event → World → Option World

def World.setUserdata (w : World) (device : DeviceId) (data : Userdata) : World :=
  { w with userdata := Function.update w.userdata device data }

def World.send (w : World) (msg : EltakoMessage) : World :=
  { w with eltako := eltakoSend w.eltako msg }

def World.record (w : World) (o : Occurrence) : World := { w with history := w.history ++ [o] }

@[simp] theorem setUserdata_same (w : World) (device : DeviceId) (data : Userdata) :
    (w.setUserdata device data).userdata device = data := by simp [World.setUserdata]

theorem setUserdata_other {device d : DeviceId} (h : d ≠ device) (w : World) (data : Userdata) :
    (w.setUserdata device data).userdata d = w.userdata d := by
  simp [World.setUserdata,h]

@[simp] theorem setUserdata_loop (w : World) (device : DeviceId) (data : Userdata) :
    (w.setUserdata device data).loop = w.loop := rfl

@[simp] theorem setUserdata_history (w : World) (device : DeviceId) (data : Userdata) :
    (w.setUserdata device data).history = w.history := rfl

@[simp] theorem send_userdata (w : World) (msg : EltakoMessage) :
    (w.send msg).userdata = w.userdata := rfl

@[simp] theorem send_loop (w : World) (msg : EltakoMessage) : (w.send msg).loop = w.loop := rfl

@[simp] theorem send_history (w : World) (msg : EltakoMessage) :
    (w.send msg).history = w.history := rfl

@[simp] theorem record_userdata (w : World) (o : Occurrence) :
    (w.record o).userdata = w.userdata := rfl

@[simp] theorem record_loop (w : World) (o : Occurrence) : (w.record o).loop = w.loop := rfl

@[simp] theorem record_history (w : World) (o : Occurrence) :
    (w.record o).history = w.history ++ [o] := rfl

def deviceTriggerEvent (trigger : Trigger) (device : DeviceId) (type : EventType) (w : World) :
    Option World :=
  trigger ⟨device,type⟩ w

section Exec
variable (trigger : Trigger) (device : DeviceId)

def boolCommand (b : BoolT) : ActionType → Int
  | .set => 1
  | .unset => 0
  | .toggle => if b.val ≠ 0 then 0 else 1
  | _ => b.val

def boolExec (b : BoolT) (action : Action) (w : World) : Option World :=
  let valPriv := b.val
  let b := { b with val := boolCommand b action.type }
  let w := w.setUserdata device (.bool b)
  if valPriv ≠ b.val then
    deviceTriggerEvent trigger device (if b.val = 1 then .set else .unset) w
  else some w

/-- The value to set and the first byte of the frame. -/
def fsr14Command (fsr14 : DeviceFsr14) (action : Action) : Option (Int × UInt8) :=
  match action.type with
  | .set => some (1,0x09)
  | .unset => some (0,0x08)
  | .toggle =>
    let val := if fsr14.val ≠ 0 then 0 else 1
    some (val,0x08 ||| UInt8.ofInt val)
  | _ => none

def fsr14DeviceExec (fsr14 : DeviceFsr14) (action : Action) (w : World) : Option World :=
  match fsr14Command fsr14 action with
  | none => some w
  | some (val,data) =>
    let w := w.setUserdata device (.fsr14 { fsr14 with val := val })
    let w := w.send (.message 0 0x07 [data,0x00,0x00,0x01] fsr14.address 0)
    deviceTriggerEvent trigger device (if val ≠ 0 then .set else .unset) w

def fud14DimValue (action : Action) : Int :=
  match actionGetOption action 1 with
  | some option => atoi option
  | none => 100

def fud14Dim (fud14 : DeviceFud14) : DeviceFud14 :=
  let fud14 :=
    if fud14.dimDirection = 1 then { fud14 with dimValue := fud14.dimValue + fud14.dimInterval }
    else { fud14 with dimValue := fud14.dimValue - fud14.dimInterval }
  let fud14 :=
    if fud14.dimValue ≥ fud14.dimMaxValue then
      { fud14 with dimValue := fud14.dimMaxValue, dimDirection := 0 }
    else fud14
  if fud14.dimValue ≤ fud14.dimMinValue then
    { fud14 with dimValue := fud14.dimMinValue, dimDirection := 1 }
  else fud14

def fud14Command (fud14 : DeviceFud14) (action : Action) : Option (DeviceFud14 × EltakoMessage) :=
  match action.type with
  | .set =>
    let value := UInt8.ofInt (fud14DimValue action)
    some ({ fud14 with dimValue := value, dimDirection := 0 },
      .dimmer fud14.address .on value 1 false)
  | .unset =>
    some ({ fud14 with dimValue := 0, dimDirection := 1 },
      .dimmer fud14.address .off 0 1 false)
  | .toggle =>
    let value := if fud14.dimValue > 0 then 0 else UInt8.ofInt (fud14DimValue action)
    some ({ fud14 with dimValue := value, dimDirection := if value = 0 then 1 else 0 },
      .dimmer fud14.address (if value > 0 then .on else .off) value 1 false)
  | .dim => some (fud14Dim fud14,.dimmer fud14.address .on 100 1 false)
  | _ => none

def fud14DeviceExec (fud14 : DeviceFud14) (action : Action) (w : World) : Option World :=
  match fud14Command fud14 action with
  | none => some w
  | some (fud14,msg) =>
    let w := (w.setUserdata device (.fud14 fud14)).send msg
    deviceTriggerEvent trigger device (if fud14.dimValue > 0 then .set else .unset) w

def timerDeviceExec (tmr : Tmr) (action : Action) (w : World) : World :=
  let cancel (w : World) : World :=
    match tmr.timer with
    | some t => { w with loop := euEventTimerDestroy w.loop t }
    | none => w
  match action.type with
  | .set =>
    let w := cancel w
    let (t,loop) := euEventTimerCreate w.loop ⟨tmr.timeoutMs.toNat,.tmrTimeout,device⟩
    { w with loop := loop }.setUserdata device (.timer { tmr with timer := some t })
  | .unset => (cancel w).setUserdata device (.timer { tmr with timer := none })
  | _ => w

def gpioOutputExec (gpio : Gpio) (action : Action) (w : World) : World :=
  let write (value : Bool) : World :=
    { w with pins := w.pins ++ [(gpio.pin,value)] }.setUserdata device
      (.gpo { gpio with value := value })
  match action.type with
  | .set => write true
  | .unset => write false
  | .toggle => write (!gpio.value)
  | _ => w

/-- data[1] of the frame: 0x01 opens, 0x02 closes, 0x00 stops. -/
def fsb14Command (condition : ConditionType) : ActionType → Option UInt8
  | .toggleUp => some (if condition = .stopped ∨ condition = .down then 0x01 else 0x00)
  | .toggleDown => some (if condition = .stopped ∨ condition = .up then 0x02 else 0x00)
  | .up => some 0x01
  | .down => some 0x02
  | .stop => some 0x00
  | _ => none

def fsb14CancelTimer (fsb14 : DeviceFsb14) (loop : EventLoop) : DeviceFsb14 × EventLoop :=
  match fsb14.timer with
  | some t => ({ fsb14 with timer := none },euEventTimerDestroy loop t)
  | none => (fsb14,loop)

def fsb14Move (fsb14 : DeviceFsb14) (data1 : UInt8) (loop : EventLoop) :
    DeviceFsb14 × EventLoop :=
  -- The product is a uint32_t and wraps around.
  let timer : Timer := ⟨(fsb14.duration * 1000).toNat,.fsb14Timer,device⟩
  if data1 = 0x01 then
    let (t,loop) := euEventTimerCreate loop timer
    ({ fsb14 with condition := .rising, lastAction := some .up, timer := some t },loop)
  else if data1 = 0x02 then
    let (t,loop) := euEventTimerCreate loop timer
    ({ fsb14 with condition := .descending, lastAction := some .down, timer := some t },loop)
  else ({ fsb14 with condition := .stopped, lastAction := some .stop },loop)

def fsb14Message (fsb14 : DeviceFsb14) (data1 : UInt8) (action : Action) : EltakoMessage :=
  let data2 :=
    match actionGetOption action 1 with
    | some option => UInt8.ofInt (atoi option)
    | none => fsb14.duration.toUInt8
  .message 0 0x07 [0x08,data1,data2,0x00] fsb14.address 0

def World.setFsb14 (w : World) (fsb14 : DeviceFsb14) (loop : EventLoop) : World :=
  { w with loop := loop }.setUserdata device (.fsb14 fsb14)

/-- The part of fsb14_device_exec after the switch. -/
def fsb14Exec (fsb14 : DeviceFsb14) (data1 : UInt8) (action : Action) (w : World) : World :=
  let (fsb14,loop) := fsb14CancelTimer fsb14 w.loop
  if fsb14.locked then w.setFsb14 device fsb14 loop
  else
    let (fsb14,loop) := fsb14Move device fsb14 data1 loop
    (w.setFsb14 device fsb14 loop).send (fsb14Message fsb14 data1 action)

def fsb14DeviceExec (fsb14 : DeviceFsb14) (action : Action) (w : World) : World :=
  match action.type with
  | .lock => w.setFsb14 device { fsb14 with locked := true } w.loop
  | .unlock => w.setFsb14 device { fsb14 with locked := false } w.loop
  | type =>
    match fsb14Command fsb14.condition type with
    | none => w
    | some data1 => fsb14Exec device fsb14 data1 action w

def veluxKlf200DeviceExec (klf200 : DeviceVeluxKlf200) (action : Action) (w : World) : World :=
  let move (value : Int) : World :=
    w.setUserdata device (.veluxKlf200 { klf200 with actualValue := value, changed := true })
  match action.type with
  | .toggleDown | .down => move 1
  | .toggleUp | .up => move 0
  | .toggle => move (if klf200.actualValue ≠ 0 then 0 else 1)
  | .lock => w.setUserdata device (.veluxKlf200 { klf200 with locked := true })
  | .unlock => w.setUserdata device (.veluxKlf200 { klf200 with locked := false })
  | _ => w

/-- `device_set`: an action outside the mask of the type is logged and left out. -/
def deviceSet (action : Action) (_event : Option Event) (w : World) : Option World :=
  let data := w.userdata device
  if action.type ∈ (deviceTypeInfo data.deviceType).actions then
    match data with
    | .bool b => boolExec trigger device b action w
    | .fsr14 fsr14 => fsr14DeviceExec trigger device fsr14 action w
    | .fud14 fud14 => fud14DeviceExec trigger device fud14 action w
    | .fsb14 fsb14 => some (fsb14DeviceExec device fsb14 action w)
    | .timer tmr => some (timerDeviceExec device tmr action w)
    | .gpo gpio => some (gpioOutputExec device gpio action w)
    | .veluxKlf200 klf200 => some (veluxKlf200DeviceExec device klf200 action w)
    -- schedule_exec does nothing, and the others have no action that reaches the engine.
    | .schedule _ | .sunriset _ | .plain _ => some w
  else some w

end Exec

def World.modifyFsb14 (w : World) (device : DeviceId) (f : DeviceFsb14 → DeviceFsb14) : World :=
  match w.userdata device with
  | .fsb14 fsb14 => w.setUserdata device (.fsb14 (f fsb14))
  | _ => w

theorem modifyFsb14_eq {w : World} {device : DeviceId} {fsb14 : DeviceFsb14}
    (h : w.userdata device = .fsb14 fsb14) (f : DeviceFsb14 → DeviceFsb14) :
    w.modifyFsb14 device f = w.setUserdata device (.fsb14 (f fsb14)) := by
  simp [World.modifyFsb14,h]

/-- `fsb14_timer_callback`. It returns false. The fields are read again after the
event, because the rules may have changed them. -/
def fsb14TimerCallback (trigger : Trigger) (device : DeviceId) (w : World) : Option World := do
  let w := w.modifyFsb14 device (fun fsb14 => { fsb14 with condition := .stopped })
  let w ←
    match w.userdata device with
    | .fsb14 fsb14 =>
      if fsb14.lastAction = some .up then
        deviceTriggerEvent trigger device .up
          (w.modifyFsb14 device (fun fsb14 => { fsb14 with condition := .up }))
      else if fsb14.lastAction = some .down then
        deviceTriggerEvent trigger device .down
          (w.modifyFsb14 device (fun fsb14 => { fsb14 with condition := .down }))
      else some w
    | _ => some w
  return w.modifyFsb14 device (fun fsb14 =>
    { fsb14 with lastAction := some .stop, timer := none })

def boolCheck (b : BoolT) : ConditionType → Bool
  | .set => b.val ≠ 0
  | .unset => b.val = 0
  | _ => false

def fsr14DeviceCheck (fsr14 : DeviceFsr14) : ConditionType → Bool
  | .set => fsr14.val = 1
  | .unset => fsr14.val = 0
  | _ => false

def fud14DeviceCheck (fud14 : DeviceFud14) : ConditionType → Bool
  | .set => fud14.dimValue > 0
  | .unset => fud14.dimValue = 0
  | _ => false

def fsb14DeviceCheck (fsb14 : DeviceFsb14) : ConditionType → Bool
  | .locked => fsb14.locked
  | .unlocked => !fsb14.locked
  | type => type = fsb14.condition

def veluxKlf200DeviceCheck (klf200 : DeviceVeluxKlf200) : ConditionType → Bool
  | .set => klf200.actualValue = 1
  | .unset => klf200.actualValue = 0
  | _ => false

def scheduleCheck (schedule : Schedule) (type : ConditionType) : Bool :=
  type = schedule.condition

def sunrisetDeviceCheck (sr : Sunriset) : ConditionType → Bool
  | .sunrise => sr.rised
  | .sunriseCiv => sr.risedCiv
  | .sunriseAstro => sr.risedAstr
  | .sunriseNaut => sr.risedNaut
  | .sunset => !sr.rised
  | .sunsetCiv => !sr.risedCiv
  | .sunsetAstro => !sr.risedAstr
  | .sunsetNaut => !sr.risedNaut
  | _ => false

def deviceCheck (device : DeviceId) (condition : Condition) (w : World) : Bool :=
  let data := w.userdata device
  condition.type ∈ (deviceTypeInfo data.deviceType).conditions &&
    match data with
    | .bool b => boolCheck b condition.type
    | .fsr14 fsr14 => fsr14DeviceCheck fsr14 condition.type
    | .fud14 fud14 => fud14DeviceCheck fud14 condition.type
    | .fsb14 fsb14 => fsb14DeviceCheck fsb14 condition.type
    | .veluxKlf200 klf200 => veluxKlf200DeviceCheck klf200 condition.type
    | .schedule schedule => scheduleCheck schedule condition.type
    | .sunriset sr => sunrisetDeviceCheck sr condition.type
    -- soltracker_check answers false, and the other types have no check callback.
    | .timer _ | .gpo _ | .plain _ => false

theorem deviceCheck_congr {device : DeviceId} {w v : World}
    (h : v.userdata device = w.userdata device) (condition : Condition) :
    deviceCheck device condition v = deviceCheck device condition w := by
  unfold deviceCheck
  rw [h]

end DomoticaEngine
