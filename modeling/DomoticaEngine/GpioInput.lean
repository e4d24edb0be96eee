import DomoticaEngine.Library.Slots
import DomoticaEngine.World

/-!
The GPI device: its data and its callbacks.
-/

set_option autoImplicit false

namespace DomoticaEngine

def shortPressMaxTimeMs : UInt64 := 600
def pressDimIntervalTimeMs : UInt64 := 200

/-- What a device finds around it: `device_trigger_event` on it, and the clock. Time may go by
between two readings. -/
structure Around (σ : Type) where
  trigger : EventType → σ → Option σ
  getCurrentTimeMs : σ → UInt64 × σ

inductive GpioCallback where
  | dimPressTimer | shortPressTimer
  deriving DecidableEq, Repr

structure GpioTimer where
  due : Nat
  callback : GpioCallback
  deriving DecidableEq, Repr

structure GpioT where
  pin : Int
  value : Bool
  fd : Int
  lastTimeMs : UInt64
  pressTime : UInt64
  timer : Option Nat
  deriving DecidableEq, Repr

structure GpioState (σ : Type) where
  input : GpioT
  timers : Slots GpioTimer
  outside : σ

section Callbacks
variable {σ : Type} (around : Around σ)

def GpioState.setInput (s : GpioState σ) (input : GpioT) : GpioState σ := { s with input := input }

def GpioState.trigger (type : EventType) (s : GpioState σ) : Option (GpioState σ) :=
  (around.trigger type s.outside).map (fun outside => { s with outside := outside })

def GpioState.getCurrentTimeMs (s : GpioState σ) : UInt64 × GpioState σ :=
  let (now,outside) := around.getCurrentTimeMs s.outside
  (now,{ s with outside := outside })

def GpioState.stopTimer (s : GpioState σ) (t : Nat) : GpioState σ :=
  { s with timers := s.timers.erase t }

/-- `eu_event_timer_destroy`, when there is a timer. -/
def GpioState.destroyTimer (s : GpioState σ) : GpioState σ :=
  { s with timers := s.timers.without s.input.timer }

/-- The event loop reads the clock to tell when the timer is due. -/
def GpioState.createTimer (delay : UInt64) (callback : GpioCallback) (s : GpioState σ) :
    GpioState σ :=
  let (now,s) := s.getCurrentTimeMs around
  let (t,timers) := s.timers.alloc ⟨now.toNat+delay.toNat,callback⟩
  { s with input := { s.input with timer := some t }, timers := timers }

def GpioState.continueTimer (s : GpioState σ) (t : Nat) (timer : GpioTimer) : GpioState σ :=
  { s with timers := s.timers.put t timer }

/-- `gpio_input_dim_press_timer_cb` of the timer `t`. It returns true, and is due again. -/
def gpioInputDimPressTimerCb (t due : Nat) (s : GpioState σ) : Option (GpioState σ) := do
  let s ← s.trigger around .dim
  return s.continueTimer t ⟨due+pressDimIntervalTimeMs.toNat,.dimPressTimer⟩

/-- `gpio_input_short_press_timer_cb` of the timer `t`. It returns false. -/
def gpioInputShortPressTimerCb (t : Nat) (s : GpioState σ) : Option (GpioState σ) := do
  let s ← s.trigger around .dim
  let s := s.setInput { s.input with timer := none }
  let s := s.createTimer around pressDimIntervalTimeMs .dimPressTimer
  return s.stopTimer t

def gpioInputHandleEdge (s : GpioState σ) : Option (GpioState σ) :=
  if s.input.value = true then do
    let (now,s) := s.getCurrentTimeMs around
    let s := s.setInput { s.input with pressTime := now }
    let s ← s.trigger around .press
    return s.destroyTimer.createTimer around shortPressMaxTimeMs .shortPressTimer
  else do
    let pressTime := s.input.pressTime
    let (releaseTime,s) := s.getCurrentTimeMs around
    let pressDuration := releaseTime-pressTime
    let s ← s.trigger around .release
    let s := s.destroyTimer
    let s := s.setInput { s.input with timer := none }
    s.trigger around (if pressDuration ≤ shortPressMaxTimeMs then .shortPress else .longPress)

/-- What `gpio_input_edge_detected_cb` does with the device that it finds. -/
def gpioInputEdgeDetected (edge : Bool) (s : GpioState σ) : Option (GpioState σ) :=
  if s.input.value ≠ edge then
    let (now,s) := s.getCurrentTimeMs around
    if now-s.input.lastTimeMs > 50 then
      let (now,s) := s.getCurrentTimeMs around
      gpioInputHandleEdge around (s.setInput { s.input with value := edge, lastTimeMs := now })
    else some s
  else some s

end Callbacks

/-- The data after `gpio_input_parser`, for the level and the descriptor that the pin has. -/
def gpioInputStart (pin fd : Int) (level : Bool) : GpioT :=
  { pin := pin, value := level, fd := fd, lastTimeMs := 0, pressTime := 0, timer := none }

def gpioInputFindByFdCb (fd : Int) (device : Device) (input : GpioT) : Bool :=
  (deviceTypeInfo device.deviceType).name = "GPIO".toList && input.fd = fd

/-- `device_list_find` with `gpio_input_find_by_fd_cb`. The data of the devices is told by their
positions. -/
def gpioFind (devices : List Device) (inputs : DeviceId → GpioT) (fd : Int) : Option DeviceId :=
  devices.zipIdx.findSome? (fun (device,d) =>
    if gpioInputFindByFdCb fd device (inputs d) then some d else none)

structure GpioDevices (σ : Type) where
  inputs : DeviceId → GpioT
  timers : Slots GpioTimer
  outside : σ

def GpioDevices.device {σ : Type} (s : GpioDevices σ) (d : DeviceId) : GpioState σ :=
  { input := s.inputs d, timers := s.timers, outside := s.outside }

def GpioDevices.setDevice {σ : Type} (s : GpioDevices σ) (d : DeviceId) (device : GpioState σ) :
    GpioDevices σ :=
  { inputs := Function.update s.inputs d device.input, timers := device.timers,
    outside := device.outside }

/-- `gpio_input_edge_detected_cb`, for the first character that it reads from the descriptor. -/
def gpioInputEdgeDetectedCb {σ : Type} (around : DeviceId → Around σ) (devices : List Device)
    (fd : Int) (buf0 : Char) (s : GpioDevices σ) : Option (GpioDevices σ) :=
  let edge : Bool := buf0 = '1'
  match gpioFind devices s.inputs fd with
  | some d => (gpioInputEdgeDetected (around d) edge (s.device d)).map (s.setDevice d)
  | none => some s

structure Moment (ε : Type) where
  now : Nat
  raised : List ε
  deriving DecidableEq, Repr

def Moment.around {ε : Type} (event : EventType → ε) (spent : EventType → Nat) :
    Around (Moment ε) where
  trigger type m :=
    if m.now+spent type < UInt64.size then
      some ⟨m.now+spent type,m.raised ++ [event type]⟩
    else none
  getCurrentTimeMs m := (UInt64.ofNat m.now,m)

def Moment.wait {ε : Type} (time : Nat) (m : Moment ε) : Option (Moment ε) :=
  if m.now ≤ time ∧ time < UInt64.size then some { m with now := time } else none

def GpioState.wait {ε : Type} (time : Nat) (s : GpioState (Moment ε)) :
    Option (GpioState (Moment ε)) :=
  (s.outside.wait time).map (fun outside => { s with outside := outside })

/-- A device after `gpio_input_parser`, at the time `now`. -/
def gpioStart (pin fd : Int) (level : Bool) (now : Nat) : GpioState (Moment EventType) :=
  ⟨gpioInputStart pin fd level,.empty,⟨now,[]⟩⟩

end DomoticaEngine
