import DomoticaEngine.Schedule
import DomoticaEngine.LineParser

set_option autoImplicit false

namespace DomoticaEngine

/-- What the parser learns from outside the program: the local time, and the answers of
the parse callbacks that calculate sun positions or talk to hardware or the network. -/
structure Surroundings where
  now : Tm
  parse : DeviceType → CString → List CString → Except Fault (Option Userdata)
  typed : ∀ type name options data, parse type name options = .ok (some data) →
    data.deviceType = type

/-- A house without devices that need their surroundings, on a Monday morning. -/
def quietHouse : Surroundings :=
  { now := ⟨1,8,30⟩, parse := fun _ _ _ => .ok none, typed := fun _ _ _ _ h => by cases h }

/-- The device types in the order in which `main` registers them. -/
def deviceTypes : List DeviceType :=
  [.schedule,.timer,.fts14em,.fud14,.fsr14,.fsb14,.soltracker,.musiccast,.gpi,.gpo,.sunriset,
   .dht22,.bool,.veluxKlf200]

def deviceTypeLookup (devTypeName : CString) : Option DeviceType :=
  deviceTypes.find? (fun type => (deviceTypeInfo type).name == devTypeName)

/-- `strtoll` of a missing option reads through a null pointer. -/
def strtollOption (option : Option CString) (base : Nat) : Except Fault Int :=
  match option with
  | some s => .ok (strtoll s base)
  | none => .error .nullPointer

def boolParser (options : List CString) : BoolT :=
  { val :=
      if options.head? = some "0".toList then 0
      else if options.head? = some "1".toList then 1
      else -1 }

def fsr14DeviceParser (options : List CString) : Option DeviceFsr14 :=
  options[1]?.map (fun address => { address := UInt32.ofInt (strtoll address 16), val := 0 })

def fud14DeviceParser (options : List CString) : Option DeviceFud14 :=
  options[1]?.map (fun address =>
    { address := UInt32.ofInt (strtoll address 16), dimValue := 0, dimDirection := 1,
      dimMinValue := 0, dimMaxValue := 100, dimInterval := 3 })

def fsb14DeviceParser (options : List CString) : Except Fault (Option DeviceFsb14) :=
  match options[1]? with
  | none => .ok none
  | some address => do
    let duration ← strtollOption options[2]? 10
    return some
      { address := UInt32.ofInt (strtoll address 16), duration := UInt32.ofInt duration,
        timer := none, condition := .stopped, lastAction := none, locked := false }

/-- `sscanf` with `"%ds"` gives 1 whatever follows the number, so the units are not reached. -/
def timerDeviceParser (options : List CString) : Option Tmr := do
  let option ← options.head?
  let (timeout,_) ← scanfInt option
  return { timeoutMs := UInt64.ofInt (wrap 32 (timeout*1000)), timer := none }

def gpioOutputParser (options : List CString) : Option Gpio :=
  options[1]?.map (fun pin => { pin := wrap 32 (strtoll pin 10), value := false })

/-- `snprintf` of a missing password writes "(null)". -/
def veluxKlf200DeviceParser (options : List CString) :
    Except Fault (Option DeviceVeluxKlf200) :=
  match options[1]? with
  | none => .ok none
  | some hostname => do
    let address ← strtollOption options[3]? 16
    return some
      { address := UInt32.ofInt address, hostname := hostname.take 255,
        password := (options[2]?.getD "(null)".toList).take 63,
        actualValue := 0, changed := false, locked := false }

def fts14emDeviceParser (options : List CString) : Option PlainType :=
  options[1]?.map (fun _ => .fts14em)

def dht22Parser (options : List CString) : Except Fault (Option PlainType) := do
  let gpio ← strtollOption options[1]? 10
  return if 0 ≤ wrap 32 gpio ∧ wrap 32 gpio ≤ 1024 then some .dht22 else none

def parseCb (outside : Surroundings) (type : DeviceType) (name : CString)
    (options : List CString) : Except Fault (Option Userdata) :=
  match type with
  | .bool => .ok (some (.bool (boolParser options)))
  | .fsr14 => .ok ((fsr14DeviceParser options).map .fsr14)
  | .fud14 => .ok ((fud14DeviceParser options).map .fud14)
  | .fsb14 => (fsb14DeviceParser options).map (fun fsb14 => fsb14.map .fsb14)
  | .timer => .ok ((timerDeviceParser options).map .timer)
  | .gpo => .ok ((gpioOutputParser options).map .gpo)
  | .veluxKlf200 => (veluxKlf200DeviceParser options).map (fun klf200 => klf200.map .veluxKlf200)
  | .fts14em => .ok ((fts14emDeviceParser options).map .plain)
  | .dht22 => (dht22Parser options).map (fun type => type.map .plain)
  | .schedule => .ok ((scheduleParser name options).map .schedule)
  | .soltracker | .musiccast | .gpi | .sunriset => outside.parse type name options

/-- `device_create`. Without an option the callback is not called. -/
def deviceCreate (outside : Surroundings) (name devtype : CString) (options : List CString) :
    Except Fault (Option Device) :=
  match deviceTypeLookup devtype with
  | none => .ok none
  | some type =>
    if options = [] then .ok none
    else (parseCb outside type name options).map (fun data => data.map (⟨name,·⟩))

def declaredType (ln : Line) : Option CString :=
  match ln.statement with
  | .timer => some "TIMER".toList
  | .sunriset => some "SUNRISET".toList
  | .soltracker => some "SOLTRACKER".toList
  | .schedule => some "SCHEDULE".toList
  | .bool => some "BOOL".toList
  | _ => ln.options[0]?

end DomoticaEngine
