import Mathlib.Data.List.Nodup
import DomoticaEngine.EventLoop

set_option autoImplicit false

namespace DomoticaEngine

structure Event where
  device : DeviceId
  type : EventType
  deriving DecidableEq, Repr

/-- `src_type` is EVENT_SRC_INPUT in every event that event_create makes. -/
def eventEqual (event1 event2 : Event) : Bool :=
  event1.device = event2.device && event1.type = event2.type

@[simp] theorem eventEqual_iff {event1 event2 : Event} :
    eventEqual event1 event2 = true ↔ event1 = event2 := by
  cases event1
  cases event2
  simp [eventEqual]

structure Action where
  type : ActionType
  device : DeviceId
  options : List CString
  deriving DecidableEq, Repr

/-- The options of an action are counted from 1. -/
def actionGetOption (action : Action) (option : Nat) : Option CString :=
  if option = 0 then none else action.options[option-1]?

structure Condition where
  type : ConditionType
  device : DeviceId
  deriving DecidableEq, Repr

structure Rule where
  event : Event
  conditions : List Condition
  actions : List Action
  deriving DecidableEq, Repr

structure BoolT where
  val : Int
  deriving DecidableEq, Repr

structure DeviceFsr14 where
  address : UInt32
  val : Int
  deriving DecidableEq, Repr

structure DeviceFud14 where
  address : UInt32
  dimValue : UInt8
  dimDirection : UInt8
  dimMinValue : UInt8
  dimMaxValue : UInt8
  dimInterval : UInt8
  deriving DecidableEq, Repr

/-- `last_action` is 0, which is no action, until the first movement. -/
structure DeviceFsb14 where
  address : UInt32
  duration : UInt32
  timer : Option Nat
  condition : ConditionType
  lastAction : Option ActionType
  locked : Bool
  deriving DecidableEq, Repr

structure Tmr where
  timeoutMs : UInt64
  timer : Option Nat
  deriving DecidableEq, Repr

structure Gpio where
  pin : Int
  value : Bool
  deriving DecidableEq, Repr

structure DeviceVeluxKlf200 where
  address : UInt32
  hostname : CString
  password : CString
  actualValue : Int
  changed : Bool
  locked : Bool
  deriving DecidableEq, Repr

inductive ScheduleType where
  | day | week
  deriving DecidableEq, Repr

/-- The event of an entry is on the device of its schedule. -/
structure ScheduleEntry where
  day : Int
  hour : Int
  min : Int
  event : EventType
  deriving DecidableEq, Repr

structure Schedule where
  type : ScheduleType
  entries : List ScheduleEntry
  name : CString
  condition : ConditionType
  deriving DecidableEq, Repr

structure Sunriset where
  rised : Bool
  risedCiv : Bool
  risedNaut : Bool
  risedAstr : Bool
  deriving DecidableEq, Repr

inductive DeviceType where
  | timer | fts14em | fud14 | fsr14 | fsb14 | soltracker | musiccast | gpi | gpo
  | sunriset | dht22 | bool | veluxKlf200 | schedule
  deriving DecidableEq, Repr

/-- The types whose actions and conditions do not touch the engine's own state. -/
inductive PlainType where
  | fts14em | soltracker | musiccast | gpi | dht22
  deriving DecidableEq, Repr

inductive Userdata where
  | bool (b : BoolT)
  | fsr14 (fsr14 : DeviceFsr14)
  | fud14 (fud14 : DeviceFud14)
  | fsb14 (fsb14 : DeviceFsb14)
  | timer (tmr : Tmr)
  | gpo (gpio : Gpio)
  | veluxKlf200 (klf200 : DeviceVeluxKlf200)
  | schedule (schedule : Schedule)
  | sunriset (sr : Sunriset)
  | plain (type : PlainType)
  deriving DecidableEq, Repr

def Userdata.deviceType : Userdata → DeviceType
  | .bool _ => .bool
  | .fsr14 _ => .fsr14
  | .fud14 _ => .fud14
  | .fsb14 _ => .fsb14
  | .timer _ => .timer
  | .gpo _ => .gpo
  | .veluxKlf200 _ => .veluxKlf200
  | .schedule _ => .schedule
  | .sunriset _ => .sunriset
  | .plain .fts14em => .fts14em
  | .plain .soltracker => .soltracker
  | .plain .musiccast => .musiccast
  | .plain .gpi => .gpi
  | .plain .dht22 => .dht22

structure DeviceTypeInfo where
  name : CString
  events : List EventType
  actions : List ActionType
  conditions : List ConditionType

/-- In `.events = EVENT_UP, EVENT_DOWN` the second value goes to the next field, where
`.actions` replaces it. -/
def deviceTypeInfo : DeviceType → DeviceTypeInfo
  | .timer => ⟨"TIMER".toList,[.timeout],[.set,.unset],[]⟩
  | .fts14em => ⟨"FTS14EM".toList,[.press,.release,.shortPress,.longPress],[],[]⟩
  | .fud14 => ⟨"FUD14".toList,[],[.set,.unset,.toggle,.dim],[.set,.unset]⟩
  | .fsr14 => ⟨"FSR14".toList,[],[.set,.unset,.toggle],[.set,.unset]⟩
  | .fsb14 => ⟨"FSB14".toList,[.up],
      [.up,.down,.stop,.toggleUp,.toggleDown,.lock,.unlock],[.up,.down,.rising,.descending]⟩
  | .soltracker => ⟨"SOLTRACKER".toList,[.set,.unset],[],[.set,.unset]⟩
  | .musiccast => ⟨"MUSICCAST".toList,[],[.set,.unset,.toggle,.up,.down],[]⟩
  | .gpi => ⟨"GPI".toList,[.press,.release,.shortPress,.longPress,.dim],[],[]⟩
  | .gpo => ⟨"GPO".toList,[],[.set,.unset,.toggle],[]⟩
  | .sunriset => ⟨"SUNRISET".toList,
      [.sunrise,.sunset,.sunriseCiv,.sunsetCiv,.sunriseNaut,.sunsetNaut,.sunriseAstro,
        .sunsetAstro],[],
      [.sunrise,.sunset,.sunriseCiv,.sunsetCiv,.sunriseNaut,.sunsetNaut,.sunriseAstro,
        .sunsetAstro]⟩
  | .dht22 => ⟨"DHT22".toList,[.temperature,.humidity],[],[]⟩
  | .bool => ⟨"BOOL".toList,[.set,.unset],[.set,.unset,.toggle],[.set,.unset]⟩
  | .veluxKlf200 => ⟨"VELUX-KLF200".toList,[.up],
      [.up,.down,.stop,.toggleUp,.toggleDown,.lock,.unlock],[.up,.down,.rising,.descending]⟩
  | .schedule => ⟨"SCHEDULE".toList,[.set,.unset],[],[.set,.unset]⟩

structure Device where
  name : CString
  userdata : Userdata
  deriving DecidableEq, Repr

def Device.deviceType (device : Device) : DeviceType := device.userdata.deviceType

def deviceGetSupportedAction (device : Device) : List ActionType :=
  (deviceTypeInfo device.deviceType).actions

def deviceListFindByName (devices : List Device) (name : CString) : Option DeviceId :=
  devices.findIdx? (fun device => device.name == name)

theorem deviceListFindByName_name {devices : List Device}
    (hnodup : (devices.map Device.name).Nodup) {i : Nat} {device : Device}
    (h : devices[i]? = some device) : deviceListFindByName devices device.name = some i := by
  obtain ⟨hi,hdevice⟩ := List.getElem?_eq_some_iff.mp h
  unfold deviceListFindByName
  rw [List.findIdx?_eq_some_iff_getElem]
  refine ⟨hi,by simp [hdevice],fun j hj => ?_⟩
  intro heq
  have hi' : i < (devices.map Device.name).length := by simpa using hi
  have hj' : j < (devices.map Device.name).length := Nat.lt_trans hj hi'
  have hnames : (devices.map Device.name)[j] = (devices.map Device.name)[i] := by
    simpa [hdevice] using heq
  exact absurd (hnodup.getElem_inj_iff.mp hnames) (Nat.ne_of_lt hj)

theorem deviceListFindByName_some {devices : List Device} {name : CString} {i : Nat}
    (h : deviceListFindByName devices name = some i) :
    ∃ device, devices[i]? = some device ∧ device.name = name := by
  obtain ⟨hi,hname,-⟩ := List.findIdx?_eq_some_iff_getElem.mp h
  exact ⟨_,List.getElem?_eq_getElem hi,by simpa using hname⟩

end DomoticaEngine
