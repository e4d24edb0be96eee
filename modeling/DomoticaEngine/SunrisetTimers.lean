import DomoticaEngine.House
import DomoticaEngine.Library.Slots
import DomoticaEngine.Library.Runs

/-!
The timers of a SUNRISET: the pointers that the device keeps, the records that the timers own, and
the event loop.
-/

set_option autoImplicit false

namespace DomoticaEngine

inductive SunCallback where
  | event (sunevent : Nat)
  | nextRun
  deriving DecidableEq, Repr

structure SunTimer where
  delay : Int
  callback : SunCallback
  deriving DecidableEq, Repr

structure SunrisetT where
  flags : Sunriset
  midnight : Option Nat
  sunrisetTimers : SunrisetEvent → Option Nat

inductive SunMark where
  | calculate
  | raise (se : SunrisetEvent)
  deriving DecidableEq, Repr

/-- A SUNRISET with the event loop and its records on the heap, each of which tells its event.
`freed` is what has been given to `free`. -/
structure SunState where
  sr : SunrisetT
  loop : Slots SunTimer
  heap : Slots SunrisetEvent
  freed : List Nat
  history : List SunMark

/-- What the calls of `time` and `mktime` give: the time of the call and the time of the event.
There is nothing where `ctime` fails. -/
structure SunClock where
  calculate : Bool
  event : SunrisetEvent → Option (Int × Int)
  nextRun : Option (Int × Int)

def sunrisetEvents : List SunrisetEvent :=
  [.rise,.set,.riseCiv,.setCiv,.riseNaut,.setNaut,.riseAstr,.setAstr]

namespace SunState

def mark (s : SunState) (m : SunMark) : SunState := { s with history := s.history ++ [m] }

def setTimer (s : SunState) (se : SunrisetEvent) (t : Option Nat) : SunState :=
  { s with sr := { s.sr with sunrisetTimers := Function.update s.sr.sunrisetTimers se t } }

def free (s : SunState) (sunevent : Nat) : Option SunState :=
  (s.heap.free sunevent).map (fun heap => { s with heap := heap, freed := s.freed ++ [sunevent] })

def getUserdata (s : SunState) (t : Nat) : Option Nat :=
  match s.loop.get t with
  | some ⟨_,.event sunevent⟩ => some sunevent
  | _ => none

def destroy (s : SunState) (t : Nat) : Option SunState :=
  (s.loop.free t).map (fun loop => { s with loop := loop })

def giveUp (s : SunState) (t : Nat) : Option SunState := do
  let sunevent ← s.getUserdata t
  let s ← s.free sunevent
  s.destroy t

/-- What `sunriset_create_event_timer` does first: the old timer of the event is given up. -/
def dropTimer (se : SunrisetEvent) (s : SunState) : Option SunState :=
  match s.sr.sunrisetTimers se with
  | some t => (s.giveUp t).map (fun s => s.setTimer se none)
  | none => some s

def sunrisetCurrentState (s : SunState) : SunState :=
  let flags := sunrisetFlags (fun se => (s.sr.sunrisetTimers se).isSome)
  { s with sr := { s.sr with flags := flags } }

def sunrisetCreateEventTimer (se : SunrisetEvent) (clock : Option (Int × Int)) (s : SunState) :
    Option SunState :=
  match clock with
  | none => some s
  | some (ct,et) => do
    let s ← s.dropTimer se
    if et > ct then
      let (sunevent,heap) := s.heap.alloc se
      let (t,loop) := s.loop.alloc ⟨(et-ct)*1000,.event sunevent⟩
      return ({ s with heap := heap, loop := loop } : SunState).setTimer se (some t)
    else return s

def sunrisetCalculate (clock : SunClock) (s : SunState) : Option SunState :=
  if clock.calculate then do
    let s ← sunrisetEvents.foldlM
      (fun s se => s.sunrisetCreateEventTimer se (clock.event se)) (s.mark .calculate)
    return s.sunrisetCurrentState
  else some s

def sunrisetCalculateNextRun (clock : SunClock) (s : SunState) : SunState :=
  match clock.nextRun with
  | none => s
  | some (ct,nrt) =>
    let (t,loop) := s.loop.alloc ⟨(nrt-ct)*1000,.nextRun⟩
    { s with loop := loop, sr := { s.sr with midnight := some t } }

/-- The rules do nothing to the device, which has no actions. -/
def sunrisetEventCallback (sunevent : Nat) (s : SunState) : Option SunState := do
  let se ← s.heap.get sunevent
  let s := s.mark (.raise se)
  let s := s.setTimer se none
  let s ← s.free sunevent
  return s.sunrisetCurrentState

def sunrisetNextRunCallback (clock : SunClock) (s : SunState) : Option SunState := do
  let s ← s.sunrisetCalculate clock
  let s := { s with sr := { s.sr with midnight := none } }
  return s.sunrisetCalculateNextRun clock

/-- What `sunriset_device_cleanup` does for each event. -/
def cleanupTimer (s : SunState) (se : SunrisetEvent) : Option SunState :=
  match s.sr.sunrisetTimers se with
  | some t => s.giveUp t
  | none => some s

def sunrisetDeviceCleanup (s : SunState) : Option SunState := do
  let s ← sunrisetEvents.foldlM cleanupTimer s
  match s.sr.midnight with
  | some t => s.destroy t
  | none => some s

end SunState

structure SunInput where
  t : Nat
  clock : SunClock

/-- Both callbacks return false, which removes the timer. -/
def sunStep (input : SunInput) (s : SunState) : Option SunState := do
  let timer ← s.loop.get input.t
  let s ← match timer.callback with
    | .event sunevent => s.sunrisetEventCallback sunevent
    | .nextRun => s.sunrisetNextRunCallback input.clock
  return { s with loop := s.loop.erase input.t }

/-- `sunriset_parser`, from the zeroed device on. -/
def sunStart (clock : SunClock) : Option SunState := do
  let s ← SunState.sunrisetCalculate clock
    { sr := ⟨⟨false,false,false,false⟩,none,fun _ => none⟩, loop := .empty, heap := .empty,
      freed := [], history := [] }
  return s.sunrisetCalculateNextRun clock

def tmod (x : Int) : Int := if x < 0 then x+24 else if x ≥ 24 then x-24 else x

def dayClock (now : Int) (times : SunrisetEvent → Int × Int) : SunClock :=
  { calculate := true
    event := fun se => some (now,tmod (times se).1*3600+(times se).2*60)
    nextRun := some (now,86400) }

def sunDay (now : Int) : SunClock :=
  dayClock now (fun
    | .rise | .riseCiv | .riseNaut | .riseAstr => (6,0)
    | .set | .setCiv | .setNaut | .setAstr => (20,30))

end DomoticaEngine
