import DomoticaEngine.World
import DomoticaEngine.Library.Records

set_option autoImplicit false

namespace DomoticaEngine
open Records

inductive Variant where
  | int32 (v : Int32)
  | bool (b : Bool)
  | char (s : CString)
  deriving DecidableEq

abbrev VariantMap := Map CString Variant

abbrev DevicesState := Map CString VariantMap

/-- What the store relies on of libeu's variant maps and of json-c: a map that is written to
a file and read from it has the same keys and values, in any order. -/
structure Serialisation where
  File : Type
  serialize : DevicesState → File
  deserialize : File → DevicesState
  lossless : ∀ state name, (deserialize (serialize state)).lookup name = state.lookup name

section Variants

def euVariantMapSetInt32 (state : VariantMap) (key : CString) (v : Int) : VariantMap :=
  state.insert key (.int32 (Int32.ofInt v))

def euVariantMapSetBool (state : VariantMap) (key : CString) (b : Bool) : VariantMap :=
  state.insert key (.bool b)

def euVariantMapSetChar (state : VariantMap) (key : CString) (s : CString) : VariantMap :=
  state.insert key (.char s)

/-- A value that is missing, or of another type, has no result here. -/
def euVariantMapGetInt32 (state : VariantMap) (key : CString) : Except Fault Int :=
  match state.lookup key with
  | some (.int32 v) => .ok v.toInt
  | _ => .error .nullPointer

def euVariantMapGetBool (state : VariantMap) (key : CString) : Except Fault Bool :=
  match state.lookup key with
  | some (.bool b) => .ok b
  | _ => .error .nullPointer

def euVariantMapGetChar (state : VariantMap) (key : CString) : Except Fault CString :=
  match state.lookup key with
  | some (.char s) => .ok s
  | _ => .error .nullPointer

def euVariantMapHas (state : VariantMap) (key : CString) : Bool := (state.lookup key).isSome

end Variants

def valueKey : CString := "value".toList
def lockedKey : CString := "locked".toList

def valueStore (v : Int) : VariantMap := euVariantMapSetInt32 ∅ valueKey v

def boolStore (b : BoolT) : VariantMap := valueStore b.val

def boolRestore (b : BoolT) (state : VariantMap) : Except Fault BoolT :=
  (euVariantMapGetInt32 state valueKey).map (fun v => { b with val := v })

def fsr14DeviceStore (fsr14 : DeviceFsr14) : VariantMap := valueStore fsr14.val

def fsr14DeviceRestore (fsr14 : DeviceFsr14) (state : VariantMap) : Except Fault DeviceFsr14 :=
  (euVariantMapGetInt32 state valueKey).map (fun v => { fsr14 with val := v })

def fud14DeviceStore (fud14 : DeviceFud14) : VariantMap := valueStore fud14.dimValue.toNat

def fud14DeviceRestore (fud14 : DeviceFud14) (state : VariantMap) : Except Fault DeviceFud14 :=
  (euVariantMapGetInt32 state valueKey).map (fun v => { fud14 with dimValue := UInt8.ofInt v })

def veluxKlf200DeviceStore (klf200 : DeviceVeluxKlf200) : VariantMap :=
  valueStore klf200.actualValue

/-- Other values than 0 and 1 are taken for 0. -/
def veluxKlf200DeviceRestore (klf200 : DeviceVeluxKlf200) (state : VariantMap) :
    Except Fault DeviceVeluxKlf200 :=
  if euVariantMapHas state valueKey then
    (euVariantMapGetInt32 state valueKey).map (fun v =>
      { klf200 with actualValue := if v ≠ 0 ∧ v ≠ 1 then 0 else v })
  else .ok klf200

def closedName : CString := "closed".toList
def openName : CString := "open".toList
def stoppedName : CString := "stopped".toList

def fsb14StoredName (condition : ConditionType) : CString :=
  if condition = .down then closedName
  else if condition = .up then openName
  else stoppedName

def fsb14DeviceStore (fsb14 : DeviceFsb14) : VariantMap :=
  euVariantMapSetBool (euVariantMapSetChar ∅ valueKey (fsb14StoredName fsb14.condition)) lockedKey
    fsb14.locked

/-- The comparisons of the restore callback. `strcmp` is true of strings that differ. -/
def fsb14RestoredCondition (condition : ConditionType) (value : CString) : ConditionType :=
  if value ≠ closedName then .down
  else if value ≠ openName then .up
  else if value ≠ closedName then .stopped
  else condition

def fsb14DeviceRestore (fsb14 : DeviceFsb14) (state : VariantMap) : Except Fault DeviceFsb14 := do
  let locked ← euVariantMapGetBool state lockedKey
  let value ← euVariantMapGetChar state valueKey
  return { fsb14 with locked := locked, condition := fsb14RestoredCondition fsb14.condition value }

/-- `device_store`. The other types have no callback. -/
def deviceStore : Userdata → Option VariantMap
  | .bool b => some (boolStore b)
  | .fsr14 fsr14 => some (fsr14DeviceStore fsr14)
  | .fud14 fud14 => some (fud14DeviceStore fud14)
  | .fsb14 fsb14 => some (fsb14DeviceStore fsb14)
  | .veluxKlf200 klf200 => some (veluxKlf200DeviceStore klf200)
  | .timer _ | .gpo _ | .schedule _ | .sunriset _ | .plain _ => none

def deviceRestore (data : Userdata) (state : VariantMap) : Except Fault Userdata :=
  match data with
  | .bool b => (boolRestore b state).map .bool
  | .fsr14 fsr14 => (fsr14DeviceRestore fsr14 state).map .fsr14
  | .fud14 fud14 => (fud14DeviceRestore fud14 state).map .fud14
  | .fsb14 fsb14 => (fsb14DeviceRestore fsb14 state).map .fsb14
  | .veluxKlf200 klf200 => (veluxKlf200DeviceRestore klf200 state).map .veluxKlf200
  | .timer _ | .gpo _ | .schedule _ | .sunriset _ | .plain _ => .ok data

section Files
variable (s : Serialisation) (devices : List Device)

def storedItems (w : World) : List (CString × Option VariantMap) :=
  devices.zipIdx.map (fun (device,i) => (device.name,deviceStore (w.userdata i)))

/-- `store_devices_state`: the devices section of the new file. -/
def storeDevicesState (w : World) : s.File := s.serialize (writeTo ∅ (storedItems devices w))

def restoreDevice (w : World) (pair : Sigma fun _ : CString => VariantMap) : Except Fault World :=
  match deviceListFindByName devices pair.1 with
  | none => .ok w
  | some device => (deviceRestore (w.userdata device) pair.2).map (w.setUserdata device)

/-- `restore_devices_state`. Without a file nothing is restored. -/
def restoreDevicesState (file : Option s.File) (w : World) : Except Fault World :=
  match file with
  | none => .ok w
  | some file => (s.deserialize file).entries.foldlM (restoreDevice devices) w

/-- `store_init`, up to the timer that stores the states again. -/
def storeInit (file : Option s.File) (w : World) : Except Fault (World × s.File) := do
  let w ← restoreDevicesState s devices file w
  let file := storeDevicesState s devices w
  let w ← restoreDevicesState s devices (some file) w
  return (w,file)

end Files

end DomoticaEngine
