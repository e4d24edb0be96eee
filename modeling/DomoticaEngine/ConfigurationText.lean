import DomoticaEngine.ScheduleText

/-!
Whole configurations written as text: declarations, schedules and rules, in any order and in any
number of files.
-/

set_option autoImplicit false

namespace DomoticaEngine
open Reads

section Hexadecimal

end Hexadecimal

def typeWords : DeviceType → List CString
  | .bool | .timer | .sunriset | .soltracker | .schedule => []
  | type => [(deviceTypeInfo type).name]

def declarationWord : DeviceType → CString
  | .bool => "BOOL".toList
  | .timer => "TIMER".toList
  | .sunriset => "SUNRISET".toList
  | .soltracker => "SOLTRACKER".toList
  | .schedule => "SCHEDULE".toList
  | .fts14em | .gpi | .dht22 => "INPUT".toList
  | _ => "OUTPUT".toList

section Declarations
variable {outside : Surroundings} {name : CString} {type : DeviceType} {options : List CString}
  {data : Userdata}

def deviceLine (device : Device) (options : List CString) : CString :=
  lineText (declarationWord device.deviceType) device.name
    (typeWords device.deviceType ++ options)

end Declarations

inductive Block where
  | declaration (device : Device) (options : List CString)
  | schedule (name : CString) (type : ScheduleType) (entries : List ScheduleEntry)
  | rule (rule : Rule)

def Block.devices (outside : Surroundings) : Block → List Device
  | .declaration device _ => [device]
  | .schedule name type entries =>
    [⟨name,.schedule (scheduleParsingFinished outside.now
      { newSchedule name type with entries := entries.map (storedEntry type) })⟩]
  | .rule _ => []

def Block.rules : Block → List Rule
  | .rule r => [r]
  | .declaration _ _ | .schedule _ _ _ => []

def Block.lines (devices : List Device) : Block → List CString
  | .declaration device options => [deviceLine device options]
  | .schedule name type entries => scheduleLines name type entries
  | .rule r => ruleLines devices r

section Blocks
variable {outside : Surroundings} {devices : List Device}

variable {block : Block} {blocks : List Block}

end Blocks

end DomoticaEngine
