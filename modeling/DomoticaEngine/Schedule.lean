import DomoticaEngine.World

set_option autoImplicit false

namespace DomoticaEngine

/-- The fields of `struct tm` that schedules read. -/
structure Tm where
  wday : Int
  hour : Int
  min : Int
  deriving DecidableEq, Repr

/-- `SCHEDULE_TYPES_TABLE`. -/
def scheduleTypesTable : List (ScheduleType × CString) :=
  [(.day,"DAYLY".toList), (.week,"WEEKLY".toList)]

/-- The minute of the period. The program adds in `int`; a sum outside its range is undefined. -/
def scheduleTs (type : ScheduleType) (day hour min : Int) : Int :=
  hour*60 + min + (if type = .week then day*60*24 else 0)

def entryTs (type : ScheduleType) (entry : ScheduleEntry) : Int :=
  scheduleTs type entry.day entry.hour entry.min

def conditionAfter (condition : ConditionType) : EventType → ConditionType
  | .set => .set
  | .unset => .unset
  | _ => condition

/-- The condition that counts in front of the first entry: that of the last one in the list. -/
def lastCondition (schedule : Schedule) : ConditionType :=
  match schedule.entries.getLast? with
  | some entry => conditionAfter .unset entry.event
  | none => .unset

def scheduleGetCurrentCondition (schedule : Schedule) (ts : Tm) : ConditionType :=
  let now := scheduleTs schedule.type ts.wday ts.hour ts.min
  (schedule.entries.foldl (fun (state : ConditionType × Int) entry =>
    let ts := entryTs schedule.type entry
    if state.2 < ts ∧ ts < now then (conditionAfter state.1 entry.event,ts) else state)
    (lastCondition schedule,0)).1

def scheduleEntryCreate (day hour min : Int) (event : EventType) : ScheduleEntry :=
  { day := if day ≠ 7 then day else 0, hour := hour, min := min, event := event }

def scheduleAddEntry (schedule : Schedule) (entry : ScheduleEntry) : Schedule :=
  { schedule with entries := schedule.entries ++ [entry] }

def scheduleCreate (name type : CString) : Option Schedule :=
  (typeFromChar scheduleTypesTable type).map (fun type =>
    { type := type, entries := [], name := name, condition := .unset })

/-- The conversions of `"%d %d %49s"`, after `%d` for the day in a weekly schedule. -/
def scheduleScan (type : ScheduleType) (line : CString) :
    Option (Int × Int × Int × CString) := do
  let (day,line) ←
    match type with
    | .day => some (1,line)
    | .week => scanfInt line
  let (hour,line) ← scanfInt line
  let (min,line) ← scanfInt line
  let (event,_) ← scanfWord 49 line
  return (day,hour,min,event)

/-- `schedule_parse_line`. An unknown event name is not an error. -/
def scheduleParseLine (schedule : Schedule) (line : CString) : Option Schedule :=
  (scheduleScan schedule.type line).map (fun (day,hour,min,event) =>
    scheduleAddEntry schedule
      (scheduleEntryCreate day hour min ((eventTypeFromChar event).getD .invalid)))

def Schedule.setCondition (schedule : Schedule) (condition : ConditionType) : Schedule :=
  { schedule with condition := condition }

def scheduleParsingFinished (now : Tm) (schedule : Schedule) : Schedule :=
  schedule.setCondition (scheduleGetCurrentCondition schedule now)

def scheduleParser (name : CString) (options : List CString) : Option Schedule :=
  match options with
  | [] => none
  | type :: _ => scheduleCreate name type

def scheduleSearchEntry (schedule : Schedule) (ts : Tm) : Option ScheduleEntry :=
  schedule.entries.find? (fun entry =>
    match schedule.type with
    | .day => entry.hour = ts.hour ∧ entry.min = ts.min
    | .week => entry.day = ts.wday ∧ entry.hour = ts.hour ∧ entry.min = ts.min)

def World.setCondition (w : World) (device : DeviceId) (condition : ConditionType) : World :=
  match w.userdata device with
  | .schedule schedule => w.setUserdata device (.schedule (schedule.setCondition condition))
  | _ => w

/-- `schedule_check_event`. The condition changes after the rules have seen the event. -/
def scheduleCheckEvent (trigger : Trigger) (device : DeviceId) (w : World) (ts : Tm) :
    Option World :=
  match w.userdata device with
  | .schedule schedule =>
    match scheduleSearchEntry schedule ts with
    | none => some w
    | some entry =>
      (deviceTriggerEvent trigger device entry.event w).map (fun w =>
        w.setCondition device (if entry.event = .set then .set else .unset))
  | _ => some w

end DomoticaEngine
