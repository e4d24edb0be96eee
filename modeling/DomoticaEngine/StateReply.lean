import DomoticaEngine.Formats
import DomoticaEngine.Library.Json
import DomoticaEngine.RuleParser

/-!
The state of a device, as a remote connection is told it. A character stands for a byte, and the
JSON grammar is over characters: nothing is said about the encoding of bytes above 127.
-/

set_option autoImplicit false

namespace DomoticaEngine
open Reads

inductive StateValue where
  | int32 (v : Int32)
  | char (s : CString)
  | float (v : Double)
  | double (v : Double)
  | bool (b : Bool)
  | map
  deriving DecidableEq

abbrev StateMap := List (CString × StateValue)

/-- A key that is there gets the new value. -/
def StateMap.set (state : StateMap) (key : String) (v : StateValue) : StateMap :=
  if state.any (fun pair => pair.1 = key.toList) then
    state.map (fun pair => if pair.1 = key.toList then (pair.1,v) else pair)
  else state ++ [(key.toList,v)]

section StateCallbacks

/-- `lat`, `lon` and the hours and minutes of the eight times, as the macros give them. -/
structure SunrisetReading where
  lat : Double
  lon : Double
  riseAstr : Int × Int
  riseNaut : Int × Int
  riseCiv : Int × Int
  rise : Int × Int
  set : Int × Int
  setCiv : Int × Int
  setNaut : Int × Int
  setAstr : Int × Int

structure SoltrackerReading where
  lat : Double
  lon : Double
  azimuth : Double
  altitude : Double
  angle : Double
  viewAngle : Double
  inSun : Bool

structure Dht22Reading where
  temperature : Double
  humidity : Double
  error : Bool

structure MusiccastReading where
  power : Bool
  volume : Int32
  volumeMax : Int32
  volumeStep : Int32

structure Readings where
  sunriset : SunrisetReading
  soltracker : SoltrackerReading
  dht22 : Dht22Reading
  musiccast : MusiccastReading

def twoDigits (v : Int) : CString := minus (v < 0) ++ padded 2 v.natAbs

/-- `"%2.2d:%2.2d"`. -/
def timeText (time : Int × Int) : CString := twoDigits time.1 ++ ':' :: twoDigits time.2

def valueState (v : Int) (state : StateMap) : StateMap := state.set "value" (.int32 (Int32.ofInt v))

def boolState (b : BoolT) (state : StateMap) : StateMap := valueState b.val state

def fsr14DeviceState (fsr14 : DeviceFsr14) (state : StateMap) : StateMap :=
  valueState fsr14.val state

def fud14DeviceState (fud14 : DeviceFud14) (state : StateMap) : StateMap :=
  valueState fud14.dimValue.toNat state

def gpioOutputState (gpio : Gpio) (state : StateMap) : StateMap :=
  valueState gpio.value.toNat state

def fsb14StateName (condition : ConditionType) : String :=
  match condition with
  | .down => "closed"
  | .up => "open"
  | .rising => "opening"
  | .descending => "closing"
  | .stopped => "stopped"
  | _ => "unknown"

def fsb14DeviceState (fsb14 : DeviceFsb14) (varmap : StateMap) : StateMap :=
  ((varmap.set "duration" (.int32 (Int32.ofInt fsb14.duration.toNat))).set
    "value" (.char (fsb14StateName fsb14.condition).toList)).set
    "locked" (.int32 (Int32.ofInt fsb14.locked.toNat))

def veluxKlf200StateName (klf200 : DeviceVeluxKlf200) : String :=
  if klf200.changed = false then (if klf200.actualValue = 1 then "closed" else "open")
  else (if klf200.actualValue = 1 then "closing" else "opening")

def veluxKlf200DeviceState (klf200 : DeviceVeluxKlf200) (varmap : StateMap) : StateMap :=
  (varmap.set "value" (.char "unknown".toList)).set
    "value" (.char (veluxKlf200StateName klf200).toList)

def sunrisetDeviceState (sr : Sunriset) (reading : SunrisetReading) (varmap : StateMap) :
    StateMap :=
  let varmap := varmap.set "latitude" (.float reading.lat)
  let varmap := varmap.set "longitude" (.float reading.lon)
  let varmap := varmap.set "sunrise astronomical" (.char (timeText reading.riseAstr))
  let varmap := varmap.set "sunrise nautical" (.char (timeText reading.riseNaut))
  let varmap := varmap.set "sunrise civilian" (.char (timeText reading.riseCiv))
  let varmap := varmap.set "sunrise" (.char (timeText reading.rise))
  let varmap := varmap.set "sunset" (.char (timeText reading.set))
  let varmap := varmap.set "sunset civilian" (.char (timeText reading.setCiv))
  let varmap := varmap.set "sunset nautical" (.char (timeText reading.setNaut))
  let varmap := varmap.set "sunset astronomical" (.char (timeText reading.setAstr))
  let varmap := varmap.set "rised" (.bool sr.rised)
  let varmap := varmap.set "rised civilian" (.bool sr.risedCiv)
  let varmap := varmap.set "rised nautical" (.bool sr.risedNaut)
  varmap.set "rised astronomical" (.bool sr.risedAstr)

def soltrackerState (st : SoltrackerReading) (varmap : StateMap) : StateMap :=
  let varmap := varmap.set "latitude" (.double st.lat)
  let varmap := varmap.set "longitude" (.double st.lon)
  let varmap := varmap.set "azimuth" (.double st.azimuth)
  let varmap := varmap.set "altitude" (.double st.altitude)
  let varmap := varmap.set "angle" (.double st.angle)
  let varmap := varmap.set "view_angle" (.double st.viewAngle)
  varmap.set "in_sun" (.bool st.inSun)

def dht22DeviceState (dht22 : Dht22Reading) (state : StateMap) : StateMap :=
  let state := state.set "temperature" (.float dht22.temperature)
  let state := state.set "humidity" (.float dht22.humidity)
  state.set "error" (.bool dht22.error)

def musiccastDeviceState (dmc : MusiccastReading) (state : StateMap) : StateMap :=
  let state := state.set "power" (.bool dmc.power)
  let state := state.set "volume" (.int32 dmc.volume)
  let state := state.set "volume_max" (.int32 dmc.volumeMax)
  state.set "volume_step" (.int32 dmc.volumeStep)

def stateCb (readings : Readings) (data : Userdata) (state : StateMap) : StateMap :=
  match data with
  | .bool b => boolState b state
  | .fsr14 fsr14 => fsr14DeviceState fsr14 state
  | .fud14 fud14 => fud14DeviceState fud14 state
  | .fsb14 fsb14 => fsb14DeviceState fsb14 state
  | .gpo gpio => gpioOutputState gpio state
  | .veluxKlf200 klf200 => veluxKlf200DeviceState klf200 state
  | .sunriset sr => sunrisetDeviceState sr readings.sunriset state
  | .plain .soltracker => soltrackerState readings.soltracker state
  | .plain .dht22 => dht22DeviceState readings.dht22 state
  | .plain .musiccast => musiccastDeviceState readings.musiccast state
  | .timer _ | .schedule _ | .plain .fts14em | .plain .gpi => state

/-- `device_state`, for a device of a type that is registered. -/
def deviceState (readings : Readings) (device : Device) : StateMap :=
  let state := StateMap.set [] "name" (.char device.name)
  let state := state.set "devicetype" (.char (deviceTypeInfo device.deviceType).name)
  stateCb readings device.userdata state

end StateCallbacks

def stateValueText : StateValue → CString
  | .int32 v => intText v.toInt
  | .char s => s
  | .float v | .double v => floatText v
  | .bool b => intText b.toNat
  | .map => "MAP-TODO".toList

def pairText (pair : CString × StateValue) : CString :=
  "\t\"".toList ++ pair.1 ++ "\" : \"".toList ++ stateValueText pair.2 ++ ['"']

/-- The loop over the pairs, which counts them. -/
def replyPairs (mapCount : Nat) : Nat → StateMap → CString → CString
  | _, [], response => response
  | count, pair :: pairs, response =>
    replyPairs mapCount (count+1) pairs
      (response ++ pairText pair ++ (if count < mapCount then [','] else []) ++ ['\n'])

def stateReply (pairs : StateMap) : CString :=
  replyPairs pairs.length 1 pairs "\x7b\n".toList ++ "\x7d\n".toList

/-- The response of `handle_incoming_conn_event` to a command. `handled` is the result of
`handle_command`, and `map` and `json` are what it has set. -/
def connResponse (handled : Bool) (map : Option StateMap) (json : Option CString) : CString :=
  if handled then
    match map,json with
    | some pairs,_ => stateReply pairs
    | none,some json => json
    | none,none => "OK".toList
  else "NOK".toList

section Plain

theorem timeText_plain (time : Int × Int) : PlainText (timeText time) := by
  have htwo : ∀ v, PlainText (twoDigits v) := fun v =>
    plainText_append.mpr ⟨minus_plain _,padded_plain _ _⟩
  exact plainText_append.mpr ⟨htwo _,plainText_cons.mpr ⟨by decide,htwo _⟩⟩

theorem value_plain {v : StateValue} (h : ∀ s, v = .char s → PlainText s) :
    PlainText (stateValueText v) := by
  cases v with
  | char s => exact h s rfl
  | float v | double v => exact floatText_plain v
  | int32 v => exact intText_plain _
  | bool b => exact intText_plain _
  | map => decide

theorem typeName_plain (type : DeviceType) : PlainText (deviceTypeInfo type).name := by
  cases type <;> decide

end Plain

section Settings

def settings (readings : Readings) : Userdata → List (String × StateValue)
  | .bool b => [("value",.int32 (Int32.ofInt b.val))]
  | .fsr14 fsr14 => [("value",.int32 (Int32.ofInt fsr14.val))]
  | .fud14 fud14 => [("value",.int32 (Int32.ofInt fud14.dimValue.toNat))]
  | .gpo gpio => [("value",.int32 (Int32.ofInt gpio.value.toNat))]
  | .fsb14 fsb14 =>
    [("duration",.int32 (Int32.ofInt fsb14.duration.toNat)),
     ("value",.char (fsb14StateName fsb14.condition).toList),
     ("locked",.int32 (Int32.ofInt fsb14.locked.toNat))]
  | .veluxKlf200 klf200 =>
    [("value",.char "unknown".toList),("value",.char (veluxKlf200StateName klf200).toList)]
  | .sunriset sr =>
    [("latitude",.float readings.sunriset.lat),("longitude",.float readings.sunriset.lon),
     ("sunrise astronomical",.char (timeText readings.sunriset.riseAstr)),
     ("sunrise nautical",.char (timeText readings.sunriset.riseNaut)),
     ("sunrise civilian",.char (timeText readings.sunriset.riseCiv)),
     ("sunrise",.char (timeText readings.sunriset.rise)),
     ("sunset",.char (timeText readings.sunriset.set)),
     ("sunset civilian",.char (timeText readings.sunriset.setCiv)),
     ("sunset nautical",.char (timeText readings.sunriset.setNaut)),
     ("sunset astronomical",.char (timeText readings.sunriset.setAstr)),
     ("rised",.bool sr.rised),("rised civilian",.bool sr.risedCiv),
     ("rised nautical",.bool sr.risedNaut),("rised astronomical",.bool sr.risedAstr)]
  | .plain .soltracker =>
    [("latitude",.double readings.soltracker.lat),("longitude",.double readings.soltracker.lon),
     ("azimuth",.double readings.soltracker.azimuth),
     ("altitude",.double readings.soltracker.altitude),
     ("angle",.double readings.soltracker.angle),
     ("view_angle",.double readings.soltracker.viewAngle),
     ("in_sun",.bool readings.soltracker.inSun)]
  | .plain .dht22 =>
    [("temperature",.float readings.dht22.temperature),
     ("humidity",.float readings.dht22.humidity),("error",.bool readings.dht22.error)]
  | .plain .musiccast =>
    [("power",.bool readings.musiccast.power),("volume",.int32 readings.musiccast.volume),
     ("volume_max",.int32 readings.musiccast.volumeMax),
     ("volume_step",.int32 readings.musiccast.volumeStep)]
  | .timer _ | .schedule _ | .plain .fts14em | .plain .gpi => []

variable {readings : Readings} {data : Userdata} {state : StateMap}

theorem stateCb_settings (readings : Readings) (data : Userdata) (state : StateMap) :
    stateCb readings data state =
      (settings readings data).foldl (fun state call => state.set call.1 call.2) state := by
  cases data with
  | sunriset sr =>
    simp only [stateCb,sunrisetDeviceState,settings,List.foldl_cons,List.foldl_nil]
  | plain type =>
    cases type with
    | soltracker => simp only [stateCb,soltrackerState,settings,List.foldl_cons,List.foldl_nil]
    | _ => rfl
  | _ => rfl

theorem settings_keys {call : String × StateValue} (h : call ∈ settings readings data) :
    PlainText call.1.toList ∧ call.1.toList ≠ "name".toList := by
  have hkeys : ∀ key ∈ (settings readings data).map Prod.fst,
      PlainText key.toList ∧ key.toList ≠ "name".toList := by
    cases data with
    | plain type => cases type <;> simp only [settings,List.map_cons,List.map_nil] <;> decide
    | _ => simp only [settings,List.map_cons,List.map_nil]; decide
  exact hkeys _ (List.mem_map_of_mem h)

theorem fsb14StateName_plain (condition : ConditionType) :
    PlainText (fsb14StateName condition).toList := by
  cases condition <;> decide

theorem veluxKlf200StateName_plain (klf200 : DeviceVeluxKlf200) :
    PlainText (veluxKlf200StateName klf200).toList := by
  unfold veluxKlf200StateName
  split <;> split <;> decide

theorem settings_values {call : String × StateValue} (h : call ∈ settings readings data) :
    PlainText (stateValueText call.2) := by
  refine value_plain (fun s hs => ?_)
  have hchars : ∀ call ∈ settings readings data, ∀ s, call.2 = .char s → PlainText s := by
    cases data with
    | plain type => cases type <;> simp [settings]
    | fsb14 fsb14 => simpa [settings] using fsb14StateName_plain _
    | veluxKlf200 klf200 =>
      have hunknown : PlainText "unknown".toList := by decide
      simpa [settings] using ⟨hunknown,veluxKlf200StateName_plain klf200⟩
    | sunriset sr => simp [settings,timeText_plain]
    | _ => simp [settings]
  exact hchars call h s hs

theorem set_all {P : CString × StateValue → Prop} {key : String} {v : StateValue}
    (h : ∀ pair ∈ state, P pair) (hnew : P (key.toList,v)) : ∀ pair ∈ state.set key v, P pair := by
  unfold StateMap.set
  split
  · intro pair hpair
    obtain ⟨old,hold,rfl⟩ := List.mem_map.mp hpair
    by_cases hkey : old.1 = key.toList
    · rw [if_pos hkey,hkey]
      exact hnew
    · rw [if_neg hkey]
      exact h old hold
  · exact List.forall_mem_append.mpr ⟨h,by simpa using hnew⟩

theorem set_other {key : String} {v : StateValue} {pair : CString × StateValue}
    (h : pair ∈ state) (hkey : key.toList ≠ pair.1) : pair ∈ state.set key v := by
  unfold StateMap.set
  split
  · exact List.mem_map.mpr ⟨pair,h,if_neg (Ne.symm hkey)⟩
  · exact List.mem_append_left _ h

theorem stateCb_all {P : CString × StateValue → Prop} (h : ∀ pair ∈ state, P pair)
    (hcalls : ∀ call ∈ settings readings data, P (call.1.toList,call.2)) :
    ∀ pair ∈ stateCb readings data state, P pair := by
  rw [stateCb_settings]
  generalize settings readings data = calls at hcalls
  induction calls generalizing state with
  | nil => exact h
  | cons call calls ih =>
    exact ih (set_all h (hcalls call (by simp))) (fun c hc => hcalls c (by simp [hc]))

theorem stateCb_name {pair : CString × StateValue} (h : pair ∈ state)
    (hname : pair.1 = "name".toList) : pair ∈ stateCb readings data state := by
  rw [stateCb_settings]
  have hkeys : ∀ call ∈ settings readings data, call.1.toList ≠ pair.1 :=
    fun call hcall => hname ▸ (settings_keys hcall).2
  generalize settings readings data = calls at hkeys
  induction calls generalizing state with
  | nil => exact h
  | cons call calls ih =>
    exact ih (set_other h (hkeys call (by simp))) (fun c hc => hkeys c (by simp [hc]))

theorem deviceState_plain (readings : Readings) (device : Device) :
    (∀ pair ∈ deviceState readings device, PlainText pair.1) ∧
      ((∀ pair ∈ deviceState readings device, PlainText (stateValueText pair.2)) ↔
        PlainText device.name) := by
  have hother : "devicetype".toList ≠ "name".toList := by decide
  have hname : ("name".toList,StateValue.char device.name) ∈ deviceState readings device :=
    stateCb_name (set_other (by simp [StateMap.set]) hother) rfl
  have hkey : PlainText "name".toList ∧ PlainText "devicetype".toList := by decide
  refine ⟨?_,fun h => h _ hname,fun h => ?_⟩
  · refine stateCb_all (set_all (set_all (by simp) hkey.1) hkey.2) ?_
    exact fun call hcall => (settings_keys hcall).1
  · refine stateCb_all (set_all (set_all (by simp) h) (typeName_plain _)) ?_
    exact fun call hcall => settings_values hcall

end Settings

section Reply
variable {pairs : StateMap} {pair : CString × StateValue}

def pairSeparator : CString := [] ++ ',' :: ['\n']

theorem replyPairs_eq (pairs : StateMap) (count : Nat) (response : CString) :
    replyPairs (count+pairs.length) (count+1) pairs response =
      response ++ pairSeparator.intercalate (pairs.map pairText) ++
        (if pairs = [] then [] else ['\n']) := by
  induction pairs generalizing count response with
  | nil => simp [replyPairs]
  | cons pair pairs ih =>
    have hcount : count+(pair :: pairs).length = count+1+pairs.length := by
      simp only [List.length_cons]
      omega
    rw [hcount,replyPairs,ih]
    cases pairs with
    | nil => simp
    | cons pair' pairs =>
      simp [List.intercalate_cons_cons,pairSeparator]

theorem stateReply_eq (pairs : StateMap) :
    stateReply pairs = '{' :: (['\n'] ++ (pairSeparator.intercalate (pairs.map pairText) ++
      ((if pairs = [] then [] else ['\n']) ++ ['}']))) ++ ['\n'] := by
  have hpairs := replyPairs_eq pairs 0 "\x7b\n".toList
  rw [Nat.zero_add,Nat.zero_add] at hpairs
  rw [stateReply,hpairs]
  simp

def decoded (pair : CString × StateValue) : CString × Json.Value :=
  (pair.1,.string (stateValueText pair.2))

theorem pairText_prints (hkey : PlainText pair.1) (hvalue : PlainText (stateValueText pair.2)) :
    Json.PrintsMember (pairText pair) (decoded pair).1 (decoded pair).2 := by
  have htab : Json.Blank ['\t'] := Json.blank_singleton rfl
  have hspace : Json.Blank [' '] := Json.blank_singleton rfl
  have hstring := (Json.prints_string hvalue).blanks hspace Json.blank_nil
  have hmember := Json.prints_member htab hspace hkey hstring
  have htext : pairText pair = ['\t'] ++ '"' :: (pair.1 ++ '"' :: ([' '] ++ ':' ::
      ([' '] ++ '"' :: (stateValueText pair.2 ++ ['"']) ++ []))) := by
    simp [pairText]
  rw [htext]
  exact hmember

theorem pairText_spliced {w t t' u v x : CString} (hkey : PlainText pair.1) (hw : '"' ∉ w)
    (htext : Json.skip (pairText pair ++ (w ++ '\n' :: t)) = '"' :: t')
    (hk : Json.Chars t' pair.1 u) (hu : Json.skip u = ':' :: v)
    (h : Json.Reads (Json.skip v) (.value (.string (stateValueText pair.2))) x) :
    PlainText (stateValueText pair.2) ∧ x = w ++ '\n' :: t := by
  have htab : Json.skip (pairText pair ++ (w ++ '\n' :: t)) = '"' :: (pair.1 ++ '"' ::
      (' ' :: ':' :: ' ' :: '"' :: (stateValueText pair.2 ++ '"' :: (w ++ '\n' :: t)))) := by
    simp [pairText,Json.skip,Json.isSpace]
  rw [htab,List.cons.injEq] at htext
  obtain ⟨-,rfl⟩ := htext
  obtain ⟨-,rfl⟩ := hk.unique (Json.chars_plain hkey _)
  have hcolon : Json.skip (' ' :: ':' :: ' ' :: '"' ::
      (stateValueText pair.2 ++ '"' :: (w ++ '\n' :: t))) =
      ':' :: ' ' :: '"' :: (stateValueText pair.2 ++ '"' :: (w ++ '\n' :: t)) := by
    simp [Json.skip,Json.isSpace]
  rw [hcolon,List.cons.injEq] at hu
  obtain ⟨-,rfl⟩ := hu
  have hquote : Json.skip (' ' :: '"' :: (stateValueText pair.2 ++ '"' :: (w ++ '\n' :: t))) =
      '"' :: (stateValueText pair.2 ++ '"' :: (w ++ '\n' :: t)) := by
    simp [Json.skip,Json.isSpace]
  rw [hquote] at h
  cases h with
  | string h => exact Json.chars_spliced hw h

/-- Induction on the pairs, along the text. -/
theorem members_spliced {t r : CString} (hkeys : ∀ pair ∈ pairs, PlainText pair.1)
    (h : Json.Reads (Json.skip (pairSeparator.intercalate (pairs.map pairText) ++ '\n' :: t))
      (.members (pairs.map decoded)) r) : ∀ pair ∈ pairs, PlainText (stateValueText pair.2) := by
  induction pairs with
  | nil => simp
  | cons pair pairs ih =>
    have hkey := hkeys pair (by simp)
    cases pairs with
    | nil =>
      generalize htext : Json.skip _ = text at h
      simp only [List.map_cons,List.map_nil,List.intercalate_singleton] at htext h
      cases h with
      | lastMember hk hu h hw =>
        have hplain := (pairText_spliced (w := []) hkey (by simp) htext hk hu h).1
        simpa using hplain
      | member _ _ _ _ hrest => exact absurd rfl hrest.members_ne
    | cons pair' pairs =>
      generalize htext : Json.skip _ = text at h
      have hsplit : pairSeparator.intercalate ((pair :: pair' :: pairs).map pairText) ++
          '\n' :: t = pairText pair ++ ([','] ++ '\n' ::
            (pairSeparator.intercalate ((pair' :: pairs).map pairText) ++ '\n' :: t)) := by
        simp [List.intercalate_cons_cons,pairSeparator]
      rw [hsplit] at htext
      cases h with
      | member hk hu h hw hrest =>
        obtain ⟨hplain,rfl⟩ := pairText_spliced (w := [',']) hkey (by decide) htext hk hu h
        have hcomma : Json.isSpace ',' = false := by decide
        rw [List.singleton_append,Json.skip_of_not_space hcomma,List.cons.injEq] at hw
        obtain ⟨-,rfl⟩ := hw
        have hnewline : ∀ t, Json.skip ('\n' :: t) = Json.skip t := fun t => rfl
        rw [hnewline] at hrest
        exact List.forall_mem_cons.mpr ⟨hplain,ih (fun p hp => hkeys p (by simp [hp])) hrest⟩

/-- Keys and values are put between quotes as they are. -/
theorem stateReply_iff (hkeys : ∀ pair ∈ pairs, PlainText pair.1) :
    Json.Text (stateReply pairs) (.object (pairs.map decoded)) ↔
      ∀ pair ∈ pairs, PlainText (stateValueText pair.2) := by
  have hblank : Json.Blank ['\n'] := Json.blank_singleton rfl
  have hnone : Json.Blank ([] : CString) := Json.blank_nil
  rw [stateReply_eq]
  constructor
  · rintro ⟨r,hr,-⟩
    cases pairs with
    | nil => simp
    | cons pair pairs =>
      have hopen : Json.isSpace '{' = false := by decide
      rw [List.cons_append,Json.skip_of_not_space hopen] at hr
      cases hr with
      | object h =>
        rw [List.append_assoc,Json.skip_blank hblank] at h
        simp only [List.cons_ne_nil,if_false] at h
        rw [List.append_assoc] at h
        exact members_spliced hkeys h
  · intro hvalues
    have hitems : ∀ item ∈ pairs.map (fun pair => (pairText pair,decoded pair)),
        Json.PrintsMember item.1 item.2.1 item.2.2 := by
      intro item hitem
      obtain ⟨pair,hpair,rfl⟩ := List.mem_map.mp hitem
      exact pairText_prints (hkeys pair hpair) (hvalues pair hpair)
    have hclose : Json.Blank (if pairs = [] then [] else ['\n']) := by
      split
      · exact hnone
      · exact hblank
    have hobject := Json.prints_object hnone hblank hitems hblank hclose
    simp only [List.map_map] at hobject
    exact (hobject.blanks hnone hblank).text

end Reply

/-- The reply to a request for a state, for the pairs of the map in the order in which they come:
the name is put between quotes as it was declared. -/
theorem state_reply_iff (readings : Readings) (device : Device) (pairs : StateMap)
    (json : Option CString) (hpairs : pairs.Perm (deviceState readings device)) :
    Json.Text (connResponse true (some pairs) json) (.object (pairs.map decoded)) ↔
      PlainText device.name := by
  obtain ⟨hkeys,hvalues⟩ := deviceState_plain readings device
  have hplain : ∀ pair ∈ pairs, PlainText pair.1 :=
    fun pair hpair => hkeys pair (hpairs.subset hpair)
  have hreply := stateReply_iff hplain
  rw [← hvalues]
  refine hreply.trans ⟨fun h pair hpair => ?_,fun h pair hpair => ?_⟩
  · exact h pair (hpairs.symm.subset hpair)
  · exact h pair (hpairs.subset hpair)

def nothingRead : Readings :=
  { sunriset := ⟨.finite false 51,.finite false 4,(0,0),(0,0),(0,0),(0,0),(0,0),(0,0),(0,0),(0,0)⟩
    soltracker := ⟨.finite false 51,.finite false 4,.finite false 0,.finite false 0,
      .finite false 180,.finite false 90,false⟩
    dht22 := ⟨.finite false 0,.finite false 0,false⟩
    musiccast := ⟨false,0,0,0⟩ }

theorem state_reply_lamp :
    Json.Text (connResponse true (some (deviceState nothingRead ⟨"lamp".toList,.bool ⟨1⟩⟩)) none)
        (.object ((deviceState nothingRead ⟨"lamp".toList,.bool ⟨1⟩⟩).map decoded)) ↔
      PlainText "lamp".toList :=
  state_reply_iff nothingRead ⟨"lamp".toList,.bool ⟨1⟩⟩ _ none (List.Perm.refl _)

/-- The line parser takes any character but blanks for a part of a name. -/
theorem quoted_name :
    AcceptsAll (rulesReadFileDeclarations quietHouse) ["BOOL a\"b 0\n".toList] .start
        { devices := [⟨"a\"b".toList,.bool ⟨0⟩⟩], schedule := none } ∧
      ¬ Json.Text
        (connResponse true (some (deviceState nothingRead ⟨"a\"b".toList,.bool ⟨0⟩⟩)) none)
        (.object ((deviceState nothingRead ⟨"a\"b".toList,.bool ⟨0⟩⟩).map decoded)) := by
  refine ⟨by rfl,fun h => ?_⟩
  obtain ⟨hkeys,hvalues⟩ := deviceState_plain nothingRead ⟨"a\"b".toList,.bool ⟨0⟩⟩
  have hplain : PlainText "a\"b".toList := hvalues.mp ((stateReply_iff hkeys).mp h)
  revert hplain
  decide

end DomoticaEngine
