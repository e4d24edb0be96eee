import DomoticaEngine.DeviceLogs
import DomoticaEngine.GpioSteps
import DomoticaEngine.Library.Runs

/-!
The measuring rounds of the DHT22 sensors, every five minutes, and the logs that they fill.
-/

set_option autoImplicit false

namespace DomoticaEngine
open Recent

def measurmentInterval : Nat := 300

structure Dht22 where
  temperature : Double
  humidity : Double
  error : Bool
  deriving DecidableEq

def Dht22.value (dht22 : Dht22) : LogType → Double
  | .temperature => dht22.temperature
  | .humidity => dht22.humidity

/-- A `time_t` after 1970, rounded to the nearest multiple of the interval. -/
def dht22GetCurrentLogTimeRounded (now : Nat) : Nat :=
  let diff := now % measurmentInterval
  if diff < measurmentInterval/2 then now - now % measurmentInterval
  else now + (measurmentInterval - now % measurmentInterval)

def dht22UntilNext (now : Nat) : Nat :=
  1000*measurmentInterval - now % (1000*measurmentInterval)

structure Logging (σ : Type) where
  logs : List DeviceLog
  outside : σ

structure Measuring (σ : Type) where
  due : Nat
  logging : Logging σ

section Rounds
variable {σ : Type} (around : DeviceId → Around σ)

/-- `time` and `get_current_time_ms` read the same clock. The other store, in a database, is left
out. -/
def dht22StoreMeasurementValues (device : DeviceId) (dht22 : Dht22) (s : Logging σ) :
    Logging σ :=
  let (now,outside) := (around device).getCurrentTimeMs s.outside
  let logTime := dht22GetCurrentLogTimeRounded (now.toNat/1000)
  let logs := deviceLogAdd device .temperature logTime dht22.temperature s.logs
  { logs := deviceLogAdd device .humidity logTime dht22.humidity logs, outside := outside }

def dht22MeasureDevice (s : Logging σ) (sensor : DeviceId × Dht22) : Option (Logging σ) :=
  let (device,dht22) := sensor
  if dht22.error then some s
  else do
    let outside ← (around device).trigger .temperature s.outside
    let outside ← (around device).trigger .humidity outside
    return dht22StoreMeasurementValues around device dht22 { s with outside := outside }

def dht22MeasureDevices (dht22Devices : List (DeviceId × Dht22)) (s : Logging σ) :
    Option (Logging σ) :=
  dht22Devices.foldlM (dht22MeasureDevice around) s

/-- `now` is what the callback reads of the clock. Its first call has no argument, and measures
nothing. -/
def dht22CalculateNextMeasurementMoment (arg : Bool) (now : Nat)
    (dht22Devices : List (DeviceId × Dht22)) (s : Measuring σ) : Option (Measuring σ) :=
  let s := { s with due := now + dht22UntilNext now }
  if arg then
    (dht22MeasureDevices around dht22Devices s.logging).map (fun logging =>
      { s with logging := logging })
  else some s

end Rounds

/-- A callback at the time `time`, with what the sensors hold and the time that the rules spend on
their events. -/
structure Round where
  time : Nat
  values : DeviceId → Dht22
  spent : DeviceId → EventType → Nat

/-- The program has just been started, at the time `now`. -/
def Measuring.start (now : Nat) : Measuring (Moment (DeviceId × EventType)) :=
  { due := now + dht22UntilNext now, logging := ⟨[],⟨now,[]⟩⟩ }

def Round.around (round : Round) (d : DeviceId) : Around (Moment (DeviceId × EventType)) :=
  Moment.around (fun type => (d,type)) (round.spent d)

def Round.sensors (round : Round) (ids : List DeviceId) : List (DeviceId × Dht22) :=
  ids.map (fun d => (d,round.values d))

/-- The timer does not expire before it is due. -/
def measuringStep (ids : List DeviceId) (round : Round)
    (s : Measuring (Moment (DeviceId × EventType))) :
    Option (Measuring (Moment (DeviceId × EventType))) := do
  let outside ← s.logging.outside.wait round.time
  if s.due ≤ round.time then
    dht22CalculateNextMeasurementMoment round.around true round.time (round.sensors ids)
      { s with logging := { s.logging with outside := outside } }
  else none

def loggedTime (spent : DeviceId → EventType → Nat) (d : DeviceId) : Nat → List DeviceId → Nat
  | now, [] => now
  | now, d' :: ids =>
    if d' = d then now+spent d' .temperature+spent d' .humidity
    else loggedTime spent d (now+spent d' .temperature+spent d' .humidity) ids

def InTime (ids : List DeviceId) : Nat → List Round → Prop
  | _, [] => True
  | due, round :: rounds =>
    (∀ d ∈ ids, loggedTime round.spent d round.time ids < due + 150000) ∧
      InTime ids (due + 300000) rounds

def roundEntries (d : DeviceId) (type : LogType) : Nat → List Round → List DeviceLogEntry
  | _, [] => []
  | due, round :: rounds =>
    ⟨(due/1000 : Nat),(round.values d).value type⟩ :: roundEntries d type (due+300000) rounds

def LogHolds (logs : List DeviceLog) (pair : DeviceId × LogType) (entries : List DeviceLogEntry) :
    Prop :=
  if entries = [] then logsOf pair logs = []
  else ∃ log, logsOf pair logs = [log] ∧ log.entries.contents = entries.reverse.take logEntries

def roundAdds (round : Round) : Nat → List DeviceId → List LogAdd
  | _, [] => []
  | now, d :: ids =>
    let now := now+round.spent d .temperature+round.spent d .humidity
    let logTime := dht22GetCurrentLogTimeRounded (now/1000)
    ⟨d,.temperature,logTime,(round.values d).temperature⟩ ::
      ⟨d,.humidity,logTime,(round.values d).humidity⟩ :: roundAdds round now ids

def Round.add (round : Round) (ids : List DeviceId) (d : DeviceId) (type : LogType) : LogAdd :=
  ⟨d,type,dht22GetCurrentLogTimeRounded (loggedTime round.spent d round.time ids/1000),
    (round.values d).value type⟩

section Round
variable {round : Round} {ids : List DeviceId} {d : DeviceId}

theorem addsTo_cons (d d' : DeviceId) (type type' : LogType) (ts : Int) (value : Double)
    (adds : List LogAdd) :
    addsTo (d,type) (⟨d',type',ts,value⟩ :: adds) =
      if d' = d ∧ type' = type then ⟨d',type',ts,value⟩ :: addsTo (d,type) adds
      else addsTo (d,type) adds := by
  simp only [addsTo,List.filter_cons,LogAdd.pair,Prod.mk.injEq,decide_eq_true_eq]

theorem addsTo_append (pair : DeviceId × LogType) (adds adds' : List LogAdd) :
    addsTo pair (adds ++ adds') = addsTo pair adds ++ addsTo pair adds' :=
  List.filter_append adds adds'

theorem addsTo_absent (type : LogType) {now : Nat} (hd : d ∉ ids) :
    addsTo (d,type) (roundAdds round now ids) = [] := by
  induction ids generalizing now with
  | nil => rfl
  | cons d' ids ih =>
    have hne : d' ≠ d := fun heq => hd (heq ▸ List.mem_cons_self)
    have hrest : d ∉ ids := fun hmem => hd (List.mem_cons_of_mem _ hmem)
    simp only [roundAdds,addsTo_cons,hne,false_and,if_false,ih hrest]

theorem addsTo_round (type : LogType) {now : Nat} (hnodup : ids.Nodup) (hd : d ∈ ids) :
    addsTo (d,type) (roundAdds round now ids) =
      [⟨d,type,dht22GetCurrentLogTimeRounded (loggedTime round.spent d now ids/1000),
        (round.values d).value type⟩] := by
  induction ids generalizing now with
  | nil => cases hd
  | cons d' ids ih =>
    obtain ⟨hhead,hnodup⟩ := List.nodup_cons.mp hnodup
    by_cases heq : d' = d
    · subst heq
      simp only [roundAdds,addsTo_cons,addsTo_absent type hhead,loggedTime,true_and,if_true]
      cases type <;> rfl
    · have hrest := (List.mem_cons.mp hd).resolve_left (fun h => heq h.symm)
      simp only [roundAdds,addsTo_cons,heq,false_and,if_false,loggedTime,ih hnodup hrest]

theorem loggedTime_le {spent : DeviceId → EventType → Nat} (now : Nat) :
    now ≤ loggedTime spent d now ids := by
  induction ids generalizing now with
  | nil => exact Nat.le_refl now
  | cons d' ids ih =>
    have hrest := ih (now+spent d' .temperature+spent d' .humidity)
    rw [loggedTime]
    split <;> omega

end Round

def addLog (logs : List DeviceLog) (add : LogAdd) : List DeviceLog :=
  deviceLogAdd add.device add.type add.ts add.value logs

section Steps
variable {ids : List DeviceId} {round : Round}
  {s s' : Logging (Moment (DeviceId × EventType))}

theorem dht22MeasureDevice_some {d : DeviceId} (herror : (round.values d).error = false)
    (h : dht22MeasureDevice round.around s (d,round.values d) = some s') :
    s'.outside.now = s.outside.now+round.spent d .temperature+round.spent d .humidity ∧
      s'.logs = (roundAdds round s.outside.now [d]).foldl addLog s.logs := by
  unfold dht22MeasureDevice at h
  simp only [herror,Bool.false_eq_true,if_false,Option.bind_eq_bind,Option.bind_eq_some_iff] at h
  obtain ⟨outside,htemperature,outside',hhumidity,hs'⟩ := h
  unfold Round.around Moment.around at htemperature hhumidity
  simp only at htemperature hhumidity
  split at htemperature <;> cases htemperature
  split at hhumidity <;> cases hhumidity
  rename_i hfits
  cases hs'
  refine ⟨rfl,?_⟩
  have hnow : (UInt64.ofNat (s.outside.now+round.spent d .temperature+
      round.spent d .humidity)).toNat =
        s.outside.now+round.spent d .temperature+round.spent d .humidity :=
    UInt64.toNat_ofNat_of_lt' hfits
  simp only [dht22StoreMeasurementValues,Round.around,Moment.around,hnow]
  rfl

theorem dht22MeasureDevices_some (herror : ∀ d ∈ ids, (round.values d).error = false)
    (h : dht22MeasureDevices round.around (round.sensors ids) s = some s') :
    s.outside.now ≤ s'.outside.now ∧
      s'.logs = (roundAdds round s.outside.now ids).foldl addLog s.logs := by
  induction ids generalizing s with
  | nil =>
    cases h
    exact ⟨Nat.le_refl _,rfl⟩
  | cons d ids ih =>
    simp only [dht22MeasureDevices,Round.sensors,List.map_cons,List.foldlM_cons,
      Option.bind_eq_bind,Option.bind_eq_some_iff] at h
    obtain ⟨s₁,hfirst,hrest⟩ := h
    obtain ⟨hnow,hlogs⟩ := dht22MeasureDevice_some (herror d List.mem_cons_self) hfirst
    obtain ⟨hlater,hlogs'⟩ := ih (fun d' hd' => herror d' (List.mem_cons_of_mem _ hd')) hrest
    refine ⟨by omega,?_⟩
    rw [hlogs',hlogs,hnow]
    rfl

theorem measuringStep_some {s s' : Measuring (Moment (DeviceId × EventType))}
    (herror : ∀ d ∈ ids, (round.values d).error = false)
    (h : measuringStep ids round s = some s') :
    s.due ≤ round.time ∧ s'.due = round.time + dht22UntilNext round.time ∧
      s'.logging.logs = (roundAdds round round.time ids).foldl addLog s.logging.logs := by
  simp only [measuringStep,Option.bind_eq_bind,Option.bind_eq_some_iff,Moment.wait_some] at h
  obtain ⟨outside,⟨-,-,rfl⟩,h⟩ := h
  split at h
  · rename_i hdue
    obtain ⟨logging,hmeasure,rfl⟩ := Option.map_eq_some_iff.mp h
    exact ⟨hdue,rfl,(dht22MeasureDevices_some herror hmeasure).2⟩
  · cases h

/-- Induction on the rounds. -/
theorem measuringRun_logs {rounds : List Round} {s s' : Measuring (Moment (DeviceId × EventType))}
    (herror : ∀ round ∈ rounds, ∀ d ∈ ids, (round.values d).error = false)
    (hrun : Runs.after (measuringStep ids) rounds s = some s') :
    s'.logging.logs = (rounds.flatMap (fun round => roundAdds round round.time ids)).foldl addLog
      s.logging.logs := by
  induction rounds generalizing s with
  | nil =>
    cases hrun
    rfl
  | cons round rounds ih =>
    obtain ⟨s₁,hstep,hrest⟩ := Runs.after_cons.mp hrun
    rw [ih (fun r hr => herror r (List.mem_cons_of_mem _ hr)) hrest,List.flatMap_cons,
      List.foldl_append,(measuringStep_some (herror round List.mem_cons_self) hstep).2.2]

end Steps

section Entries
variable {ids : List DeviceId} {rounds : List Round} {d : DeviceId}

theorem addsTo_rounds (type : LogType) (hnodup : ids.Nodup) (hd : d ∈ ids) (rounds : List Round) :
    addsTo (d,type) (rounds.flatMap (fun round => roundAdds round round.time ids)) =
      rounds.map (fun round => round.add ids d type) := by
  induction rounds with
  | nil => rfl
  | cons round rounds ih =>
    rw [List.flatMap_cons,addsTo_append,addsTo_round type hnodup hd,ih]
    rfl

theorem logs_hold {s : Measuring (Moment (DeviceId × EventType))} {now : Nat}
    (hnodup : ids.Nodup) (hd : d ∈ ids)
    (herror : ∀ round ∈ rounds, ∀ d ∈ ids, (round.values d).error = false)
    (hrun : Runs.after (measuringStep ids) rounds (Measuring.start now) = some s)
    (type : LogType) :
    LogHolds s.logging.logs (d,type)
      (rounds.map (fun round => (round.add ids d type).entry)) := by
  have hlogs := logsOf_after (d,type)
    (rounds.flatMap (fun round => roundAdds round round.time ids))
  rw [addsTo_rounds type hnodup hd] at hlogs
  have hafter : s.logging.logs =
      deviceLogsAfter (rounds.flatMap (fun round => roundAdds round round.time ids)) :=
    measuringRun_logs herror hrun
  rw [← hafter] at hlogs
  unfold LogHolds
  cases rounds with
  | nil => exact hlogs
  | cons round rounds =>
    rw [if_neg (by simp)] at hlogs ⊢
    refine ⟨_,hlogs,?_⟩
    rw [inserts_contents,List.map_map]
    rfl

theorem rounded_iff {due k t : Nat} (hdue : due = 300000*k) (hle : due ≤ t) :
    dht22GetCurrentLogTimeRounded (t/1000) = due/1000 ↔ t < due+150000 := by
  unfold dht22GetCurrentLogTimeRounded measurmentInterval
  simp only
  split <;> omega

theorem untilNext_due {due k t : Nat} (hdue : due = 300000*k) (hle : due ≤ t)
    (hlt : t < due+150000) : t + dht22UntilNext t = due+300000 := by
  unfold dht22UntilNext measurmentInterval
  omega

/-- The entries have the times for which the rounds are set exactly when the rounds are in time. -/
theorem entries_iff {s s' : Measuring (Moment (DeviceId × EventType))} {k : Nat}
    (hne : ids ≠ []) (herror : ∀ round ∈ rounds, ∀ d ∈ ids, (round.values d).error = false)
    (hdue : s.due = 300000*k) (hrun : Runs.after (measuringStep ids) rounds s = some s') :
    (∀ d ∈ ids, ∀ type, rounds.map (fun round => (round.add ids d type).entry) =
      roundEntries d type s.due rounds) ↔ InTime ids s.due rounds := by
  induction rounds generalizing s k with
  | nil => exact iff_of_true (fun _ _ _ => rfl) trivial
  | cons round rounds ih =>
    obtain ⟨s₁,hstep,hrest⟩ := Runs.after_cons.mp hrun
    obtain ⟨hlate,hdue₁,-⟩ := measuringStep_some (herror round List.mem_cons_self) hstep
    have hhead : ∀ d type, (round.add ids d type).entry =
        ⟨(s.due/1000 : Nat),(round.values d).value type⟩ ↔
          loggedTime round.spent d round.time ids < s.due+150000 := by
      intro d type
      rw [← rounded_iff hdue (Nat.le_trans hlate (loggedTime_le round.time))]
      simp only [Round.add,LogAdd.entry,DeviceLogEntry.mk.injEq,and_true]
      exact Int.natCast_inj
    have hnext : (∀ d ∈ ids, loggedTime round.spent d round.time ids < s.due+150000) →
        s₁.due = s.due+300000 := by
      intro hin
      obtain ⟨d,hd⟩ := List.exists_mem_of_ne_nil ids hne
      rw [hdue₁]
      exact untilNext_due hdue hlate (Nat.lt_of_le_of_lt (loggedTime_le round.time) (hin d hd))
    have htail := fun hin => ih (s := s₁) (k := k+1)
      (fun r hr => herror r (List.mem_cons_of_mem _ hr)) (by rw [hnext hin,hdue]; omega) hrest
    simp only [List.map_cons,roundEntries,List.cons.injEq,InTime]
    constructor
    · intro h
      have hin := fun d hd => (hhead d .temperature).mp (h d hd .temperature).1
      rw [← hnext hin] at h ⊢
      exact ⟨hin,(htail hin).mp (fun d hd type => (h d hd type).2)⟩
    · rintro ⟨hin,hrounds⟩ d hd type
      rw [← hnext hin] at hrounds ⊢
      exact ⟨(hhead d type).mpr (hin d hd),(htail hin).mpr hrounds d hd type⟩

theorem inTime_nil (due : Nat) (rounds : List Round) : InTime [] due rounds := by
  induction rounds generalizing due with
  | nil => trivial
  | cons round rounds ih => exact ⟨fun _ hd => absurd hd List.not_mem_nil,ih _⟩

theorem roundEntries_take (d : DeviceId) (type : LogType) (due n : Nat) (rounds : List Round) :
    roundEntries d type due (rounds.take n) = (roundEntries d type due rounds).take n := by
  induction rounds generalizing due n with
  | nil => simp [roundEntries]
  | cons round rounds ih =>
    cases n with
    | zero => rfl
    | succ n => simp only [List.take_succ_cons,roundEntries,ih]

theorem roundEntries_length (d : DeviceId) (type : LogType) (due : Nat) (rounds : List Round) :
    (roundEntries d type due rounds).length = rounds.length := by
  induction rounds generalizing due with
  | nil => rfl
  | cons round rounds ih => rw [roundEntries,List.length_cons,List.length_cons,ih]

theorem logHolds_unique {logs : List DeviceLog} {pair : DeviceId × LogType}
    {entries : List DeviceLogEntry} (h : LogHolds logs pair entries)
    (entries' : List DeviceLogEntry) (hlength : entries.length = entries'.length) :
    LogHolds logs pair entries' ↔
      entries.reverse.take logEntries = entries'.reverse.take logEntries := by
  unfold LogHolds at h ⊢
  by_cases hnil : entries' = []
  · subst hnil
    obtain rfl := List.eq_nil_of_length_eq_zero hlength
    exact iff_of_true h rfl
  · have hnil' : entries ≠ [] := by
      rintro rfl
      exact hnil (List.eq_nil_of_length_eq_zero hlength.symm)
    rw [if_neg hnil'] at h
    obtain ⟨log,hlog,hcontents⟩ := h
    rw [if_neg hnil,← hcontents]
    constructor
    · rintro ⟨log',hlog',hcontents'⟩
      rw [hlog] at hlog'
      obtain rfl := List.singleton_inj.mp hlog'
      exact hcontents'
    · intro heq
      exact ⟨log,hlog,heq⟩

/-- All along a run of rounds, the log of every sensor and type has the newest 288 entries, one for
each multiple of five minutes since the start, exactly when each sensor is logged in time. -/
theorem measured_logs_iff (now : Nat) (hnodup : ids.Nodup)
    (herror : ∀ round ∈ rounds, ∀ d ∈ ids, (round.values d).error = false)
    {s : Measuring (Moment (DeviceId × EventType))}
    (hrun : Runs.after (measuringStep ids) rounds (Measuring.start now) = some s) :
    (∀ n t, Runs.after (measuringStep ids) (rounds.take n) (Measuring.start now) = some t →
      ∀ d ∈ ids, ∀ type, LogHolds t.logging.logs (d,type)
        (roundEntries d type (Measuring.start now).due (rounds.take n))) ↔
      InTime ids (Measuring.start now).due rounds := by
  have hdue : (Measuring.start now).due = 300000*(now/300000+1) := by
    have hstart : (Measuring.start now).due = now + (300000 - now % 300000) := rfl
    omega
  have hactual : ∀ n t, Runs.after (measuringStep ids) (rounds.take n) (Measuring.start now) =
      some t → ∀ d ∈ ids, ∀ type, LogHolds t.logging.logs (d,type)
        ((rounds.take n).map (fun round => (round.add ids d type).entry)) :=
    fun n t ht d hd type =>
      logs_hold hnodup hd (fun r hr => herror r (List.mem_of_mem_take hr)) ht type
  by_cases hne : ids = []
  · subst hne
    exact iff_of_true (fun _ _ _ d hd => absurd hd List.not_mem_nil) (inTime_nil _ rounds)
  rw [← entries_iff hne herror hdue hrun]
  constructor
  · intro h d hd type
    refine (newest_iff (k := logEntries) (by decide)
      (by rw [List.length_map,roundEntries_length])).mp (fun n => ?_)
    obtain ⟨t,ht,-⟩ := Runs.after_append.mp ((List.take_append_drop n rounds).symm ▸ hrun)
    have hsame := (logHolds_unique (hactual n t ht d hd type) _
      (by rw [List.length_map,roundEntries_length])).mp (h n t ht d hd type)
    rwa [List.map_take,roundEntries_take] at hsame
  · intro h n t ht d hd type
    rw [roundEntries_take,← h d hd type,← List.map_take]
    exact hactual n t ht d hd type

/-- A round at the time `time`, whose rules take 3 ms for each event: so warm and humid in the
attic (sensor 4), the other rooms as on every day. -/
def atticRound (time : Nat) (temperature humidity : ℚ≥0) : Round :=
  ⟨time,fun d => if d = 4 then ⟨.finite false temperature,.finite false humidity,false⟩
    else ⟨.finite false 19,.finite false 55,false⟩,fun _ _ => 3⟩

/-- Three sensors, after three rounds that are a little late. -/
theorem measured_logs_attic :
    ∃ s, Runs.after (measuringStep [4,3,1])
        [atticRound 300010 21 60,atticRound 600020 22 61,atticRound 900999 23 59]
        (Measuring.start 1000) = some s ∧
      LogHolds s.logging.logs (4,.temperature)
        [⟨300,.finite false 21⟩,⟨600,.finite false 22⟩,⟨900,.finite false 23⟩] ∧
      LogHolds s.logging.logs (1,.humidity)
        [⟨300,.finite false 55⟩,⟨600,.finite false 55⟩,⟨900,.finite false 55⟩] := by
  have hrun : Runs.after (measuringStep [4,3,1])
      [atticRound 300010 21 60,atticRound 600020 22 61,atticRound 900999 23 59]
      (Measuring.start 1000) = some _ := rfl
  have herror : ∀ round ∈ [atticRound 300010 21 60,atticRound 600020 22 61,atticRound 900999 23 59],
      ∀ d ∈ [4,3,1], (round.values d).error = false := by
    intro round hround d _
    simp only [List.mem_cons,List.not_mem_nil,or_false] at hround
    rcases hround with rfl | rfl | rfl <;> simp only [atticRound] <;> split <;> rfl
  refine ⟨_,hrun,?_⟩
  have hlogs := (measured_logs_iff 1000 (by decide) herror hrun).mpr
    ⟨by decide,by decide,by decide,trivial⟩
  exact ⟨hlogs 3 _ hrun 4 (by decide) .temperature,hlogs 3 _ hrun 1 (by decide) .humidity⟩

end Entries

end DomoticaEngine
