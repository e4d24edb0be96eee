import DomoticaEngine.ScheduleAgreement
import Mathlib.Data.List.Nodup

/-!
What becomes of an entry that the schedule parser has accepted.
-/

set_option autoImplicit false

namespace DomoticaEngine

def entryMatches (type : ScheduleType) (ts : Tm) (entry : ScheduleEntry) : Bool :=
  match type with
  | .day => entry.hour = ts.hour ∧ entry.min = ts.min
  | .week => entry.day = ts.wday ∧ entry.hour = ts.hour ∧ entry.min = ts.min

/-- The position of the entry that schedule_search_entry returns. -/
def searchPosition (s : Schedule) (ts : Tm) : Option Nat :=
  s.entries.findIdx? (entryMatches s.type ts)

/-- In a run over these minutes one of them selects the entry at position `i`, which raises its
event and gives the schedule its condition, and no other one selects it. -/
def FiresOnce (rules : List Rule) (device : DeviceId) (s : Schedule) (i : Nat)
    (minutes : List Nat) (w w' : World) : Prop :=
  ∃ entry before m after w₁ w₂, s.entries[i]? = some entry ∧ ValidEntry entry ∧
    minutes = before ++ m :: after ∧ searchPosition s (localTime m) = some i ∧
    (∀ other ∈ before ++ after, searchPosition s (localTime other) ≠ some i) ∧
    ChecksMinutes rules device before w w₁ ∧
    Dispatches rules ⟨device,entry.event⟩ w₁ w₂ ∧
    deviceCheck device ⟨conditionAfter .unset entry.event,device⟩
      (w₂.setCondition device (entryCondition entry)) = true ∧
    ChecksMinutes rules device after (w₂.setCondition device (entryCondition entry)) w'

def sameInstant (type : ScheduleType) (a b : ScheduleEntry) : Prop :=
  (type = .week → a.day = b.day) ∧ a.hour = b.hour ∧ a.min = b.min

/-- The fields of the line are those of a time, its event is one of a schedule, and no entry in
front of it stands for the same time. -/
def EntryCounts (s : Schedule) (line : CString) : Prop :=
  ∃ day hour min event, scheduleScan s.type line = some (day,hour,min,event) ∧
    (s.type = .week → 0 ≤ day ∧ day ≤ 7) ∧ (0 ≤ hour ∧ hour < 24) ∧ (0 ≤ min ∧ min < 60) ∧
    (event = "SET".toList ∨ event = "UNSET".toList) ∧
    ∀ earlier ∈ s.entries,
      ¬ sameInstant s.type earlier (scheduleEntryCreate day hour min .invalid)

section Instants
variable {s : Schedule} {entry : ScheduleEntry}

theorem scheduleSearchEntry_position (s : Schedule) (ts : Tm) {i : Nat}
    (h : searchPosition s ts = some i) : scheduleSearchEntry s ts = s.entries[i]? := by
  have hsearch : scheduleSearchEntry s ts = s.entries.find? (entryMatches s.type ts) := rfl
  obtain ⟨hi,hmatch,hearlier⟩ := List.findIdx?_eq_some_iff_getElem.mp h
  rw [hsearch,List.getElem?_eq_getElem hi,List.find?_eq_some_iff_getElem]
  exact ⟨hmatch,i,hi,rfl,by simpa using hearlier⟩

@[simp] theorem entryMatches_day {ts : Tm} : entryMatches .day ts entry = true ↔
    entry.hour = ts.hour ∧ entry.min = ts.min := by
  simp [entryMatches]

@[simp] theorem entryMatches_week {ts : Tm} : entryMatches .week ts entry = true ↔
    entry.day = ts.wday ∧ entry.hour = ts.hour ∧ entry.min = ts.min := by
  simp [entryMatches]

theorem entryMatches_localTime {type : ScheduleType} (hvalid : ValidEntry entry) {m : Nat}
    (hm : m < minutesOfWeek) :
    entryMatches type (localTime m) entry = true ↔
      ((m % type.period : Nat) : Int) = entryTs type entry := by
  have hday := hvalid.day
  have hhour := hvalid.hour
  have hmin := hvalid.min
  unfold minutesOfWeek at hm
  cases type with
  | day =>
    simp only [entryMatches_day,localTime,entryTs,scheduleTs,ScheduleType.period,reduceCtorEq,
      if_false]
    omega
  | week =>
    simp only [entryMatches_week,localTime,entryTs,scheduleTs,ScheduleType.period,if_true]
    omega

theorem ranges_of_match {type : ScheduleType} {m : Nat} (hm : m < minutesOfWeek)
    (h : entryMatches type (localTime m) entry = true) :
    (type = .week → 0 ≤ entry.day ∧ entry.day < 7) ∧ (0 ≤ entry.hour ∧ entry.hour < 24) ∧
      (0 ≤ entry.min ∧ entry.min < 60) := by
  unfold minutesOfWeek at hm
  cases type with
  | day =>
    simp only [entryMatches_day,localTime] at h
    refine ⟨fun hweek => (by cases hweek),?_,?_⟩ <;> omega
  | week =>
    simp only [entryMatches_week,localTime] at h
    refine ⟨fun _ => ?_,?_,?_⟩ <;> omega

theorem entryMatches_same {type : ScheduleType} {ts : Tm} {a b : ScheduleEntry}
    (hb : entryMatches type ts b = true) :
    entryMatches type ts a = true ↔ sameInstant type a b := by
  cases type with
  | day =>
    simp only [entryMatches_day] at hb
    simp only [entryMatches_day,sameInstant,reduceCtorEq,false_implies,true_and,hb]
  | week =>
    simp only [entryMatches_week] at hb
    simp only [entryMatches_week,sameInstant,true_implies,hb]

theorem searchPosition_iff {earlier later : List ScheduleEntry}
    (hentries : s.entries = earlier ++ entry :: later) {ts : Tm} :
    searchPosition s ts = some earlier.length ↔
      entryMatches s.type ts entry = true ∧
        ∀ e ∈ earlier, ¬ sameInstant s.type e entry := by
  have hlength : earlier.length < s.entries.length := by simp [hentries]
  have hentry : s.entries[earlier.length] = entry := by simp [hentries]
  have hearlier : ∀ (j : Nat) (hj : j < earlier.length) (hj' : j < s.entries.length),
      s.entries[j] = earlier[j] := by
    intro j hj hj'
    simp [hentries,hj]
  unfold searchPosition
  rw [List.findIdx?_eq_some_iff_getElem]
  constructor
  · rintro ⟨_,hmatch,hbefore⟩
    rw [hentry] at hmatch
    refine ⟨hmatch,fun e he hsame => ?_⟩
    obtain ⟨j,hj,rfl⟩ := List.getElem_of_mem he
    refine hbefore j hj ?_
    rw [hearlier j hj (Nat.lt_trans hj hlength)]
    exact (entryMatches_same hmatch).mpr hsame
  · rintro ⟨hmatch,hnone⟩
    refine ⟨hlength,by rw [hentry]; exact hmatch,fun j hj hj' => ?_⟩
    rw [hearlier j hj] at hj'
    exact hnone _ (List.getElem_mem hj) ((entryMatches_same hmatch).mp hj')

end Instants

section Minutes

theorem minutesUntil_lt {period m x : Nat} (h : x ∈ minutesUntil period m) : x < minutesOfWeek := by
  simp only [minutesUntil,List.mem_reverse,List.mem_map] at h
  obtain ⟨k,-,rfl⟩ := h
  exact Nat.mod_lt _ (by decide)

theorem minutesUntil_once {period m t : Nat} (hm : m < minutesOfWeek)
    (hperiod : period = 60*24 ∨ period = minutesOfWeek) (ht : t < period) :
    ∃ before x after, minutesUntil period m = before ++ x :: after ∧ x % period = t ∧
      ∀ other ∈ before ++ after, other % period ≠ t := by
  have hmem : ∃ x ∈ minutesUntil period m, x % period = t := by
    unfold minutesOfWeek at hm hperiod
    refine ⟨(m+minutesOfWeek-(m % period+period-t) % period) % minutesOfWeek,?_,?_⟩
    · simp only [minutesUntil,List.mem_reverse,List.mem_map,List.mem_range]
      exact ⟨(m % period+period-t) % period,Nat.mod_lt _ (by omega),rfl⟩
    · unfold minutesOfWeek
      rcases hperiod with rfl | rfl <;> omega
  have hnodup : ((minutesUntil period m).map (fun x => x % period)).Nodup := by
    unfold minutesUntil
    rw [List.map_reverse,List.nodup_reverse,List.map_map]
    refine List.Nodup.map_on ?_ List.nodup_range
    intro k hk k' hk' heq
    have hk := List.mem_range.mp hk
    have hk' := List.mem_range.mp hk'
    unfold minutesOfWeek at hm hperiod heq
    simp only [Function.comp_apply] at heq
    rcases hperiod with rfl | rfl <;> omega
  obtain ⟨x,hx,hxt⟩ := hmem
  obtain ⟨before,after,hsplit⟩ := List.append_of_mem hx
  refine ⟨before,x,after,hsplit,hxt,fun other hother heq => ?_⟩
  rw [hsplit,List.map_append,List.map_cons,List.nodup_middle,List.nodup_cons,← List.map_append,
    hxt] at hnodup
  exact hnodup.1 (List.mem_map.mpr ⟨other,hother,heq⟩)

end Minutes

section Run
variable {rules : List Rule} {device : DeviceId} {w w' : World} {s : Schedule}

theorem checksMinutes_append {before after : List Nat} {m : Nat}
    (h : ChecksMinutes rules device (before ++ m :: after) w w') :
    ∃ w₁ w₃ fuel, ChecksMinutes rules device before w w₁ ∧
      scheduleCheckEvent (engineTriggerEvent rules fuel) device w₁ (localTime m) = some w₃ ∧
      ChecksMinutes rules device after w₃ w' := by
  obtain ⟨fuel,hrun⟩ := h
  rw [List.map_append,List.map_cons,List.foldlM_append] at hrun
  obtain ⟨w₁,hbefore,hrest⟩ := Option.bind_eq_some_iff.mp hrun
  obtain ⟨w₃,hstep,hafter⟩ := Option.bind_eq_some_iff.mp hrest
  exact ⟨w₁,w₃,fuel,⟨fuel,hbefore⟩,hstep,⟨fuel,hafter⟩⟩

theorem checkEvent_fires {entry : ScheduleEntry} {ts : Tm} {fuel : Nat}
    (hs : w.userdata device = .schedule s) (hsearch : scheduleSearchEntry s ts = some entry)
    (h : scheduleCheckEvent (engineTriggerEvent rules fuel) device w ts = some w') :
    ∃ w₂, Dispatches rules ⟨device,entry.event⟩ w w₂ ∧
      w' = w₂.setCondition device (entryCondition entry) := by
  simp only [scheduleCheckEvent,hs,hsearch] at h
  obtain ⟨w₂,hdispatch,rfl⟩ := Option.map_eq_some_iff.mp h
  exact ⟨w₂,⟨fuel,hdispatch⟩,rfl⟩

theorem deviceCheck_schedule (hs : w.userdata device = .schedule s) {type : ConditionType}
    (htype : type = .set ∨ type = .unset) :
    deviceCheck device ⟨type,device⟩ w = true ↔ s.condition = type := by
  have hmask : type ∈ (deviceTypeInfo .schedule).conditions := by
    rcases htype with rfl | rfl <;> decide
  unfold deviceCheck
  simp only [hs,Userdata.deviceType,hmask,decide_true,Bool.true_and,scheduleCheck,
    decide_eq_true_eq]
  exact eq_comm

theorem checksMinutes_schedule {minutes : List Nat} (hs : w.userdata device = .schedule s)
    (h : ChecksMinutes rules device minutes w w') :
    ∃ condition, w'.userdata device = .schedule (s.setCondition condition) := by
  obtain ⟨fuel,hrun⟩ := h
  exact ⟨_,checks_condition _ hs hrun⟩

theorem firesOnce_of {earlier later : List ScheduleEntry} {entry : ScheduleEntry}
    (hentries : s.entries = earlier ++ entry :: later) (hvalid : ValidEntry entry)
    (hnone : ∀ e ∈ earlier, ¬ sameInstant s.type e entry) {m : Nat} (hm : m < minutesOfWeek)
    (hs : w.userdata device = .schedule s)
    (hrun : ChecksMinutes rules device (minutesUntil s.type.period m) w w') :
    FiresOnce rules device s earlier.length (minutesUntil s.type.period m) w w' := by
  have hperiod : s.type.period = 60*24 ∨ s.type.period = minutesOfWeek := by
    cases s.type
    · exact .inl rfl
    · exact .inr rfl
  have hrange := hvalid.ts_range s.type
  obtain ⟨before,x,after,hsplit,hx,hothers⟩ :=
    minutesUntil_once (t := (entryTs s.type entry).toNat) hm hperiod (by omega)
  have hlt : ∀ y ∈ before ++ x :: after, y < minutesOfWeek := by
    intro y hy
    rw [← hsplit] at hy
    exact minutesUntil_lt hy
  have hselects : ∀ y, y < minutesOfWeek → (searchPosition s (localTime y) = some earlier.length ↔
      y % s.type.period = (entryTs s.type entry).toNat) := by
    intro y hy
    rw [searchPosition_iff hentries,entryMatches_localTime hvalid hy]
    constructor
    · intro h
      omega
    · intro h
      exact ⟨by omega,hnone⟩
  have hposition := (hselects x (hlt x (by simp))).mpr hx
  rw [hsplit] at hrun ⊢
  obtain ⟨w₁,w₃,fuel,hbefore,hstep,hafter⟩ := checksMinutes_append hrun
  obtain ⟨condition,hs₁⟩ := checksMinutes_schedule hs hbefore
  have hentry : s.entries[earlier.length]? = some entry := by simp [hentries]
  have hsearch : scheduleSearchEntry (s.setCondition condition) (localTime x) = some entry :=
    (scheduleSearchEntry_position s (localTime x) hposition).trans hentry
  obtain ⟨w₂,hdispatch,rfl⟩ := checkEvent_fires hs₁ hsearch hstep
  refine ⟨entry,before,x,after,w₁,w₂,hentry,hvalid,rfl,hposition,?_,hbefore,hdispatch,?_,hafter⟩
  · intro other hother hposition'
    refine hothers other hother ((hselects other (hlt other ?_)).mp hposition')
    simp only [List.mem_append,List.mem_cons] at hother ⊢
    tauto
  · have hs₂ := hdispatch.keepsSchedules device _ hs₁
    rw [deviceCheck_schedule (s := (s.setCondition condition).setCondition (entryCondition entry))]
    · exact (conditionAfter_valid hvalid .unset).symm
    · simp [World.setCondition,hs₂]
    · rcases hvalid.event with he | he <;> simp [he,conditionAfter]

end Run

section Line
variable {s s' : Schedule} {line : CString}

theorem scheduleParseLine_entry (h : scheduleParseLine s line = some s') :
    ∃ day hour min event, scheduleScan s.type line = some (day,hour,min,event) ∧
      s'.type = s.type ∧ s'.entries = s.entries ++
        [scheduleEntryCreate day hour min ((eventTypeFromChar event).getD .invalid)] := by
  obtain ⟨⟨day,hour,min,event⟩,hscan,rfl⟩ := Option.map_eq_some_iff.mp h
  exact ⟨day,hour,min,event,hscan,rfl,rfl⟩

theorem eventName_iff {event : CString} :
    ((eventTypeFromChar event).getD .invalid = .set ∨
      (eventTypeFromChar event).getD .invalid = .unset) ↔
      event = "SET".toList ∨ event = "UNSET".toList := by
  have htable : ∀ entry ∈ eventTypeTable, (entry.1 = .set ∨ entry.1 = .unset) ↔
      entry.2 = "SET".toList ∨ entry.2 = "UNSET".toList := by decide
  unfold eventTypeFromChar typeFromChar
  cases hfind : eventTypeTable.find? (fun entry => entry.2 == event) with
  | none =>
    refine iff_of_false (by simp) ?_
    rintro (rfl | rfl)
    · cases hfind
    · cases hfind
  | some entry =>
    have hname : entry.2 = event := by simpa using List.find?_some hfind
    rw [← hname]
    exact htable entry (List.mem_of_find?_eq_some hfind)

theorem scheduleScan_day {day hour min : Int} {event : CString}
    (h : scheduleScan .day line = some (day,hour,min,event)) : day = 1 := by
  unfold scheduleScan at h
  simp only [Option.bind_eq_bind,Option.bind_some] at h
  obtain ⟨_,-,h⟩ := Option.bind_eq_some_iff.mp h
  obtain ⟨_,-,h⟩ := Option.bind_eq_some_iff.mp h
  obtain ⟨_,-,h⟩ := Option.bind_eq_some_iff.mp h
  cases h
  rfl

theorem lineEntry_valid {day hour min : Int} {event : CString}
    (h : scheduleScan s.type line = some (day,hour,min,event)) :
    ValidEntry (scheduleEntryCreate day hour min ((eventTypeFromChar event).getD .invalid)) ↔
      (s.type = .week → 0 ≤ day ∧ day ≤ 7) ∧ (0 ≤ hour ∧ hour < 24) ∧ (0 ≤ min ∧ min < 60) ∧
        (event = "SET".toList ∨ event = "UNSET".toList) := by
  have hday : (0 ≤ (if day ≠ 7 then day else 0) ∧ (if day ≠ 7 then day else 0) < 7) ↔
      (s.type = .week → 0 ≤ day ∧ day ≤ 7) := by
    cases htype : s.type with
    | day =>
      rw [htype] at h
      rw [scheduleScan_day h]
      simp
    | week =>
      simp only [true_implies]
      split <;> omega
  constructor
  · rintro ⟨hd,hh,hm,he⟩
    exact ⟨hday.mp hd,hh,hm,eventName_iff.mp he⟩
  · rintro ⟨hd,hh,hm,he⟩
    exact ⟨hday.mpr hd,hh,hm,eventName_iff.mpr he⟩

end Line

/-- The entry of an accepted line fires once in every period, whatever entries come behind it,
exactly when the line counts. -/
theorem scheduleEntry_fires_iff (s s' running : Schedule) (line : CString)
    (later : List ScheduleEntry) (rules : List Rule) (device : DeviceId) (w w' : World) (m : Nat)
    (hparse : scheduleParseLine s line = some s') (htype : running.type = s'.type)
    (hentries : running.entries = s'.entries ++ later) (hm : m < minutesOfWeek)
    (hw : w.userdata device = .schedule running)
    (hrun : ChecksMinutes rules device (minutesUntil running.type.period m) w w') :
    FiresOnce rules device running s.entries.length (minutesUntil running.type.period m) w w' ↔
      EntryCounts s line := by
  obtain ⟨day,hour,min,event,hscan,htype',hentries'⟩ := scheduleParseLine_entry hparse
  rw [hentries',List.append_assoc,List.singleton_append] at hentries
  rw [htype'] at htype
  have hvalid := lineEntry_valid hscan
  constructor
  · rintro ⟨entry,before,x,after,w₁,w₂,hentry,hvalid',hsplit,hposition,-⟩
    have hsame : entry =
        scheduleEntryCreate day hour min ((eventTypeFromChar event).getD .invalid) := by
      simpa [hentries,eq_comm] using hentry
    subst hsame
    obtain ⟨-,hnone⟩ := (searchPosition_iff hentries).mp hposition
    obtain ⟨hd,hh,hmin,he⟩ := hvalid.mp hvalid'
    rw [htype] at hnone
    exact ⟨day,hour,min,event,hscan,hd,hh,hmin,he,hnone⟩
  · rintro ⟨day',hour',min',event',hscan',hd,hh,hmin,he,hnone⟩
    rw [hscan] at hscan'
    cases hscan'
    rw [← htype] at hnone
    exact firesOnce_of hentries (hvalid.mpr ⟨hd,hh,hmin,he⟩) hnone hm hw hrun

def dayOf (entries : List ScheduleEntry) : Schedule :=
  { type := .day, entries := entries, name := "day".toList, condition := .unset }

theorem scheduleEntry_fires_morning :
    ∃ w', FiresOnce [] 0 (dayOf [⟨1,7,30,.set⟩]) 0
      (minutesUntil (dayOf [⟨1,7,30,.set⟩]).type.period 600)
      (World.start fun _ => .schedule (dayOf [⟨1,7,30,.set⟩])) w' := by
  obtain ⟨w',hrun⟩ := checksMinutes_returns 0
    (minutesUntil (dayOf [⟨1,7,30,.set⟩]).type.period 600)
    (World.start fun _ => .schedule (dayOf [⟨1,7,30,.set⟩]))
  refine ⟨w',(scheduleEntry_fires_iff (dayOf []) (dayOf [⟨1,7,30,.set⟩]) (dayOf [⟨1,7,30,.set⟩])
    "7 30 SET".toList [] [] 0 _ w' 600 (by decide +kernel) rfl rfl (by decide) rfl hrun).mpr ?_⟩
  exact ⟨1,7,30,"SET".toList,by decide +kernel,fun h => (by cases h),by decide,by decide,.inl rfl,
    fun e he => by cases he⟩

/-- An hour that no time has is accepted and never selected; an event without a name is accepted
and is the −1. -/
theorem scheduleEntry_lost :
    scheduleParseLine (dayOf []) "25 0 SET".toList = some (dayOf [⟨1,25,0,.set⟩]) ∧
    (∀ rules device minutes w w',
      ¬ FiresOnce rules device (dayOf [⟨1,25,0,.set⟩]) 0 minutes w w') ∧
    (∀ m, m < minutesOfWeek → searchPosition (dayOf [⟨1,25,0,.set⟩]) (localTime m) = none) ∧
    scheduleParseLine (dayOf []) "7 30 FOO".toList = some (dayOf [⟨1,7,30,.invalid⟩]) ∧
    ∀ rules device minutes w w',
      ¬ FiresOnce rules device (dayOf [⟨1,7,30,.invalid⟩]) 0 minutes w w' := by
  refine ⟨by decide +kernel,?_,fun m hm => ?_,by decide +kernel,?_⟩
  · rintro rules device minutes w w' ⟨entry,_,_,_,_,_,hentry,hvalid,-⟩
    cases hentry
    exact absurd hvalid.hour.2 (by decide)
  · refine List.findIdx?_eq_none_iff.mpr fun entry hentry => Bool.eq_false_iff.mpr fun hmatch => ?_
    have hhour := (ranges_of_match hm hmatch).2.1.2
    rw [List.mem_singleton.mp hentry] at hhour
    exact absurd hhour (by decide)
  · rintro rules device minutes w w' ⟨entry,_,_,_,_,_,hentry,hvalid,-⟩
    cases hentry
    exact absurd hvalid.event (by decide)

end DomoticaEngine
