import DomoticaEngine.Engine
import DomoticaEngine.Schedule
import DomoticaEngine.Library.Latest

/-!
The start-up condition of a schedule against the condition that the schedule has after
it has run for a full period.
-/

set_option autoImplicit false

namespace DomoticaEngine
open Latest

def ScheduleType.period : ScheduleType → Nat
  | .day => 60*24
  | .week => 60*24*7

/-- Fields in the range of `struct tm`, and an event that a schedule can raise. -/
structure ValidEntry (entry : ScheduleEntry) : Prop where
  day : 0 ≤ entry.day ∧ entry.day < 7
  hour : 0 ≤ entry.hour ∧ entry.hour < 24
  min : 0 ≤ entry.min ∧ entry.min < 60
  event : entry.event = .set ∨ entry.event = .unset

def minutesOfWeek : Nat := 60*24*7

/-- The local time at a minute of the week, in a week in which the UTC offset does not change. -/
def localTime (m : Nat) : Tm :=
  { wday := (m / (60*24) : Nat), hour := (m % (60*24) / 60 : Nat), min := (m % 60 : Nat) }

/-- The minutes of the period that ends at `m`, with `m` and oldest first. -/
def minutesUntil (period m : Nat) : List Nat :=
  ((List.range period).map (fun k => (m+minutesOfWeek-k) % minutesOfWeek)).reverse

def ChecksMinutes (rules : List Rule) (device : DeviceId) (minutes : List Nat)
    (w w' : World) : Prop :=
  ∃ fuel, (minutes.map localTime).foldlM
    (scheduleCheckEvent (engineTriggerEvent rules fuel) device) w = some w'

theorem deviceSet_schedule {w : World} {device : DeviceId} {s : Schedule}
    (h : w.userdata device = .schedule s) (trigger : Trigger) (action : Action)
    (event : Option Event) : deviceSet trigger device action event w = some w := by
  have hnone : action.type ∉ (deviceTypeInfo (Userdata.schedule s).deviceType).actions :=
    List.not_mem_nil
  simp only [deviceSet,h,if_neg hnone]

def KeepsSchedules (w w' : World) : Prop :=
  ∀ device s, w.userdata device = .schedule s → w'.userdata device = .schedule s

theorem exec_keepsSchedules {action : Action} {event : Option Event} {w w₁ : World}
    {raised : Option EventType}
    (h : ∀ trigger, deviceSet trigger action.device action event w =
      resume trigger action.device w₁ raised) : KeepsSchedules w w₁ := by
  intro device s hs
  by_cases hd : device = action.device
  · subst hd
    rw [deviceSet_unique h (deviceSet_schedule hs _ action event)]
    exact hs
  · rw [(deviceSet_frame h).other device hd,hs]

theorem Dispatches.keepsSchedules {rules : List Rule} {event : Event} {w w' : World}
    (h : Dispatches rules event w w') : KeepsSchedules w w' :=
  h.keeps (fun _ _ _ hs => hs) (fun _ _ _ h h' d s hs => h' d s (h d s hs))
    (fun _ _ _ _ hs => hs) (fun _ _ _ _ _ => exec_keepsSchedules)

def entryCondition (entry : ScheduleEntry) : ConditionType :=
  if entry.event = .set then .set else .unset

def conditionFrom (condition : ConditionType) : Option ScheduleEntry → ConditionType
  | some entry => entryCondition entry
  | none => condition

theorem conditionAfter_valid {entry : ScheduleEntry} (h : ValidEntry entry)
    (condition : ConditionType) : conditionAfter condition entry.event = entryCondition entry := by
  rcases h.event with he | he <;> simp [entryCondition,conditionAfter,he]

theorem entryCondition_eq_iff {a b : ScheduleEntry} (ha : ValidEntry a) (hb : ValidEntry b) :
    entryCondition a = entryCondition b ↔ a.event = b.event := by
  rcases ha.event with ha | ha <;> rcases hb.event with hb | hb <;>
    simp [entryCondition,ha,hb]

section Run
variable {rules : List Rule} {device : DeviceId} {w w' : World} {s : Schedule}

theorem scheduleCheckEvent_condition {fuel : Nat} {ts : Tm} (hs : w.userdata device = .schedule s)
    (h : scheduleCheckEvent (engineTriggerEvent rules fuel) device w ts = some w') :
    w'.userdata device =
      .schedule (s.setCondition (conditionFrom s.condition (scheduleSearchEntry s ts))) := by
  simp only [scheduleCheckEvent,hs] at h
  cases hsearch : scheduleSearchEntry s ts with
  | none =>
    rw [hsearch] at h
    cases h
    exact hs
  | some entry =>
    rw [hsearch] at h
    obtain ⟨w₁,hrun,rfl⟩ := Option.map_eq_some_iff.mp h
    have hs₁ : w₁.userdata device = .schedule s := Dispatches.keepsSchedules ⟨fuel,hrun⟩ device s hs
    simp [World.setCondition,hs₁,conditionFrom,entryCondition]

/-- After a run the entry of the latest minute that has one decides. -/
theorem checks_condition {fuel : Nat} (times : List Tm) (hs : w.userdata device = .schedule s)
    (h : times.foldlM (scheduleCheckEvent (engineTriggerEvent rules fuel) device) w = some w') :
    w'.userdata device = .schedule (s.setCondition
      (conditionFrom s.condition (times.reverse.findSome? (scheduleSearchEntry s)))) := by
  induction times generalizing w s with
  | nil =>
    have hw : w = w' := by simpa using h
    rw [← hw,hs]
    rfl
  | cons ts times ih =>
    simp only [List.foldlM_cons,Option.bind_eq_bind] at h
    obtain ⟨w₁,hstep,hrest⟩ := Option.bind_eq_some_iff.mp h
    have hs₁ := scheduleCheckEvent_condition hs hstep
    rw [ih hs₁ hrest,List.reverse_cons,List.findSome?_append]
    have hsearch : ∀ condition, scheduleSearchEntry (s.setCondition condition) =
        scheduleSearchEntry s := fun _ => rfl
    rw [hsearch]
    cases times.reverse.findSome? (scheduleSearchEntry s) <;>
      cases hts : scheduleSearchEntry s ts <;> simp [hts,conditionFrom,Schedule.setCondition]

end Run

def firstAt (s : Schedule) (x : Int) : Option ScheduleEntry :=
  s.entries.find? (fun entry => entryTs s.type entry = x)

def latestBetween (s : Schedule) (lo hi : Int) : Option ScheduleEntry :=
  latest (entryTs s.type) (between (entryTs s.type) lo hi s.entries)

theorem latestBetween_at (s : Schedule) (x : Int) :
    latestBetween s (x-1) (x+1) = firstAt s x := latest_single (entryTs s.type) s.entries x

theorem latestBetween_until {s : Schedule} {x : Int} (h₀ : 0 ≤ x) :
    latestBetween s (-1) (x+1) =
      (firstAt s x).or ((latestBetween s 0 x).or (firstAt s 0)) := by
  have htop : latestBetween s (-1) (x+1) = (firstAt s x).or (latestBetween s (-1) x) := by
    have hsplit := latest_split (entryTs s.type) s.entries (-1) (x-1) (x+1) (by omega)
      (by omega)
    have hx : x-1+1 = x := by omega
    rw [hx] at hsplit
    rw [← latestBetween_at s x]
    exact hsplit
  cases hx : firstAt s x with
  | some e => simp [htop,hx]
  | none =>
    have hlow : latestBetween s (-1) x = (latestBetween s 0 x).or (firstAt s 0) := by
      by_cases hzero : x = 0
      · subst hzero
        have hempty : ∀ lo, -1 ≤ lo → between (entryTs s.type) lo 0 s.entries = [] := by
          intro lo hlo
          apply List.filter_eq_nil_iff.mpr
          intro a _
          simp only [decide_eq_true_eq]
          omega
        simp [latestBetween,hempty,hx]
      · rw [← latestBetween_at s 0]
        exact latest_split (entryTs s.type) s.entries (-1) 0 x (by omega) (by omega)
    rw [htop,hx,hlow,Option.none_or]

theorem ValidEntry.ts_range {entry : ScheduleEntry} (h : ValidEntry entry) (type : ScheduleType) :
    0 ≤ entryTs type entry ∧ entryTs type entry < type.period := by
  have hday := h.day
  have hhour := h.hour
  have hmin := h.min
  cases type with
  | day =>
    simp [entryTs,scheduleTs,ScheduleType.period]
    omega
  | week =>
    simp [entryTs,scheduleTs,ScheduleType.period]
    omega

section Valid
variable {s : Schedule} (hvalid : ∀ entry ∈ s.entries, ValidEntry entry)
include hvalid

theorem entryTs_range {entry : ScheduleEntry} (h : entry ∈ s.entries) :
    0 ≤ entryTs s.type entry ∧ entryTs s.type entry < s.type.period :=
  (hvalid entry h).ts_range s.type

theorem scheduleSearchEntry_localTime {m : Nat} (hm : m < minutesOfWeek) :
    scheduleSearchEntry s (localTime m) = firstAt s (m % s.type.period : Nat) := by
  unfold minutesOfWeek at hm
  apply List.find?_congr
  intro entry hentry
  have hday := (hvalid entry hentry).day
  have hhour := (hvalid entry hentry).hour
  have hmin := (hvalid entry hentry).min
  cases htype : s.type with
  | day =>
    apply decide_eq_decide.mpr
    simp only [entryTs,scheduleTs,localTime,ScheduleType.period,reduceCtorEq,if_false]
    omega
  | week =>
    apply decide_eq_decide.mpr
    simp only [entryTs,scheduleTs,localTime,ScheduleType.period,if_true]
    omega

theorem lastCondition_eq : lastCondition s = conditionFrom .unset s.entries.getLast? := by
  unfold lastCondition
  cases h : s.entries.getLast? with
  | none => rfl
  | some last => exact conditionAfter_valid (hvalid last (List.mem_of_getLast? h)) _

theorem scheduleGetCurrentCondition_eq {m : Nat} (hm : m < minutesOfWeek) :
    scheduleGetCurrentCondition s (localTime m) =
      conditionFrom .unset
        ((latestBetween s 0 (m % s.type.period : Nat)).or s.entries.getLast?) := by
  have hnow : scheduleTs s.type (localTime m).wday (localTime m).hour (localTime m).min =
      (m % s.type.period : Nat) := by
    unfold minutesOfWeek at hm
    cases htype : s.type with
    | day =>
      simp only [scheduleTs,localTime,ScheduleType.period,reduceCtorEq,if_false]
      omega
    | week =>
      simp only [scheduleTs,localTime,ScheduleType.period,if_true]
      omega
  have hfold := foldl_latest (entryTs s.type) entryCondition (lastCondition s) 0
    (m % s.type.period : Nat) s.entries
  simp only [scheduleGetCurrentCondition,hnow]
  rw [List.foldl_ext _ _ _ (fun state entry hentry => by
    rw [conditionAfter_valid (hvalid entry hentry)]),hfold,lastCondition_eq hvalid]
  unfold latestBetween
  cases latest (entryTs s.type)
    (between (entryTs s.type) 0 (m % s.type.period : Nat) s.entries) <;> rfl

end Valid

theorem descending_minutes {period x m : Nat} (hx : x = m % period) (hm : m < minutesOfWeek)
    (hperiod : period = 60*24 ∨ period = minutesOfWeek) :
    (List.range period).map
        (fun k => (((m+minutesOfWeek-k) % minutesOfWeek % period : Nat) : Int)) =
      (List.range (x+1)).map (fun (k : Nat) => (x : Int) - k) ++
        (List.range (period-1-x)).map (fun (k : Nat) => (period : Int)-1 - k) := by
  unfold minutesOfWeek at hm hperiod ⊢
  have hsplit : List.range period = List.range ((x+1)+(period-1-x)) := by
    congr 1
    rcases hperiod with rfl | rfl <;> omega
  rw [hsplit,List.range_add,List.map_append,List.map_map]
  congr 1
  · apply List.map_congr_left
    intro k hk
    have hk := List.mem_range.mp hk
    rcases hperiod with rfl | rfl <;> omega
  · apply List.map_congr_left
    intro k hk
    have hk := List.mem_range.mp hk
    simp only [Function.comp_apply]
    rcases hperiod with rfl | rfl <;> omega

section Valid
variable {s : Schedule} (hvalid : ∀ entry ∈ s.entries, ValidEntry entry)
include hvalid

/-- Running a full period finds the latest entry up to the minute, or else the latest of
the period before. -/
theorem period_search {m : Nat} (hm : m < minutesOfWeek) :
    ((minutesUntil s.type.period m).map localTime).reverse.findSome? (scheduleSearchEntry s) =
      (latestBetween s (-1) ((m % s.type.period : Nat)+1)).or
        (latestBetween s (m % s.type.period : Nat) s.type.period) := by
  have hperiod : s.type.period = 60*24 ∨ s.type.period = minutesOfWeek := by
    cases s.type
    · exact .inl rfl
    · exact .inr rfl
  have hsearch : (scheduleSearchEntry s ∘ localTime) ∘
      (fun k => (m+minutesOfWeek-k) % minutesOfWeek) = firstAt s ∘
        (fun k => (((m+minutesOfWeek-k) % minutesOfWeek % s.type.period : Nat) : Int)) := by
    funext k
    exact scheduleSearchEntry_localTime hvalid (Nat.mod_lt _ (by decide))
  rw [minutesUntil,← List.map_reverse,List.reverse_reverse,List.findSome?_map,
    List.findSome?_map,hsearch,← List.findSome?_map,descending_minutes rfl hm hperiod,
    List.findSome?_append,List.findSome?_map,List.findSome?_map]
  have hlow := findSome_descending (entryTs s.type) s.entries (m % s.type.period+1)
    (m % s.type.period : Nat)
  have hhigh := findSome_descending (entryTs s.type) s.entries
    (s.type.period-1-m % s.type.period) ((s.type.period : Int)-1)
  have hlt : m % s.type.period < s.type.period := Nat.mod_lt _ (by cases s.type <;> decide)
  have e₁ : ((m % s.type.period : Nat) : Int) - (m % s.type.period+1 : Nat) = -1 := by omega
  have e₂ : (s.type.period : Int)-1 - ((s.type.period-1-m % s.type.period : Nat) : Int) =
      (m % s.type.period : Nat) := by omega
  have e₃ : (s.type.period : Int)-1+1 = s.type.period := by omega
  rw [e₁] at hlow
  rw [e₂,e₃] at hhigh
  exact congrArg₂ Option.or hlow hhigh

theorem between_all {x : Int} (hat : firstAt s x = none) (hbetween : latestBetween s 0 x = none)
    (hzero : firstAt s 0 = none) :
    between (entryTs s.type) x s.type.period s.entries = s.entries := by
  apply List.filter_eq_self.mpr
  intro entry hentry
  have hrange := entryTs_range hvalid hentry
  have hne : entryTs s.type entry ≠ x := by
    simpa using List.find?_eq_none.mp hat entry hentry
  have hne₀ : entryTs s.type entry ≠ 0 := by
    simpa using List.find?_eq_none.mp hzero entry hentry
  have hnot : entry ∉ between (entryTs s.type) 0 x s.entries := by
    rw [(latest_eq_none _).mp hbetween]
    exact List.not_mem_nil
  rw [mem_between] at hnot
  simp only [decide_eq_true_eq]
  by_contra hout
  exact hnot ⟨hentry,by omega,by omega⟩

theorem due_eq {x : Int} (h₀ : 0 ≤ x) :
    (latestBetween s (-1) (x+1)).or (latestBetween s x s.type.period) =
      (firstAt s x).or ((latestBetween s 0 x).or
        ((firstAt s 0).or (latest (entryTs s.type) s.entries))) := by
  rw [latestBetween_until h₀]
  cases hat : firstAt s x with
  | some e => rfl
  | none =>
    cases hbetween : latestBetween s 0 x with
    | some e => rfl
    | none =>
      cases hzero : firstAt s 0 with
      | some e => rfl
      | none =>
        have hall := between_all hvalid hat hbetween hzero
        simp [latestBetween,hall]

end Valid

/-- Why the condition at start-up is the one that a running schedule has. With no entry at
the minute and one before it in the period, it always is; in every other case the entry
that is due must have the same event as the one the program takes instead. -/
def StartsRight (s : Schedule) (x : Int) : Prop :=
  match firstAt s x, latestBetween s 0 x with
  | some due, some taken => taken.event = due.event
  | some due, none => ∀ taken ∈ s.entries.getLast?, taken.event = due.event
  | none, some _ => True
  | none, none => ∀ taken ∈ s.entries.getLast?,
      ∀ due ∈ (firstAt s 0).or (latest (entryTs s.type) s.entries), taken.event = due.event

theorem firstAt_mem {s : Schedule} {x : Int} {entry : ScheduleEntry}
    (h : firstAt s x = some entry) : entry ∈ s.entries := List.mem_of_find?_eq_some h

theorem latestBetween_mem {s : Schedule} {lo hi : Int} {entry : ScheduleEntry}
    (h : latestBetween s lo hi = some entry) : entry ∈ s.entries :=
  ((mem_between _).mp (latest_mem _ h)).1

theorem checksMinutes_condition {s : Schedule} (hvalid : ∀ entry ∈ s.entries, ValidEntry entry)
    {m : Nat} (hm : m < minutesOfWeek) {rules : List Rule} {device : DeviceId} {w w' : World}
    (hw : w.userdata device = .schedule s)
    (hrun : ChecksMinutes rules device (minutesUntil s.type.period m) w w') :
    w'.userdata device = .schedule (s.setCondition (conditionFrom s.condition
      ((firstAt s (m % s.type.period : Nat)).or ((latestBetween s 0 (m % s.type.period : Nat)).or
        ((firstAt s 0).or (latest (entryTs s.type) s.entries)))))) := by
  obtain ⟨fuel,hrun⟩ := hrun
  rw [checks_condition _ hw hrun,period_search hvalid hm,due_eq hvalid (by omega)]

/-- A schedule that starts at minute `m` has the condition of one that has run for the
period up to `m` exactly when it starts right. -/
theorem schedule_startup_iff (s : Schedule) (hne : s.entries ≠ [])
    (hvalid : ∀ entry ∈ s.entries, ValidEntry entry) (m : Nat) (hm : m < minutesOfWeek)
    (rules : List Rule) (device : DeviceId) (w w' : World)
    (hw : w.userdata device = .schedule s)
    (hrun : ChecksMinutes rules device (minutesUntil s.type.period m) w w') :
    w'.userdata device =
        .schedule (s.setCondition (scheduleGetCurrentCondition s (localTime m))) ↔
      StartsRight s (m % s.type.period : Nat) := by
  rw [checksMinutes_condition hvalid hm hw hrun,scheduleGetCurrentCondition_eq hvalid hm]
  have hset : ∀ c c', Userdata.schedule (s.setCondition c) = .schedule (s.setCondition c') ↔
      c = c' := by
    intro c c'
    simp [Schedule.setCondition]
  have hevents : ∀ {a b : ScheduleEntry}, a ∈ s.entries → b ∈ s.entries →
      (entryCondition a = entryCondition b ↔ b.event = a.event) := by
    intro a b ha hb
    rw [entryCondition_eq_iff (hvalid a ha) (hvalid b hb)]
    exact eq_comm
  have hlast := List.getLast?_eq_some_getLast hne
  have hlastmem := List.getLast_mem hne
  rw [hset]
  unfold StartsRight
  cases hat : firstAt s (m % s.type.period : Nat) with
  | some due =>
    have hdue := firstAt_mem hat
    cases htaken : latestBetween s 0 (m % s.type.period : Nat) with
    | some taken => simpa [conditionFrom] using hevents hdue (latestBetween_mem htaken)
    | none => simpa [conditionFrom,hlast] using hevents hdue hlastmem
  | none =>
    cases htaken : latestBetween s 0 (m % s.type.period : Nat) with
    | some taken => simp [conditionFrom]
    | none =>
      cases hzero : firstAt s 0 with
      | some due => simpa [conditionFrom,hlast] using hevents (firstAt_mem hzero) hlastmem
      | none =>
        cases hbest : latest (entryTs s.type) s.entries with
        | none => exact absurd ((latest_eq_none _).mp hbest) hne
        | some due => simpa [conditionFrom,hlast] using hevents (latest_mem _ hbest) hlastmem

theorem checksMinutes_returns (device : DeviceId) (minutes : List Nat) (w : World) :
    ∃ w', ChecksMinutes [] device minutes w w' := by
  obtain ⟨w',hw',-⟩ := Fuel.foldlM_returns (I := fun _ => True) (minutes.map localTime)
    (f := scheduleCheckEvent (engineTriggerEvent [] 1) device) (fun ts _ w _ => by
      have hstep : ∃ w', scheduleCheckEvent (engineTriggerEvent [] 1) device w ts = some w' := by
        unfold scheduleCheckEvent
        split
        · split
          · exact ⟨_,rfl⟩
          · exact ⟨_,rfl⟩
        · exact ⟨_,rfl⟩
      obtain ⟨w',hw'⟩ := hstep
      exact ⟨w',hw',trivial⟩) w trivial
  exact ⟨w',1,hw'⟩

def tenMinutes : Schedule :=
  { type := .day, entries := [⟨1,0,10,.set⟩,⟨1,0,20,.unset⟩], name := "ten".toList,
    condition := .unset }

theorem tenMinutes_valid : ∀ entry ∈ tenMinutes.entries, ValidEntry entry := by
  intro entry h
  simp only [tenMinutes,List.mem_cons,List.not_mem_nil,or_false] at h
  rcases h with rfl | rfl
  · exact ⟨by decide,by decide,by decide,.inl rfl⟩
  · exact ⟨by decide,by decide,by decide,.inr rfl⟩

theorem schedule_startup_between :
    ∃ w', ChecksMinutes [] 0 (minutesUntil (60*24) 15)
        (World.start (fun _ => .schedule tenMinutes)) w' ∧
      w'.userdata 0 = .schedule
        (tenMinutes.setCondition (scheduleGetCurrentCondition tenMinutes (localTime 15))) := by
  obtain ⟨w',hrun⟩ := checksMinutes_returns 0 (minutesUntil (60*24) 15)
    (World.start (fun _ => .schedule tenMinutes))
  refine ⟨w',hrun,?_⟩
  exact (schedule_startup_iff tenMinutes (by decide) tenMinutes_valid 15 (by decide) [] 0 _ w' rfl
    hrun).mpr trivial

/-- At 00:20 the schedule starts SET, and the running one has just been UNSET. -/
theorem schedule_startup_wrong :
    ∃ w', ChecksMinutes [] 0 (minutesUntil (60*24) 20)
        (World.start (fun _ => .schedule tenMinutes)) w' ∧
      w'.userdata 0 = .schedule (tenMinutes.setCondition .unset) ∧
      scheduleGetCurrentCondition tenMinutes (localTime 20) = .set := by
  obtain ⟨w',hrun⟩ := checksMinutes_returns 0 (minutesUntil (60*24) 20)
    (World.start (fun _ => .schedule tenMinutes))
  refine ⟨w',hrun,?_,by decide⟩
  rw [checksMinutes_condition tenMinutes_valid (m := 20) (by decide) rfl hrun]
  rfl

end DomoticaEngine
