import DomoticaEngine.MinuteTicks
import DomoticaEngine.Progress
import DomoticaEngine.ScheduleAgreement

/-!
The timer of the schedules in the whole program: what rules see of a schedule at any time.
-/

set_option autoImplicit false

namespace DomoticaEngine

section Untouched
variable {rules : List Rule} {fuel : Nat} {w w₁ w' : World} {d : DeviceId} {s : Schedule}

theorem keepsSchedules_trans (h : KeepsSchedules w w₁) (h' : KeepsSchedules w₁ w') :
    KeepsSchedules w w' := fun device s hs => h' device s (h device s hs)

theorem keepsSchedules_setUserdata {device : DeviceId}
    (h : (w.userdata device).deviceType ≠ .schedule) (data : Userdata) :
    KeepsSchedules w (w.setUserdata device data) := by
  intro d s hs
  have hd : d ≠ device := by
    rintro rfl
    exact h (by rw [hs]; rfl)
  rw [setUserdata_other hd,hs]

theorem Executes.keepsSchedules {call : Call} {tr : List Occasion}
    (h : Executes rules call w tr w') : KeepsSchedules w w' :=
  (h.keeps (fun _ v => KeepsSchedules w v) (fun _ _ => True) (fun _ _ _ hv => hv)
    (fun _ _ _ hv => hv) (fun _ _ _ _ _ _ hv _ hset =>
      keepsSchedules_trans hv (exec_keepsSchedules hset)) []
    (fun _ _ hs => hs) (fun _ _ _ => trivial)).finish

theorem resumed_keepsSchedules {device : DeviceId} {raised : Option EventType}
    (h : resume (engineTriggerEvent rules fuel) device w raised = some w') :
    KeepsSchedules w w' := by
  cases raised with
  | none =>
    cases h
    exact fun _ _ hs => hs
  | some type => exact Dispatches.keepsSchedules ⟨fuel,h⟩

theorem asked_keepsSchedules {action : Action} {cause : Option Event} {event : Event}
    (hasks : Asks (fun trigger => actionExecute trigger action cause w) event w') :
    KeepsSchedules w w' := by
  obtain ⟨w₁,raised,hresume,-,-⟩ := deviceSet_spec action.device action cause w
  simp only [actionExecute,hresume] at hasks
  obtain ⟨type,-,-,rfl⟩ := asks_resume.mp hasks
  exact exec_keepsSchedules hresume

theorem timerCallback_keepsSchedules (timer : Timer) (w : World) :
    ∃ (w₁ : World) (raised : Option EventType) (finish : World → World),
      (∀ trigger, timerCallback trigger timer w =
        (resume trigger timer.arg w₁ raised).map finish) ∧
      KeepsSchedules w w₁ ∧ ∀ v, KeepsSchedules v (finish v) := by
  unfold timerCallback
  cases timer.callback with
  | fsb14Timer =>
    by_cases hdata : ∃ fsb14, w.userdata timer.arg = .fsb14 fsb14
    · obtain ⟨fsb14,hdata⟩ := hdata
      obtain ⟨condition,raised,hraises,-⟩ := fsb14TimerCallback_raises hdata
      refine ⟨_,raised,_,hraises,?_,fun v => ?_⟩
      · refine keepsSchedules_trans (keepsSchedules_setUserdata ?_ _)
          (keepsSchedules_setUserdata ?_ _)
        · simp [hdata,Userdata.deviceType]
        · simp [Userdata.deviceType]
      · unfold World.modifyFsb14
        cases hv : v.userdata timer.arg with
        | fsb14 fsb14 => exact keepsSchedules_setUserdata (by simp [hv,Userdata.deviceType]) _
        | _ => exact fun _ _ hs => hs
    · exact ⟨w,none,id,fun _ => fsb14TimerCallback_other (not_exists.mp hdata),
        fun _ _ hs => hs,fun _ _ _ hs => hs⟩
  | tmrTimeout =>
    simp only [tmrTimeout]
    cases hdata : w.userdata timer.arg with
    | timer tmr =>
      refine ⟨_,some .timeout,id,fun _ => Option.map_id'.symm,?_,fun _ _ _ hs => hs⟩
      exact keepsSchedules_setUserdata (by simp [hdata,Userdata.deviceType]) _
    | _ => exact ⟨w,none,id,fun _ => rfl,fun _ _ hs => hs,fun _ _ _ hs => hs⟩

theorem asks_keepsSchedules {input : HouseInput} {house : House} {event : Event}
    (hasks : Asks (fun trigger => houseStep trigger input house) event w) :
    KeepsSchedules house.world w := by
  obtain ⟨step,hbranch,hstep⟩ := houseStep_branch input house
  simp only [hstep] at hasks
  cases hbranch with
  | command action => exact asked_keepsSchedules (asks_map.mp hasks)
  | @expire t timer hpending =>
    obtain ⟨w₁,raised,finish,hraises,hbefore,-⟩ := timerCallback_keepsSchedules timer house.world
    have htimer := asks_map.mp hasks
    simp only [hraises] at htimer
    obtain ⟨type,-,-,rfl⟩ := asks_resume.mp (asks_map.mp htimer)
    exact hbefore
  | entry hdata hentry =>
    obtain ⟨-,rfl⟩ := asks_trigger.mp (asks_map.mp hasks)
    exact fun _ _ hs => hs
  | sun hdata hpending =>
    obtain ⟨-,rfl⟩ := asks_trigger.mp (asks_map.mp hasks)
    exact fun _ _ hs => hs
  | plain hdata =>
    obtain ⟨-,rfl⟩ := asks_trigger.mp (asks_map.mp hasks)
    exact fun _ _ hs => hs
  | idle | midnight => exact absurd hasks not_asks_some
  | never => exact absurd hasks not_asks_none

/-- Induction on the depth of the event. -/
theorem reaches_keepsSchedules {event event' : Event} (h : Reaches rules event w event' w') :
    KeepsSchedules w w' := by
  induction h with
  | here => exact fun _ _ hs => hs
  | inside _ hbefore _ _ _ hdone hasks _ ih =>
    have hrules := hbefore.keepsSchedules
    have hactions := keepsSchedules_trans hdone.keepsSchedules
      (keepsSchedules_trans (asked_keepsSchedules hasks) ih)
    exact fun device s hs => hactions device s (hrules device s hs)

theorem checked_keepsSchedules {p : Program} {input : ProgramInput} {event : Event} {rule : Rule}
    (hraises : ProgramRaises rules p input event w) (hchecks : Checks rules event w rule w') :
    KeepsSchedules p.world w' := by
  cases hraises with
  | house hraises =>
    obtain ⟨event₁,w₁,hasks,hreaches⟩ := hraises
    have hraised := keepsSchedules_trans (asks_keepsSchedules hasks)
      (reaches_keepsSchedules hreaches)
    cases hchecks with
    | checks _ hbefore _ =>
      have hrules := hbefore.keepsSchedules
      exact fun device s hs => hrules device s (hraised device s hs)

theorem house_keepsSchedules {input : HouseInput} {house house' : House}
    (hinput : ∀ device ts, input ≠ .minute device ts)
    (h : houseStep (engineTriggerEvent rules fuel) input house = some house') :
    KeepsSchedules house.world house'.world := by
  obtain ⟨step,hbranch,hstep⟩ := houseStep_branch input house
  rw [hstep] at h
  cases hbranch with
  | command action =>
    obtain ⟨w,hw,rfl⟩ := Option.map_eq_some_iff.mp h
    obtain ⟨tr,htr⟩ := set_iff_executes.mp ⟨fuel,hw⟩
    exact htr.keepsSchedules
  | @expire t timer hpending =>
    obtain ⟨w,hw,rfl⟩ := Option.map_eq_some_iff.mp h
    obtain ⟨w₁,raised,finish,hraises,hbefore,hafter⟩ :=
      timerCallback_keepsSchedules timer house.world
    rw [hraises] at hw
    obtain ⟨v,hv,rfl⟩ := Option.map_eq_some_iff.mp hw
    exact keepsSchedules_trans hbefore (keepsSchedules_trans (resumed_keepsSchedules hv) (hafter v))
  | entry | idle => exact absurd rfl (hinput _ _)
  | @sun device se sr hdata hpending =>
    obtain ⟨w,hw,rfl⟩ := Option.map_eq_some_iff.mp h
    intro d s hs
    have hd : d ≠ device := by
      rintro rfl
      rw [hdata] at hs
      cases hs
    have hdispatch := Dispatches.keepsSchedules ⟨fuel,hw⟩ d s hs
    exact (setUserdata_other hd _ _).trans hdispatch
  | @midnight device ct et sr hdata =>
    cases h
    exact keepsSchedules_setUserdata (by simp [hdata,Userdata.deviceType]) _
  | plain hdata =>
    obtain ⟨w,hw,rfl⟩ := Option.map_eq_some_iff.mp h
    exact Dispatches.keepsSchedules ⟨fuel,hw⟩
  | never => cases h

end Untouched

theorem scheduleCheckEvent_other {rules : List Rule} {fuel : Nat} {w w' : World}
    {d device : DeviceId} {s : Schedule} {ts : Tm} (hd : d ≠ device)
    (hs : w.userdata d = .schedule s)
    (h : scheduleCheckEvent (engineTriggerEvent rules fuel) device w ts = some w') :
    w'.userdata d = .schedule s := by
  unfold scheduleCheckEvent at h
  split at h
  · split at h
    · cases h
      exact hs
    · obtain ⟨v,hv,rfl⟩ := Option.map_eq_some_iff.mp h
      have hdispatch := Dispatches.keepsSchedules ⟨fuel,hv⟩ d s hs
      unfold World.setCondition
      split
      · exact (setUserdata_other hd _ _).trans hdispatch
      · exact hdispatch
  · cases h
    exact hs

def ProgramInput.checksAt (d : DeviceId) : ProgramInput → Option Tm
  | .house (.minute device ts) => if device = d then some ts else none
  | _ => none

/-- What one callback of the program does to a schedule. -/
theorem steps_schedule {execdir : CString} {rules : List Rule} {input : ProgramInput}
    {p p' : Program} {d : DeviceId} {s : Schedule} (hs : p.world.userdata d = .schedule s)
    (h : ProgramSteps execdir rules input p p') :
    p'.world.userdata d = .schedule (s.setCondition
      (conditionFrom s.condition ((input.checksAt d).bind (scheduleSearchEntry s)))) := by
  obtain ⟨fuel,h⟩ := h
  cases input with
  | house input =>
    obtain ⟨house,hhouse,rfl⟩ := Option.map_eq_some_iff.mp h
    cases input with
    | minute device ts =>
      obtain ⟨w,hw,rfl⟩ := Option.map_eq_some_iff.mp hhouse
      by_cases hd : device = d
      · subst hd
        simp only [ProgramInput.checksAt,if_true,Option.bind_some]
        exact scheduleCheckEvent_condition hs hw
      · have hd : d ≠ device := fun heq => hd heq.symm
        simp only [ProgramInput.checksAt,if_neg hd.symm]
        have hkept := scheduleCheckEvent_other hd hs hw
        exact hkept
    | _ =>
      have hkept := house_keepsSchedules (by rintro device ts ⟨⟩) hhouse d s hs
      exact hkept
  | worker popen =>
    cases h
    have hworld := congrArg World.userdata (@worker_world execdir popen p.velux)
    exact (congrFun hworld d).trans hs
  | incoming device revents =>
    obtain ⟨velux,hvelux,rfl⟩ := Option.map_eq_some_iff.mp h
    rcases incoming_world hvelux with hsame | ⟨owner,klf200,hdata,hset⟩
    · exact (congrFun (congrArg World.userdata hsame) d).trans hs
    · have hkept : KeepsSchedules p.world (p.setVelux velux).world := by
        have hworld : (p.setVelux velux).world = p.world.setUserdata owner
            (.veluxKlf200 { klf200 with changed := false }) := hset
        have hklf200 : p.world.userdata owner = .veluxKlf200 klf200 := hdata
        rw [hworld]
        exact keepsSchedules_setUserdata (by simp [hklf200,Userdata.deviceType]) _
      exact hkept d s hs
  | queue =>
    cases h
    exact hs

/-- The program with the timer of its schedules. `left` are the schedules that the callback of the
timer has still to check. -/
structure Clockwork where
  program : Program
  timer : MinuteTimer
  left : List DeviceId

def Clockwork.start (p : Program) (now : Timeval) : Clockwork := ⟨p,MinuteTimer.start now,[]⟩

def schedulesOf (devices : List Device) : List DeviceId :=
  (devices.zipIdx.filter (fun entry => entry.1.deviceType = .schedule)).map Prod.snd

def Due (type : ScheduleType) (ts : Tm) (entry : ScheduleEntry) : Prop :=
  (type = .week → entry.day = ts.wday) ∧ entry.hour = ts.hour ∧ entry.min = ts.min

instance (type : ScheduleType) (ts : Tm) (entry : ScheduleEntry) : Decidable (Due type ts entry) :=
  inferInstanceAs (Decidable (_ ∧ _ ∧ _))

section Clock
variable (localtime : Nat → Tm)

/-- What is served next: any other callback, or inside the callback of the timer
(`schedule_check_events`) the next schedule. -/
inductive Serves (c : Clockwork) : ProgramInput → Prop where
  | other {input : ProgramInput} (hleft : c.left = []) (hother : ∀ d, input.checksAt d = none) :
      Serves c input
  | check {d : DeviceId} {left : List DeviceId} {t : Nat} (hleft : c.left = d :: left)
      (ht : c.timer.checked.getLast? = some t) : Serves c (.house (.minute d (localtime t)))

/-- A run of the program with the callbacks of the timer in it, each within the tolerance. -/
inductive ClockRun (execdir : CString) (rules : List Rule) (schedules : List DeviceId)
    (c₀ : Clockwork) : List Firing → Clockwork → Prop where
  | start : ClockRun execdir rules schedules c₀ [] c₀
  | serves {firings : List Firing} {c : Clockwork} {input : ProgramInput} {p : Program}
      (hrun : ClockRun execdir rules schedules c₀ firings c) (hserves : Serves localtime c input)
      (hstep : ProgramSteps execdir rules input c.program p) :
      ClockRun execdir rules schedules c₀ firings { c with program := p, left := c.left.tail }
  | fires {firings : List Firing} {c : Clockwork} {firing : Firing} {timer : MinuteTimer}
      (hrun : ClockRun execdir rules schedules c₀ firings c) (hleft : c.left = [])
      (hfire : fire firing c.timer = some timer) :
      ClockRun execdir rules schedules c₀ (firings ++ [firing])
        { c with timer := timer, left := schedules }

/-- The states that are seen: the one between two callbacks, and those in which the rules are
checked for an event that the next callback raises. -/
inductive Sees (rules : List Rule) (c : Clockwork) : World → Prop where
  | between : Sees rules c c.program.world
  | within {input : ProgramInput} {event : Event} {rule : Rule} {w v : World}
      (hserves : Serves localtime c input) (hraises : ProgramRaises rules c.program input event w)
      (hchecks : Checks rules event w rule v) : Sees rules c v

/-- The condition goes with the times: it is that of the entry that was due last, the first one in
the list if there are more. Before any is due, it is the one of the start. -/
inductive UpToDate (s : Schedule) (times : List Nat) : ConditionType → Prop where
  | due {earlier later : List Nat} {t : Nat} {before after : List ScheduleEntry}
      {entry : ScheduleEntry} (htimes : times = earlier ++ t :: later)
      (hentries : s.entries = before ++ entry :: after) (hdue : Due s.type (localtime t) entry)
      (hfirst : ∀ e ∈ before, ¬ Due s.type (localtime t) e)
      (hsince : ∀ t ∈ later, ∀ e ∈ s.entries, ¬ Due s.type (localtime t) e) :
      UpToDate s times (entryCondition entry)
  | still (hnever : ∀ t ∈ times, ∀ e ∈ s.entries, ¬ Due s.type (localtime t) e) :
      UpToDate s times s.condition

def conditionAt (s : Schedule) (times : List Nat) : ConditionType :=
  conditionFrom s.condition ((times.map localtime).reverse.findSome? (scheduleSearchEntry s))

end Clock

section Times
variable {localtime : Nat → Tm} {s : Schedule} {times : List Nat}

theorem search_eq {ts : Tm} :
    scheduleSearchEntry s ts = s.entries.find? (fun entry => Due s.type ts entry) := by
  unfold scheduleSearchEntry
  refine List.find?_congr (fun entry _ => ?_)
  cases htype : s.type <;> simp [Due]

theorem search_none {ts : Tm} :
    scheduleSearchEntry s ts = none ↔ ∀ e ∈ s.entries, ¬ Due s.type ts e := by
  simp [search_eq]

theorem search_some {ts : Tm} {entry : ScheduleEntry} (h : scheduleSearchEntry s ts = some entry) :
    ∃ before after, s.entries = before ++ entry :: after ∧ Due s.type ts entry ∧
      ∀ e ∈ before, ¬ Due s.type ts e := by
  rw [search_eq] at h
  obtain ⟨hdue,before,after,hentries,hbefore⟩ := List.find?_eq_some_iff_append.mp h
  exact ⟨before,after,hentries,by simpa using hdue,fun e he => by simpa using hbefore e he⟩

theorem conditionAt_append (t : Nat) :
    conditionAt localtime s (times ++ [t]) =
      conditionFrom (conditionAt localtime s times) (scheduleSearchEntry s (localtime t)) := by
  unfold conditionAt
  rw [List.map_append,List.reverse_append,List.findSome?_append]
  cases hsearch : scheduleSearchEntry s (localtime t) <;> simp [hsearch,conditionFrom]

theorem conditionAt_upToDate : UpToDate localtime s times (conditionAt localtime s times) := by
  unfold conditionAt
  rw [← List.map_reverse,List.findSome?_map]
  cases hsearch : times.reverse.findSome? (scheduleSearchEntry s ∘ localtime) with
  | none =>
    refine .still (fun t ht => search_none.mp ?_)
    exact List.findSome?_eq_none_iff.mp hsearch t (List.mem_reverse.mpr ht)
  | some entry =>
    obtain ⟨later,t,earlier,htimes,hentry,hlater⟩ := List.findSome?_eq_some_iff.mp hsearch
    obtain ⟨before,after,hentries,hdue,hfirst⟩ := search_some hentry
    have htimes : times = earlier.reverse ++ t :: later.reverse := by
      have hreverse := congrArg List.reverse htimes
      simpa using hreverse
    exact .due htimes hentries hdue hfirst (fun t ht =>
      search_none.mp (hlater t (List.mem_reverse.mp ht)))

end Times

def Clockwork.checked (c : Clockwork) (d : DeviceId) : List Nat :=
  if d ∈ c.left then c.timer.checked.dropLast else c.timer.checked

section Run
variable {localtime : Nat → Tm} {execdir : CString} {rules : List Rule}
  {schedules : List DeviceId} {c₀ c : Clockwork} {firings : List Firing} {v : World}
  {d : DeviceId} {s : Schedule}

theorem ClockRun.fired (hrun : ClockRun localtime execdir rules schedules c₀ firings c) :
    Runs.after fire firings c₀.timer = some c.timer := by
  induction hrun with
  | start => rfl
  | serves _ _ _ ih => exact ih
  | fires _ _ hfire ih => exact Runs.after_append.mpr ⟨_,ih,Runs.after_one.mpr hfire⟩

theorem ClockRun.left_nodup (hrun : ClockRun localtime execdir rules schedules c₀ firings c)
    (hschedules : schedules.Nodup) (hstart : c₀.left = []) : c.left.Nodup := by
  induction hrun with
  | start => exact hstart ▸ List.nodup_nil
  | serves _ _ _ ih => exact ih.tail
  | fires => exact hschedules

theorem checked_tail {d' : DeviceId} {left : List DeviceId} {t : Nat} (hnodup : c.left.Nodup)
    (hleft : c.left = d' :: left) (ht : c.timer.checked.getLast? = some t) (p : Program) :
    Clockwork.checked { c with program := p, left := left } d =
      c.checked d ++ (if d' = d then [t] else []) := by
  have hmem : d' ∉ left := (List.nodup_cons.mp (hleft ▸ hnodup)).1
  unfold Clockwork.checked
  by_cases hd : d' = d
  · subst hd
    rw [if_neg hmem,if_pos (by rw [hleft]; exact List.mem_cons_self),if_pos rfl]
    exact (List.dropLast_append_getLast? t ht).symm
  · have hiff : d ∈ c.left ↔ d ∈ left := by
      rw [hleft,List.mem_cons]
      exact ⟨fun h => h.resolve_left (fun heq => hd heq.symm),.inr⟩
    simp only [hiff,if_neg hd,List.append_nil]

/-- Induction on the run: the condition of a schedule is that of the times at which it has been
checked, whatever else has happened. -/
theorem ClockRun.schedule (hrun : ClockRun localtime execdir rules schedules c₀ firings c)
    (hschedules : schedules.Nodup) (hd : d ∈ schedules) (hleft₀ : c₀.left = [])
    (hchecked₀ : c₀.timer.checked = []) (hs : c₀.program.world.userdata d = .schedule s) :
    c.program.world.userdata d =
      .schedule (s.setCondition (conditionAt localtime s (c.checked d))) := by
  induction hrun with
  | start =>
    rw [hs,Clockwork.checked,hleft₀,hchecked₀]
    rfl
  | @serves firings c input p hrun hserves hstep ih =>
    have hnodup := hrun.left_nodup hschedules hleft₀
    have hsame : ∀ condition, scheduleSearchEntry (s.setCondition condition) =
        scheduleSearchEntry s := fun _ => rfl
    rw [steps_schedule ih hstep,hsame]
    cases hserves with
    | other hleft hother =>
      simp only [hother d,hleft,Clockwork.checked]
      rfl
    | @check d' left t hleft ht =>
      simp only [ProgramInput.checksAt,hleft,List.tail_cons]
      rw [checked_tail hnodup hleft ht p]
      by_cases hd' : d' = d
      · simp only [if_pos hd',Option.bind_some,conditionAt_append]
        rfl
      · simp only [if_neg hd',List.append_nil]
        rfl
  | @fires firings c firing timer _ hleft hfire ih =>
    rw [ih]
    unfold Clockwork.checked
    simp only [hleft,hd,if_true,List.not_mem_nil,if_false]
    rw [fire_checked hfire,List.dropLast_concat]

/-- While a callback is served every schedule is as it was before. -/
theorem Sees.keepsSchedules (hsees : Sees localtime rules c v) :
    KeepsSchedules c.program.world v := by
  cases hsees with
  | between => exact fun _ _ hs => hs
  | within _ hraises hchecks => exact checked_keepsSchedules hraises hchecks

end Run

theorem minutesFrom_dropLast (armed n : Nat) :
    (minutesFrom armed n).dropLast = minutesFrom armed (n-1) := by
  induction n generalizing armed with
  | zero => rfl
  | succ n ih =>
    cases n with
    | zero => rfl
    | succ n =>
      have hrest := ih (armed+60000)
      simp only [minutesFrom,List.dropLast_cons_cons,Nat.add_sub_cancel] at hrest ⊢
      rw [hrest]

theorem schedulesOf_nodup (devices : List Device) : (schedulesOf devices).Nodup := by
  have hall : (devices.zipIdx.map Prod.snd).Nodup := by
    rw [List.zipIdx_map_snd]
    exact List.nodup_range'
  exact hall.sublist (List.filter_sublist.map _)

section Boot
variable {outside : Surroundings} {files : List (List Char)} {s : Serialisation}
  {file : Option s.File} {devices : List Device} {p : Program}

theorem Boots.schedules (h : Boots outside files s file devices p) {d : DeviceId}
    {schedule : Schedule} (hs : p.world.userdata d = .schedule schedule) :
    d ∈ schedulesOf devices := by
  have htype : (p.world.userdata d).deviceType = (declared devices d).deviceType :=
    (@Boots.types _ _ _ _ _ _ _ [] [] h .refl) d
  have hdeclared : (declared devices d).deviceType =
      ((parsedWorld devices).userdata d).deviceType := configuration_type _
  rw [hs,hdeclared] at htype
  cases hdevice : devices[d]? with
  | none =>
    have hplain : (parsedWorld devices).userdata d = .plain .dht22 := by
      simp [parsedWorld,World.start,hdevice]
    rw [hplain] at htype
    cases htype
  | some device =>
    rw [parsedWorld_fresh devices d device hdevice] at htype
    have hentry : (device,d) ∈ devices.zipIdx := List.mem_zipIdx_iff_getElem?.mpr hdevice
    have hschedule : device.deviceType = .schedule := htype.symm
    exact List.mem_map.mpr ⟨_,List.mem_filter.mpr ⟨hentry,by simpa using hschedule⟩,rfl⟩

/-- Schedules are on time. When the callbacks of their timer are punctual, rules see of each
schedule, whatever else happens in between and also in the middle of a dispatch, the condition of
the entry that was due last, counted from the first minute after the start. -/
theorem schedules_onTime (hboots : Boots outside files s file devices p)
    {localtime : Nat → Tm} {execdir : CString} {rules : List Rule} {now : Timeval}
    {firings : List Firing} {c : Clockwork} {v : World}
    (hrun : ClockRun localtime execdir rules (schedulesOf devices) (.start p now) firings c)
    (hpunctual : Punctual firings (MinuteTimer.start now)) (hsees : Sees localtime rules c v)
    {d : DeviceId} {schedule : Schedule} (hs : p.world.userdata d = .schedule schedule) :
    ∃ condition, v.userdata d = .schedule (schedule.setCondition condition) ∧
      UpToDate localtime schedule (minutesFrom (MinuteTimer.start now).armed
        (if d ∈ c.left then firings.length-1 else firings.length)) condition := by
  have hfired : Runs.after fire firings (MinuteTimer.start now) = some c.timer := hrun.fired
  have hminutes : c.timer.checked = minutesFrom (MinuteTimer.start now).armed firings.length := by
    have hchecked := run_checked hfired
    rw [(minutes_iff (start_onMinute now) hfired).mpr hpunctual] at hchecked
    exact hchecked
  have hchecked : c.checked d = minutesFrom (MinuteTimer.start now).armed
      (if d ∈ c.left then firings.length-1 else firings.length) := by
    unfold Clockwork.checked
    rw [hminutes]
    by_cases hleft : d ∈ c.left
    · rw [if_pos hleft,if_pos hleft,minutesFrom_dropLast]
    · rw [if_neg hleft,if_neg hleft]
  have hschedule := hrun.schedule (schedulesOf_nodup devices) (hboots.schedules hs) rfl rfl hs
  refine ⟨conditionAt localtime schedule (c.checked d),hsees.keepsSchedules d _ hschedule,?_⟩
  rw [← hchecked]
  exact conditionAt_upToDate

def morningFile : List Char := "SCHEDULE h DAYLY\n7 0 SET\n12 1 UNSET\n\n".toList

def morning : Schedule :=
  { type := .day, entries := [⟨1,7,0,.set⟩,⟨1,12,1,.unset⟩], name := "h".toList,
    condition := .set }

def clockTime (t : Nat) : Tm := ⟨1,(t/3600 % 24 : Nat),(t/60 % 60 : Nat)⟩

theorem morningFile_declares :
    rulesReadDir (rulesReadFileDeclarations quietHouse) [morningFile] .start =
      .ok (0,⟨[⟨"h".toList,.schedule morning⟩],none⟩) := by
  refine rulesReadDir_accepts.mpr ⟨by decide,?_⟩
  unfold Reads.AcceptsAll
  decide +kernel

/-- The callback at 12:01, up to the end of its only schedule. -/
theorem schedules_onTime_morning :
    ∃ p c, Boots quietHouse [morningFile] plainSerialisation none [⟨"h".toList,.schedule morning⟩]
        p ∧
      ClockRun clockTime [] [] (schedulesOf [⟨"h".toList,.schedule morning⟩]) (.start p noon)
        [atMinute 1] c ∧
      ∃ condition, c.program.world.userdata 0 = .schedule (morning.setCondition condition) ∧
        UpToDate clockTime morning (minutesFrom (MinuteTimer.start noon).armed 1) condition := by
  obtain ⟨p,hboots,hs⟩ : ∃ p, Boots quietHouse [morningFile] plainSerialisation none
      [⟨"h".toList,.schedule morning⟩] p ∧ p.world.userdata 0 = .schedule morning :=
    ⟨_,@Boots.boots quietHouse [morningFile] plainSerialisation none
      ⟨[⟨"h".toList,.schedule morning⟩],none⟩ _ _ (fun _ _ => 0) (fun _ _ => 0)
      morningFile_declares rfl,rfl⟩
  have hfire : fire (atMinute 1) (MinuteTimer.start noon) =
      some { armed := 43320000, checked := [43260] } := by decide +kernel
  have hacyclic : Acyclic [] (fun d =>
      (declared [⟨"h".toList,.schedule morning⟩] d).deviceType) := later_acyclic (by decide)
  have hbuffers : p.velux.Buffered (fun _ => nul) :=
    @Boots.buffered _ [] [] p p _ _ _ _ _ hboots .refl
  obtain ⟨p',hstep⟩ := @enabled_steps [] _ [] p _ hacyclic
    (@Boots.types _ _ _ _ _ _ _ [] [] hboots .refl) hbuffers
    (.house (.minute 0 (clockTime 43260))) trivial
  have hfires : ClockRun clockTime [] [] (schedulesOf [⟨"h".toList,.schedule morning⟩])
      (.start p noon) [atMinute 1] ⟨p,{ armed := 43320000, checked := [43260] },[0]⟩ :=
    .fires .start rfl hfire
  have hrun := ClockRun.serves hfires (.check rfl rfl) hstep
  have hpunctual : (MinuteTimer.start noon).armed/1000 < timeS (atMinute 1).checks + 30 := by
    decide
  exact ⟨p,_,hboots,hrun,schedules_onTime hboots hrun hpunctual .between hs⟩

end Boot

end DomoticaEngine
