import DomoticaEngine.Library.Runs
import DomoticaEngine.DeviceData

/-!
The events that devices raise against the conditions of the same name: every callback, and
what the devices answer while the rules see its event.
-/

set_option autoImplicit false

namespace DomoticaEngine

def firstChecked (n : Nat) (event : Event) : List (Rule × Nat) → World → Option World
  | [], _ => none
  | (rule,i) :: entries, w =>
    if eventEqual rule.event event then some (w.record (.offered n i event))
    else firstChecked n event entries (w.record (.offered n i event))

def firstCheckedOf (rules : List Rule) (event : Event) (w : World) : Option World :=
  firstChecked w.history.length event rules.zipIdx (w.record (.raised w.history.length event))

def coherentTypes : List DeviceType := [.bool,.schedule,.fsr14,.fud14,.fsb14,.sunriset]

/-- The first rule that matches the event sees its device in the state that the event names. -/
def Coherent (rules : List Rule) (event : Event) (w : World) : Prop :=
  ∀ type, sameName event.type = some type →
    (w.userdata event.device).deviceType ∈ coherentTypes →
    ∀ v, firstCheckedOf rules event w = some v →
      deviceCheck event.device ⟨type,event.device⟩ v = true

def AllCoherent (rules : List Rule) (input : HouseInput) (house : House) : Prop :=
  ∀ event v, HouseRaises rules input house event v → Coherent rules event v

def Matched (rules : List Rule) (event : Event) : Prop := ∃ rule ∈ rules, rule.event = event

def riseOf : SunrisetEvent → Option SunrisetEvent
  | .set => some .rise
  | .setCiv => some .riseCiv
  | .setNaut => some .riseNaut
  | .setAstr => some .riseAstr
  | _ => none

def HouseInput.Holds (rules : List Rule) (house : House) : HouseInput → Prop
  | .minute device ts => ∀ schedule entry type,
      house.world.userdata device = .schedule schedule →
      scheduleSearchEntry schedule ts = some entry → sameName entry.event = some type →
      Matched rules ⟨device,entry.event⟩ →
      (type = .set ∨ type = .unset) ∧ schedule.condition = type
  | .sun device se => ∀ sr, house.world.userdata device = .sunriset sr →
      house.sunrisetTimers device se = true → Matched rules ⟨device,sunrisetEventType se⟩ →
      ∃ riseEvent, riseOf se = some riseEvent ∧ house.sunrisetTimers device riseEvent = true
  | _ => True

section FirstRule
variable {rules : List Rule} {event : Event} {w v : World}

theorem firstChecked_userdata {n : Nat} {entries : List (Rule × Nat)}
    (h : firstChecked n event entries w = some v) : v.userdata = w.userdata := by
  induction entries generalizing w with
  | nil => cases h
  | cons entry entries ih =>
    obtain ⟨rule,i⟩ := entry
    unfold firstChecked at h
    split at h
    · cases h
      rfl
    · have hrest := ih h
      exact hrest

theorem firstCheckedOf_userdata (h : firstCheckedOf rules event w = some v) :
    v.userdata = w.userdata := by
  have hrecord := firstChecked_userdata h
  exact hrecord

theorem firstChecked_some {n : Nat} {entries : List (Rule × Nat)} :
    (∃ v, firstChecked n event entries w = some v) ↔
      ∃ entry ∈ entries, entry.1.event = event := by
  induction entries generalizing w with
  | nil => simp [firstChecked]
  | cons entry entries ih =>
    obtain ⟨rule,i⟩ := entry
    unfold firstChecked
    by_cases hevent : rule.event = event
    · rw [if_pos (eventEqual_iff.mpr hevent)]
      simp [hevent]
    · rw [if_neg (fun h => hevent (eventEqual_iff.mp h)),ih]
      simp [hevent]

theorem matched_iff : (∃ v, firstCheckedOf rules event w = some v) ↔ Matched rules event := by
  unfold firstCheckedOf Matched
  rw [firstChecked_some]
  constructor
  · rintro ⟨⟨rule,i⟩,hmem,hevent⟩
    exact ⟨rule,(List.mem_zipIdx' hmem).2 ▸ List.getElem_mem _,hevent⟩
  · rintro ⟨rule,hmem,hevent⟩
    obtain ⟨i,hi,rfl⟩ := List.mem_iff_getElem.mp hmem
    exact ⟨(rules[i],i),by simp [List.mem_zipIdx_iff_getElem?],hevent⟩

def Answers (event : Event) (w : World) : Prop :=
  ∀ type, sameName event.type = some type →
    (w.userdata event.device).deviceType ∈ coherentTypes →
    deviceCheck event.device ⟨type,event.device⟩ w = true

theorem coherent_iff : Coherent rules event w ↔ (Matched rules event → Answers event w) := by
  constructor
  · intro h hmatched type hname htype
    obtain ⟨v,hv⟩ := matched_iff.mpr hmatched
    have hu := firstCheckedOf_userdata hv
    rw [← deviceCheck_congr (congrFun hu event.device)]
    exact h type hname htype v hv
  · intro h type hname htype v hv
    have hu := firstCheckedOf_userdata hv
    rw [deviceCheck_congr (congrFun hu event.device)]
    exact h (matched_iff.mp ⟨v,hv⟩) type hname htype

theorem Answers.coherent (h : Answers event w) : Coherent rules event w :=
  coherent_iff.mpr (fun _ => h)

end FirstRule

section Answering
variable {rules : List Rule} {event event' : Event} {w v : World}

theorem answers_value {device : DeviceId} {c : Prop} [Decidable c]
    (hset : c → deviceCheck device ⟨.set,device⟩ w = true)
    (hunset : ¬ c → deviceCheck device ⟨.unset,device⟩ w = true) :
    Answers ⟨device,if c then .set else .unset⟩ w := by
  intro type hname _
  by_cases hc : c
  · rw [if_pos hc] at hname
    cases hname
    exact hset hc
  · rw [if_neg hc] at hname
    cases hname
    exact hunset hc

theorem boolCommand_cases (b : BoolT) (type : ActionType) :
    boolCommand b type = b.val ∨ boolCommand b type = 0 ∨ boolCommand b type = 1 := by
  unfold boolCommand
  cases type with
  | toggle =>
    simp only
    split <;> simp
  | _ => simp

theorem bool_answers {device : DeviceId} {b : BoolT} (hdata : w.userdata device = .bool b)
    (hval : b.val = 0 ∨ b.val = 1) :
    Answers ⟨device,if b.val = 1 then .set else .unset⟩ w := by
  refine answers_value (fun hset => ?_) (fun hunset => ?_)
  · have hcheck : deviceCheck device ⟨.set,device⟩ w = boolCheck b .set := by
      unfold deviceCheck
      rw [hdata]
      rfl
    simp [hcheck,boolCheck,hset]
  · have hcheck : deviceCheck device ⟨.unset,device⟩ w = boolCheck b .unset := by
      unfold deviceCheck
      rw [hdata]
      rfl
    simp only [hcheck,boolCheck,decide_eq_true_eq]
    omega

theorem fsr14_answers {device : DeviceId} {fsr14 : DeviceFsr14}
    (hdata : w.userdata device = .fsr14 fsr14) (hval : fsr14.val = 0 ∨ fsr14.val = 1) :
    Answers ⟨device,if fsr14.val ≠ 0 then .set else .unset⟩ w := by
  refine answers_value (fun hset => ?_) (fun hunset => ?_)
  · have hcheck : deviceCheck device ⟨.set,device⟩ w = fsr14DeviceCheck fsr14 .set := by
      unfold deviceCheck
      rw [hdata]
      rfl
    simp only [hcheck,fsr14DeviceCheck,decide_eq_true_eq]
    omega
  · have hcheck : deviceCheck device ⟨.unset,device⟩ w = fsr14DeviceCheck fsr14 .unset := by
      unfold deviceCheck
      rw [hdata]
      rfl
    simp only [hcheck,fsr14DeviceCheck,decide_eq_true_eq]
    omega

theorem fsr14Command_val {fsr14 : DeviceFsr14} {action : Action} {command : Int × UInt8}
    (h : fsr14Command fsr14 action = some command) : command.1 = 0 ∨ command.1 = 1 := by
  unfold fsr14Command at h
  split at h
  · cases h
    exact .inr rfl
  · cases h
    exact .inl rfl
  · cases h
    by_cases hval : fsr14.val ≠ 0
    · exact .inl (if_pos hval)
    · exact .inr (if_neg hval)
  · cases h

theorem fud14_answers {device : DeviceId} {fud14 : DeviceFud14}
    (hdata : w.userdata device = .fud14 fud14) :
    Answers ⟨device,if fud14.dimValue > 0 then .set else .unset⟩ w := by
  refine answers_value (fun hset => ?_) (fun hunset => ?_)
  · have hcheck : deviceCheck device ⟨.set,device⟩ w = fud14DeviceCheck fud14 .set := by
      unfold deviceCheck
      rw [hdata]
      rfl
    simp [hcheck,fud14DeviceCheck,hset]
  · have hcheck : deviceCheck device ⟨.unset,device⟩ w = fud14DeviceCheck fud14 .unset := by
      unfold deviceCheck
      rw [hdata]
      rfl
    have hzero : fud14.dimValue = 0 := UInt8.le_zero_iff.mp (UInt8.not_lt.mp hunset)
    simp [hcheck,fud14DeviceCheck,hzero]

theorem set_answers {action : Action} {cause : Option Event}
    (h : Asks (fun trigger => actionExecute trigger action cause w) event v) :
    Answers event v := by
  unfold actionExecute deviceSet at h
  by_cases hmask : action.type ∈
      (deviceTypeInfo (w.userdata action.device).deviceType).actions
  · simp only [if_pos hmask] at h
    cases hdata : w.userdata action.device with
    | bool b =>
      simp only [hdata,boolExec] at h
      by_cases hchanged : b.val ≠ boolCommand b action.type
      · simp only [if_pos hchanged] at h
        obtain ⟨rfl,rfl⟩ := asks_trigger.mp h
        have hval := (boolCommand_cases b action.type).resolve_left (fun h => hchanged h.symm)
        exact bool_answers (b := { b with val := boolCommand b action.type })
          (setUserdata_same _ _ _) hval
      · simp only [if_neg hchanged] at h
        exact absurd h not_asks_some
    | fsr14 fsr14 =>
      simp only [hdata,fsr14DeviceExec] at h
      cases hcommand : fsr14Command fsr14 action with
      | none =>
        simp only [hcommand] at h
        exact absurd h not_asks_some
      | some command =>
        simp only [hcommand] at h
        obtain ⟨rfl,rfl⟩ := asks_trigger.mp h
        have hanswers := fsr14_answers
          (setUserdata_same w action.device (.fsr14 { fsr14 with val := command.1 }))
          (fsr14Command_val hcommand)
        exact hanswers
    | fud14 fud14 =>
      simp only [hdata,fud14DeviceExec] at h
      cases hcommand : fud14Command fud14 action with
      | none =>
        simp only [hcommand] at h
        exact absurd h not_asks_some
      | some command =>
        simp only [hcommand] at h
        obtain ⟨rfl,rfl⟩ := asks_trigger.mp h
        exact fud14_answers (setUserdata_same _ _ _)
    | fsb14 _ | timer _ | gpo _ | veluxKlf200 _ | schedule _ | sunriset _ | plain _ =>
      simp only [hdata] at h
      exact absurd h not_asks_some
  · simp only [if_neg hmask] at h
    exact absurd h not_asks_some

theorem reaches_answers (h : Reaches rules event w event' v) :
    (event' = event ∧ v = w) ∨ Answers event' v := by
  induction h with
  | here => exact .inl ⟨rfl,rfl⟩
  | inside _ _ _ _ _ _ hasks _ ih =>
    rcases ih with ⟨rfl,rfl⟩ | hanswers
    · exact .inr (set_answers hasks)
    · exact .inr hanswers

theorem allCoherent_iff {input : HouseInput} {house : House} :
    AllCoherent rules input house ↔
      ∀ event w, Asks (fun trigger => houseStep trigger input house) event w →
        Coherent rules event w := by
  constructor
  · intro h event w hasks
    exact h event w ⟨event,w,hasks,.here⟩
  · rintro h event v ⟨event₁,w,hasks,hreaches⟩
    rcases reaches_answers hreaches with ⟨rfl,rfl⟩ | hanswers
    · exact h _ _ hasks
    · exact hanswers.coherent

theorem fsb14_answers {device : DeviceId} {w : World} {fsb14 : DeviceFsb14}
    (hdata : w.userdata device = .fsb14 fsb14) {type : EventType} {condition : ConditionType}
    (hname : sameName type = some condition) (hmask : condition = .up ∨ condition = .down)
    (hcondition : fsb14.condition = condition) : Answers ⟨device,type⟩ w := by
  intro condition' hname' _
  rw [hname] at hname'
  cases hname'
  unfold deviceCheck
  rw [hdata]
  rcases hmask with rfl | rfl
  · simp only [fsb14DeviceCheck,hcondition]
    rfl
  · simp only [fsb14DeviceCheck,hcondition]
    rfl

/-- The condition of a FSB14 is there before the rules see the event. -/
theorem timerCallback_answers {timer : Timer}
    (h : Asks (fun trigger => timerCallback trigger timer w) event v) : Answers event v := by
  unfold timerCallback at h
  cases hcallback : timer.callback with
  | fsb14Timer =>
    simp only [hcallback] at h
    by_cases hdata : ∃ fsb14, w.userdata timer.arg = .fsb14 fsb14
    · obtain ⟨fsb14,hdata⟩ := hdata
      obtain ⟨condition,raised,hraises,hnamed⟩ := fsb14TimerCallback_raises hdata
      simp only [hraises] at h
      obtain ⟨type,hraised,rfl,rfl⟩ := asks_resume.mp (asks_map.mp h)
      obtain ⟨hname,hmask⟩ := hnamed type hraised
      exact fsb14_answers (setUserdata_same _ _ _) hname hmask rfl
    · simp only [fsb14TimerCallback_other (not_exists.mp hdata)] at h
      exact absurd h not_asks_some
  | tmrTimeout =>
    simp only [hcallback,tmrTimeout] at h
    cases hdata : w.userdata timer.arg with
    | timer tmr =>
      simp only [hdata] at h
      obtain ⟨rfl,rfl⟩ := asks_trigger.mp h
      intro type hname
      cases hname
    | _ =>
      simp only [hdata] at h
      exact absurd h not_asks_some

theorem schedule_mask (condition : ConditionType) :
    condition ∈ (deviceTypeInfo .schedule).conditions ↔ condition = .set ∨ condition = .unset := by
  cases condition <;> decide

def sunrisetCondition : SunrisetEvent → ConditionType
  | .rise => .sunrise
  | .riseCiv => .sunriseCiv
  | .riseNaut => .sunriseNaut
  | .riseAstr => .sunriseAstro
  | .set => .sunset
  | .setCiv => .sunsetCiv
  | .setNaut => .sunsetNaut
  | .setAstr => .sunsetAstro

theorem sunriset_sameName (se : SunrisetEvent) :
    sameName (sunrisetEventType se) = some (sunrisetCondition se) := by
  cases se <;> rfl

theorem sunriset_mask (se : SunrisetEvent) :
    sunrisetCondition se ∈ (deviceTypeInfo .sunriset).conditions := by
  cases se <;> decide

theorem schedule_answers_iff {device : DeviceId} {schedule : Schedule} {type : EventType}
    (hdata : w.userdata device = .schedule schedule) :
    Answers ⟨device,type⟩ w ↔ ∀ condition, sameName type = some condition →
      (condition = .set ∨ condition = .unset) ∧ schedule.condition = condition := by
  have hschedule : (w.userdata device).deviceType = .schedule := by rw [hdata]; rfl
  have htype : (w.userdata device).deviceType ∈ coherentTypes := by rw [hschedule]; decide
  have hcheck : ∀ condition, deviceCheck device ⟨condition,device⟩ w = true ↔
      (condition = .set ∨ condition = .unset) ∧ schedule.condition = condition := by
    intro condition
    unfold deviceCheck
    simp only [hschedule,Bool.and_eq_true,decide_eq_true_eq,schedule_mask]
    simp only [hdata,scheduleCheck,decide_eq_true_eq,@eq_comm _ condition]
  constructor
  · intro h condition hname
    exact (hcheck condition).mp (h condition hname htype)
  · intro h condition hname _
    exact (hcheck condition).mpr (h condition hname)

/-- The flags are computed from the timers, and the timer of an event is set to NULL after it:
no SUNRISE answers, and a SUNSET only in front of its SUNRISE. -/
theorem sunriset_answers_iff {device : DeviceId} {timers : SunrisetEvent → Bool}
    {se : SunrisetEvent} (hdata : w.userdata device = .sunriset (sunrisetFlags timers))
    (hpending : timers se = true) :
    Answers ⟨device,sunrisetEventType se⟩ w ↔
      ∃ riseEvent, riseOf se = some riseEvent ∧ timers riseEvent = true := by
  have hsunriset : (w.userdata device).deviceType = .sunriset := by rw [hdata]; rfl
  have htype : (w.userdata device).deviceType ∈ coherentTypes := by rw [hsunriset]; decide
  have hcheck : deviceCheck device ⟨sunrisetCondition se,device⟩ w =
      sunrisetDeviceCheck (sunrisetFlags timers) (sunrisetCondition se) := by
    unfold deviceCheck
    simp only [hsunriset,sunriset_mask,decide_true,Bool.true_and]
    rw [hdata]
  have hanswers : Answers ⟨device,sunrisetEventType se⟩ w ↔
      sunrisetDeviceCheck (sunrisetFlags timers) (sunrisetCondition se) = true := by
    rw [← hcheck]
    constructor
    · intro h
      exact h _ (sunriset_sameName se) htype
    · intro h type hname _
      rw [sunriset_sameName] at hname
      cases hname
      exact h
  rw [hanswers]
  cases se <;> simp [sunrisetCondition,riseOf,sunrisetDeviceCheck,sunrisetFlags,hpending]

end Answering

def KeepsSunrisets (w w' : World) : Prop :=
  ∀ d sr, w'.userdata d = .sunriset sr → w.userdata d = .sunriset sr

theorem set_sunriset {device : DeviceId} {w w₁ : World} {action : Action} {event : Option Event}
    {raised : Option EventType} (hset : ∀ trigger,
      deviceSet trigger device action event w = resume trigger device w₁ raised)
    (htype : (w.userdata device).deviceType = .sunriset) : w₁ = w := by
  have hquiet : deviceSet (fun _ w => some w) device action event w = some w := by
    unfold deviceSet
    rw [if_neg (by rw [htype]; exact List.not_mem_nil)]
  exact deviceSet_unique hset hquiet

/-- A SUNRISET has no actions, so callbacks of other devices leave it alone. -/
theorem sunriset_rule : CallbackRule (fun a b => ∀ sr, b = .sunriset sr ↔ a = .sunriset sr) where
  refl := fun _ _ => Iff.rfl
  trans := fun hab hbc sr => (hbc sr).trans (hab sr)
  action := by
    intro w w₁ action event raised hset sr
    by_cases htype : (w.userdata action.device).deviceType = .sunriset
    · rw [set_sunriset hset htype]
    · refine iff_of_false (fun hd => htype ?_) (fun hd => htype (by rw [hd]; rfl))
      rw [← (deviceSet_frame hset).deviceType,hd]
      rfl
  fsb14 := fun _ _ _ => by simp
  timer := fun _ _ _ => by simp
  schedule := fun _ _ _ _ => by simp

theorem related_keepsSunrisets {w w' : World}
    (h : Related (fun a b => ∀ sr, b = .sunriset sr ↔ a = .sunriset sr) w w') :
    KeepsSunrisets w w' := fun d sr => (h d sr).mp

def Calculated (house : House) : Prop :=
  ∀ d sr, house.world.userdata d = .sunriset sr → sr = sunrisetFlags (house.sunrisetTimers d)

theorem Calculated.setWorld {house : House} (h : Calculated house) {w : World}
    (hkeeps : KeepsSunrisets house.world w) : Calculated (house.setWorld w) :=
  fun d sr hd => h d sr (hkeeps d sr hd)

theorem Calculated.currentState {house : House} (h : Calculated house) {w : World}
    (hkeeps : KeepsSunrisets house.world w) (device : DeviceId)
    (timers : SunrisetEvent → Bool) :
    Calculated (sunrisetCurrentState device ((house.setWorld w).setTimers device timers)) := by
  intro d sr hd
  by_cases hdevice : d = device
  · subst hdevice
    have hsr : Userdata.sunriset sr =
        .sunriset (sunrisetFlags (((house.setWorld w).setTimers d timers).sunrisetTimers d)) :=
      hd.symm.trans (setUserdata_same _ _ _)
    exact Userdata.sunriset.inj hsr
  · have hold : w.userdata d = .sunriset sr := (setUserdata_other hdevice _ _).symm.trans hd
    have htimers : (Function.update house.sunrisetTimers device timers) d =
        house.sunrisetTimers d := Function.update_of_ne hdevice _ _
    exact (h d sr (hkeeps d sr hold)).trans (congrArg sunrisetFlags htimers.symm)

theorem start_calculated (w : World) (ct et : DeviceId → SunrisetEvent → Int) :
    Calculated (House.start w ct et) := by
  intro d sr hd
  unfold House.start at hd
  cases hdata : w.userdata d with
  | sunriset _ =>
    simp only [hdata] at hd
    exact (Userdata.sunriset.inj hd).symm
  | _ =>
    simp only [hdata] at hd
    cases hd

theorem houseSteps_calculated {rules : List Rule} {input : HouseInput} {house house' : House}
    (h : Calculated house) (hstep : HouseSteps rules input house house') :
    Calculated house' := by
  obtain ⟨fuel,hstep⟩ := hstep
  obtain ⟨step,hbranch,hsame⟩ := houseStep_branch input house
  rw [hsame] at hstep
  cases hbranch with
  | command action =>
    obtain ⟨w,hw,rfl⟩ := Option.map_eq_some_iff.mp hstep
    exact h.setWorld (related_keepsSunrisets (sunriset_rule.command hw))
  | expire hpending =>
    obtain ⟨w,hw,rfl⟩ := Option.map_eq_some_iff.mp hstep
    have hkeeps := related_keepsSunrisets (sunriset_rule.timer_callback hw)
    exact h.setWorld (fun d sr hd => hkeeps d sr hd)
  | entry hdata hentry =>
    obtain ⟨w,hw,rfl⟩ := Option.map_eq_some_iff.mp hstep
    exact h.setWorld (related_keepsSunrisets (sunriset_rule.after (sunriset_rule.trigger hw)
      (sunriset_rule.entry_condition _ _)))
  | idle =>
    cases hstep
    exact h
  | sun hdata hpending =>
    obtain ⟨w,hw,rfl⟩ := Option.map_eq_some_iff.mp hstep
    exact h.currentState (related_keepsSunrisets (sunriset_rule.trigger hw)) _ _
  | midnight hdata =>
    cases hstep
    exact h.currentState (fun _ _ hd => hd) _ _
  | plain hdata =>
    obtain ⟨w,hw,rfl⟩ := Option.map_eq_some_iff.mp hstep
    exact h.setWorld (related_keepsSunrisets (sunriset_rule.trigger hw))
  | never => cases hstep

theorem minute_step (rules : List Rule) (device : DeviceId) (ts : Tm) (house : House) :
    (∀ event w, Asks (fun trigger => houseStep trigger (.minute device ts) house) event w →
      Coherent rules event w) ↔ (HouseInput.minute device ts).Holds rules house := by
  have hstep : ∀ event w, Asks (fun trigger => houseStep trigger (.minute device ts) house) event
      w ↔ ∃ schedule entry, house.world.userdata device = .schedule schedule ∧
        scheduleSearchEntry schedule ts = some entry ∧ event = ⟨device,entry.event⟩ ∧
        w = house.world := by
    intro event w
    refine asks_map.trans ?_
    cases hdata : house.world.userdata device with
    | schedule schedule =>
      cases hentry : scheduleSearchEntry schedule ts with
      | none =>
        simp only [scheduleCheckEvent,hdata,hentry]
        exact iff_of_false not_asks_some (by simp [hentry])
      | some entry =>
        simp only [scheduleCheckEvent,hdata,hentry]
        refine (asks_map.trans asks_trigger).trans ?_
        simp [hentry]
    | _ =>
      simp only [scheduleCheckEvent,hdata]
      exact iff_of_false not_asks_some (by simp)
  simp only [hstep,HouseInput.Holds]
  constructor
  · intro h schedule entry type hdata hentry hname hmatched
    have hcoherent := h _ _ ⟨schedule,entry,hdata,hentry,rfl,rfl⟩
    exact (schedule_answers_iff hdata).mp (coherent_iff.mp hcoherent hmatched) type hname
  · rintro h _ _ ⟨schedule,entry,hdata,hentry,rfl,rfl⟩
    refine coherent_iff.mpr (fun hmatched => (schedule_answers_iff hdata).mpr ?_)
    exact fun type hname => h schedule entry type hdata hentry hname hmatched

theorem sun_step {rules : List Rule} {device : DeviceId} {se : SunrisetEvent} {house : House}
    (hcalculated : Calculated house) :
    (∀ event w, Asks (fun trigger => houseStep trigger (.sun device se) house) event w →
      Coherent rules event w) ↔ (HouseInput.sun device se).Holds rules house := by
  have hstep : ∀ event w, Asks (fun trigger => houseStep trigger (.sun device se) house) event
      w ↔ ∃ sr, house.world.userdata device = .sunriset sr ∧
        house.sunrisetTimers device se = true ∧ event = ⟨device,sunrisetEventType se⟩ ∧
        w = house.world := by
    intro event w
    cases hdata : house.world.userdata device with
    | sunriset sr =>
      by_cases hpending : house.sunrisetTimers device se = true
      · simp only [houseStep,hdata,if_pos hpending]
        refine (asks_map.trans asks_trigger).trans ?_
        simp [hpending]
      · simp only [houseStep,hdata,if_neg hpending]
        exact iff_of_false not_asks_none (by simp [hpending])
    | _ =>
      simp only [houseStep,hdata]
      exact iff_of_false not_asks_none (by simp)
  simp only [hstep,HouseInput.Holds]
  constructor
  · intro h sr hdata hpending hmatched
    have hcoherent := h _ _ ⟨sr,hdata,hpending,rfl,rfl⟩
    rw [hcalculated device sr hdata] at hdata
    exact (sunriset_answers_iff hdata hpending).mp (coherent_iff.mp hcoherent hmatched)
  · rintro h _ _ ⟨sr,hdata,hpending,rfl,rfl⟩
    refine coherent_iff.mpr (fun hmatched => ?_)
    have hrise := h sr hdata hpending hmatched
    rw [hcalculated device sr hdata] at hdata
    exact (sunriset_answers_iff hdata hpending).mpr hrise

theorem other_answers {input : HouseInput} {house : House} {event : Event} {w : World}
    (hminute : ∀ device ts, input ≠ .minute device ts) (hsun : ∀ device se, input ≠ .sun device se)
    (hasks : Asks (fun trigger => houseStep trigger input house) event w) : Answers event w := by
  obtain ⟨step,hbranch,hstep⟩ := houseStep_branch input house
  simp only [hstep] at hasks
  cases hbranch with
  | command action => exact set_answers (asks_map.mp hasks)
  | expire hpending => exact timerCallback_answers (asks_map.mp hasks)
  | entry hdata hentry => exact absurd rfl (hminute _ _)
  | idle => exact absurd rfl (hminute _ _)
  | sun hdata hpending => exact absurd rfl (hsun _ _)
  | midnight hdata => exact absurd hasks not_asks_some
  | @plain device type data hdata =>
    obtain ⟨rfl,rfl⟩ := asks_trigger.mp (asks_map.mp hasks)
    intro type' _ htype
    rw [hdata] at htype
    cases data <;> exact absurd htype (by decide)
  | never => exact absurd hasks not_asks_none

theorem allCoherent_step {rules : List Rule} {input : HouseInput} {house : House}
    (h : Calculated house) : AllCoherent rules input house ↔ input.Holds rules house := by
  rw [allCoherent_iff]
  cases input with
  | minute device ts => exact minute_step rules device ts house
  | sun device se => exact sun_step h
  | command | expire | midnight | plain =>
    exact iff_of_true (fun _ _ hasks => (other_answers (by simp) (by simp) hasks).coherent) trivial

/-- The rules see every device in the state that its event names exactly in the runs in which
the schedules and SUNRISETs raise nothing that does not hold yet. -/
theorem events_coherent_iff (rules : List Rule) (w : World)
    (ct et : DeviceId → SunrisetEvent → Int) (inputs : List HouseInput) :
    Runs.During (HouseSteps rules) (AllCoherent rules) inputs (House.start w ct et) ↔
      Runs.During (HouseSteps rules) (fun input house => input.Holds rules house) inputs
        (House.start w ct et) :=
  Runs.during_iff (I := Calculated) (fun _ _ _ => houseSteps_calculated)
    (fun _ _ => allCoherent_step) (start_calculated w ct et)

def heating : Schedule := ⟨.day,[⟨1,7,0,.set⟩,⟨1,22,0,.unset⟩],"heating".toList,.unset⟩

def morningWorld : World := World.start (fun d =>
  match d with
  | 0 => .schedule heating
  | 1 => .sunriset ⟨false,false,false,false⟩
  | _ => .bool ⟨0⟩)

def morningRules : List Rule :=
  [⟨⟨0,.set⟩,[⟨.set,0⟩],[⟨.set,2,["SET".toList]⟩]⟩,
   ⟨⟨1,.sunrise⟩,[⟨.sunrise,1⟩],[⟨.set,2,["SET".toList]⟩]⟩]

def nightHouse : House := House.start morningWorld (fun _ _ => 0) (fun _ _ => 1)

/-- Neither the switching of a schedule nor a sunrise is there when the rules check for it. -/
theorem events_incoherent :
    ¬ Runs.During (HouseSteps morningRules) (AllCoherent morningRules) [.minute 0 ⟨1,7,0⟩]
      nightHouse ∧
    ¬ Runs.During (HouseSteps morningRules) (AllCoherent morningRules) [.sun 1 .rise]
      nightHouse := by
  constructor
  · rintro ⟨h,-⟩
    have hraises : HouseRaises morningRules (.minute 0 ⟨1,7,0⟩) nightHouse ⟨0,.set⟩
        nightHouse.world := ⟨_,_,asks_map.mpr (asks_map.mpr (asks_trigger.mpr ⟨rfl,rfl⟩)),.here⟩
    have hcheck := h _ _ hraises .set rfl (by decide) _ rfl
    exact absurd hcheck (by decide)
  · rintro ⟨h,-⟩
    have hraises : HouseRaises morningRules (.sun 1 .rise) nightHouse ⟨1,.sunrise⟩
        nightHouse.world := ⟨_,_,asks_map.mpr (asks_trigger.mpr ⟨rfl,rfl⟩),.here⟩
    have hcheck := h _ _ hraises .sunrise rfl (by decide) _ rfl
    exact absurd hcheck (by decide)

end DomoticaEngine
