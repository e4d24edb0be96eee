import DomoticaEngine.Execution
import DomoticaEngine.Schedule

/-!
The engine between two callbacks, and every callback that can be next.
-/

set_option autoImplicit false

namespace DomoticaEngine

inductive SunrisetEvent where
  | rise | set | riseCiv | setCiv | riseNaut | setNaut | riseAstr | setAstr
  deriving DecidableEq, Repr

structure House where
  world : World
  sunrisetTimers : DeviceId → SunrisetEvent → Bool

def House.setWorld (house : House) (w : World) : House := { house with world := w }

def House.setTimers (house : House) (device : DeviceId) (timers : SunrisetEvent → Bool) : House :=
  { house with sunrisetTimers := Function.update house.sunrisetTimers device timers }

/-- The flags that `sunriset_current_state` computes from the timers. -/
def sunrisetFlags (timers : SunrisetEvent → Bool) : Sunriset :=
  { rised := !timers .rise && timers .set,
    risedCiv := !timers .riseCiv && timers .setCiv,
    risedNaut := !timers .riseNaut && timers .setNaut,
    risedAstr := !timers .riseAstr && timers .setAstr }

def sunrisetCurrentState (device : DeviceId) (house : House) : House :=
  house.setWorld (house.world.setUserdata device
    (.sunriset (sunrisetFlags (house.sunrisetTimers device))))

/-- The timers after `sunriset_create_event_timer` for every event: one is pending when the
time `et` of its event is after the time `ct` of the call. -/
def sunrisetTimersAt (ct et : SunrisetEvent → Int) (se : SunrisetEvent) : Bool := et se > ct se

def sunrisetCalculate (device : DeviceId) (ct et : SunrisetEvent → Int) (house : House) : House :=
  sunrisetCurrentState device (house.setTimers device (sunrisetTimersAt ct et))

def sunrisetEventType : SunrisetEvent → EventType
  | .rise => .sunrise
  | .riseCiv => .sunriseCiv
  | .riseNaut => .sunriseNaut
  | .riseAstr => .sunriseAstro
  | .set => .sunset
  | .setCiv => .sunsetCiv
  | .setNaut => .sunsetNaut
  | .setAstr => .sunsetAstro

def sunrisetEventCallback (trigger : Trigger) (device : DeviceId) (se : SunrisetEvent)
    (house : House) : Option House :=
  (deviceTriggerEvent trigger device (sunrisetEventType se) house.world).map (fun w =>
    sunrisetCurrentState device ((house.setWorld w).setTimers device
      (Function.update (house.sunrisetTimers device) se false)))

def tmrTimeout (trigger : Trigger) (device : DeviceId) (w : World) : Option World :=
  match w.userdata device with
  | .timer tmr =>
    deviceTriggerEvent trigger device .timeout
      (w.setUserdata device (.timer { tmr with timer := none }))
  | _ => some w

/-- What happens to the engine: a command, a timer that expires, a minute for a schedule, a
timer of a SUNRISET that expires, its calculation at midnight, an event of another device. -/
inductive HouseInput where
  | command (action : Action)
  | expire (t : Nat)
  | minute (device : DeviceId) (ts : Tm)
  | sun (device : DeviceId) (se : SunrisetEvent)
  | midnight (device : DeviceId) (ct et : SunrisetEvent → Int)
  | plain (device : DeviceId) (type : EventType)

def timerCallback (trigger : Trigger) (timer : Timer) : World → Option World :=
  match timer.callback with
  | .fsb14Timer => fsb14TimerCallback trigger timer.arg
  | .tmrTimeout => tmrTimeout trigger timer.arg

def houseStep (trigger : Trigger) (input : HouseInput) (house : House) : Option House :=
  match input with
  | .command action => (actionExecute trigger action none house.world).map house.setWorld
  | .expire t =>
    match house.world.loop.pending t with
    | none => none
    | some timer => (timerCallback trigger timer house.world).map (fun w =>
        house.setWorld { w with loop := w.loop.stop t })
  | .minute device ts => (scheduleCheckEvent trigger device house.world ts).map house.setWorld
  | .sun device se =>
    match house.world.userdata device with
    | .sunriset _ =>
      if house.sunrisetTimers device se then sunrisetEventCallback trigger device se house
      else none
    | _ => none
  | .midnight device ct et =>
    match house.world.userdata device with
    | .sunriset _ => some (sunrisetCalculate device ct et house)
    | _ => none
  | .plain device type =>
    match house.world.userdata device with
    | .plain _ => (deviceTriggerEvent trigger device type house.world).map house.setWorld
    | _ => none

/-- The state after the rules are read. Every SUNRISET has calculated its timers. -/
def House.start (w : World) (ct et : DeviceId → SunrisetEvent → Int) : House :=
  { world := { w with userdata := fun d =>
      match w.userdata d with
      | .sunriset _ => .sunriset (sunrisetFlags (sunrisetTimersAt (ct d) (et d)))
      | data => data },
    sunrisetTimers := fun d => sunrisetTimersAt (ct d) (et d) }

def HouseSteps (rules : List Rule) (input : HouseInput) (house house' : House) : Prop :=
  ∃ fuel, houseStep (engineTriggerEvent rules fuel) input house = some house'

/-- The dispatch of `event` in `w` gets to the point where `event'` is raised in `v`, whether
or not it returns after that. -/
inductive Reaches (rules : List Rule) : Event → World → Event → World → Prop where
  | here {event : Event} {w : World} : Reaches rules event w event w
  | inside {event event₁ event' : Event} {w w₁ w₂ w₃ v : World} {rule : Rule} {i : Nat}
      {before after : List (Rule × Nat)} {action : Action} {done todo : List Action}
      {tr₁ tr₂ : List Occasion} (hentries : rules.zipIdx = before ++ (rule,i) :: after)
      (hbefore : Executes rules (.offer w.history.length event before)
        (w.record (.raised w.history.length event)) tr₁ w₁)
      (hevent : rule.event = event)
      (hconditions : rule.conditions.all
        (conditionCheck (w₁.record (.offered w.history.length i event))) = true)
      (hactions : rule.actions = done ++ action :: todo)
      (hdone : Executes rules (.actions event done)
        (w₁.record (.offered w.history.length i event)) tr₂ w₂)
      (hasks : Asks (fun trigger => actionExecute trigger action (some event) w₂) event₁ w₃)
      (hreaches : Reaches rules event₁ w₃ event' v) : Reaches rules event w event' v

def HouseRaises (rules : List Rule) (input : HouseInput) (house : House) (event : Event)
    (v : World) : Prop :=
  ∃ event₁ w, Asks (fun trigger => houseStep trigger input house) event₁ w ∧
    Reaches rules event₁ w event v

inductive HouseBranch (house : House) : HouseInput → (Trigger → Option House) → Prop where
  | command (action : Action) : HouseBranch house (.command action) (fun trigger =>
      (actionExecute trigger action none house.world).map house.setWorld)
  | expire {t : Nat} {timer : Timer} (hpending : house.world.loop.pending t = some timer) :
      HouseBranch house (.expire t) (fun trigger =>
        (timerCallback trigger timer house.world).map (fun w =>
          house.setWorld { w with loop := w.loop.stop t }))
  | entry {device : DeviceId} {ts : Tm} {schedule : Schedule} {entry : ScheduleEntry}
      (hdata : house.world.userdata device = .schedule schedule)
      (hentry : scheduleSearchEntry schedule ts = some entry) :
      HouseBranch house (.minute device ts) (fun trigger =>
        (trigger ⟨device,entry.event⟩ house.world).map (fun w =>
          house.setWorld (w.setCondition device (if entry.event = .set then .set else .unset))))
  | idle {device : DeviceId} {ts : Tm} :
      HouseBranch house (.minute device ts) (fun _ => some house)
  | sun {device : DeviceId} {se : SunrisetEvent} {sr : Sunriset}
      (hdata : house.world.userdata device = .sunriset sr)
      (hpending : house.sunrisetTimers device se = true) :
      HouseBranch house (.sun device se) (fun trigger =>
        (trigger ⟨device,sunrisetEventType se⟩ house.world).map (fun w =>
          sunrisetCurrentState device ((house.setWorld w).setTimers device
            (Function.update (house.sunrisetTimers device) se false))))
  | midnight {device : DeviceId} {ct et : SunrisetEvent → Int} {sr : Sunriset}
      (hdata : house.world.userdata device = .sunriset sr) :
      HouseBranch house (.midnight device ct et) (fun _ =>
        some (sunrisetCalculate device ct et house))
  | plain {device : DeviceId} {type : EventType} {data : PlainType}
      (hdata : house.world.userdata device = .plain data) :
      HouseBranch house (.plain device type) (fun trigger =>
        (trigger ⟨device,type⟩ house.world).map house.setWorld)
  | never {input : HouseInput} : HouseBranch house input (fun _ => none)

theorem houseStep_branch (input : HouseInput) (house : House) :
    ∃ step, HouseBranch house input step ∧
      ∀ trigger, houseStep trigger input house = step trigger := by
  cases input with
  | command action => exact ⟨_,.command action,fun _ => rfl⟩
  | expire t =>
    cases hpending : house.world.loop.pending t with
    | none => exact ⟨_,.never,fun _ => by simp only [houseStep,hpending]⟩
    | some timer => exact ⟨_,.expire hpending,fun _ => by simp only [houseStep,hpending]⟩
  | minute device ts =>
    cases hdata : house.world.userdata device with
    | schedule schedule =>
      cases hentry : scheduleSearchEntry schedule ts with
      | none =>
        refine ⟨_,.idle,fun _ => ?_⟩
        simp only [houseStep,scheduleCheckEvent,hdata,hentry]
        rfl
      | some entry =>
        refine ⟨_,.entry hdata hentry,fun _ => ?_⟩
        simp only [houseStep,scheduleCheckEvent,hdata,hentry,Option.map_map]
        rfl
    | _ =>
      refine ⟨_,.idle,fun _ => ?_⟩
      simp only [houseStep,scheduleCheckEvent,hdata]
      rfl
  | sun device se =>
    cases hdata : house.world.userdata device with
    | sunriset sr =>
      by_cases hpending : house.sunrisetTimers device se = true
      · refine ⟨_,.sun hdata hpending,fun _ => ?_⟩
        simp only [houseStep,hdata,if_pos hpending]
        rfl
      · exact ⟨_,.never,fun _ => by simp only [houseStep,hdata,if_neg hpending]⟩
    | _ => exact ⟨_,.never,fun _ => by simp only [houseStep,hdata]⟩
  | midnight device ct et =>
    cases hdata : house.world.userdata device with
    | sunriset sr => exact ⟨_,.midnight hdata,fun _ => by simp only [houseStep,hdata]⟩
    | _ => exact ⟨_,.never,fun _ => by simp only [houseStep,hdata]⟩
  | plain device type =>
    cases hdata : house.world.userdata device with
    | plain data =>
      refine ⟨_,.plain hdata,fun _ => ?_⟩
      simp only [houseStep,hdata]
      rfl
    | _ => exact ⟨_,.never,fun _ => by simp only [houseStep,hdata]⟩

def sameName (type : EventType) : Option ConditionType :=
  (eventGetName type).bind conditionTypeFromChar

section Expiring
variable {w : World}

theorem fsb14TimerCallback_raises {device : DeviceId} {fsb14 : DeviceFsb14}
    (hdata : w.userdata device = .fsb14 fsb14) :
    ∃ (condition : ConditionType) (raised : Option EventType),
      (∀ trigger, fsb14TimerCallback trigger device w =
        (resume trigger device ((w.setUserdata device
            (.fsb14 { fsb14 with condition := .stopped })).setUserdata device
          (.fsb14 { fsb14 with condition := condition })) raised).map
        (fun w => w.modifyFsb14 device (fun fsb14 =>
          { fsb14 with lastAction := some .stop, timer := none }))) ∧
      (∀ type ∈ raised, sameName type = some condition ∧
        (condition = .up ∨ condition = .down)) := by
  unfold fsb14TimerCallback
  rw [modifyFsb14_eq hdata]
  simp only [setUserdata_same]
  by_cases hup : fsb14.lastAction = some .up
  · refine ⟨.up,some .up,fun trigger => ?_,?_⟩
    · rw [if_pos hup,modifyFsb14_eq (setUserdata_same _ _ _),Option.map_eq_bind]
      rfl
    · rintro _ ⟨⟩
      exact ⟨rfl,.inl rfl⟩
  · by_cases hdown : fsb14.lastAction = some .down
    · refine ⟨.down,some .down,fun trigger => ?_,?_⟩
      · rw [if_neg hup,if_pos hdown,modifyFsb14_eq (setUserdata_same _ _ _),
          Option.map_eq_bind]
        rfl
      · rintro _ ⟨⟩
        exact ⟨rfl,.inr rfl⟩
    · refine ⟨.stopped,none,fun trigger => ?_,by simp⟩
      rw [if_neg hup,if_neg hdown]
      simp [resume,World.setUserdata]

theorem fsb14TimerCallback_other {device : DeviceId} {trigger : Trigger}
    (h : ∀ fsb14, w.userdata device ≠ .fsb14 fsb14) :
    fsb14TimerCallback trigger device w = some w := by
  have hmodify : ∀ f, w.modifyFsb14 device f = w := by
    intro f
    unfold World.modifyFsb14
    cases hdata : w.userdata device with
    | fsb14 fsb14 => exact absurd hdata (h fsb14)
    | _ => rfl
  unfold fsb14TimerCallback
  simp only [hmodify]
  cases hdata : w.userdata device with
  | fsb14 fsb14 => exact absurd hdata (h fsb14)
  | _ => exact congrArg some (hmodify _)

end Expiring

end DomoticaEngine
