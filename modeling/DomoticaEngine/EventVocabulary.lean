import DomoticaEngine.Guards
import DomoticaEngine.Outputs

/-!
Which events a device can raise and which conditions it can meet, by its declaration alone.
-/

set_option autoImplicit false

namespace DomoticaEngine

def PlainType.events : PlainType → List EventType
  | .fts14em => [.press,.release,.shortPress,.longPress]
  | .gpi => [.press,.release,.shortPress,.longPress,.dim]
  | .dht22 => [.temperature,.humidity]
  | .soltracker => [.set,.unset,.sunPosition]
  | .musiccast => []

/-- The events of a device, those of a schedule after its entries. -/
def deviceEvents : Userdata → List EventType
  | .bool _ | .fsr14 _ | .fud14 _ => [.set,.unset]
  | .fsb14 _ => [.up,.down]
  | .timer _ => [.timeout]
  | .schedule schedule => schedule.entries.map ScheduleEntry.event
  | .sunriset _ => [.sunrise,.sunset,.sunriseCiv,.sunsetCiv,.sunriseNaut,.sunsetNaut,.sunriseAstro,
      .sunsetAstro]
  | .plain type => type.events
  | .gpo _ | .veluxKlf200 _ => []

/-- The conditions that can hold of a device: SOLTRACKER and VELUX-KLF200 answer none of those in
their masks. -/
def deviceConditions (type : DeviceType) : List ConditionType :=
  if type = .soltracker ∨ type = .veluxKlf200 then [] else (deviceTypeInfo type).conditions

def ruleLive (devices : List Device) (rule : Rule) : Bool :=
  (devices[rule.event.device]?).any (fun device =>
    rule.event.type ∈ deviceEvents device.userdata) &&
  rule.conditions.all (fun condition => (devices[condition.device]?).any (fun device =>
    condition.type ∈ deviceConditions device.deviceType))

/-- An input of a device that the engine only hears of is one of its events. -/
def Heard (devices : List Device) : ProgramInput → Prop
  | .house (.plain d type) => ∃ device, devices[d]? = some device ∧
      type ∈ deviceEvents device.userdata
  | _ => True

section Data
variable {data : Userdata}

theorem events_configuration (data : Userdata) :
    deviceEvents (configuration data) = deviceEvents data := by
  cases data <;> rfl

theorem raises_events (h : data.deviceType.Raises) : deviceEvents data = [.set,.unset] := by
  cases data with
  | plain type => cases type <;> rcases h with h | h | h <;> cases h
  | bool | fsr14 | fud14 => rfl
  | _ => rcases h with h | h | h <;> cases h

theorem answer_conditions {type : ConditionType} (h : answer data type = true) :
    type ∈ deviceConditions data.deviceType := by
  have hmask : type ∈ (deviceTypeInfo data.deviceType).conditions := by
    unfold answer deviceCheck at h
    exact of_decide_eq_true (Bool.and_eq_true_iff.mp h).1
  cases data with
  | veluxKlf200 klf200 =>
    have hmask : type ∈ [ConditionType.up,.down,.rising,.descending] := hmask
    have hcheck : veluxKlf200DeviceCheck klf200 type = true := (Bool.and_eq_true_iff.mp h).2
    cases type with
    | set | unset => simp at hmask
    | _ => cases hcheck
  | plain plain => cases (Bool.and_eq_true_iff.mp h).2
  | _ => exact hmask

end Data

theorem sun_event (se : SunrisetEvent) :
    sunrisetEventType se ∈ [EventType.sunrise,.sunset,.sunriseCiv,.sunsetCiv,.sunriseNaut,
      .sunsetNaut,.sunriseAstro,.sunsetAstro] := by
  cases se <;> decide

theorem moved_event {type : EventType} {condition : ConditionType}
    (hname : sameName type = some condition) (h : condition = .up ∨ condition = .down) :
    type ∈ [EventType.up,.down] := by
  rcases h with rfl | rfl <;> cases type <;> first | decide | cases hname

def Announced (devices : List Device) (event : Event) : Prop :=
  ∃ device, devices[event.device]? = some device ∧ event.type ∈ deviceEvents device.userdata

section Raised
variable {rules : List Rule} {devices : List Device} {w v : World}

theorem declared_none {d : DeviceId} (h : devices[d]? = none) :
    declared devices d = .plain .dht22 := by
  simp [declared,parsedWorld,World.start,h,configuration]

theorem Outputs.announced (hw : Outputs (declared devices) w) {event : Event}
    (hplain : ∀ type, w.userdata event.device ≠ .plain type)
    (h : event.type ∈ deviceEvents (w.userdata event.device)) : Announced devices event := by
  have hkept := hw.kept event.device
  cases hd : devices[event.device]? with
  | none =>
    rw [declared_none hd] at hkept
    cases hdata : w.userdata event.device with
    | plain type => exact absurd hdata (hplain type)
    | _ =>
      rw [hdata] at hkept
      cases hkept
  | some device =>
    refine ⟨device,hd,?_⟩
    rwa [← events_configuration,hkept,declared_device hd,events_configuration] at h

theorem set_announced (hw : Outputs (declared devices) w) {action : Action} {cause : Option Event}
    {event : Event} (hasks : Asks (fun trigger => actionExecute trigger action cause w) event v) :
    Announced devices event ∧ Outputs (declared devices) v := by
  obtain ⟨w₁,raised,hresume,-,hraised⟩ := deviceSet_spec action.device action cause w
  simp only [actionExecute,hresume] at hasks
  obtain ⟨type,rfl,rfl,rfl⟩ := asks_resume.mp hasks
  obtain ⟨htype,hraises⟩ := hraised type rfl
  refine ⟨hw.announced (fun plain hdata => ?_) ?_,
    hw.action (deviceSet_outputs (deviceSet_quiet hresume))⟩
  · rw [hdata] at hraises
    cases plain <;> rcases hraises with h | h | h <;> cases h
  · rw [raises_events hraises]
    rcases htype with rfl | rfl <;> simp

theorem outputs_types {conf : DeviceId → Userdata} (h : Outputs conf w) :
    HasTypes (fun d => (conf d).deviceType) w := by
  intro d
  simp only [← h.kept,configuration_type]

/-- Induction on the depth of the event: those inside a dispatch are raised by actions. -/
theorem reaches_announced {event event' : Event} (hreaches : Reaches rules event w event' v)
    (hw : Outputs (declared devices) w) (hevent : Announced devices event) :
    Announced devices event' := by
  have hinvariant := @outputs_invariant (declared devices) rules
    (fun d => (declared devices d).deviceType)
  induction hreaches with
  | here => exact hevent
  | inside hentries hbefore _ hconditions hactions hdone hasks _ ih =>
    have hoffered := hinvariant.offered_before (hinvariant.recorded ⟨outputs_types hw,hw⟩ _)
      hentries hbefore
    obtain ⟨hw₂,-⟩ := hinvariant.performed (hinvariant.recorded hoffered _)
      (mem_of_entries hentries) hconditions hactions hdone
    obtain ⟨hnext,hw₃⟩ := set_announced hw₂.data hasks
    exact ih hw₃ hnext

theorem timer_announced (hw : Outputs (declared devices) w) {timer : Timer} {event : Event}
    (hasks : Asks (fun trigger => timerCallback trigger timer w) event v) :
    Announced devices event := by
  unfold timerCallback at hasks
  cases hcallback : timer.callback with
  | fsb14Timer =>
    simp only [hcallback] at hasks
    by_cases hdata : ∃ fsb14, w.userdata timer.arg = .fsb14 fsb14
    · obtain ⟨fsb14,hdata⟩ := hdata
      obtain ⟨condition,raised,hraises,hraised⟩ := fsb14TimerCallback_raises hdata
      simp only [hraises] at hasks
      obtain ⟨type,hsome,rfl,-⟩ := asks_resume.mp (asks_map.mp hasks)
      obtain ⟨hname,hcondition⟩ := hraised type hsome
      refine hw.announced (fun plain => by rw [hdata]; simp) ?_
      rw [hdata]
      exact moved_event hname hcondition
    · simp only [fsb14TimerCallback_other (not_exists.mp hdata)] at hasks
      exact absurd hasks not_asks_some
  | tmrTimeout =>
    simp only [hcallback,tmrTimeout] at hasks
    cases hdata : w.userdata timer.arg with
    | timer tmr =>
      simp only [hdata] at hasks
      obtain ⟨rfl,-⟩ := asks_trigger.mp hasks
      refine hw.announced (fun plain => by rw [hdata]; simp) ?_
      rw [hdata]
      exact List.mem_singleton_self _
    | _ =>
      simp only [hdata] at hasks
      exact absurd hasks not_asks_some

theorem house_announced {input : HouseInput} {house : House} {event : Event}
    (hw : Outputs (declared devices) house.world) (hheard : Heard devices (.house input))
    (hasks : Asks (fun trigger => houseStep trigger input house) event v) :
    Announced devices event := by
  obtain ⟨step,hbranch,hstep⟩ := houseStep_branch input house
  simp only [hstep] at hasks
  cases hbranch with
  | command action => exact (set_announced hw (asks_map.mp hasks)).1
  | expire hpending => exact timer_announced hw (asks_map.mp hasks)
  | entry hdata hentry =>
    obtain ⟨rfl,-⟩ := asks_trigger.mp (asks_map.mp hasks)
    refine hw.announced (fun plain => by rw [hdata]; simp) ?_
    rw [hdata]
    exact List.mem_map_of_mem (List.mem_of_find?_eq_some hentry)
  | @sun device se sr hdata hpending =>
    obtain ⟨rfl,-⟩ := asks_trigger.mp (asks_map.mp hasks)
    refine hw.announced (fun plain => by rw [hdata]; simp) ?_
    rw [hdata]
    exact sun_event se
  | plain hdata =>
    obtain ⟨rfl,-⟩ := asks_trigger.mp (asks_map.mp hasks)
    exact hheard
  | idle | midnight => exact absurd hasks not_asks_some
  | never => exact absurd hasks not_asks_none

end Raised

section Boot
variable {outside : Surroundings} {files : List (List Char)} {s : Serialisation}
  {file : Option s.File} {devices : List Device} {p p' : Program} {execdir : CString}
  {rules : List Rule}

def Lively (rules : List Rule) (devices : List Device) (p : Program) (input : ProgramInput) :
    Prop :=
  ∀ event w, ProgramRaises rules p input event w → Announced devices event ∧
    ∀ rule v, Checks rules event w rule v →
      rule.conditions.all (conditionCheck v) = true → ruleLive devices rule = true

theorem Outputs.lively (hp : Outputs (declared devices) p.world) {input : ProgramInput}
    (hheard : Heard devices input) : Lively rules devices p input := by
  intro event w hraises
  have hinvariant := @outputs_invariant (declared devices) rules
    (fun d => (declared devices d).deviceType)
  have hholds : Holds (fun d => (declared devices d).deviceType) (Outputs (declared devices))
      p.world := ⟨outputs_types hp,hp⟩
  have hw := hinvariant.raises hholds (fun _ _ => trivial) hraises
  have hannounced : Announced devices event := by
    cases hraises with
    | @house input event w hraises =>
      obtain ⟨event₁,w₁,hasks,hreaches⟩ := hraises
      have hhouse : Holds (fun d => (declared devices d).deviceType) (Outputs (declared devices))
          p.house.world := hholds
      have hw₁ : Outputs (declared devices) w₁ := by
        rcases @EngineInvariant.house_raising _ _ _ _ hinvariant.toEngineInvariant p.house hhouse
          input (fun _ _ => trivial) with hnever | hraising
        · simp only [hnever] at hasks
          exact absurd hasks not_asks_none
        · exact (EngineInvariant.raising_asks hraising hasks).data
      exact reaches_announced hreaches hw₁ (house_announced hhouse.data hheard hasks)
  refine ⟨hannounced,fun rule v hchecks hconditions => ?_⟩
  obtain ⟨device,hdevice,htype⟩ := hannounced
  obtain ⟨hv,-⟩ := hinvariant.checks hw hchecks
  have hevent : rule.event = event := by
    cases hchecks with
    | checks _ _ hevent => exact hevent
  unfold ruleLive
  rw [hevent,hdevice,Bool.and_eq_true]
  refine ⟨by simpa using htype,List.all_eq_true.mpr (fun condition hmem => ?_)⟩
  have hcheck : answer (v.userdata condition.device) condition.type = true :=
    List.all_eq_true.mp hconditions condition hmem
  have hmask := answer_conditions hcheck
  rw [← configuration_type,hv.data.kept] at hmask
  cases hd : devices[condition.device]? with
  | none =>
    rw [declared_none hd] at hmask
    cases hmask
  | some device =>
    rw [declared_device hd,configuration_type] at hmask
    exact decide_eq_true hmask

/-- In every run after a start, each event that is raised is one that its device can raise as it is
declared, also inside a dispatch; and each rule that fires has conditions that can hold of their
devices. So a rule that is not live never fires. -/
theorem fired_live (hboots : Boots outside files s file devices p)
    (hrun : Relation.ReflTransGen (fun p p' => ∃ input, ProgramSteps execdir rules input p p')
      p p') {input : ProgramInput} (hheard : Heard devices input) {event : Event} {w : World}
    (hraises : ProgramRaises rules p' input event w) :
    Announced devices event ∧ ∀ rule v, Checks rules event w rule v →
      rule.conditions.all (conditionCheck v) = true → ruleLive devices rule = true := by
  have hp' : ProgramOutputs execdir (declared devices) p' := hboots.outputs.run hrun
  exact hp'.world.lively hheard event w hraises

def roomRule : Rule := ⟨⟨0,.unset⟩,[⟨.unset,1⟩],[⟨.set,1,[]⟩]⟩

/-- A remote command switches off the switch of a room. The dimmer is off, so the rule fires. -/
theorem fired_live_room :
    ∃ p w v, Boots quietHouse [roomFile] plainSerialisation none roomDevices p ∧
      ProgramRaises [roomRule] p (.house (.command ⟨.unset,0,[]⟩)) ⟨0,.unset⟩ w ∧
      Checks [roomRule] ⟨0,.unset⟩ w roomRule v ∧
      roomRule.conditions.all (conditionCheck v) = true ∧ ruleLive roomDevices roomRule = true := by
  obtain ⟨p,w,v,hboots,hraises,hchecks,hconditions⟩ :
      ∃ p w v, Boots quietHouse [roomFile] plainSerialisation none roomDevices p ∧
        ProgramRaises [roomRule] p (.house (.command ⟨.unset,0,[]⟩)) ⟨0,.unset⟩ w ∧
        Checks [roomRule] ⟨0,.unset⟩ w roomRule v ∧
        roomRule.conditions.all (conditionCheck v) = true :=
    ⟨_,_,_,@Boots.boots quietHouse [roomFile] plainSerialisation none ⟨roomDevices,none⟩ _ _
      (fun _ _ => 0) (fun _ _ => 0) rfl rfl,
      .house ⟨_,_,asks_map.mpr (asks_trigger.mpr ⟨rfl,rfl⟩),.here⟩,
      @Checks.checks _ _ _ roomRule 0 [] [] _ _ rfl .offered rfl,rfl⟩
  have hheard : Heard roomDevices (.house (.command ⟨.unset,0,[]⟩)) := trivial
  obtain ⟨-,hlive⟩ := @fired_live _ _ _ _ _ p p [] _ hboots .refl _ hheard _ _ hraises
  exact ⟨p,w,v,hboots,hraises,hchecks,hconditions,hlive roomRule v hchecks hconditions⟩

end Boot

end DomoticaEngine
