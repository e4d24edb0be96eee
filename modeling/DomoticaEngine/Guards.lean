import DomoticaEngine.EventCoherence
import DomoticaEngine.Program
import DomoticaEngine.ScheduleAgreement

/-!
Pairs of conditions that are each other's opposite, in every state of a run.
-/

set_option autoImplicit false

namespace DomoticaEngine

/-- The pairs for which the check callback of a type has a case. -/
def complementaryPairs : DeviceType → List (ConditionType × ConditionType)
  | .bool | .schedule | .fsr14 | .fud14 | .soltracker | .veluxKlf200 => [(.set,.unset)]
  | .fsb14 => [(.locked,.unlocked)]
  | .sunriset => [(.sunrise,.sunset),(.sunriseCiv,.sunsetCiv),(.sunriseNaut,.sunsetNaut),
      (.sunriseAstro,.sunsetAstro)]
  | .timer | .fts14em | .musiccast | .gpi | .gpo | .dht22 => []

def guardHolds (rule : Rule) (w : World) : Bool := rule.conditions.all (conditionCheck w)

structure DifferIn (pair : ConditionType × ConditionType) (d : DeviceId) (w : World)
    (rule rule' : Rule) : Prop where
  event : rule.event = rule'.event
  conditions : ∃ before after, rule.conditions = before ++ ⟨pair.1,d⟩ :: after ∧
    rule'.conditions = before ++ ⟨pair.2,d⟩ :: after ∧
    (before ++ after).all (conditionCheck w) = true

structure ExactlyOne (pair : ConditionType × ConditionType) (d : DeviceId) (w : World) :
    Prop where
  checks : deviceCheck d ⟨pair.1,d⟩ w ≠ deviceCheck d ⟨pair.2,d⟩ w
  guards : ∀ rule rule', DifferIn pair d w rule rule' → guardHolds rule w ≠ guardHolds rule' w

def GuardsComplementary (d : DeviceId) (w : World) : Prop :=
  ∀ pair ∈ complementaryPairs (w.userdata d).deviceType, ExactlyOne pair d w

/-- The types with a pair that the mask of their conditions, or their callback, never answers. -/
def blindTypes : List DeviceType := [.fsb14,.soltracker,.veluxKlf200]

def Definite : Userdata → Prop
  | .fsr14 fsr14 => fsr14.val = 0 ∨ fsr14.val = 1
  | .schedule schedule => schedule.condition = .set ∨ schedule.condition = .unset
  | data => data.deviceType ∉ blindTypes

section Pairs
variable {pair : ConditionType × ConditionType} {d : DeviceId} {w : World}

theorem exactlyOne_iff :
    ExactlyOne pair d w ↔ deviceCheck d ⟨pair.1,d⟩ w ≠ deviceCheck d ⟨pair.2,d⟩ w := by
  refine ⟨fun h => h.checks,fun h => ⟨h,fun rule rule' hdiffer => ?_⟩⟩
  obtain ⟨before,after,hrule,hrule',hothers⟩ := hdiffer.conditions
  rw [List.all_append,Bool.and_eq_true] at hothers
  have hguard : ∀ type, (before ++ ⟨type,d⟩ :: after).all (conditionCheck w) =
      deviceCheck d ⟨type,d⟩ w := by
    intro type
    rw [List.all_append,List.all_cons,hothers.1,hothers.2,Bool.true_and,Bool.and_true]
    rfl
  unfold guardHolds
  rw [hrule,hrule',hguard,hguard]
  exact h

def answer (data : Userdata) (type : ConditionType) : Bool :=
  deviceCheck 0 ⟨type,0⟩ (World.start fun _ => data)

theorem deviceCheck_answer (d : DeviceId) (w : World) (type : ConditionType) :
    deviceCheck d ⟨type,d⟩ w = answer (w.userdata d) type := rfl

theorem decide_ne {P Q : Prop} [Decidable P] [Decidable Q] :
    decide P ≠ decide Q ↔ (P ∧ ¬ Q) ∨ (Q ∧ ¬ P) := by
  by_cases hP : P <;> by_cases hQ : Q <;> simp [hP,hQ]

theorem bool_definite (b : BoolT) : answer (.bool b) .set ≠ answer (.bool b) .unset := by
  have hset : answer (.bool b) .set = decide (b.val ≠ 0) := rfl
  have hunset : answer (.bool b) .unset = decide (b.val = 0) := rfl
  rw [hset,hunset,decide_ne]
  omega

theorem fsr14_definite (fsr14 : DeviceFsr14) :
    answer (.fsr14 fsr14) .set ≠ answer (.fsr14 fsr14) .unset ↔
      fsr14.val = 0 ∨ fsr14.val = 1 := by
  have hset : answer (.fsr14 fsr14) .set = decide (fsr14.val = 1) := rfl
  have hunset : answer (.fsr14 fsr14) .unset = decide (fsr14.val = 0) := rfl
  rw [hset,hunset,decide_ne]
  omega

theorem fud14_definite (fud14 : DeviceFud14) :
    answer (.fud14 fud14) .set ≠ answer (.fud14 fud14) .unset := by
  have hset : answer (.fud14 fud14) .set = decide (fud14.dimValue > 0) := rfl
  have hunset : answer (.fud14 fud14) .unset = decide (fud14.dimValue = 0) := rfl
  have hpositive : fud14.dimValue > 0 ↔ fud14.dimValue ≠ 0 := UInt8.pos_iff_ne_zero
  rw [hset,hunset,decide_ne,hpositive]
  by_cases hzero : fud14.dimValue = 0 <;> simp [hzero]

theorem schedule_definite (schedule : Schedule) :
    answer (.schedule schedule) .set ≠ answer (.schedule schedule) .unset ↔
      schedule.condition = .set ∨ schedule.condition = .unset := by
  have hset : answer (.schedule schedule) .set = decide (.set = schedule.condition) := rfl
  have hunset : answer (.schedule schedule) .unset = decide (.unset = schedule.condition) := rfl
  rw [hset,hunset,decide_ne]
  cases schedule.condition <;> decide

theorem sunriset_definite (sr : Sunriset) : ∀ pair ∈ complementaryPairs .sunriset,
    answer (.sunriset sr) pair.1 ≠ answer (.sunriset sr) pair.2 := by
  obtain ⟨rised,risedCiv,risedNaut,risedAstr⟩ := sr
  cases rised <;> cases risedCiv <;> cases risedNaut <;> cases risedAstr <;> decide

theorem definite_iff {data : Userdata} (hfsr14 : data.deviceType ≠ .fsr14)
    (hschedule : data.deviceType ≠ .schedule) : Definite data ↔ data.deviceType ∉ blindTypes := by
  cases data with
  | fsr14 fsr14 => exact absurd rfl hfsr14
  | schedule schedule => exact absurd rfl hschedule
  | _ => exact Iff.rfl

/-- Where the mask lacks a pair, or the callback never answers, both conditions are false. -/
theorem blind_guards {data : Userdata} (h : data.deviceType ∈ blindTypes) :
    ¬ ∀ pair ∈ complementaryPairs data.deviceType, answer data pair.1 ≠ answer data pair.2 := by
  cases data with
  | fsb14 fsb14 => exact fun hall => hall (.locked,.unlocked) (List.mem_singleton_self _) rfl
  | veluxKlf200 klf200 => exact fun hall => hall (.set,.unset) (List.mem_singleton_self _) rfl
  | plain type =>
    cases type with
    | soltracker => exact fun hall => hall (.set,.unset) (List.mem_singleton_self _) rfl
    | _ => exact absurd h (by decide)
  | _ => simp [Userdata.deviceType,blindTypes] at h

theorem answers_definite (data : Userdata) :
    (∀ pair ∈ complementaryPairs data.deviceType, answer data pair.1 ≠ answer data pair.2) ↔
      Definite data := by
  by_cases hblind : data.deviceType ∈ blindTypes
  · refine iff_of_false (blind_guards hblind) (fun hdefinite => ?_)
    refine (definite_iff ?_ ?_).mp hdefinite hblind
    · exact fun heq => absurd (heq ▸ hblind) (by decide)
    · exact fun heq => absurd (heq ▸ hblind) (by decide)
  · cases data with
    | fsr14 fsr14 => exact List.forall_mem_singleton.trans (fsr14_definite fsr14)
    | schedule schedule => exact List.forall_mem_singleton.trans (schedule_definite schedule)
    | bool b => exact iff_of_true (List.forall_mem_singleton.mpr (bool_definite b)) hblind
    | fud14 fud14 => exact iff_of_true (List.forall_mem_singleton.mpr (fud14_definite fud14)) hblind
    | sunriset sr => exact iff_of_true (sunriset_definite sr) hblind
    | timer _ | gpo _ => exact iff_of_true (List.forall_mem_nil _) hblind
    | fsb14 _ | veluxKlf200 _ => simp [Userdata.deviceType,blindTypes] at hblind
    | plain type =>
      cases type with
      | soltracker => exact absurd (by decide) hblind
      | _ => exact iff_of_true (List.forall_mem_nil _) hblind

theorem guards_iff : GuardsComplementary d w ↔ Definite (w.userdata d) := by
  unfold GuardsComplementary
  simp only [exactlyOne_iff,deviceCheck_answer]
  exact answers_definite (w.userdata d)

end Pairs

structure KeepsDefinite (a b : Userdata) : Prop where
  type : b.deviceType = a.deviceType
  definite : Definite a → Definite b

theorem KeepsDefinite.refl (a : Userdata) : KeepsDefinite a a := ⟨rfl,id⟩

theorem KeepsDefinite.trans {a b c : Userdata} (h : KeepsDefinite a b)
    (h' : KeepsDefinite b c) : KeepsDefinite a c :=
  ⟨h'.type.trans h.type,fun ha => h'.definite (h.definite ha)⟩

theorem keepsDefinite_type {a b : Userdata} (htype : b.deviceType = a.deviceType)
    (hfsr14 : a.deviceType ≠ .fsr14) (hschedule : a.deviceType ≠ .schedule) :
    KeepsDefinite a b := by
  refine ⟨htype,fun ha => ?_⟩
  rw [definite_iff (by rwa [htype]) (by rwa [htype]),htype]
  exact (definite_iff hfsr14 hschedule).mp ha

theorem fsr14_keepsDefinite {w w₁ : World} {action : Action} {event : Option Event}
    {raised : Option EventType} {fsr14 : DeviceFsr14}
    (hdata : w.userdata action.device = .fsr14 fsr14) (hset : ∀ trigger,
      deviceSet trigger action.device action event w = resume trigger action.device w₁ raised) :
    KeepsDefinite (w.userdata action.device) (w₁.userdata action.device) := by
  refine ⟨(deviceSet_frame hset).deviceType,fun hdefinite => ?_⟩
  have hquiet := deviceSet_quiet hset
  simp only [deviceSet,hdata] at hquiet
  split at hquiet
  · unfold fsr14DeviceExec at hquiet
    cases hcommand : fsr14Command fsr14 action with
    | none =>
      simp only [hcommand,Option.some.injEq] at hquiet
      exact hquiet ▸ hdefinite
    | some command =>
      simp only [hcommand,deviceTriggerEvent,Option.some.injEq] at hquiet
      have hw₁ : w₁.userdata action.device = .fsr14 { fsr14 with val := command.1 } := by
        rw [← hquiet,send_userdata,setUserdata_same]
      rw [hw₁]
      exact fsr14Command_val hcommand
  · cases hquiet
    exact hdefinite

theorem keepsDefinite_rule : DataRule KeepsDefinite where
  refl := KeepsDefinite.refl
  trans := KeepsDefinite.trans
  action := by
    intro w w₁ action event raised hset
    cases hdata : w.userdata action.device with
    | fsr14 fsr14 => exact hdata ▸ fsr14_keepsDefinite hdata hset
    | schedule schedule =>
      have hquiet := deviceSet_schedule hdata (fun _ w => some w) action event
      rw [deviceSet_unique hset hquiet,hdata]
      exact KeepsDefinite.refl _
    | plain type =>
      have hframe := (deviceSet_frame hset).deviceType
      rw [hdata] at hframe
      exact keepsDefinite_type hframe (by cases type <;> decide) (by cases type <;> decide)
    | _ =>
      have hframe := (deviceSet_frame hset).deviceType
      rw [hdata] at hframe
      exact keepsDefinite_type hframe nofun nofun
  fsb14 := fun _ _ => keepsDefinite_type rfl nofun nofun
  timer := fun _ _ => keepsDefinite_type rfl nofun nofun
  sunriset := fun _ _ => keepsDefinite_type rfl nofun nofun
  veluxKlf200 := fun _ => keepsDefinite_type rfl nofun nofun
  schedule := fun _ _ hcondition => ⟨rfl,fun _ => hcondition⟩

theorem conditionAfter_definite {condition : ConditionType}
    (h : condition = .set ∨ condition = .unset) (event : EventType) :
    conditionAfter condition event = .set ∨ conditionAfter condition event = .unset := by
  unfold conditionAfter
  split
  · exact .inl rfl
  · exact .inr rfl
  · exact h

theorem lastCondition_definite (schedule : Schedule) :
    lastCondition schedule = .set ∨ lastCondition schedule = .unset := by
  unfold lastCondition
  split
  · exact conditionAfter_definite (.inr rfl) _
  · exact .inr rfl

theorem currentCondition_definite (schedule : Schedule) (now : Tm) :
    scheduleGetCurrentCondition schedule now = .set ∨
      scheduleGetCurrentCondition schedule now = .unset := by
  unfold scheduleGetCurrentCondition
  refine List.foldlRecOn
    (motive := fun state : ConditionType × Int => state.1 = .set ∨ state.1 = .unset) _ _
    (lastCondition_definite schedule) (fun state hstate entry _ => ?_)
  simp only
  split
  · exact conditionAfter_definite hstate _
  · exact hstate

def Decided (data : Userdata) : Prop :=
  ∀ schedule, data = .schedule schedule → Definite (.schedule schedule)

theorem scheduleParser_definite {name : CString} {options : List CString} {schedule : Schedule}
    (h : scheduleParser name options = some schedule) : Definite (.schedule schedule) := by
  cases options with
  | nil => cases h
  | cons type options =>
    obtain ⟨type,-,rfl⟩ := Option.map_eq_some_iff.mp h
    exact .inr rfl

theorem declarations_decided {outside : Surroundings} {files : List (List Char)}
    {d : DeclarationReader}
    (h : rulesReadDir (rulesReadFileDeclarations outside) files .start = .ok (0,d)) :
    ∀ device ∈ d.devices, Decided device.userdata := by
  refine declarations_hold (I := Decided) ?_ ?_ ?_ h
  · rintro type name options data hparse schedule rfl
    obtain ⟨-,hschedule⟩ := parseCb_schedule hparse
    exact scheduleParser_definite hschedule
  · intro schedule schedule' line hline hschedule
    obtain ⟨scanned,-,rfl⟩ := Option.map_eq_some_iff.mp hline
    rintro _ ⟨⟩
    exact hschedule schedule rfl
  · intro device _
    obtain ⟨name,data⟩ := device
    cases data with
    | schedule schedule =>
      rintro _ ⟨⟩
      exact currentCondition_definite schedule outside.now
    | _ => exact nofun

theorem deviceType_schedule {data : Userdata} (h : data.deviceType = .schedule) :
    ∃ schedule, data = .schedule schedule := by
  cases data with
  | schedule schedule => exact ⟨schedule,rfl⟩
  | plain type => cases type <;> cases h
  | _ => cases h

theorem restore_schedules {s : Serialisation} {devices : List Device} {file : Option s.File}
    {w w' : World} (h : restoreDevicesState s devices file w = .ok w') (d : DeviceId)
    (schedule : Schedule) (hd : w'.userdata d = .schedule schedule) :
    w.userdata d = .schedule schedule := by
  revert d schedule
  refine restore_keeps (R := fun w w' => ∀ d schedule, w'.userdata d = .schedule schedule →
    w.userdata d = .schedule schedule) (fun _ _ _ h => h)
    (fun _ _ _ hst htu d schedule h => hst d schedule (htu d schedule h)) ?_ h
  intro w device data _ state _ _ hrestore d schedule hd
  by_cases hdevice : d = device
  · rw [hdevice,setUserdata_same] at hd
    subst hdevice
    have htype := (deviceRestore_kept hrestore).1
    rw [hd] at htype
    obtain ⟨schedule₀,hdata⟩ := deviceType_schedule htype.symm
    rw [hdata] at hrestore ⊢
    cases hrestore
    exact hd
  · rwa [setUserdata_other hdevice] at hd

section Boot
variable {outside : Surroundings} {files : List (List Char)} {s : Serialisation}
  {file : Option s.File} {devices : List Device} {p : Program}

/-- When the program starts, the devices have the types of their declarations, and schedules have
one of the two conditions. -/
theorem Boots.decided (h : Boots outside files s file devices p) {i : Nat} {device : Device}
    (hi : devices[i]? = some device) :
    (p.world.userdata i).deviceType = device.deviceType ∧ Decided (p.world.userdata i) := by
  obtain ⟨d,w₁,w₂,ct,et,hdeclared,rfl,hfirst,hsecond,rfl⟩ := h.steps
  have hparsed := parsedWorld_fresh _ i device hi
  obtain ⟨htype,hother⟩ := start_userdata d.devices w₂ ct et i
  constructor
  · rw [htype,(restore_kept hsecond).type,(restore_kept hfirst).type,hparsed]
    rfl
  · intro schedule hdata
    have hbefore := restore_schedules hfirst i schedule
      (restore_schedules hsecond i schedule (hother _ nofun hdata))
    rw [hparsed] at hbefore
    exact declarations_decided hdeclared device (List.mem_of_getElem? hi) schedule hbefore

end Boot

section Program
variable {outside : Surroundings} {files : List (List Char)} {s : Serialisation}
  {file : Option s.File} {devices : List Device} {p : Program} {i : Nat} {device : Device}
  {execdir : CString} {rules : List Rule} {inputs : List ProgramInput}

theorem Boots.guards (h : Boots outside files s file devices p) (hi : devices[i]? = some device)
    (hblind : device.deviceType ∉ blindTypes)
    (hfsr14 : ∀ fsr14, p.world.userdata i = .fsr14 fsr14 → fsr14.val = 0 ∨ fsr14.val = 1)
    {v : World} (hvisits : Visits execdir rules inputs p v) : GuardsComplementary i v := by
  obtain ⟨htype,hdecided⟩ := h.decided hi
  refine guards_iff.mpr ((keepsDefinite_rule.visits hvisits i).definite ?_)
  rw [← htype] at hblind
  cases hdata : p.world.userdata i with
  | fsr14 fsr14 => exact hfsr14 fsr14 hdata
  | schedule schedule => exact hdecided schedule hdata
  | _ => rwa [hdata] at hblind

end Program

/-- Exactly one condition of every pair of a device holds in all states of a run of the program when
the device is no FSB14, SOLTRACKER or VELUX-KLF200, and an FSR14 starts with 0 or 1. -/
theorem guards_complementary_iff (outside : Surroundings) (files : List (List Char))
    (s : Serialisation) (file : Option s.File) (devices : List Device) (p : Program)
    (hboots : Boots outside files s file devices p) (i : Nat) (device : Device)
    (hi : devices[i]? = some device) (execdir : CString) (rules : List Rule)
    (inputs : List ProgramInput) :
    (∀ v, Visits execdir rules inputs p v → GuardsComplementary i v) ↔
      device.deviceType ∉ blindTypes ∧
        ∀ fsr14, p.world.userdata i = .fsr14 fsr14 → fsr14.val = 0 ∨ fsr14.val = 1 := by
  refine ⟨fun hall => ?_,fun h v hvisits => hboots.guards hi h.1 h.2 hvisits⟩
  have hstart := guards_iff.mp (hall _ .now)
  refine ⟨fun hblind => ?_,fun fsr14 hdata => by rwa [hdata] at hstart⟩
  rw [← (hboots.decided hi).1] at hblind
  exact blind_guards hblind ((answers_definite _).mpr hstart)

theorem room_boots : ∃ p, Boots quietHouse [roomFile] plainSerialisation none roomDevices p ∧
    p.world.userdata 0 = .bool ⟨1⟩ :=
  ⟨_,@Boots.boots quietHouse [roomFile] plainSerialisation none ⟨roomDevices,none⟩ _ _
    (fun _ _ => 0) (fun _ _ => 0) rfl rfl,rfl⟩

/-- The switch of a room is told to toggle. -/
theorem guards_complementary_room :
    ∃ p, Boots quietHouse [roomFile] plainSerialisation none roomDevices p ∧
      ∀ v, Visits [] [] [.house (.command ⟨.toggle,0,[]⟩)] p v → GuardsComplementary 0 v := by
  obtain ⟨p,hboots,hdata⟩ := room_boots
  refine ⟨p,hboots,?_⟩
  refine (guards_complementary_iff quietHouse [roomFile] plainSerialisation none roomDevices p
    hboots 0 ⟨"s".toList,.bool ⟨1⟩⟩ rfl [] [] _).mpr ⟨by decide,fun fsr14 h => ?_⟩
  rw [hdata] at h
  cases h

/-- Neither LOCKED nor UNLOCKED holds for a blind that has just been parsed. -/
theorem guards_blind :
    ∃ p, Boots quietHouse [blindFile] plainSerialisation none blindDevices p ∧
      deviceCheck 0 ⟨.locked,0⟩ p.world = false ∧ deviceCheck 0 ⟨.unlocked,0⟩ p.world = false ∧
      ¬ ∀ v, Visits [] [] [] p v → GuardsComplementary 0 v := by
  refine ⟨_,@Boots.boots quietHouse [blindFile] plainSerialisation none ⟨blindDevices,none⟩ _ _
    (fun _ _ => 0) (fun _ _ => 0) rfl rfl,rfl,rfl,fun hall => ?_⟩
  have hpair := hall _ .now (.locked,.unlocked) (List.mem_singleton_self _)
  exact hpair.checks rfl

end DomoticaEngine
