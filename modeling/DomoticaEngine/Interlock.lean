import DomoticaEngine.Guards
import DomoticaEngine.RuleInvariants

/-!
Devices of which the rules switch on one only while the others are off.
-/

set_option autoImplicit false

namespace DomoticaEngine

def isOff (data : Userdata) : Bool := answer data .unset

def AtMostOneOn (group : List DeviceId) (s : DeviceId → Userdata) : Prop :=
  ∀ a ∈ group, ∀ b ∈ group, a ≠ b → isOff (s a) = true ∨ isOff (s b) = true

/-- An action on the group other than UNSET is for a state in which the rest of the group is off. -/
def SwitchesAlone (group : List DeviceId) (s : DeviceId → Userdata) (action : Action) : Prop :=
  action.device ∈ group → action.type ≠ .unset →
    ∀ b ∈ group, b ≠ action.device → isOff (s b) = true

/-- A check of the rules: where an action can switch on a device of the group, the rule has the
condition UNSET for each of the others, and its earlier actions cannot change them. -/
def Interlocked (rules : List Rule) (types : DeviceId → DeviceType) (group : List DeviceId) :
    Prop :=
  ∀ rule ∈ rules, ∀ done action todo, rule.actions = done ++ action :: todo →
    action.device ∈ group → action.type ≠ .unset → ∀ b ∈ group, b ≠ action.device →
      ⟨.unset,b⟩ ∈ rule.conditions ∧
        ∀ earlier ∈ done, ¬ ActionTouches rules types earlier.device b

theorem unset_supported {type : DeviceType} (h : type.Raises) :
    .unset ∈ (deviceTypeInfo type).actions := by
  rcases h with rfl | rfl | rfl <;> decide

section Unset
variable {w w₁ : World} {action : Action} {event : Option Event} {raised : Option EventType}

theorem bool_switchedOff {b : BoolT} (hdata : w.userdata action.device = .bool b)
    (hunset : action.type = .unset) (hset : ∀ trigger,
      deviceSet trigger action.device action event w = resume trigger action.device w₁ raised) :
    w₁.userdata action.device = .bool ⟨0⟩ := by
  have hquiet := deviceSet_quiet hset
  simp only [deviceSet,hdata,hunset,boolExec,deviceTriggerEvent,boolCommand,
    Userdata.deviceType] at hquiet
  rw [if_pos (unset_supported (.inl rfl)),ite_self] at hquiet
  cases hquiet
  rw [setUserdata_same]

theorem fsr14_switchedOff {fsr14 : DeviceFsr14} (hdata : w.userdata action.device = .fsr14 fsr14)
    (hunset : action.type = .unset) (hset : ∀ trigger,
      deviceSet trigger action.device action event w = resume trigger action.device w₁ raised) :
    w₁.userdata action.device = .fsr14 { fsr14 with val := 0 } := by
  have hquiet := deviceSet_quiet hset
  simp only [deviceSet,hdata,fsr14DeviceExec,fsr14Command,hunset,deviceTriggerEvent,
    Userdata.deviceType] at hquiet
  rw [if_pos (unset_supported (.inr (.inl rfl)))] at hquiet
  cases hquiet
  rw [send_userdata,setUserdata_same]

theorem fud14_switchedOff {fud14 : DeviceFud14} (hdata : w.userdata action.device = .fud14 fud14)
    (hunset : action.type = .unset) (hset : ∀ trigger,
      deviceSet trigger action.device action event w = resume trigger action.device w₁ raised) :
    w₁.userdata action.device = .fud14 { fud14 with dimValue := 0, dimDirection := 1 } := by
  have hquiet := deviceSet_quiet hset
  simp only [deviceSet,hdata,fud14DeviceExec,fud14Command,hunset,deviceTriggerEvent,
    Userdata.deviceType] at hquiet
  rw [if_pos (unset_supported (.inr (.inr rfl)))] at hquiet
  cases hquiet
  rw [send_userdata,setUserdata_same]

theorem switched_off (hraises : (w.userdata action.device).deviceType.Raises)
    (hunset : action.type = .unset) (hset : ∀ trigger,
      deviceSet trigger action.device action event w = resume trigger action.device w₁ raised) :
    isOff (w₁.userdata action.device) = true := by
  cases hdata : w.userdata action.device with
  | bool b =>
    rw [bool_switchedOff hdata hunset hset]
    rfl
  | fsr14 fsr14 =>
    rw [fsr14_switchedOff hdata hunset hset]
    rfl
  | fud14 fud14 =>
    rw [fud14_switchedOff hdata hunset hset]
    rfl
  | plain type =>
    rw [hdata] at hraises
    cases type <;> rcases hraises with h | h | h <;> cases h
  | _ =>
    rw [hdata] at hraises
    rcases hraises with h | h | h <;> cases h

end Unset

section Group
variable {rules : List Rule} {types : DeviceId → DeviceType} {group : List DeviceId}

theorem action_atMostOne {w w₁ : World} {action : Action} {event : Option Event}
    {raised : Option EventType} (hgroup : ∀ d ∈ group, (types d).Raises) (hw : HasTypes types w)
    (hone : AtMostOneOn group w.userdata) (halone : SwitchesAlone group w.userdata action)
    (hset : ∀ trigger, deviceSet trigger action.device action event w =
      resume trigger action.device w₁ raised) : AtMostOneOn group w₁.userdata := by
  have hother := (deviceSet_frame hset).other
  -- Of two devices, at least one is not the device of the action.
  have hpair : ∀ b ∈ group, b ≠ action.device → action.device ∈ group →
      isOff (w₁.userdata action.device) = true ∨ isOff (w₁.userdata b) = true := by
    intro b hb hne hmem
    by_cases hunset : action.type = .unset
    · refine .inl (switched_off ?_ hunset hset)
      rw [hw]
      exact hgroup _ hmem
    · rw [hother b hne]
      exact .inr (halone hmem hunset b hb hne)
  intro a ha b hb hab
  by_cases hfirst : a = action.device
  · subst hfirst
    exact hpair b hb (Ne.symm hab) ha
  · by_cases hsecond : b = action.device
    · subst hsecond
      exact (hpair a ha hfirst hb).symm
    · rw [hother a hfirst,hother b hsecond]
      exact hone a ha b hb hab

theorem own_atMostOne (hgroup : ∀ d ∈ group, (types d).Raises) {w : World} {d : DeviceId}
    {data : Userdata} (hw : HasTypes types w) (hone : AtMostOneOn group w.userdata)
    (hown : OwnUpdate (w.userdata d) data) : AtMostOneOn group (w.setUserdata d data).userdata := by
  have hd : d ∉ group := by
    intro hmem
    have hraises := hgroup d hmem
    rw [← hw d] at hraises
    generalize w.userdata d = old at hown hraises
    cases hown <;> rcases hraises with h | h | h <;> cases h
  have hkept : ∀ a ∈ group, (w.setUserdata d data).userdata a = w.userdata a :=
    fun a ha => setUserdata_other (ne_of_mem_of_not_mem ha hd) _ _
  intro a ha b hb hab
  rw [hkept a ha,hkept b hb]
  exact hone a ha b hb hab

theorem interlocked_invariant (hgroup : ∀ d ∈ group, (types d).Raises)
    (hrules : Interlocked rules types group) :
    RuleInvariant rules types (fun w => AtMostOneOn group w.userdata)
      (fun w => SwitchesAlone group w.userdata) where
  action := fun hw hone halone hset => action_atMostOne hgroup hw hone halone hset
  own := fun hw hone hown => own_atMostOne hgroup hw hone hown
  record := fun _ h => h
  loop := fun _ h => h
  queue := fun h => h
  rule := by
    intro rule hrule w _ _ hconditions done action todo hactions v _ _ hframe hmem hunset b hb hne
    obtain ⟨hcondition,huntouched⟩ := hrules rule hrule done action todo hactions hmem hunset b hb
      hne
    rw [hframe b huntouched]
    exact List.all_eq_true.mp hconditions ⟨.unset,b⟩ hcondition

end Group

section Runs
variable {execdir : CString} {rules : List Rule} {group : List DeviceId}

/-- Under an interlocked list of rules, and commands that switch devices of the group only off, no
two devices of the group are on in any state of a run, nor while rules are checked. -/
theorem interlock_holds (p : Program) (inputs : List ProgramInput)
    (hgroup : ∀ d ∈ group, (p.world.userdata d).deviceType.Raises)
    (hrules : Interlocked rules (fun d => (p.world.userdata d).deviceType) group)
    (hcommands : ∀ action, .house (.command action) ∈ inputs → action.device ∈ group →
      action.type = .unset)
    (hstart : AtMostOneOn group p.world.userdata) (v : World)
    (hvisits : Visits execdir rules inputs p v) : AtMostOneOn group v.userdata := by
  have hinvariant := interlocked_invariant hgroup hrules
  refine (hinvariant.visits (fun action hmem w hw hdevice hunset => ?_) ⟨fun _ => rfl,hstart⟩
    hvisits).data
  exact absurd (hcommands action hmem hdevice) hunset

end Runs

def gateDevices : List Device :=
  [⟨"open".toList,.bool ⟨0⟩⟩,⟨"close".toList,.bool ⟨0⟩⟩,⟨"button".toList,.plain .fts14em⟩,
    ⟨"lamp".toList,.fsr14 ⟨1,0⟩⟩]

def gateRules : List Rule :=
  [⟨⟨2,.press⟩,[⟨.unset,1⟩],[⟨.set,3,[]⟩,⟨.toggle,0,[]⟩]⟩,
   ⟨⟨2,.longPress⟩,[⟨.unset,0⟩],[⟨.toggle,1,[]⟩]⟩]

def gateProgram : Program :=
  Program.start gateDevices (parsedWorld gateDevices) (fun _ _ => 0) (fun _ _ => 0)

theorem gate_interlocked (types : DeviceId → DeviceType) : Interlocked gateRules types [0,1] := by
  have hlamp : ¬ ActionTouches gateRules types 3 1 :=
    fun h => absurd (actionTouches_unheard (by decide) h) (by decide)
  intro rule hrule done action todo hactions hdevice _ b hb hne
  simp only [gateRules,List.mem_cons,List.not_mem_nil,or_false] at hrule hb
  rcases hrule with rfl | rfl
  · rcases List.cons_eq_append_iff.mp hactions with ⟨rfl,hfirst⟩ | ⟨done,rfl,hrest⟩
    · cases hfirst
      simp at hdevice
    · rcases List.cons_eq_append_iff.mp hrest with ⟨rfl,hsecond⟩ | ⟨done,rfl,hnone⟩
      · cases hsecond
        rcases hb with rfl | rfl
        · exact absurd rfl hne
        · exact ⟨List.mem_singleton_self _,by simpa using hlamp⟩
      · simp at hnone
  · rcases List.cons_eq_append_iff.mp hactions with ⟨rfl,hfirst⟩ | ⟨done,rfl,hnone⟩
    · cases hfirst
      rcases hb with rfl | rfl
      · exact ⟨List.mem_singleton_self _,by simp⟩
      · exact absurd rfl hne
    · simp at hnone

/-- The button is pressed. -/
theorem interlock_gate : ∃ p', ProgramSteps [] gateRules (.house (.plain 2 .press)) gateProgram p' ∧
    p'.world.userdata 0 = .bool ⟨1⟩ ∧ AtMostOneOn [0,1] p'.world.userdata := by
  have hgroup : ∀ d ∈ [0,1], (gateProgram.world.userdata d).deviceType.Raises := by
    intro d hd
    rcases List.mem_cons.mp hd with rfl | hd
    · exact .inl rfl
    · rw [List.mem_singleton.mp hd]
      exact .inl rfl
  have hstart : AtMostOneOn [0,1] gateProgram.world.userdata := by
    intro a ha b _ _
    left
    rcases List.mem_cons.mp ha with rfl | ha
    · rfl
    · rw [List.mem_singleton.mp ha]
      rfl
  obtain ⟨p',hstep,hopen⟩ : ∃ p', ProgramSteps [] gateRules (.house (.plain 2 .press)) gateProgram
      p' ∧ p'.world.userdata 0 = .bool ⟨1⟩ := ⟨_,⟨4,rfl⟩,rfl⟩
  refine ⟨p',hstep,hopen,?_⟩
  exact interlock_holds gateProgram [.house (.plain 2 .press)] hgroup (gate_interlocked _)
    (by simp) hstart _ (.later hstep .now)

end DomoticaEngine
