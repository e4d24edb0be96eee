import DomoticaEngine.Termination

/-!
Which events an action raises, by the type of its device.
-/

set_option autoImplicit false

namespace DomoticaEngine

/-- The level that a dimmer is set to: the lowest byte of what the action says. -/
def fud14Level (action : Action) : UInt8 := UInt8.ofInt (fud14DimValue action)

def actionRaises (type : DeviceType) (action : Action) : List EventType :=
  match type, action.type with
  | .bool, .set | .fsr14, .set => [.set]
  | .bool, .unset | .fsr14, .unset | .fud14, .unset => [.unset]
  | .bool, .toggle | .fsr14, .toggle | .fud14, .dim => [.set,.unset]
  | .fud14, .set => if fud14Level action > 0 then [.set] else [.unset]
  | .fud14, .toggle => if fud14Level action > 0 then [.set,.unset] else [.unset]
  | _, _ => []

/-- A BOOL raises an event when its value changes, the others whenever they act. -/
def alwaysRaises (type : DeviceType) (action : Action) : Bool :=
  actionRaises type action ≠ [] && (type ≠ .bool || action.type = .toggle)

def Raised (type : DeviceType) (action : Action) (event : Option Event) (w : World) : Prop :=
  ∃ w₁ raised, (∀ trigger, deviceSet trigger action.device action event w =
      resume trigger action.device w₁ raised) ∧
    (∀ type' ∈ raised, type' ∈ actionRaises type action) ∧
    (alwaysRaises type action = true → raised.isSome = true)

section Types
variable {w : World} {action : Action}

theorem either_mem (c : Prop) [Decidable c] :
    (if c then EventType.set else .unset) ∈ [EventType.set,.unset] := by
  split <;> simp

theorem boolAfter_raises {val : Int} (h : val ≠ boolAfter val action.type) :
    (if boolAfter val action.type = 1 then EventType.set else .unset) ∈
      actionRaises .bool action := by
  unfold actionRaises
  cases haction : action.type with
  | set => exact List.mem_singleton_self _
  | unset => exact List.mem_singleton_self _
  | toggle => exact either_mem _
  | _ => exact absurd (by rw [haction,boolAfter,if_neg (by decide)]) h

theorem boolAfter_toggle (val : Int) : val ≠ boolAfter val .toggle := by
  rw [boolAfter,if_pos (by decide),boolCommand]
  by_cases hzero : val = 0
  · rw [if_neg (not_not.mpr hzero),hzero]
    decide
  · rw [if_pos hzero]
    exact hzero

theorem bool_raised {b : BoolT} (hdata : w.userdata action.device = .bool b)
    (event : Option Event) : Raised .bool action event w := by
  obtain ⟨val⟩ := b
  have hset := fun trigger => deviceSet_boolAfter hdata action event trigger
  by_cases hsame : val = boolAfter val action.type
  · simp only [if_pos hsame] at hset
    refine ⟨w,none,hset,by simp,fun halways => ?_⟩
    simp only [alwaysRaises,Bool.and_eq_true,Bool.or_eq_true,decide_eq_true_eq] at halways
    rw [halways.2.resolve_left (by simp)] at hsame
    exact absurd hsame (boolAfter_toggle val)
  · simp only [if_neg hsame] at hset
    exact ⟨_,some _,hset,fun type htype => Option.some.inj htype ▸ boolAfter_raises hsame,
      fun _ => rfl⟩

theorem raised_silent {type : DeviceType} {event : Option Event} {w₁ : World}
    (hset : ∀ trigger, deviceSet trigger action.device action event w = some w₁)
    (hnone : actionRaises type action = []) : Raised type action event w :=
  ⟨w₁,none,hset,by simp,fun halways => by simp [alwaysRaises,hnone] at halways⟩

theorem fsr14_silent {fsr14 : DeviceFsr14} (h : action.type ∉ (deviceTypeInfo .fsr14).actions ∨
    fsr14Command fsr14 action = none) : actionRaises .fsr14 action = [] := by
  unfold actionRaises
  cases haction : action.type with
  | set | unset | toggle =>
    rcases h with hmask | hcommand
    · exact absurd (by rw [haction]; decide) hmask
    · simp [fsr14Command,haction] at hcommand
  | _ => rfl

theorem fsr14Command_raises {fsr14 : DeviceFsr14} {val : Int} {data : UInt8}
    (h : fsr14Command fsr14 action = some (val,data)) :
    (if val ≠ 0 then EventType.set else .unset) ∈ actionRaises .fsr14 action := by
  unfold fsr14Command at h
  unfold actionRaises
  cases haction : action.type with
  | set | unset =>
    simp only [haction] at h
    cases h
    exact List.mem_singleton_self _
  | toggle => exact either_mem _
  | _ => simp [haction] at h

theorem fsr14_raised {fsr14 : DeviceFsr14} (hdata : w.userdata action.device = .fsr14 fsr14)
    (event : Option Event) : Raised .fsr14 action event w := by
  have hset : ∀ trigger, deviceSet trigger action.device action event w =
      if action.type ∈ (deviceTypeInfo .fsr14).actions then
        fsr14DeviceExec trigger action.device fsr14 action w else some w := by
    intro trigger
    simp only [deviceSet,hdata]
    rfl
  by_cases hmask : action.type ∈ (deviceTypeInfo .fsr14).actions
  · simp only [if_pos hmask,fsr14DeviceExec] at hset
    cases hcommand : fsr14Command fsr14 action with
    | none =>
      simp only [hcommand] at hset
      exact raised_silent hset (fsr14_silent (.inr hcommand))
    | some command =>
      simp only [hcommand] at hset
      exact ⟨_,some _,hset,fun type htype => Option.some.inj htype ▸ fsr14Command_raises hcommand,
        fun _ => rfl⟩
  · simp only [if_neg hmask] at hset
    exact raised_silent hset (@fsr14_silent action fsr14 (.inl hmask))

theorem fud14_silent {fud14 : DeviceFud14} (h : action.type ∉ (deviceTypeInfo .fud14).actions ∨
    fud14Command fud14 action = none) : actionRaises .fud14 action = [] := by
  unfold actionRaises
  cases haction : action.type with
  | set | unset | toggle | dim =>
    rcases h with hmask | hcommand
    · exact absurd (by rw [haction]; decide) hmask
    · simp [fud14Command,haction] at hcommand
  | _ => rfl

theorem fud14Command_raises {fud14 fud14' : DeviceFud14} {msg : EltakoMessage}
    (h : fud14Command fud14 action = some (fud14',msg)) :
    (if fud14'.dimValue > 0 then EventType.set else .unset) ∈ actionRaises .fud14 action := by
  unfold fud14Command at h
  unfold actionRaises
  cases haction : action.type with
  | set =>
    simp only [haction] at h
    cases h
    show (if fud14Level action > 0 then EventType.set else .unset) ∈
      if fud14Level action > 0 then [EventType.set] else [.unset]
    by_cases hlevel : fud14Level action > 0
    · simp only [if_pos hlevel,List.mem_singleton]
    · simp only [if_neg hlevel,List.mem_singleton]
  | unset =>
    simp only [haction] at h
    cases h
    exact List.mem_singleton_self _
  | toggle =>
    simp only [haction] at h
    cases h
    show (if (if fud14.dimValue > 0 then 0 else fud14Level action) > 0 then EventType.set
      else .unset) ∈ if fud14Level action > 0 then [EventType.set,.unset] else [.unset]
    by_cases hlevel : fud14Level action > 0
    · rw [if_pos hlevel]
      exact either_mem _
    · have hoff : ¬ (if fud14.dimValue > 0 then 0 else fud14Level action) > 0 := by
        split
        · decide
        · exact hlevel
      rw [if_neg hlevel,if_neg hoff]
      exact List.mem_singleton_self _
  | dim => exact either_mem _
  | _ => simp [haction] at h

theorem fud14_raised {fud14 : DeviceFud14} (hdata : w.userdata action.device = .fud14 fud14)
    (event : Option Event) : Raised .fud14 action event w := by
  have hset : ∀ trigger, deviceSet trigger action.device action event w =
      if action.type ∈ (deviceTypeInfo .fud14).actions then
        fud14DeviceExec trigger action.device fud14 action w else some w := by
    intro trigger
    simp only [deviceSet,hdata]
    rfl
  by_cases hmask : action.type ∈ (deviceTypeInfo .fud14).actions
  · simp only [if_pos hmask,fud14DeviceExec] at hset
    cases hcommand : fud14Command fud14 action with
    | none =>
      simp only [hcommand] at hset
      exact raised_silent hset (fud14_silent (.inr hcommand))
    | some command =>
      simp only [hcommand] at hset
      exact ⟨_,some _,hset,fun type htype => Option.some.inj htype ▸ fud14Command_raises hcommand,
        fun _ => rfl⟩
  · simp only [if_neg hmask] at hset
    exact raised_silent hset (@fud14_silent action fud14 (.inl hmask))

theorem other_raised (h : ¬ (w.userdata action.device).deviceType.Raises) (event : Option Event) :
    Raised (w.userdata action.device).deviceType action event w := by
  obtain ⟨w₁,raised,hset,-,hraised⟩ := deviceSet_spec action.device action event w
  cases raised with
  | none =>
    refine raised_silent hset ?_
    generalize (w.userdata action.device).deviceType = type at h
    cases type with
    | bool => exact absurd (.inl rfl) h
    | fsr14 => exact absurd (.inr (.inl rfl)) h
    | fud14 => exact absurd (.inr (.inr rfl)) h
    | _ => rfl
  | some type => exact absurd (hraised type rfl).2 h

/-- An exec callback raises one of the events of its action, or nothing, if it may. -/
theorem deviceSet_raised (action : Action) (event : Option Event) (w : World) :
    Raised (w.userdata action.device).deviceType action event w := by
  by_cases hraises : (w.userdata action.device).deviceType.Raises
  · cases hdata : w.userdata action.device with
    | bool b => exact bool_raised hdata event
    | fsr14 fsr14 => exact fsr14_raised hdata event
    | fud14 fud14 => exact fud14_raised hdata event
    | plain type =>
      rw [hdata] at hraises
      cases type <;> rcases hraises with h | h | h <;> cases h
    | _ =>
      rw [hdata] at hraises
      rcases hraises with h | h | h <;> cases h
  · exact other_raised hraises event

end Types

/-- Some rule on the event `e` has an action that can raise `e'`. -/
def Leads (rules : List Rule) (types : DeviceId → DeviceType) (e e' : Event) : Prop :=
  ∃ rule ∈ rules, rule.event = e ∧ ∃ action ∈ rule.actions, action.device = e'.device ∧
    e'.type ∈ actionRaises (types action.device) action

def Acyclic (rules : List Rule) (types : DeviceId → DeviceType) : Prop :=
  ∀ e, ¬ Relation.TransGen (Leads rules types) e e

section Rules
variable {rules : List Rule} {types : DeviceId → DeviceType}

theorem leads_cover (rules : List Rule) (types : DeviceId → DeviceType) :
    Covers rules types (Leads rules types) := by
  intro rule hrule action haction event w hw
  obtain ⟨w₁,raised,hset,hmem,-⟩ := deviceSet_raised action event w
  rw [hw] at hmem
  exact ⟨w₁,raised,hset,deviceSet_frame hset,
    fun type htype => ⟨rule,hrule,rfl,action,haction,rfl,hmem type htype⟩⟩

theorem actionRaises_types {type : DeviceType} {action : Action} {raised : EventType}
    (h : raised ∈ actionRaises type action) : type.Raises ∧ (raised = .set ∨ raised = .unset) := by
  have hboth : raised ∈ [EventType.set,.unset] → raised = .set ∨ raised = .unset := by simp
  unfold actionRaises at h
  split at h <;> first
    | exact ⟨.inl rfl,hboth (by simp_all)⟩
    | exact ⟨.inr (.inl rfl),hboth (by simp_all)⟩
    | (refine ⟨.inr (.inr rfl),hboth ?_⟩; split at h <;> simp_all)
    | exact ⟨.inr (.inr rfl),hboth (by simp_all)⟩
    | cases h

theorem leads_cascades {e e' : Event} (h : Leads rules types e e') : Cascades rules types e e' := by
  obtain ⟨rule,hrule,hevent,action,haction,hdevice,hmem⟩ := h
  obtain ⟨hraises,htype⟩ := actionRaises_types hmem
  exact ⟨⟨rule,hrule,hevent,action,haction,hdevice⟩,hdevice ▸ hraises,htype⟩

theorem dispatch_returns (hacyclic : Acyclic rules types) {w : World} (hw : HasTypes types w)
    (event : Event) : ∃ w', Dispatches rules event w w' :=
  covered_returns (leads_cover rules types) (fun _ _ h => cascades_target (leads_cascades h))
    hacyclic event w hw

theorem later_acyclic (h : ∀ rule ∈ rules, ∀ action ∈ rule.actions,
    rule.event.device < action.device) : Acyclic rules types :=
  fun e he => acyclic_of_later h e (Relation.TransGen.mono (fun _ _ => leads_cascades) _ _ he)

end Rules

end DomoticaEngine
