import DomoticaEngine.Library.Fuel
import DomoticaEngine.World

set_option autoImplicit false

namespace DomoticaEngine

def actionExecute (trigger : Trigger) (action : Action) (event : Option Event) (w : World) :
    Option World := deviceSet trigger action.device action event w

def conditionCheck (w : World) (condition : Condition) : Bool :=
  deviceCheck condition.device condition w

/-- Every condition is checked, also after one that does not hold. -/
def triggerEventIterCb (trigger : Trigger) (event : Event) (rule : Rule) (w : World) :
    Option World :=
  if rule.conditions.all (conditionCheck w) then
    rule.actions.foldlM (fun w action => actionExecute trigger action (some event) w) w
  else some w

/-- One turn of the loop of rule_list_foreach_event, for the rule at position `i`. -/
def offerRule (trigger : Trigger) (n : Nat) (event : Event) (w : World) (entry : Rule × Nat) :
    Option World :=
  let (rule,i) := entry
  let w := w.record (.offered n i event)
  if eventEqual rule.event event then triggerEventIterCb trigger event rule w else some w

def ruleListForeachEvent (trigger : Trigger) (n : Nat) (event : Event)
    (rules : List (Rule × Nat)) (w : World) : Option World :=
  rules.foldlM (offerRule trigger n event) w

def engineBody (rules : List Rule) : Fuel.Body Event World := fun trigger event w =>
  let n := w.history.length
  ruleListForeachEvent trigger n event rules.zipIdx (w.record (.raised n event))

/-- Dispatch with a bound on the number of dispatches inside each other. -/
def engineTriggerEvent (rules : List Rule) (fuel : Nat) : Trigger :=
  Fuel.run (engineBody rules) fuel

/-- `engine_trigger_event(event)` returns, in the state `w'`. -/
def Dispatches (rules : List Rule) (event : Event) (w w' : World) : Prop :=
  Fuel.Returns (engineBody rules) event w w'

def DeviceType.Raises (type : DeviceType) : Prop := type = .bool ∨ type = .fsr14 ∨ type = .fud14

structure ExecFrame (device : DeviceId) (w w' : World) : Prop where
  history : w'.history = w.history
  other : ∀ d, d ≠ device → w'.userdata d = w.userdata d
  deviceType : (w'.userdata device).deviceType = (w.userdata device).deviceType

theorem ExecFrame.types {device : DeviceId} {w w' : World} (h : ExecFrame device w w')
    (d : DeviceId) : (w'.userdata d).deviceType = (w.userdata d).deviceType := by
  by_cases hd : d = device
  · exact hd ▸ h.deviceType
  · rw [h.other d hd]

theorem ExecFrame.refl (device : DeviceId) (w : World) : ExecFrame device w w :=
  ⟨rfl,fun _ _ => rfl,rfl⟩

theorem ExecFrame.set {device : DeviceId} {w w₁ : World} {data : Userdata}
    (hh : w₁.history = w.history) (hu : w₁.userdata = w.userdata)
    (ht : data.deviceType = (w.userdata device).deviceType) :
    ExecFrame device w (w₁.setUserdata device data) := by
  refine ⟨hh,fun d hd => ?_,?_⟩
  · rw [setUserdata_other hd,hu]
  · rw [setUserdata_same,ht]

theorem ExecFrame.send {device : DeviceId} {w w₁ : World} (h : ExecFrame device w w₁)
    (msg : EltakoMessage) : ExecFrame device w (w₁.send msg) :=
  ⟨h.history,h.other,h.deviceType⟩

def resume (trigger : Trigger) (device : DeviceId) (w : World) : Option EventType → Option World
  | none => some w
  | some type => trigger ⟨device,type⟩ w

theorem fsb14DeviceExec_frame {device : DeviceId} {w : World} {fsb14 : DeviceFsb14}
    (h : w.userdata device = .fsb14 fsb14) (action : Action) :
    ExecFrame device w (fsb14DeviceExec device fsb14 action w) := by
  have hset : ∀ (fsb14' : DeviceFsb14) (loop : EventLoop),
      ExecFrame device w (w.setFsb14 device fsb14' loop) := by
    intro fsb14' loop
    have ht : (Userdata.fsb14 fsb14').deviceType = (w.userdata device).deviceType := by
      rw [h]
      rfl
    exact ⟨rfl,fun d hd => setUserdata_other hd _ _,by rw [World.setFsb14,setUserdata_same,ht]⟩
  unfold fsb14DeviceExec
  split
  · exact hset _ _
  · exact hset _ _
  · split
    · exact ExecFrame.refl device w
    · unfold fsb14Exec
      simp only
      split
      · exact hset _ _
      · exact (hset _ _).send _

theorem timerDeviceExec_frame {device : DeviceId} {w : World} {tmr : Tmr}
    (h : w.userdata device = .timer tmr) (action : Action) :
    ExecFrame device w (timerDeviceExec device tmr action w) := by
  have ht : ∀ tmr' : Tmr, (Userdata.timer tmr').deviceType = (w.userdata device).deviceType := by
    intro tmr'
    rw [h]
    rfl
  unfold timerDeviceExec
  cases tmr.timer <;> cases action.type <;>
    first | exact ExecFrame.refl device w | exact ExecFrame.set rfl rfl (ht _)

theorem gpioOutputExec_frame {device : DeviceId} {w : World} {gpio : Gpio}
    (h : w.userdata device = .gpo gpio) (action : Action) :
    ExecFrame device w (gpioOutputExec device gpio action w) := by
  have ht : ∀ gpio' : Gpio, (Userdata.gpo gpio').deviceType = (w.userdata device).deviceType := by
    intro gpio'
    rw [h]
    rfl
  unfold gpioOutputExec
  cases action.type <;>
    first | exact ExecFrame.refl device w | exact ExecFrame.set rfl rfl (ht _)

theorem veluxKlf200DeviceExec_frame {device : DeviceId} {w : World} {klf200 : DeviceVeluxKlf200}
    (h : w.userdata device = .veluxKlf200 klf200) (action : Action) :
    ExecFrame device w (veluxKlf200DeviceExec device klf200 action w) := by
  have ht : ∀ klf200' : DeviceVeluxKlf200,
      (Userdata.veluxKlf200 klf200').deviceType = (w.userdata device).deviceType := by
    intro klf200'
    rw [h]
    rfl
  unfold veluxKlf200DeviceExec
  cases action.type <;>
    first | exact ExecFrame.refl device w | exact ExecFrame.set rfl rfl (ht _)

/-- Whatever `engine_trigger_event` does, the callback updates its own device and then
raises at most one event, a SET or UNSET of that device. -/
def ExecSpec (device : DeviceId) (w : World) (exec : Trigger → Option World) : Prop :=
  ∃ (w₁ : World) (raised : Option EventType),
    (∀ trigger, exec trigger = resume trigger device w₁ raised) ∧
    ExecFrame device w w₁ ∧
    (∀ type ∈ raised, (type = .set ∨ type = .unset) ∧ (w.userdata device).deviceType.Raises)

theorem ExecSpec.quiet {device : DeviceId} {w w₁ : World} (h : ExecFrame device w w₁) :
    ExecSpec device w (fun _ => some w₁) := ⟨w₁,none,fun _ => rfl,h,by simp⟩

theorem ExecSpec.raise {device : DeviceId} {w w₁ : World} (h : ExecFrame device w w₁)
    (hraises : (w.userdata device).deviceType.Raises) (c : Prop) [Decidable c] :
    ExecSpec device w
      (fun trigger => deviceTriggerEvent trigger device (if c then .set else .unset) w₁) := by
  refine ⟨w₁,some (if c then .set else .unset),fun _ => rfl,h,?_⟩
  intro type ht
  simp only [Option.mem_def,Option.some.injEq] at ht
  subst ht
  refine ⟨?_,hraises⟩
  split <;> simp

section Callbacks
variable {device : DeviceId} {w : World}

theorem boolExec_spec {b : BoolT} (h : w.userdata device = .bool b) (action : Action) :
    ExecSpec device w (fun trigger => boolExec trigger device b action w) := by
  have hframe : ExecFrame device w
      (w.setUserdata device (.bool { b with val := boolCommand b action.type })) :=
    ExecFrame.set rfl rfl (by rw [h]; rfl)
  unfold boolExec
  by_cases hv : b.val = boolCommand b action.type
  · simp only [if_neg (not_not.mpr hv)]
    exact ExecSpec.quiet hframe
  · simp only [if_pos hv]
    exact ExecSpec.raise hframe (by rw [h]; exact .inl rfl) _

theorem fsr14DeviceExec_spec {fsr14 : DeviceFsr14} (h : w.userdata device = .fsr14 fsr14)
    (action : Action) :
    ExecSpec device w (fun trigger => fsr14DeviceExec trigger device fsr14 action w) := by
  unfold fsr14DeviceExec
  cases fsr14Command fsr14 action with
  | none => exact ExecSpec.quiet (ExecFrame.refl device w)
  | some command =>
    have hset : ExecFrame device w
        (w.setUserdata device (.fsr14 { fsr14 with val := command.1 })) :=
      ExecFrame.set rfl rfl (by rw [h]; rfl)
    exact ExecSpec.raise (hset.send _) (by rw [h]; exact .inr (.inl rfl)) _

theorem fud14DeviceExec_spec {fud14 : DeviceFud14} (h : w.userdata device = .fud14 fud14)
    (action : Action) :
    ExecSpec device w (fun trigger => fud14DeviceExec trigger device fud14 action w) := by
  unfold fud14DeviceExec
  cases fud14Command fud14 action with
  | none => exact ExecSpec.quiet (ExecFrame.refl device w)
  | some command =>
    have hset : ExecFrame device w (w.setUserdata device (.fud14 command.1)) :=
      ExecFrame.set rfl rfl (by rw [h]; rfl)
    exact ExecSpec.raise (hset.send _) (by rw [h]; exact .inr (.inr rfl)) _

end Callbacks

theorem deviceSet_execSpec (device : DeviceId) (action : Action) (event : Option Event)
    (w : World) : ExecSpec device w (fun trigger => deviceSet trigger device action event w) := by
  have hnone : ExecSpec device w (fun _ => some w) := ExecSpec.quiet (ExecFrame.refl device w)
  unfold deviceSet
  by_cases hmask : action.type ∈ (deviceTypeInfo (w.userdata device).deviceType).actions
  · simp only [if_pos hmask]
    cases hdata : w.userdata device with
    | bool b => exact boolExec_spec hdata action
    | fsr14 fsr14 => exact fsr14DeviceExec_spec hdata action
    | fud14 fud14 => exact fud14DeviceExec_spec hdata action
    | fsb14 fsb14 => exact ExecSpec.quiet (fsb14DeviceExec_frame hdata action)
    | timer tmr => exact ExecSpec.quiet (timerDeviceExec_frame hdata action)
    | gpo gpio => exact ExecSpec.quiet (gpioOutputExec_frame hdata action)
    | veluxKlf200 klf200 => exact ExecSpec.quiet (veluxKlf200DeviceExec_frame hdata action)
    | schedule _ => exact hnone
    | sunriset _ => exact hnone
    | plain _ => exact hnone
  · simp only [if_neg hmask]
    exact hnone

theorem deviceSet_spec (device : DeviceId) (action : Action) (event : Option Event) (w : World) :
    ∃ (w₁ : World) (raised : Option EventType),
      (∀ trigger, deviceSet trigger device action event w = resume trigger device w₁ raised) ∧
      ExecFrame device w w₁ ∧
      (∀ type ∈ raised, (type = .set ∨ type = .unset) ∧
        (w.userdata device).deviceType.Raises) :=
  deviceSet_execSpec device action event w

section Resumed
variable {device : DeviceId} {action : Action} {event : Option Event} {w w₁ w₂ : World}
  {raised : Option EventType}

theorem resume_quiet : resume (fun _ w => some w) device w raised = some w := by
  cases raised <;> rfl

/-- The state that a callback leaves is the one in which a trigger that does nothing returns. -/
theorem deviceSet_quiet (h : ∀ trigger, deviceSet trigger device action event w =
    resume trigger device w₁ raised) :
    deviceSet (fun _ w => some w) device action event w = some w₁ :=
  (h _).trans resume_quiet

theorem deviceSet_unique (h : ∀ trigger, deviceSet trigger device action event w =
    resume trigger device w₁ raised)
    (h₂ : deviceSet (fun _ w => some w) device action event w = some w₂) : w₁ = w₂ :=
  Option.some.inj ((deviceSet_quiet h).symm.trans h₂)

theorem deviceSet_frame (h : ∀ trigger, deviceSet trigger device action event w =
    resume trigger device w₁ raised) : ExecFrame device w w₁ := by
  obtain ⟨w₂,raised₂,hresume,hframe,-⟩ := deviceSet_spec device action event w
  rwa [deviceSet_unique h (deviceSet_quiet hresume)]

end Resumed

/-- The value of a BOOL after an action, which its type supports or not. -/
def boolAfter (val : Int) (type : ActionType) : Int :=
  if type ∈ (deviceTypeInfo .bool).actions then boolCommand ⟨val⟩ type else val

theorem deviceSet_boolAfter {device : DeviceId} {w : World} {val : Int}
    (h : w.userdata device = .bool ⟨val⟩) (action : Action) (event : Option Event)
    (trigger : Trigger) : deviceSet trigger device action event w =
      if val = boolAfter val action.type then some w
      else trigger ⟨device,if boolAfter val action.type = 1 then .set else .unset⟩
        (w.setUserdata device (.bool ⟨boolAfter val action.type⟩)) := by
  have hid : w.setUserdata device (.bool ⟨val⟩) = w := by
    simp [World.setUserdata,← h]
  unfold deviceSet boolAfter
  simp only [h,Userdata.deviceType]
  by_cases hmask : action.type ∈ (deviceTypeInfo .bool).actions
  · simp only [if_pos hmask,boolExec,deviceTriggerEvent]
    by_cases heq : val = boolCommand ⟨val⟩ action.type
    · rw [if_neg (not_not.mpr heq),if_pos heq,← heq,hid]
    · rw [if_pos heq,if_neg heq]
  · simp only [if_neg hmask,if_true]

section Monotone
variable {f g : Trigger}

theorem resume_le (h : Fuel.Le f g) {device : DeviceId} {w w' : World} {raised : Option EventType}
    (hf : resume f device w raised = some w') : resume g device w raised = some w' := by
  cases raised with
  | none => exact hf
  | some type => exact h _ _ _ hf

theorem deviceSet_le (h : Fuel.Le f g) (device : DeviceId) (action : Action)
    (event : Option Event) (w w' : World) (hf : deviceSet f device action event w = some w') :
    deviceSet g device action event w = some w' := by
  obtain ⟨w₁,raised,hresume,-,-⟩ := deviceSet_spec device action event w
  rw [hresume] at hf ⊢
  exact resume_le h hf

theorem triggerEventIterCb_le (h : Fuel.Le f g) (event : Event) (rule : Rule) (w w' : World)
    (hf : triggerEventIterCb f event rule w = some w') :
    triggerEventIterCb g event rule w = some w' := by
  unfold triggerEventIterCb at hf ⊢
  split at hf
  · rename_i hc
    rw [if_pos hc]
    exact Fuel.foldlM_le _ (fun action _ s s' hs => deviceSet_le h _ _ _ s s' hs) w w' hf
  · rename_i hc
    rw [if_neg hc]
    exact hf

theorem engineBody_monotone (rules : List Rule) : Fuel.Monotone (engineBody rules) := by
  intro f g h event w w' hf
  refine Fuel.foldlM_le _ (fun entry _ s s' hs => ?_) _ w' hf
  unfold offerRule at hs ⊢
  simp only at hs ⊢
  split at hs
  · rename_i hc
    rw [if_pos hc]
    exact triggerEventIterCb_le h _ _ _ _ hs
  · rename_i hc
    rw [if_neg hc]
    exact hs

end Monotone

/-- The state in which a dispatch returns does not depend on how it is reached. -/
theorem Dispatches.unique {rules : List Rule} {event : Event} {w w₁ w₂ : World}
    (h₁ : Dispatches rules event w w₁) (h₂ : Dispatches rules event w w₂) : w₁ = w₂ :=
  Fuel.Returns.unique (engineBody_monotone rules) h₁ h₂

section Keeps
variable {R : World → World → Prop}

/-- A dispatch keeps what every exec callback and every entry of the history keep. -/
theorem engineBody_keeps (hrefl : ∀ w, R w w) (htrans : ∀ s t u, R s t → R t u → R s u)
    (hrecord : ∀ w o, R w (w.record o))
    (hset : ∀ (action : Action) (event : Option Event) (w w₁ : World) (raised : Option EventType),
      (∀ trigger, deviceSet trigger action.device action event w =
        resume trigger action.device w₁ raised) → R w w₁)
    {rules : List Rule} {f : Trigger} (hf : ∀ e w w', f e w = some w' → R w w') (event : Event)
    (w w' : World) (h : engineBody rules f event w = some w') : R w w' := by
  have haction : ∀ action s s', actionExecute f action (some event) s = some s' → R s s' := by
    intro action s s' hs
    obtain ⟨s₁,raised,hresume,-,-⟩ := deviceSet_spec action.device action (some event) s
    have hs₁ := hset action (some event) s s₁ raised hresume
    rw [actionExecute,hresume] at hs
    cases raised with
    | none =>
      cases hs
      exact hs₁
    | some type => exact htrans _ _ _ hs₁ (hf _ _ _ hs)
  have hoffer : ∀ entry ∈ rules.zipIdx, ∀ s s',
      offerRule f w.history.length event s entry = some s' → R s s' := by
    intro entry _ s s' hs
    have hrest : R (s.record (.offered w.history.length entry.2 event)) s' := by
      unfold offerRule triggerEventIterCb at hs
      simp only at hs
      split at hs
      · split at hs
        · exact Fuel.foldlM_keeps hrefl htrans _ (fun action _ => haction action) _ s' hs
        · cases hs
          exact hrefl _
      · cases hs
        exact hrefl _
    exact htrans _ _ _ (hrecord s _) hrest
  exact htrans _ _ _ (hrecord w _) (Fuel.foldlM_keeps hrefl htrans _ hoffer _ w' h)

theorem Dispatches.keeps (hrefl : ∀ w, R w w) (htrans : ∀ s t u, R s t → R t u → R s u)
    (hrecord : ∀ w o, R w (w.record o))
    (hset : ∀ (action : Action) (event : Option Event) (w w₁ : World) (raised : Option EventType),
      (∀ trigger, deviceSet trigger action.device action event w =
        resume trigger action.device w₁ raised) → R w w₁)
    {rules : List Rule} {event : Event} {w w' : World} (h : Dispatches rules event w w') :
    R w w' :=
  Fuel.Returns.induct (F := engineBody rules) (P := fun _ s s' => R s s')
    (fun _ hf => engineBody_keeps hrefl htrans hrecord hset hf) h

end Keeps

end DomoticaEngine
