import DomoticaEngine.House

/-!
What every callback does to the data of one device, any run of them does.
-/

set_option autoImplicit false

namespace DomoticaEngine

/-- What the callbacks of the engine do to the data of one device, in terms of the data before and
after it. The flags of a SUNRISET are not among it. -/
structure CallbackRule (S : Userdata → Userdata → Prop) : Prop where
  refl : ∀ data, S data data
  trans : ∀ {a b c}, S a b → S b c → S a c
  action : ∀ {w w₁ : World} {action : Action} {event : Option Event} {raised : Option EventType},
    (∀ trigger, deviceSet trigger action.device action event w =
      resume trigger action.device w₁ raised) →
    S (w.userdata action.device) (w₁.userdata action.device)
  fsb14 : ∀ a b, S (.fsb14 a) (.fsb14 b)
  timer : ∀ a b, S (.timer a) (.timer b)
  schedule : ∀ schedule condition, condition = .set ∨ condition = .unset →
    S (.schedule schedule) (.schedule (schedule.setCondition condition))

/-- The same with everything that happens to a device: the flags of a SUNRISET are calculated, and
the mark of a shutter is cleared. -/
structure DataRule (S : Userdata → Userdata → Prop) : Prop extends CallbackRule S where
  sunriset : ∀ a b, S (.sunriset a) (.sunriset b)
  veluxKlf200 : ∀ klf200, S (.veluxKlf200 klf200) (.veluxKlf200 { klf200 with changed := false })

def Related (S : Userdata → Userdata → Prop) (w w' : World) : Prop :=
  ∀ d, S (w.userdata d) (w'.userdata d)

namespace CallbackRule
variable {S : Userdata → Userdata → Prop} {rules : List Rule} {fuel : Nat} {w w' : World}

theorem same (h : CallbackRule S) (hdata : w'.userdata = w.userdata) : Related S w w' := by
  intro d
  rw [hdata]
  exact h.refl _

theorem after (h : CallbackRule S) {w₁ : World} (hfirst : Related S w w₁)
    (hsecond : Related S w₁ w') : Related S w w' :=
  fun d => h.trans (hfirst d) (hsecond d)

theorem setUserdata (h : CallbackRule S) {device : DeviceId} {data : Userdata}
    (hdata : S (w.userdata device) data) : Related S w (w.setUserdata device data) := by
  intro d
  by_cases hd : d = device
  · rw [hd,setUserdata_same]
    exact hdata
  · rw [setUserdata_other hd]
    exact h.refl _

theorem modifyFsb14 (h : CallbackRule S) (device : DeviceId) (f : DeviceFsb14 → DeviceFsb14) :
    Related S w (w.modifyFsb14 device f) := by
  unfold World.modifyFsb14
  cases hdata : w.userdata device with
  | fsb14 fsb14 => exact h.setUserdata (by rw [hdata]; exact h.fsb14 _ _)
  | _ => exact h.same rfl

theorem setCondition (h : CallbackRule S) (device : DeviceId) {condition : ConditionType}
    (hcondition : condition = .set ∨ condition = .unset) :
    Related S w (w.setCondition device condition) := by
  unfold World.setCondition
  cases hdata : w.userdata device with
  | schedule schedule =>
    exact h.setUserdata (by rw [hdata]; exact h.schedule _ _ hcondition)
  | _ => exact h.same rfl

theorem set (h : CallbackRule S) {action : Action} {event : Option Event}
    {raised : Option EventType} (hset : ∀ trigger,
      deviceSet trigger action.device action event w = resume trigger action.device w' raised) :
    Related S w w' := by
  intro d
  by_cases hd : d = action.device
  · exact hd ▸ h.action hset
  · rw [(deviceSet_frame hset).other d hd]
    exact h.refl _

theorem set_asks (h : CallbackRule S) {action : Action} {cause : Option Event} {event : Event}
    (hasks : Asks (fun trigger => actionExecute trigger action cause w) event w') :
    Related S w w' := by
  obtain ⟨w₁,raised,hresume,-,-⟩ := deviceSet_spec action.device action cause w
  simp only [actionExecute,hresume] at hasks
  obtain ⟨type,-,-,rfl⟩ := asks_resume.mp hasks
  exact h.set hresume

/-- Induction on the execution, by the rule for executions. -/
theorem executes (h : CallbackRule S) {call : Call} {tr : List Occasion}
    (hrun : Executes rules call w tr w') : Related S w w' :=
  (hrun.keeps (fun _ v => Related S w v) (fun _ _ => True) (fun _ _ _ hv => hv)
    (fun _ _ _ hv => hv) (fun _ _ _ _ _ _ hv _ hset => h.after hv (h.set hset)) []
    (h.same rfl) (fun _ _ _ => trivial)).finish

theorem trigger (h : CallbackRule S) {event : Event}
    (htrigger : engineTriggerEvent rules fuel event w = some w') : Related S w w' := by
  obtain ⟨tr,hrun⟩ := dispatches_iff_executes.mp ⟨fuel,htrigger⟩
  exact h.executes hrun

theorem resumed (h : CallbackRule S) {device : DeviceId} {raised : Option EventType}
    (hresume : resume (engineTriggerEvent rules fuel) device w raised = some w') :
    Related S w w' := by
  cases raised with
  | none =>
    cases hresume
    exact h.same rfl
  | some type => exact h.trigger hresume

theorem command (h : CallbackRule S) {action : Action}
    (haction : actionExecute (engineTriggerEvent rules fuel) action none w = some w') :
    Related S w w' := by
  obtain ⟨tr,hrun⟩ := set_iff_executes.mp ⟨fuel,haction⟩
  exact h.executes hrun

theorem fsb14Stopped (h : CallbackRule S) {device : DeviceId} {fsb14 a b : DeviceFsb14}
    (hdata : w.userdata device = .fsb14 fsb14) :
    Related S w ((w.setUserdata device (.fsb14 a)).setUserdata device (.fsb14 b)) := by
  refine h.after (h.setUserdata (by rw [hdata]; exact h.fsb14 _ _)) (h.setUserdata ?_)
  rw [setUserdata_same]
  exact h.fsb14 _ _

/-- A timer callback changes its device, raises at most one event and changes its device again. -/
theorem timer_raises (h : CallbackRule S) (timer : Timer) (w : World) :
    ∃ (w₁ : World) (raised : Option EventType) (finish : World → World),
      (∀ trigger, timerCallback trigger timer w =
        (resume trigger timer.arg w₁ raised).map finish) ∧
      Related S w w₁ ∧ ∀ v, Related S v (finish v) := by
  have hidle : Related S w w ∧ ∀ v, Related S v (id v) := ⟨h.same rfl,fun _ => h.same rfl⟩
  unfold timerCallback
  cases timer.callback with
  | fsb14Timer =>
    by_cases hdata : ∃ fsb14, w.userdata timer.arg = .fsb14 fsb14
    · obtain ⟨fsb14,hdata⟩ := hdata
      obtain ⟨condition,raised,hraises,-⟩ := fsb14TimerCallback_raises hdata
      exact ⟨_,raised,_,hraises,h.fsb14Stopped hdata,fun _ => h.modifyFsb14 _ _⟩
    · exact ⟨w,none,id,fun _ => fsb14TimerCallback_other (not_exists.mp hdata),hidle⟩
  | tmrTimeout =>
    simp only [tmrTimeout]
    cases hdata : w.userdata timer.arg with
    | timer tmr =>
      refine ⟨_,some .timeout,id,fun _ => Option.map_id'.symm,?_,hidle.2⟩
      exact h.setUserdata (by rw [hdata]; exact h.timer _ _)
    | _ => exact ⟨w,none,id,fun _ => rfl,hidle⟩

theorem timer_callback (h : CallbackRule S) {timer : Timer}
    (hcallback : timerCallback (engineTriggerEvent rules fuel) timer w = some w') :
    Related S w w' := by
  obtain ⟨w₁,raised,finish,hraises,hbefore,hfinish⟩ := h.timer_raises timer w
  rw [hraises] at hcallback
  obtain ⟨v,hv,rfl⟩ := Option.map_eq_some_iff.mp hcallback
  exact h.after (h.after hbefore (h.resumed hv)) (hfinish v)

theorem timer_asks (h : CallbackRule S) {timer : Timer} {event : Event}
    (hasks : Asks (fun trigger => timerCallback trigger timer w) event w') : Related S w w' := by
  obtain ⟨w₁,raised,finish,hraises,hbefore,-⟩ := h.timer_raises timer w
  simp only [hraises] at hasks
  obtain ⟨type,-,-,rfl⟩ := asks_resume.mp (asks_map.mp hasks)
  exact hbefore

theorem asks (h : CallbackRule S) {input : HouseInput} {house : House} {event : Event}
    (hasks : Asks (fun trigger => houseStep trigger input house) event w) :
    Related S house.world w := by
  obtain ⟨step,hbranch,hstep⟩ := houseStep_branch input house
  simp only [hstep] at hasks
  cases hbranch with
  | command action => exact h.set_asks (asks_map.mp hasks)
  | expire hpending => exact h.timer_asks (asks_map.mp hasks)
  | entry hdata hentry =>
    obtain ⟨-,rfl⟩ := asks_trigger.mp (asks_map.mp hasks)
    exact h.same rfl
  | sun hdata hpending =>
    obtain ⟨-,rfl⟩ := asks_trigger.mp (asks_map.mp hasks)
    exact h.same rfl
  | plain hdata =>
    obtain ⟨-,rfl⟩ := asks_trigger.mp (asks_map.mp hasks)
    exact h.same rfl
  | idle | midnight => exact absurd hasks not_asks_some
  | never => exact absurd hasks not_asks_none

theorem entry_condition (h : CallbackRule S) (device : DeviceId) (event : EventType) :
    Related S w (w.setCondition device (if event = .set then .set else .unset)) := by
  refine h.setCondition device ?_
  by_cases hset : event = .set
  · exact .inl (if_pos hset)
  · exact .inr (if_neg hset)

/-- Induction on the depth of the event. -/
theorem reaches (h : CallbackRule S) {event event' : Event}
    (hreaches : Reaches rules event w event' w') : Related S w w' := by
  induction hreaches with
  | here => exact h.same rfl
  | inside _ hbefore _ _ _ hdone hasks _ ih =>
    have hrules := h.executes hbefore
    have hactions := h.after (h.executes hdone) (h.after (h.set_asks hasks) ih)
    exact h.after hrules hactions

theorem raises (h : CallbackRule S) {input : HouseInput} {house : House} {event : Event}
    (hraises : HouseRaises rules input house event w) : Related S house.world w := by
  obtain ⟨event₁,w₁,hasks,hreaches⟩ := hraises
  exact h.after (h.asks hasks) (h.reaches hreaches)

end CallbackRule

namespace DataRule
variable {S : Userdata → Userdata → Prop} {rules : List Rule} {fuel : Nat} {w w' : World}

theorem currentState (h : DataRule S) {device : DeviceId} {sr sr' : Sunriset}
    (hdata : w.userdata device = .sunriset sr) (hrest : Related S w w') :
    Related S w (w'.setUserdata device (.sunriset sr')) := by
  intro d
  by_cases hd : d = device
  · rw [hd,setUserdata_same,hdata]
    exact h.sunriset _ _
  · rw [setUserdata_other hd]
    exact hrest d

theorem house_step (h : DataRule S) {input : HouseInput} {house house' : House}
    (hstep : houseStep (engineTriggerEvent rules fuel) input house = some house') :
    Related S house.world house'.world := by
  obtain ⟨step,hbranch,hsame⟩ := houseStep_branch input house
  rw [hsame] at hstep
  cases hbranch with
  | command action =>
    obtain ⟨w,hw,rfl⟩ := Option.map_eq_some_iff.mp hstep
    exact h.command hw
  | expire hpending =>
    obtain ⟨w,hw,rfl⟩ := Option.map_eq_some_iff.mp hstep
    exact h.after (h.timer_callback hw) (h.same rfl)
  | entry hdata hentry =>
    obtain ⟨w,hw,rfl⟩ := Option.map_eq_some_iff.mp hstep
    exact h.after (h.trigger hw) (h.entry_condition _ _)
  | idle =>
    cases hstep
    exact h.same rfl
  | sun hdata hpending =>
    obtain ⟨w,hw,rfl⟩ := Option.map_eq_some_iff.mp hstep
    exact h.currentState hdata (h.trigger hw)
  | midnight hdata =>
    cases hstep
    exact h.setUserdata (by rw [hdata]; exact h.sunriset _ _)
  | plain hdata =>
    obtain ⟨w,hw,rfl⟩ := Option.map_eq_some_iff.mp hstep
    exact h.trigger hw
  | never => cases hstep

end DataRule

end DomoticaEngine
