import DomoticaEngine.DeviceData

/-!
What happens while the engine serves its inputs: the occasions in their order.
-/

set_option autoImplicit false

namespace DomoticaEngine

def Call.head : Call → World → List Occasion
  | .trigger event, w => [.raise w event]
  | _, _ => []

def raisedAt (device : DeviceId) (w : World) : Option EventType → List Occasion
  | none => []
  | some type => [.raise w ⟨device,type⟩]

/-- What holds for every stretch of an execution, from its first state to its last one: an action
is one stretch with the event that it raises. -/
structure TraceRule (P : World → List Occasion → World → Prop) : Prop where
  refl : ∀ w, P w [] w
  append : ∀ {w w₁ w' tr tr'}, P w tr w₁ → P w₁ tr' w' → P w (tr ++ tr') w'
  record : ∀ w o, P w [] (w.record o)
  set : ∀ {w w₁ : World} {action : Action} {event : Option Event} {raised : Option EventType},
    (∀ trigger, deviceSet trigger action.device action event w =
      resume trigger action.device w₁ raised) →
    P w (.exec w action :: raisedAt action.device w₁ raised) w₁

theorem TraceRule.executes {P : World → List Occasion → World → Prop} (h : TraceRule P)
    {rules : List Rule} {call : Call} {w w' : World} {tr : List Occasion}
    (hrun : Executes rules call w tr w') : ∃ rest, tr = call.head w ++ rest ∧ P w rest w' := by
  induction hrun with
  | @trigger event w w' tr _ ih =>
    obtain ⟨rest,rfl,hrest⟩ := ih
    exact ⟨_,rfl,h.append (h.record _ _) hrest⟩
  | offered | executed => exact ⟨[],rfl,h.refl _⟩
  | passed _ _ ih =>
    obtain ⟨rest,rfl,hrest⟩ := ih
    exact ⟨_,rfl,h.append (h.record _ _) hrest⟩
  | fired _ _ _ _ ih₁ ih₂ =>
    obtain ⟨rest₁,rfl,hrest₁⟩ := ih₁
    obtain ⟨rest₂,rfl,hrest₂⟩ := ih₂
    exact ⟨_,rfl,h.append (h.append (h.record _ _) hrest₁) hrest₂⟩
  | action _ _ ih₁ ih₂ =>
    obtain ⟨rest₁,rfl,hrest₁⟩ := ih₁
    obtain ⟨rest₂,rfl,hrest₂⟩ := ih₂
    exact ⟨_,rfl,h.append hrest₁ hrest₂⟩
  | quiet hset => exact ⟨_,rfl,h.set hset⟩
  | raising hset _ ih =>
    obtain ⟨rest,rfl,hrest⟩ := ih
    exact ⟨_,rfl,h.append (h.set hset) hrest⟩

def Traced {α : Type} (rules : List Rule) (callback : Trigger → Option α) (tr : List Occasion)
    (a : α) : Prop :=
  (tr = [] ∧ ∀ trigger, callback trigger = some a) ∨
    ∃ event w w' finish, (∀ trigger, callback trigger = (trigger event w).map finish) ∧
      Executes rules (.trigger event) w tr w' ∧ finish w' = a

def HouseTraced (rules : List Rule) (input : HouseInput) (house : House) (tr : List Occasion)
    (house' : House) : Prop :=
  match input with
  | .command action =>
    ∃ w', Executes rules (.set action none) house.world tr w' ∧ house' = house.setWorld w'
  | input => Traced rules (fun trigger => houseStep trigger input house) tr house'

section Traced
variable {α : Type} {rules : List Rule} {callback : Trigger → Option α} {tr : List Occasion} {a : α}

theorem traced_none : ¬ Traced rules (fun _ => (none : Option α)) tr a := by
  rintro (⟨-,h⟩ | ⟨event,w,w',finish,h,-,-⟩)
  · cases h (fun _ _ => none)
  · cases h (fun _ w => some w)

theorem traced_some {b : α} (h : Traced rules (fun _ => some b) tr a) : tr = [] ∧ b = a := by
  rcases h with ⟨htr,h⟩ | ⟨event,w,w',finish,h,-,-⟩
  · exact ⟨htr,Option.some.inj (h (fun _ _ => none))⟩
  · cases h (fun _ _ => none)

theorem traced_raises {event : Event} {w : World} {finish : World → α}
    (h : Traced rules (fun trigger => (trigger event w).map finish) tr a) :
    ∃ w', Executes rules (.trigger event) w tr w' ∧ finish w' = a := by
  rcases h with ⟨-,h⟩ | ⟨event',v,w',finish',h,hrun,hfinish⟩
  · cases h (fun _ _ => none)
  · have hasks : Asks (fun trigger => (trigger event w).map finish) event' v := by
      intro trigger
      rw [h,Option.map_eq_none_iff]
    obtain ⟨rfl,rfl⟩ := asks_trigger.mp (asks_map.mp hasks)
    have hsame : finish w' = finish' w' := Option.some.inj (h (fun _ _ => some w'))
    exact ⟨w',hrun,hsame.trans hfinish⟩

theorem traced_resume {device : DeviceId} {w : World} {raised : Option EventType}
    {finish : World → α}
    (h : Traced rules (fun trigger => (resume trigger device w raised).map finish) tr a) :
    ∃ w', finish w' = a ∧ match raised with
      | none => tr = [] ∧ w' = w
      | some type => Executes rules (.trigger ⟨device,type⟩) w tr w' := by
  cases raised with
  | none =>
    obtain ⟨htr,hfinish⟩ := traced_some h
    exact ⟨w,hfinish,htr,rfl⟩
  | some type =>
    obtain ⟨w',hrun,hfinish⟩ := traced_raises h
    exact ⟨w',hfinish,hrun⟩

theorem traced_iff {device : DeviceId} {w : World} {raised : Option EventType}
    {finish : World → α} (h : ∀ trigger, callback trigger =
      (resume trigger device w raised).map finish) :
    (∃ fuel, callback (engineTriggerEvent rules fuel) = some a) ↔
      ∃ tr, Traced rules callback tr a := by
  cases raised with
  | none =>
    constructor
    · rintro ⟨fuel,hfuel⟩
      rw [h] at hfuel
      exact ⟨[],.inl ⟨rfl,fun trigger => (h trigger).trans hfuel⟩⟩
    · rintro ⟨tr,⟨-,hall⟩ | ⟨event,v,w',finish',hraises,-,-⟩⟩
      · exact ⟨0,hall _⟩
      · cases (h (fun _ _ => none)).symm.trans (hraises (fun _ _ => none))
  | some type =>
    constructor
    · rintro ⟨fuel,hfuel⟩
      rw [h] at hfuel
      obtain ⟨w',hw',hfinish⟩ := Option.map_eq_some_iff.mp hfuel
      obtain ⟨tr,hrun⟩ := dispatches_iff_executes.mp ⟨fuel,hw'⟩
      exact ⟨tr,.inr ⟨_,w,w',finish,h,hrun,hfinish⟩⟩
    · rintro ⟨tr,htraced⟩
      have hsame : callback = fun trigger => (resume trigger device w (some type)).map finish :=
        funext h
      rw [hsame] at htraced ⊢
      obtain ⟨w',hrun,hfinish⟩ := traced_raises htraced
      obtain ⟨fuel,hfuel⟩ := dispatches_iff_executes.mpr ⟨tr,hrun⟩
      exact ⟨fuel,Option.map_eq_some_iff.mpr ⟨w',hfuel,hfinish⟩⟩

end Traced

def timerHandle : Userdata → Option Nat
  | .timer tmr => tmr.timer
  | .fsb14 fsb14 => fsb14.timer
  | _ => none

/-- What a callback does by itself: it changes its own device, and forgets its timer or not. -/
structure OwnChange (own : DeviceId) (w w' : World) : Prop where
  other : ∀ d, d ≠ own → w'.userdata d = w.userdata d
  handle : ∀ t, timerHandle (w'.userdata own) = some t → timerHandle (w.userdata own) = some t
  loop : w'.loop = w.loop

theorem OwnChange.refl (own : DeviceId) (w : World) : OwnChange own w w :=
  ⟨fun _ _ => rfl,fun _ => id,rfl⟩

theorem OwnChange.trans {own : DeviceId} {w w₁ w' : World} (h : OwnChange own w w₁)
    (h' : OwnChange own w₁ w') : OwnChange own w w' :=
  ⟨fun d hd => (h'.other d hd).trans (h.other d hd),fun t ht => h.handle t (h'.handle t ht),
    h'.loop.trans h.loop⟩

theorem OwnChange.set {own : DeviceId} {w : World} {data : Userdata}
    (h : ∀ t, timerHandle data = some t → timerHandle (w.userdata own) = some t) :
    OwnChange own w (w.setUserdata own data) := by
  refine ⟨fun d hd => setUserdata_other hd _ _,fun t ht => ?_,rfl⟩
  rw [setUserdata_same] at ht
  exact h t ht

theorem OwnChange.modifyFsb14 {own : DeviceId} {w : World} {f : DeviceFsb14 → DeviceFsb14}
    (h : ∀ fsb14 t, (f fsb14).timer = some t → fsb14.timer = some t) :
    OwnChange own w (w.modifyFsb14 own f) := by
  unfold World.modifyFsb14
  cases hdata : w.userdata own with
  | fsb14 fsb14 =>
    refine .set (fun t ht => ?_)
    rw [hdata]
    exact h fsb14 t ht
  | _ => exact .refl own w

theorem OwnChange.setCondition (own : DeviceId) (w : World) (condition : ConditionType) :
    OwnChange own w (w.setCondition own condition) := by
  unfold World.setCondition
  cases hdata : w.userdata own with
  | schedule schedule => exact .set (fun t ht => (by cases ht))
  | _ => exact .refl own w

def EventLoop.stopped (loop : EventLoop) : Option Nat → EventLoop
  | none => loop
  | some t => loop.stop t

inductive HouseCall (house : House) (input : HouseInput) (d : DeviceId) : Prop where
  | stuck (h : ∀ trigger, houseStep trigger input house = none)
  | other (own : DeviceId) (hown : own ≠ d) (w₁ : World) (raised : Option EventType)
      (stopped : Option Nat) (finish : World → House)
      (h : ∀ trigger, houseStep trigger input house =
        (resume trigger own w₁ raised).map finish)
      (hbefore : OwnChange own house.world w₁)
      (hafter : ∀ v, OwnChange own { v with loop := v.loop.stopped stopped } (finish v).world)
      (hstopped : ∀ t ∈ stopped, ∃ timer, house.world.loop.pending t = some timer ∧
        ∀ tmr, house.world.userdata d = .timer tmr → timer.callback = .tmrTimeout → timer.arg ≠ d)
  | fires (t delay : Nat) (tmr : Tmr) (hinput : input = .expire t)
      (hdata : house.world.userdata d = .timer tmr)
      (hpending : house.world.loop.pending t = some ⟨delay,.tmrTimeout,d⟩)
      (h : ∀ trigger, houseStep trigger input house =
        (trigger ⟨d,.timeout⟩ (house.world.setUserdata d
          (.timer { tmr with timer := none }))).map (fun w =>
            house.setWorld { w with loop := w.loop.stop t }))

section Calls
variable {house : House} {d : DeviceId}

theorem idle_call {input : HouseInput} (stopped : Option Nat)
    (h : ∀ trigger, houseStep trigger input house =
      some (house.setWorld { house.world with loop := house.world.loop.stopped stopped }))
    (hstopped : ∀ t ∈ stopped, ∃ timer, house.world.loop.pending t = some timer ∧
      ∀ tmr, house.world.userdata d = .timer tmr → timer.callback = .tmrTimeout → timer.arg ≠ d) :
    HouseCall house input d :=
  .other (d+1) (by simp) house.world none stopped
    (fun v => house.setWorld { v with loop := v.loop.stopped stopped }) h (.refl _ _)
    (fun _ => .refl _ _) hstopped

theorem houseCall_fsb14Timer (hfsb14 : ∀ fsb14, house.world.userdata d ≠ .fsb14 fsb14)
    {t delay : Nat} {arg : DeviceId}
    (hpending : house.world.loop.pending t = some ⟨delay,.fsb14Timer,arg⟩)
    (hstep : ∀ trigger, houseStep trigger (.expire t) house =
      (timerCallback trigger ⟨delay,.fsb14Timer,arg⟩ house.world).map (fun w =>
        house.setWorld { w with loop := w.loop.stop t })) :
    HouseCall house (.expire t) d := by
  have hstopped : ∀ u ∈ some t, ∃ timer, house.world.loop.pending u = some timer ∧
      ∀ tmr, house.world.userdata d = .timer tmr → timer.callback = .tmrTimeout →
        timer.arg ≠ d := by
    rintro _ ⟨⟩
    exact ⟨_,hpending,fun _ _ hcallback => (by cases hcallback)⟩
  by_cases hdata : ∃ fsb14, house.world.userdata arg = .fsb14 fsb14
  · obtain ⟨fsb14,hdata⟩ := hdata
    obtain ⟨condition,raised,hraises,-⟩ := fsb14TimerCallback_raises hdata
    have hcall : ∀ trigger, houseStep trigger (.expire t) house =
        (resume trigger arg ((house.world.setUserdata arg
            (.fsb14 { fsb14 with condition := .stopped })).setUserdata arg
          (.fsb14 { fsb14 with condition := condition })) raised).map (fun w =>
            house.setWorld { w.modifyFsb14 arg (fun fsb14 =>
              { fsb14 with lastAction := some .stop, timer := none }) with
              loop := (w.modifyFsb14 arg (fun fsb14 =>
                { fsb14 with lastAction := some .stop, timer := none })).loop.stop t }) := by
      intro trigger
      simp only [hstep,timerCallback,hraises,Option.map_map]
      rfl
    refine .other arg ?_ _ raised (some t) _ hcall (.trans (.set ?_) (.set ?_)) (fun v => ?_)
      hstopped
    · rintro rfl
      exact hfsb14 fsb14 hdata
    · intro t ht
      rw [hdata]
      exact ht
    · intro t ht
      rw [setUserdata_same]
      exact ht
    · have hchange : OwnChange arg v (v.modifyFsb14 arg (fun fsb14 =>
          { fsb14 with lastAction := some .stop, timer := none })) :=
        .modifyFsb14 (fun fsb14 t ht => (by cases ht))
      exact ⟨hchange.other,hchange.handle,congrArg (fun loop => loop.stop t) hchange.loop⟩
  · refine idle_call (some t) (fun trigger => ?_) hstopped
    rw [hstep]
    simp only [timerCallback,fsb14TimerCallback_other (not_exists.mp hdata),Option.map_some]
    rfl

theorem houseCall_tmrTimeout {t delay : Nat} {arg : DeviceId}
    (hpending : house.world.loop.pending t = some ⟨delay,.tmrTimeout,arg⟩)
    (hstep : ∀ trigger, houseStep trigger (.expire t) house =
      (timerCallback trigger ⟨delay,.tmrTimeout,arg⟩ house.world).map (fun w =>
        house.setWorld { w with loop := w.loop.stop t })) :
    HouseCall house (.expire t) d := by
  by_cases hdata : ∃ tmr, house.world.userdata arg = .timer tmr
  · obtain ⟨tmr,hdata⟩ := hdata
    have hcall : ∀ trigger, houseStep trigger (.expire t) house =
        (trigger ⟨arg,.timeout⟩ (house.world.setUserdata arg
          (.timer { tmr with timer := none }))).map (fun w =>
            house.setWorld { w with loop := w.loop.stop t }) := by
      intro trigger
      simp only [hstep,timerCallback,tmrTimeout,hdata]
      rfl
    by_cases harg : arg = d
    · subst harg
      exact .fires t delay tmr rfl hdata hpending hcall
    · refine .other arg harg _ (some .timeout) (some t) _ hcall ?_ (fun _ => .refl _ _) ?_
      · exact .set (fun t ht => (by cases ht))
      · rintro _ ⟨⟩
        exact ⟨_,hpending,fun _ _ _ => harg⟩
  · refine idle_call (some t) (fun trigger => ?_) ?_
    · rw [hstep]
      have hnothing : timerCallback trigger ⟨delay,.tmrTimeout,arg⟩ house.world =
          some house.world := by
        simp only [timerCallback,tmrTimeout]
        cases hother : house.world.userdata arg with
        | timer tmr => exact absurd ⟨tmr,hother⟩ hdata
        | _ => rfl
      rw [hnothing]
      rfl
    · rintro _ ⟨⟩
      refine ⟨_,hpending,fun tmr htmr _ harg => ?_⟩
      subst harg
      exact hdata ⟨tmr,htmr⟩

theorem houseCall_expire (hfsb14 : ∀ fsb14, house.world.userdata d ≠ .fsb14 fsb14) {t : Nat}
    {timer : Timer} (hpending : house.world.loop.pending t = some timer)
    (hstep : ∀ trigger, houseStep trigger (.expire t) house =
      (timerCallback trigger timer house.world).map (fun w =>
        house.setWorld { w with loop := w.loop.stop t })) :
    HouseCall house (.expire t) d := by
  obtain ⟨delay,callback,arg⟩ := timer
  cases callback with
  | fsb14Timer => exact houseCall_fsb14Timer hfsb14 hpending hstep
  | tmrTimeout => exact houseCall_tmrTimeout hpending hstep

/-- For a BOOL or a TIMER every callback is one of another device, but for its own timeouts. -/
theorem houseStep_call (input : HouseInput) (hinput : ∀ action, input ≠ .command action)
    (hd : (house.world.userdata d).deviceType = .bool ∨
      (house.world.userdata d).deviceType = .timer) : HouseCall house input d := by
  have hown : ∀ own, (house.world.userdata own).deviceType ≠ .bool ∧
      (house.world.userdata own).deviceType ≠ .timer → own ≠ d := by
    rintro own hne rfl
    exact hd.elim hne.1 hne.2
  have hplain : ∀ type : PlainType, (Userdata.plain type).deviceType ≠ .bool ∧
      (Userdata.plain type).deviceType ≠ .timer := by
    intro type
    cases type <;> exact ⟨by decide,by decide⟩
  obtain ⟨step,hbranch,hsame⟩ := houseStep_branch input house
  cases hbranch with
  | command action => exact absurd rfl (hinput action)
  | never => exact .stuck hsame
  | idle => exact idle_call none hsame (by simp)
  | expire hpending =>
    refine houseCall_expire (fun fsb14 hdata => ?_) hpending hsame
    rw [hdata] at hd
    rcases hd with h | h <;> cases h
  | @entry device ts schedule entry hdata hentry =>
    refine .other device (hown _ (by simp [hdata,Userdata.deviceType])) _
      (some entry.event) none _ hsame (.refl _ _) (fun v => .setCondition _ _ _) (by simp)
  | @sun device se sr hdata hpending =>
    refine .other device (hown _ (by simp [hdata,Userdata.deviceType])) _
      (some (sunrisetEventType se)) none _ hsame (.refl _ _) ?_ (by simp)
    exact fun v => .set (fun t ht => (by cases ht))
  | @midnight device ct et sr hdata =>
    refine .other device (hown _ (by simp [hdata,Userdata.deviceType])) house.world
      none none (fun w => sunrisetCalculate device ct et (house.setWorld w)) hsame (.refl _ _) ?_
      (by simp)
    exact fun v => .set (fun t ht => (by cases ht))
  | @plain device type data hdata =>
    refine .other device (hown _ (by rw [hdata]; exact hplain data)) _ (some type) none _ hsame
      (.refl _ _) (fun _ => .refl _ _) (by simp)

end Calls

/-- A step of the engine has occasions, and occasions make a step. -/
theorem houseSteps_iff_traced {rules : List Rule} {input : HouseInput} {house house' : House} :
    HouseSteps rules input house house' ↔ ∃ tr, HouseTraced rules input house tr house' := by
  have hcallback : (∀ trigger, houseStep trigger input house = none) ∨
      (∃ own w₁ raised finish, ∀ trigger, houseStep trigger input house =
        (resume trigger own w₁ raised).map finish) →
      ((∃ fuel, houseStep (engineTriggerEvent rules fuel) input house = some house') ↔
        ∃ tr, Traced rules (fun trigger => houseStep trigger input house) tr house') := by
    rintro (hstuck | ⟨own,w₁,raised,finish,h⟩)
    · simp only [hstuck,reduceCtorEq,exists_false,false_iff,not_exists]
      exact fun _ => traced_none
    · exact traced_iff h
  obtain ⟨step,hbranch,hsame⟩ := houseStep_branch input house
  cases hbranch with
  | @command action =>
    unfold HouseSteps HouseTraced
    simp only [hsame,Option.map_eq_some_iff]
    constructor
    · rintro ⟨fuel,w',hw',rfl⟩
      obtain ⟨tr,hrun⟩ := set_iff_executes.mp ⟨fuel,hw'⟩
      exact ⟨tr,w',hrun,rfl⟩
    · rintro ⟨tr,w',hrun,rfl⟩
      obtain ⟨fuel,hfuel⟩ := set_iff_executes.mpr ⟨tr,hrun⟩
      exact ⟨fuel,w',hfuel,rfl⟩
  | @expire t timer hpending =>
    have htrivial : CallbackRule (fun _ _ => True) :=
      ⟨fun _ => trivial,fun _ _ => trivial,fun _ => trivial,fun _ _ => trivial,fun _ _ => trivial,
        fun _ _ _ => trivial⟩
    obtain ⟨w₁,raised,finish,hraises,-⟩ := htrivial.timer_raises timer house.world
    refine hcallback (.inr ⟨timer.arg,w₁,raised,
      (fun w => house.setWorld { w with loop := w.loop.stop t }) ∘ finish,fun trigger => ?_⟩)
    simp only [hsame,hraises,Option.map_map]
  | @entry device ts schedule entry hdata hentry =>
    exact hcallback (.inr ⟨device,house.world,some entry.event,_,hsame⟩)
  | idle =>
    refine hcallback (.inr ⟨0,house.world,none,fun _ => house,hsame⟩)
  | @sun device se sr hdata hpending =>
    exact hcallback (.inr ⟨device,house.world,some (sunrisetEventType se),_,hsame⟩)
  | midnight =>
    exact hcallback (.inr ⟨0,house.world,none,fun _ => _,hsame⟩)
  | @plain device type data hdata =>
    exact hcallback (.inr ⟨device,house.world,some type,_,hsame⟩)
  | never =>
    cases input with
    | command action =>
      obtain ⟨w₁,raised,hresume,-,-⟩ := deviceSet_spec action.device action none house.world
      have hdoes := hsame (fun _ w => some w)
      simp only [houseStep,actionExecute,hresume,resume_quiet] at hdoes
      cases hdoes
    | _ => exact hcallback (.inl hsame)

inductive HouseRun (rules : List Rule) :
    House → List (HouseInput × List Occasion) → House → Prop where
  | nil {house : House} : HouseRun rules house [] house
  | cons {house house₁ house' : House} {input : HouseInput} {tr : List Occasion}
      {served : List (HouseInput × List Occasion)}
      (hinput : HouseTraced rules input house tr house₁)
      (hrest : HouseRun rules house₁ served house') :
      HouseRun rules house ((input,tr) :: served) house'

def occasions (served : List (HouseInput × List Occasion)) : List Occasion :=
  served.flatMap Prod.snd

theorem houseTraced_callback {rules : List Rule} {input : HouseInput} {house house' : House}
    {tr : List Occasion} (hinput : ∀ action, input ≠ .command action) :
    HouseTraced rules input house tr house' ↔
      Traced rules (fun trigger => houseStep trigger input house) tr house' := by
  cases input with
  | command action => exact absurd rfl (hinput action)
  | _ => exact Iff.rfl

theorem HouseRun.composes {P : World → List Occasion → World → Prop} {rules : List Rule}
    {house house' : House} {served : List (HouseInput × List Occasion)} (hrefl : ∀ w, P w [] w)
    (happend : ∀ {w w₁ w' tr tr'}, P w tr w₁ → P w₁ tr' w' → P w (tr ++ tr') w')
    (hstep : ∀ {input tr} {house house' : House}, HouseTraced rules input house tr house' →
      P house.world tr house'.world)
    (hrun : HouseRun rules house served house') :
    P house.world (occasions served) house'.world := by
  induction hrun with
  | nil => exact hrefl _
  | cons hinput _ ih => exact happend (hstep hinput) ih

end DomoticaEngine
