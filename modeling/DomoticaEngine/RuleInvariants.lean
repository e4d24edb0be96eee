import DomoticaEngine.Program
import DomoticaEngine.Termination

/-!
What has to be shown of the rules, one by one, so that a predicate on the data of the devices
holds in every state of every run.
-/

set_option autoImplicit false

namespace DomoticaEngine

def Touches (rules : List Rule) (types : DeviceId → DeviceType) (event : Event) (d : DeviceId) :
    Prop :=
  ∃ e, Relation.ReflTransGen (Cascades rules types) event e ∧
    ∃ rule ∈ rules, rule.event = e ∧ ∃ action ∈ rule.actions, action.device = d

/-- An action on `a` can change `d`, by itself or by the event that it raises. -/
def ActionTouches (rules : List Rule) (types : DeviceId → DeviceType) (a d : DeviceId) : Prop :=
  a = d ∨ (types a).Raises ∧
    ∃ type, (type = .set ∨ type = .unset) ∧ Touches rules types ⟨a,type⟩ d

def Call.Touches (rules : List Rule) (types : DeviceId → DeviceType) : Call → DeviceId → Prop
  | .trigger event, d => DomoticaEngine.Touches rules types event d
  | .offer _ event entries, d => ∃ entry ∈ entries, entry.1.event = event ∧
      ∃ action ∈ entry.1.actions, ActionTouches rules types action.device d
  | .actions _ todo, d => ∃ action ∈ todo, ActionTouches rules types action.device d
  | .set action _, d => ActionTouches rules types action.device d

theorem mem_of_entries {rules : List Rule} {rule : Rule} {i : Nat}
    {before after : List (Rule × Nat)} (h : rules.zipIdx = before ++ (rule,i) :: after) :
    rule ∈ rules := by
  have hmem : (rule,i) ∈ rules.zipIdx := h ▸ List.mem_append_right _ List.mem_cons_self
  exact (List.mem_zipIdx' hmem).2 ▸ List.getElem_mem _

theorem touches_offer {rules : List Rule} {types : DeviceId → DeviceType} {event : Event} {n : Nat}
    {d : DeviceId} (h : (Call.offer n event rules.zipIdx).Touches rules types d) :
    Touches rules types event d := by
  obtain ⟨⟨rule,i⟩,hentry,hevent,action,haction,htouches⟩ := h
  have hrule : rule ∈ rules := (List.mem_zipIdx' hentry).2 ▸ List.getElem_mem _
  rcases htouches with hsame | ⟨hraises,type,htype,e,hcascade,hlast⟩
  · exact ⟨event,.refl,rule,hrule,hevent,action,haction,hsame⟩
  · exact ⟨e,.head ⟨⟨rule,hrule,hevent,action,haction,rfl⟩,hraises,htype⟩ hcascade,hlast⟩

theorem actionTouches_unheard {rules : List Rule} {types : DeviceId → DeviceType} {a d : DeviceId}
    (h : ∀ rule ∈ rules, rule.event.device ≠ a) (htouches : ActionTouches rules types a d) :
    a = d := by
  rcases htouches with hsame | ⟨-,type,-,e,hcascade,rule,hrule,hevent,-⟩
  · exact hsame
  · rcases hcascade.cases_head with rfl | ⟨e',⟨⟨rule',hrule',hevent',-⟩,-⟩,-⟩
    · exact absurd (congrArg Event.device hevent) (h rule hrule)
    · exact absurd (congrArg Event.device hevent') (h rule' hrule')

section Types
variable {rules : List Rule} {types : DeviceId → DeviceType} {w w' : World}

theorem HasTypes.related (hw : HasTypes types w) (h : Related (fun a b =>
    b.deviceType = a.deviceType ∧ (Storable a → Storable b)) w w') : HasTypes types w' :=
  fun d => (h d).1.trans (hw d)

theorem HasTypes.record (hw : HasTypes types w) (o : Occurrence) : HasTypes types (w.record o) := hw

theorem HasTypes.executes (hw : HasTypes types w) {call : Call} {tr : List Occasion}
    (h : Executes rules call w tr w') : HasTypes types w' :=
  hw.related (storable_rule.executes h)

theorem HasTypes.set (hw : HasTypes types w) {action : Action} {event : Option Event}
    {raised : Option EventType} (hset : ∀ trigger, deviceSet trigger action.device action event w =
      resume trigger action.device w' raised) : HasTypes types w' :=
  hw.related (storable_rule.set hset)

theorem raised_type (hw : HasTypes types w) {action : Action} {event : Option Event}
    {type : EventType} (hset : ∀ trigger, deviceSet trigger action.device action event w =
      resume trigger action.device w' (some type)) :
    (type = .set ∨ type = .unset) ∧ (types action.device).Raises := by
  obtain ⟨w₁,raised,hresume,-,hraised⟩ := deviceSet_spec action.device action event w
  have hsame : ∀ trigger, resume trigger action.device w' (some type) =
      resume trigger action.device w₁ raised := fun trigger => (hset trigger).symm.trans
    (hresume trigger)
  obtain ⟨-,rfl⟩ := resume_unique hsame
  rw [← hw action.device]
  exact hraised type rfl

/-- Induction on the execution: a device that it cannot come to keeps its data. -/
theorem Executes.untouched {call : Call} {tr : List Occasion} (h : Executes rules call w tr w')
    (hw : HasTypes types w) {d : DeviceId} (hd : ¬ call.Touches rules types d) :
    w'.userdata d = w.userdata d := by
  induction h with
  | @trigger event w w' tr _ ih =>
    exact ih hw (fun htouches => hd (touches_offer htouches))
  | offered | executed => rfl
  | @passed n i event rule entries w w' tr _ _ ih =>
    refine ih hw (fun htouches => hd ?_)
    obtain ⟨entry,hentry,hrest⟩ := htouches
    exact ⟨entry,List.mem_cons_of_mem _ hentry,hrest⟩
  | @fired n i event rule entries w w₁ w' tr₁ tr₂ hevent _ hactions _ ih₁ ih₂ =>
    have hfirst : w₁.userdata d = w.userdata d :=
      ih₁ hw (fun htouches => hd ⟨(rule,i),by simp,hevent,htouches⟩)
    rw [← hfirst]
    refine ih₂ (HasTypes.executes (hw.record _) hactions) (fun htouches => hd ?_)
    obtain ⟨entry,hentry,hrest⟩ := htouches
    exact ⟨entry,List.mem_cons_of_mem _ hentry,hrest⟩
  | @action event action actions w w₁ w' tr₁ tr₂ haction _ ih₁ ih₂ =>
    have hfirst : w₁.userdata d = w.userdata d :=
      ih₁ hw (fun htouches => hd ⟨action,by simp,htouches⟩)
    rw [← hfirst]
    refine ih₂ (hw.executes haction) (fun htouches => hd ?_)
    obtain ⟨action',hmem,hrest⟩ := htouches
    exact ⟨action',List.mem_cons_of_mem _ hmem,hrest⟩
  | quiet hset => exact (deviceSet_frame hset).other d (fun hsame => hd (.inl hsame.symm))
  | @raising action event type w w₁ w' tr hset _ ih =>
    obtain ⟨htype,hraises⟩ := raised_type hw hset
    rw [ih (hw.set hset) (fun htouches => hd (.inr ⟨hraises,type,htype,htouches⟩))]
    exact (deviceSet_frame hset).other d (fun hsame => hd (.inl hsame.symm))

end Types

inductive OwnUpdate : Userdata → Userdata → Prop where
  | fsb14 (fsb14 : DeviceFsb14) (condition : ConditionType) (lastAction : Option ActionType)
      (timer : Option Nat) : OwnUpdate (.fsb14 fsb14)
        (.fsb14 { fsb14 with condition := condition, lastAction := lastAction, timer := timer })
  | timer (tmr : Tmr) : OwnUpdate (.timer tmr) (.timer { tmr with timer := none })
  | schedule (schedule : Schedule) {condition : ConditionType}
      (h : condition = .set ∨ condition = .unset) :
      OwnUpdate (.schedule schedule) (.schedule (schedule.setCondition condition))
  | sunriset (a b : Sunriset) : OwnUpdate (.sunriset a) (.sunriset b)
  | veluxKlf200 (klf200 : DeviceVeluxKlf200) :
      OwnUpdate (.veluxKlf200 klf200) (.veluxKlf200 { klf200 with changed := false })

/-- The actions of a rule that are still to be executed are allowed whenever they are executed,
provided that what the ones before them cannot change is as it was. -/
def ActionsAllowed (rules : List Rule) (types : DeviceId → DeviceType) (I : World → Prop)
    (allowed : World → Action → Prop) (w : World) (actions : List Action) : Prop :=
  ∀ done action todo, actions = done ++ action :: todo → ∀ v, I v → HasTypes types v →
    (∀ d, (∀ earlier ∈ done, ¬ ActionTouches rules types earlier.device d) →
      v.userdata d = w.userdata d) → allowed v action

/-- The obligations for `I` to hold in every run of the engine: allowed actions keep it, so do the
updates of the callbacks and the timers, and each rule executes only allowed actions when its
conditions hold. -/
structure EngineInvariant (rules : List Rule) (types : DeviceId → DeviceType) (I : World → Prop)
    (allowed : World → Action → Prop) : Prop where
  action : ∀ {w w₁ : World} {action : Action} {event : Option Event} {raised : Option EventType},
    HasTypes types w → I w → allowed w action →
    (∀ trigger, deviceSet trigger action.device action event w =
      resume trigger action.device w₁ raised) → I w₁
  own : ∀ {w : World} {d : DeviceId} {data : Userdata}, HasTypes types w → I w →
    OwnUpdate (w.userdata d) data → I (w.setUserdata d data)
  record : ∀ {w : World} (o : Occurrence), I w → I (w.record o)
  loop : ∀ {w : World} (loop : EventLoop), I w → I { w with loop := loop }
  rule : ∀ rule ∈ rules, ∀ w, HasTypes types w → I w →
    rule.conditions.all (conditionCheck w) = true →
    ActionsAllowed rules types I allowed w rule.actions

structure RuleInvariant (rules : List Rule) (types : DeviceId → DeviceType) (I : World → Prop)
    (allowed : World → Action → Prop) : Prop extends EngineInvariant rules types I allowed where
  queue : ∀ {w : World}, I w → I { w with eltako := eltakoCheckSendQueue w.eltako }

def Call.Allowed (rules : List Rule) (types : DeviceId → DeviceType) (I : World → Prop)
    (allowed : World → Action → Prop) (w : World) : Call → Prop
  | .trigger _ => True
  | .offer _ _ entries => ∀ entry ∈ entries, entry.1 ∈ rules
  | .actions _ todo => ActionsAllowed rules types I allowed w todo
  | .set action _ => allowed w action

namespace EngineInvariant
variable {rules : List Rule} {types : DeviceId → DeviceType} {I : World → Prop}
  {allowed : World → Action → Prop} {w w' v : World}

theorem first_allowed {action : Action} {actions : List Action} (hI : I w) (hw : HasTypes types w)
    (h : ActionsAllowed rules types I allowed w (action :: actions)) : allowed w action :=
  h [] action actions rfl w hI hw (fun _ _ => rfl)

theorem rest_allowed {action : Action} {actions : List Action} {event : Option Event}
    {tr : List Occasion} (hw : HasTypes types w)
    (hrun : Executes rules (.set action event) w tr v)
    (h : ActionsAllowed rules types I allowed w (action :: actions)) :
    ActionsAllowed rules types I allowed v actions := by
  intro done later todo hsplit u hI hu hframe
  refine h (action :: done) later todo (by rw [hsplit]; rfl) u hI hu (fun d hd => ?_)
  rw [hframe d (fun earlier hmem => hd earlier (List.mem_cons_of_mem _ hmem))]
  exact hrun.untouched hw (hd action (by simp))

/-- Induction on the execution. -/
theorem executes (h : EngineInvariant rules types I allowed) {call : Call} {tr : List Occasion}
    (hrun : Executes rules call w tr w') (hw : HasTypes types w) (hI : I w)
    (hcall : call.Allowed rules types I allowed w) : I w' := by
  induction hrun with
  | trigger _ ih => exact ih hw (h.record _ hI) (fun entry hentry =>
      (List.mem_zipIdx' hentry).2 ▸ List.getElem_mem _)
  | offered | executed => exact hI
  | passed _ _ ih =>
    exact ih hw (h.record _ hI) (fun entry hentry => hcall entry (List.mem_cons_of_mem _ hentry))
  | @fired n i event rule entries w w₁ w' tr₁ tr₂ _ hconditions hactions _ ih₁ ih₂ =>
    have hrule : rule ∈ rules := hcall (rule,i) (by simp)
    have hoffered := h.record (.offered n i event) hI
    have hfirst : I w₁ := ih₁ (hw.record _) hoffered (h.rule rule hrule _ (hw.record _) hoffered
      hconditions)
    exact ih₂ (HasTypes.executes (hw.record _) hactions) hfirst
      (fun entry hentry => hcall entry (List.mem_cons_of_mem _ hentry))
  | @action event action actions w w₁ w' tr₁ tr₂ haction _ ih₁ ih₂ =>
    have hfirst : I w₁ := ih₁ hw hI (first_allowed hI hw hcall)
    exact ih₂ (hw.executes haction) hfirst (rest_allowed hw haction hcall)
  | quiet hset => exact h.action hw hI hcall hset
  | raising hset _ ih => exact ih (hw.set hset) (h.action hw hI hcall hset) trivial

theorem prefix_allowed {done rest : List Action}
    (h : ActionsAllowed rules types I allowed w (done ++ rest)) :
    ActionsAllowed rules types I allowed w done := by
  intro done' action todo hsplit u hI hu hframe
  exact h done' action (todo ++ rest) (by rw [hsplit,List.append_assoc,List.cons_append]) u hI hu
    hframe

theorem next_allowed {done todo : List Action} {action : Action} {event : Event}
    {tr : List Occasion} (hw : HasTypes types w)
    (hrun : Executes rules (.actions event done) w tr v) (hI : I v)
    (h : ActionsAllowed rules types I allowed w (done ++ action :: todo)) :
    allowed v action := by
  refine h done action todo rfl v hI (hw.executes hrun) (fun d hd => ?_)
  refine hrun.untouched hw ?_
  rintro ⟨earlier,hmem,htouches⟩
  exact hd earlier hmem htouches

end EngineInvariant

structure Holds (types : DeviceId → DeviceType) (I : World → Prop) (w : World) : Prop where
  types : HasTypes types w
  data : I w

namespace EngineInvariant
variable {rules : List Rule} {types : DeviceId → DeviceType} {I : World → Prop}
  {allowed : World → Action → Prop} {w w' v : World} {fuel : Nat}

theorem recorded (h : EngineInvariant rules types I allowed) (hw : Holds types I w)
    (o : Occurrence) : Holds types I (w.record o) := ⟨hw.types,h.record o hw.data⟩

theorem own_type {a b : Userdata} (h : OwnUpdate a b) : b.deviceType = a.deviceType := by
  cases h <;> rfl

theorem update (h : EngineInvariant rules types I allowed) (hw : Holds types I w) {d : DeviceId}
    {data : Userdata} (hdata : OwnUpdate (w.userdata d) data) :
    Holds types I (w.setUserdata d data) := by
  refine ⟨fun d' => ?_,h.own hw.types hw.data hdata⟩
  by_cases hd : d' = d
  · subst hd
    rw [setUserdata_same,own_type hdata,hw.types]
  · rw [setUserdata_other hd,hw.types]

theorem arrived (h : EngineInvariant rules types I allowed) (hw : Holds types I w) (d : DeviceId) :
    Holds types I (w.modifyFsb14 d (fun fsb14 =>
      { fsb14 with lastAction := some .stop, timer := none })) := by
  unfold World.modifyFsb14
  cases hdata : w.userdata d with
  | fsb14 fsb14 => exact h.update hw (by rw [hdata]; exact .fsb14 fsb14 _ _ _)
  | _ => exact hw

theorem setCondition (h : EngineInvariant rules types I allowed) (hw : Holds types I w)
    (d : DeviceId) (event : EventType) :
    Holds types I (w.setCondition d (if event = .set then .set else .unset)) := by
  unfold World.setCondition
  cases hdata : w.userdata d with
  | schedule schedule =>
    refine h.update hw ?_
    rw [hdata]
    refine .schedule schedule ?_
    split
    · exact .inl rfl
    · exact .inr rfl
  | _ => exact hw

theorem trigger (h : EngineInvariant rules types I allowed) (hw : Holds types I w) {event : Event}
    (htrigger : engineTriggerEvent rules fuel event w = some w') : Holds types I w' := by
  obtain ⟨tr,hrun⟩ := dispatches_iff_executes.mp ⟨fuel,htrigger⟩
  exact ⟨hw.types.executes hrun,h.executes hrun hw.types hw.data trivial⟩

theorem resumed (h : EngineInvariant rules types I allowed) (hw : Holds types I w)
    {device : DeviceId} {raised : Option EventType}
    (hresume : resume (engineTriggerEvent rules fuel) device w raised = some w') :
    Holds types I w' := by
  cases raised with
  | none =>
    cases hresume
    exact hw
  | some type => exact h.trigger hw hresume

/-- The callback raises at most one event, in a state with the invariant, and ends in one when the
event does. -/
def Raising (types : DeviceId → DeviceType) (I : World → Prop) {α : Type}
    (world : α → World) (callback : Trigger → Option α) : Prop :=
  ∃ (own : DeviceId) (w₁ : World) (raised : Option EventType) (finish : World → α),
    (∀ trigger, callback trigger = (resume trigger own w₁ raised).map finish) ∧
    Holds types I w₁ ∧ ∀ v, Holds types I v → Holds types I (world (finish v))

section Raising
variable {α : Type} {world : α → World} {callback : Trigger → Option α}

theorem raising_returns (h : EngineInvariant rules types I allowed)
    (hraising : Raising types I world callback) {a : α}
    (hreturns : callback (engineTriggerEvent rules fuel) = some a) : Holds types I (world a) := by
  obtain ⟨own,w₁,raised,finish,hcallback,hw₁,hfinish⟩ := hraising
  rw [hcallback] at hreturns
  obtain ⟨v,hv,rfl⟩ := Option.map_eq_some_iff.mp hreturns
  exact hfinish v (h.resumed hw₁ hv)

theorem raising_asks (hraising : Raising types I world callback) {event : Event}
    (hasks : Asks callback event v) : Holds types I v := by
  obtain ⟨own,w₁,raised,finish,hcallback,hw₁,-⟩ := hraising
  rw [funext hcallback] at hasks
  obtain ⟨type,-,-,rfl⟩ := asks_resume.mp (asks_map.mp hasks)
  exact hw₁

theorem raising_some (hw : Holds types I w) {a : α} (ha : Holds types I (world a)) :
    Raising types I world (fun _ => some a) :=
  ⟨0,w,none,fun _ => a,fun _ => rfl,hw,fun _ _ => ha⟩

theorem raising_trigger (hw : Holds types I w) {event : Event} {finish : World → α}
    (hfinish : ∀ v, Holds types I v → Holds types I (world (finish v))) :
    Raising types I world (fun trigger => (trigger event w).map finish) :=
  ⟨event.device,w,some event.type,finish,fun _ => rfl,hw,hfinish⟩

end Raising

theorem raising_set (h : EngineInvariant rules types I allowed) (hw : Holds types I w)
    {action : Action} (haction : allowed w action) (cause : Option Event) :
    Raising types I id (fun trigger => actionExecute trigger action cause w) := by
  obtain ⟨w₁,raised,hresume,-,-⟩ := deviceSet_spec action.device action cause w
  refine ⟨action.device,w₁,raised,id,fun trigger => ?_,?_,fun _ hv => hv⟩
  · rw [Option.map_id]
    exact hresume trigger
  · exact ⟨hw.types.set hresume,h.action hw.types hw.data haction hresume⟩

theorem raising_timer (h : EngineInvariant rules types I allowed) (hw : Holds types I w)
    (timer : Timer) : Raising types I id (fun trigger => timerCallback trigger timer w) := by
  unfold timerCallback
  cases timer.callback with
  | fsb14Timer =>
    by_cases hdata : ∃ fsb14, w.userdata timer.arg = .fsb14 fsb14
    · obtain ⟨fsb14,hdata⟩ := hdata
      obtain ⟨condition,raised,hraises,-⟩ := fsb14TimerCallback_raises hdata
      have hstopped : Holds types I (w.setUserdata timer.arg
          (.fsb14 { fsb14 with condition := .stopped })) :=
        h.update hw (by rw [hdata]; exact .fsb14 fsb14 _ _ _)
      refine ⟨timer.arg,_,raised,_,hraises,h.update hstopped ?_,fun v hv => h.arrived hv _⟩
      rw [setUserdata_same]
      exact .fsb14 { fsb14 with condition := .stopped } condition _ _
    · simp only [fsb14TimerCallback_other (not_exists.mp hdata)]
      exact raising_some hw hw
  | tmrTimeout =>
    simp only [tmrTimeout]
    cases hdata : w.userdata timer.arg with
    | timer tmr =>
      refine ⟨timer.arg,_,some .timeout,id,fun _ => Option.map_id'.symm,h.update hw ?_,
        fun _ hv => hv⟩
      rw [hdata]
      exact .timer tmr
    | _ => exact raising_some hw hw

theorem raising_map {α β : Type} {world : α → World} {world' : β → World}
    {callback : Trigger → Option α} {f : α → β} (hraising : Raising types I world callback)
    (hf : ∀ a, Holds types I (world a) → Holds types I (world' (f a))) :
    Raising types I world' (fun trigger => (callback trigger).map f) := by
  obtain ⟨own,w₁,raised,finish,hcallback,hw₁,hfinish⟩ := hraising
  refine ⟨own,w₁,raised,f ∘ finish,fun trigger => ?_,hw₁,fun v hv => hf _ (hfinish v hv)⟩
  simp only [hcallback,Option.map_map]

theorem flags_own (hw : Holds types I w) {device : DeviceId} (htype : types device = .sunriset)
    (sr : Sunriset) : OwnUpdate (w.userdata device) (.sunriset sr) := by
  have hdevice := (hw.types device).trans htype
  cases hdata : w.userdata device with
  | sunriset a => exact .sunriset _ _
  | plain type =>
    rw [hdata] at hdevice
    cases type <;> cases hdevice
  | _ =>
    rw [hdata] at hdevice
    cases hdevice

/-- Every callback of the engine, except for a command that is not allowed. -/
theorem house_raising (h : EngineInvariant rules types I allowed) {house : House}
    (hw : Holds types I house.world) {input : HouseInput}
    (hinput : ∀ action, input = .command action → allowed house.world action) :
    (∀ trigger, houseStep trigger input house = none) ∨
      Raising types I House.world (fun trigger => houseStep trigger input house) := by
  obtain ⟨step,hbranch,hstep⟩ := houseStep_branch input house
  simp only [hstep]
  cases hbranch with
  | never => exact .inl (fun _ => rfl)
  | command action =>
    exact .inr (raising_map (h.raising_set hw (hinput action rfl) none) (fun _ hv => hv))
  | expire hpending =>
    exact .inr (raising_map (h.raising_timer hw _) (fun _ hv => ⟨hv.types,h.loop _ hv.data⟩))
  | entry hdata hentry =>
    exact .inr (raising_trigger hw (fun v hv => h.setCondition hv _ _))
  | idle => exact .inr (raising_some hw hw)
  | @sun device se sr hdata hpending =>
    refine .inr (raising_trigger hw (fun v hv => h.update hv (flags_own hv ?_ _)))
    rw [← hw.types device,hdata]
    rfl
  | @midnight device ct et sr hdata =>
    refine .inr (raising_some hw (h.update hw ?_))
    rw [hdata]
    exact .sunriset _ _
  | plain hdata => exact .inr (raising_trigger hw (fun v hv => hv))

theorem offered_before (h : EngineInvariant rules types I allowed) (hw : Holds types I w)
    {event : Event} {n : Nat} {before after : List (Rule × Nat)} {tr : List Occasion}
    (hentries : rules.zipIdx = before ++ after)
    (hbefore : Executes rules (.offer n event before) w tr v) : Holds types I v := by
  refine ⟨hw.types.executes hbefore,h.executes hbefore hw.types hw.data (fun entry hentry => ?_)⟩
  have hmem : entry ∈ rules.zipIdx := hentries ▸ List.mem_append_left _ hentry
  exact (List.mem_zipIdx' hmem).2 ▸ List.getElem_mem _

theorem performed (h : EngineInvariant rules types I allowed) (hw : Holds types I w) {rule : Rule}
    (hrule : rule ∈ rules) (hconditions : rule.conditions.all (conditionCheck w) = true)
    {event : Event} {done todo : List Action} {action : Action} {tr : List Occasion}
    (hactions : rule.actions = done ++ action :: todo)
    (hdone : Executes rules (.actions event done) w tr v) :
    Holds types I v ∧ allowed v action := by
  have hallowed := h.rule rule hrule w hw.types hw.data hconditions
  rw [hactions] at hallowed
  have hv : Holds types I v :=
    ⟨hw.types.executes hdone,h.executes hdone hw.types hw.data (prefix_allowed hallowed)⟩
  exact ⟨hv,next_allowed hw.types hdone hv.data hallowed⟩

/-- Induction on the depth of the event. -/
theorem reaches (h : EngineInvariant rules types I allowed) {event event' : Event}
    (hreaches : Reaches rules event w event' v) (hw : Holds types I w) : Holds types I v := by
  induction hreaches with
  | here => exact hw
  | inside hentries hbefore _ hconditions hactions hdone hasks _ ih =>
    have hrule := mem_of_entries hentries
    have hoffered := h.offered_before (h.recorded hw _) hentries hbefore
    obtain ⟨hv,hallowed⟩ := h.performed (h.recorded hoffered _) hrule hconditions hactions hdone
    exact ih (raising_asks (h.raising_set hv hallowed _) hasks)

theorem checks (h : EngineInvariant rules types I allowed) (hw : Holds types I w) {event : Event}
    {rule : Rule} (hchecks : Checks rules event w rule v) : Holds types I v ∧ rule ∈ rules := by
  cases hchecks with
  | checks hentries hbefore _ =>
    exact ⟨h.recorded (h.offered_before (h.recorded hw _) hentries hbefore) _,
      mem_of_entries hentries⟩

section House
variable {house house' : House}

theorem house_step (h : EngineInvariant rules types I allowed) (hw : Holds types I house.world)
    {input : HouseInput} (hinput : ∀ action, input = .command action → allowed house.world action)
    (hstep : HouseSteps rules input house house') : Holds types I house'.world := by
  obtain ⟨fuel,hstep⟩ := hstep
  rcases h.house_raising hw hinput with hnever | hraising
  · rw [hnever] at hstep
    cases hstep
  · exact h.raising_returns hraising hstep

end House

section Program
variable {execdir : CString} {input : ProgramInput} {p p' : Program}

theorem callback_step (h : EngineInvariant rules types I allowed) (hp : Holds types I p.world)
    (hinput : ∀ action, input = .house (.command action) → allowed p.world action)
    (hother : input ≠ .queue) (hstep : ProgramSteps execdir rules input p p') :
    Holds types I p'.world := by
  obtain ⟨fuel,hstep⟩ := hstep
  cases input with
  | house input =>
    obtain ⟨house,hhouse,rfl⟩ := Option.map_eq_some_iff.mp hstep
    have hp' : Holds types I p.house.world := hp
    exact h.house_step hp' (fun action hcommand => hinput action (congrArg _ hcommand))
      ⟨fuel,hhouse⟩
  | worker popen =>
    have hstep : some (p.setVelux (veluxKlf200Worker execdir popen p.velux)) = some p' := hstep
    cases hstep
    have hworld : (p.setVelux (veluxKlf200Worker execdir popen p.velux)).world = p.world :=
      worker_world popen p.velux
    rw [hworld]
    exact hp
  | incoming device revents =>
    obtain ⟨velux,hvelux,rfl⟩ := Option.map_eq_some_iff.mp hstep
    rcases incoming_world hvelux with hsame | ⟨owner,klf200,hdata,hset⟩
    · have hworld : (p.setVelux velux).world = p.world := hsame
      rw [hworld]
      exact hp
    · have hworld : (p.setVelux velux).world = p.world.setUserdata owner
          (.veluxKlf200 { klf200 with changed := false }) := hset
      rw [hworld]
      exact h.update hp (by rw [Program.world,hdata]; exact .veluxKlf200 _)
  | queue => exact absurd rfl hother

theorem raises (h : EngineInvariant rules types I allowed) (hp : Holds types I p.world)
    (hinput : ∀ action, input = .house (.command action) → allowed p.world action)
    {event : Event} (hraises : ProgramRaises rules p input event v) : Holds types I v := by
  cases hraises with
  | house hraises =>
    obtain ⟨event₁,w₁,hasks,hreaches⟩ := hraises
    have hhouse : Holds types I p.house.world := hp
    rcases h.house_raising hhouse
      (fun action hcommand => hinput action (congrArg _ hcommand)) with hnever | hraising
    · simp only [hnever] at hasks
      exact absurd hasks not_asks_none
    · exact h.reaches hreaches (raising_asks hraising hasks)

theorem program_executes (h : EngineInvariant rules types I allowed) (hp : Holds types I p.world)
    (hinput : ∀ action, input = .house (.command action) → allowed p.world action)
    {action : Action} (hexecutes : ProgramExecutes rules p input action v) :
    Holds types I v ∧ allowed v action := by
  cases hexecutes with
  | command action => exact ⟨hp,hinput action rfl⟩
  | rule hraises hperforms =>
    cases hperforms with
    | performs hchecks hconditions hactions hdone =>
      obtain ⟨hv,hrule⟩ := h.checks (h.raises hp hinput hraises) hchecks
      exact h.performed hv hrule hconditions hactions hdone

end Program

end EngineInvariant

namespace RuleInvariant
variable {rules : List Rule} {types : DeviceId → DeviceType} {I : World → Prop}
  {allowed : World → Action → Prop} {v : World} {execdir : CString} {p p' : Program}

theorem program_step (h : RuleInvariant rules types I allowed) (hp : Holds types I p.world)
    {input : ProgramInput} (hinput : ∀ action, input = .house (.command action) →
      allowed p.world action)
    (hstep : ProgramSteps execdir rules input p p') : Holds types I p'.world := by
  by_cases hqueue : input = .queue
  · subst hqueue
    obtain ⟨fuel,hstep⟩ := hstep
    cases hstep
    exact ⟨hp.types,h.queue hp.data⟩
  · exact h.callback_step hp hinput hqueue hstep

/-- Induction on the run, for commands that are allowed in every state with the invariant. -/
theorem visits (h : RuleInvariant rules types I allowed) {inputs : List ProgramInput}
    (hcommands : ∀ action, .house (.command action) ∈ inputs → ∀ w, Holds types I w →
      allowed w action)
    (hp : Holds types I p.world) (hvisits : Visits execdir rules inputs p v) :
    Holds types I v := by
  induction hvisits with
  | now => exact hp
  | checks hraises hchecks =>
    exact (h.checks (h.raises hp (fun action heq => hcommands action (by simp [heq]) _ hp)
      hraises) hchecks).1
  | later hstep _ ih =>
    exact ih (fun action hmem => hcommands action (List.mem_cons_of_mem _ hmem))
      (h.program_step hp (fun action heq => hcommands action (by simp [heq]) _ hp) hstep)

end RuleInvariant

end DomoticaEngine
