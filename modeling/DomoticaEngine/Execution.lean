import DomoticaEngine.Engine

/-!
What a dispatch does, in the order in which it does it: the events it raises and the actions
it executes, those of the dispatches inside at their place.
-/

set_option autoImplicit false

namespace DomoticaEngine

/-- A piece of a dispatch: an event to raise, rules still to be offered an event, actions of a
rule still to be executed, or one action. -/
inductive Call where
  | trigger (event : Event)
  | offer (n : Nat) (event : Event) (rules : List (Rule × Nat))
  | actions (event : Event) (actions : List Action)
  | set (action : Action) (event : Option Event)

inductive Occasion where
  | raise (w : World) (event : Event)
  | exec (w : World) (action : Action)

def Occasion.world : Occasion → World
  | .raise w _ => w
  | .exec w _ => w

/-- The call leads from `w` to `w'`, by way of these occasions. -/
inductive Executes (rules : List Rule) : Call → World → List Occasion → World → Prop where
  | trigger {event : Event} {w w' : World} {tr : List Occasion}
      (hrules : Executes rules (.offer w.history.length event rules.zipIdx)
        (w.record (.raised w.history.length event)) tr w') :
      Executes rules (.trigger event) w (.raise w event :: tr) w'
  | offered {n : Nat} {event : Event} {w : World} : Executes rules (.offer n event []) w [] w
  | passed {n i : Nat} {event : Event} {rule : Rule} {entries : List (Rule × Nat)} {w w' : World}
      {tr : List Occasion}
      (hpassed : ¬ (rule.event = event ∧
        rule.conditions.all (conditionCheck (w.record (.offered n i event))) = true))
      (hrest : Executes rules (.offer n event entries) (w.record (.offered n i event)) tr w') :
      Executes rules (.offer n event ((rule,i) :: entries)) w tr w'
  | fired {n i : Nat} {event : Event} {rule : Rule} {entries : List (Rule × Nat)}
      {w w₁ w' : World} {tr₁ tr₂ : List Occasion} (hevent : rule.event = event)
      (hconditions : rule.conditions.all
        (conditionCheck (w.record (.offered n i event))) = true)
      (hactions : Executes rules (.actions event rule.actions)
        (w.record (.offered n i event)) tr₁ w₁)
      (hrest : Executes rules (.offer n event entries) w₁ tr₂ w') :
      Executes rules (.offer n event ((rule,i) :: entries)) w (tr₁ ++ tr₂) w'
  | executed {event : Event} {w : World} : Executes rules (.actions event []) w [] w
  | action {event : Event} {action : Action} {actions : List Action} {w w₁ w' : World}
      {tr₁ tr₂ : List Occasion} (haction : Executes rules (.set action (some event)) w tr₁ w₁)
      (hrest : Executes rules (.actions event actions) w₁ tr₂ w') :
      Executes rules (.actions event (action :: actions)) w (tr₁ ++ tr₂) w'
  | quiet {action : Action} {event : Option Event} {w w' : World}
      (hset : ∀ trigger, deviceSet trigger action.device action event w =
        resume trigger action.device w' none) :
      Executes rules (.set action event) w [.exec w action] w'
  | raising {action : Action} {event : Option Event} {type : EventType} {w w₁ w' : World}
      {tr : List Occasion}
      (hset : ∀ trigger, deviceSet trigger action.device action event w =
        resume trigger action.device w₁ (some type))
      (hraise : Executes rules (.trigger ⟨action.device,type⟩) w₁ tr w') :
      Executes rules (.set action event) w (.exec w action :: tr) w'

/-- What the engine does for a call when `trigger` answers the events it raises. -/
def Call.perform (rules : List Rule) (trigger : Trigger) : Call → World → Option World
  | .trigger event => engineBody rules trigger event
  | .offer n event entries => ruleListForeachEvent trigger n event entries
  | .actions event todo =>
    fun w => todo.foldlM (fun w action => actionExecute trigger action (some event) w) w
  | .set action event => actionExecute trigger action event

section Perform
variable {rules : List Rule} {f : Trigger}

theorem offer_cons (n i : Nat) (event : Event) (rule : Rule) (entries : List (Rule × Nat))
    (w : World) :
    ruleListForeachEvent f n event ((rule,i) :: entries) w =
      (offerRule f n event w (rule,i)).bind (ruleListForeachEvent f n event entries) := rfl

theorem offerRule_passed {n i : Nat} {event : Event} {rule : Rule} {w : World}
    (h : ¬ (rule.event = event ∧
      rule.conditions.all (conditionCheck (w.record (.offered n i event))) = true)) :
    offerRule f n event w (rule,i) = some (w.record (.offered n i event)) := by
  unfold offerRule triggerEventIterCb
  simp only [eventEqual_iff]
  by_cases hevent : rule.event = event
  · rw [if_pos hevent,if_neg (fun hc => h ⟨hevent,hc⟩)]
  · rw [if_neg hevent]

theorem offerRule_fired {n i : Nat} {event : Event} {rule : Rule} {w : World}
    (hevent : rule.event = event)
    (hc : rule.conditions.all (conditionCheck (w.record (.offered n i event))) = true) :
    offerRule f n event w (rule,i) =
      rule.actions.foldlM (fun w action => actionExecute f action (some event) w)
        (w.record (.offered n i event)) := by
  unfold offerRule triggerEventIterCb
  simp only [eventEqual_iff]
  rw [if_pos hevent,if_pos hc]

variable (hf : ∀ event w w', f event w = some w' → ∃ tr, Executes rules (.trigger event) w tr w')
include hf

theorem set_executes (action : Action) (event : Option Event) (w w' : World)
    (h : actionExecute f action event w = some w') :
    ∃ tr, Executes rules (.set action event) w tr w' := by
  obtain ⟨w₁,raised,hresume,-,-⟩ := deviceSet_spec action.device action event w
  rw [actionExecute,hresume] at h
  cases raised with
  | none =>
    cases h
    exact ⟨_,.quiet hresume⟩
  | some type =>
    obtain ⟨tr,htr⟩ := hf _ _ _ h
    exact ⟨_,.raising hresume htr⟩

theorem actions_execute (event : Event) (actions : List Action) (w w' : World)
    (h : actions.foldlM (fun w action => actionExecute f action (some event) w) w = some w') :
    ∃ tr, Executes rules (.actions event actions) w tr w' := by
  induction actions generalizing w with
  | nil =>
    cases h
    exact ⟨_,.executed⟩
  | cons action actions ih =>
    simp only [List.foldlM_cons,Option.bind_eq_bind] at h
    obtain ⟨w₁,haction,hrest⟩ := Option.bind_eq_some_iff.mp h
    obtain ⟨tr₁,htr₁⟩ := set_executes hf action (some event) w w₁ haction
    obtain ⟨tr₂,htr₂⟩ := ih w₁ hrest
    exact ⟨_,.action htr₁ htr₂⟩

theorem offer_executes (n : Nat) (event : Event) (entries : List (Rule × Nat)) (w w' : World)
    (h : ruleListForeachEvent f n event entries w = some w') :
    ∃ tr, Executes rules (.offer n event entries) w tr w' := by
  induction entries generalizing w with
  | nil =>
    cases h
    exact ⟨_,.offered⟩
  | cons entry entries ih =>
    obtain ⟨rule,i⟩ := entry
    rw [offer_cons] at h
    obtain ⟨w₁,hoffer,hrest⟩ := Option.bind_eq_some_iff.mp h
    by_cases hfires : rule.event = event ∧
        rule.conditions.all (conditionCheck (w.record (.offered n i event))) = true
    · rw [offerRule_fired hfires.1 hfires.2] at hoffer
      obtain ⟨tr₁,htr₁⟩ := actions_execute hf event rule.actions _ w₁ hoffer
      obtain ⟨tr₂,htr₂⟩ := ih w₁ hrest
      exact ⟨_,.fired hfires.1 hfires.2 htr₁ htr₂⟩
    · rw [offerRule_passed hfires] at hoffer
      cases hoffer
      obtain ⟨tr,htr⟩ := ih _ hrest
      exact ⟨tr,.passed hfires htr⟩

end Perform

section Exact
variable {rules : List Rule} {w w' : World}

theorem perform_le {f g : Trigger} (h : Fuel.Le f g) (call : Call) (w w' : World)
    (hf : call.perform rules f w = some w') : call.perform rules g w = some w' := by
  cases call with
  | trigger event => exact engineBody_monotone rules f g h event w w' hf
  | offer n event entries =>
    refine Fuel.foldlM_le entries (fun entry _ s s' hs => ?_) w w' hf
    unfold offerRule at hs ⊢
    simp only at hs ⊢
    split at hs
    · rename_i hc
      rw [if_pos hc]
      exact triggerEventIterCb_le h _ _ _ _ hs
    · rename_i hc
      rw [if_neg hc]
      exact hs
  | actions event actions =>
    exact Fuel.foldlM_le actions (fun action _ s s' hs => deviceSet_le h _ _ _ s s' hs) w w' hf
  | set action event => exact deviceSet_le h action.device action event w w' hf

theorem executes_of_perform {call : Call} {fuel : Nat}
    (h : call.perform rules (engineTriggerEvent rules fuel) w = some w') :
    ∃ tr, Executes rules call w tr w' := by
  have hf : ∀ fuel event w w', engineTriggerEvent rules fuel event w = some w' →
      ∃ tr, Executes rules (.trigger event) w tr w' := by
    intro fuel event w w' h
    refine Fuel.run_induct (P := fun event w w' => ∃ tr, Executes rules (.trigger event) w tr w')
      (fun f hf event w w' hw' => ?_) fuel event w w' h
    obtain ⟨tr,htr⟩ := offer_executes hf _ event rules.zipIdx _ w' hw'
    exact ⟨_,.trigger htr⟩
  cases call with
  | trigger event => exact hf (fuel+1) event w w' h
  | offer n event entries => exact offer_executes (hf fuel) n event entries w w' h
  | actions event actions => exact actions_execute (hf fuel) event actions w w' h
  | set action event => exact set_executes (hf fuel) action event w w' h

theorem Executes.perform {call : Call} {tr : List Occasion} (h : Executes rules call w tr w') :
    ∃ fuel, call.perform rules (engineTriggerEvent rules fuel) w = some w' := by
  have hmono : ∀ {m n : Nat}, m ≤ n → ∀ {call : Call} {w w' : World},
      call.perform rules (engineTriggerEvent rules m) w = some w' →
      call.perform rules (engineTriggerEvent rules n) w = some w' :=
    fun hmn => perform_le (Fuel.run_mono (engineBody_monotone rules) hmn) _ _ _
  induction h with
  | trigger _ ih => exact ih
  | offered | executed => exact ⟨0,rfl⟩
  | passed hpassed _ ih =>
    obtain ⟨fuel,hfuel⟩ := ih
    refine ⟨fuel,?_⟩
    rw [Call.perform,offer_cons,offerRule_passed hpassed]
    exact hfuel
  | fired hevent hconditions _ _ ih₁ ih₂ =>
    obtain ⟨m,hm⟩ := ih₁
    obtain ⟨n,hn⟩ := ih₂
    refine ⟨max m n,?_⟩
    rw [Call.perform,offer_cons,offerRule_fired hevent hconditions]
    exact Option.bind_eq_some_iff.mpr
      ⟨_,hmono (Nat.le_max_left m n) hm,hmono (Nat.le_max_right m n) hn⟩
  | action _ _ ih₁ ih₂ =>
    obtain ⟨m,hm⟩ := ih₁
    obtain ⟨n,hn⟩ := ih₂
    refine ⟨max m n,?_⟩
    simp only [Call.perform,List.foldlM_cons,Option.bind_eq_bind]
    exact Option.bind_eq_some_iff.mpr
      ⟨_,hmono (Nat.le_max_left m n) hm,hmono (Nat.le_max_right m n) hn⟩
  | quiet hset => exact ⟨0,hset _⟩
  | raising hset _ ih =>
    obtain ⟨fuel,hfuel⟩ := ih
    exact ⟨fuel+1,(hset _).trans hfuel⟩

/-- The engine returns in `w'` exactly when there is such an execution. -/
theorem dispatches_iff_executes {event : Event} :
    Dispatches rules event w w' ↔ ∃ tr, Executes rules (.trigger event) w tr w' := by
  constructor
  · rintro ⟨fuel,h⟩
    have hperform :
        (Call.trigger event).perform rules (engineTriggerEvent rules fuel) w = some w' :=
      Fuel.run_le_succ (engineBody_monotone rules) fuel event w w' h
    exact executes_of_perform hperform
  · rintro ⟨tr,h⟩
    obtain ⟨fuel,hfuel⟩ := h.perform
    exact ⟨fuel+1,hfuel⟩

theorem set_iff_executes {action : Action} {event : Option Event} :
    (∃ fuel, deviceSet (engineTriggerEvent rules fuel) action.device action event w = some w') ↔
      ∃ tr, Executes rules (.set action event) w tr w' := by
  constructor
  · rintro ⟨fuel,h⟩
    have hperform :
        (Call.set action event).perform rules (engineTriggerEvent rules fuel) w = some w' := h
    exact executes_of_perform hperform
  · rintro ⟨tr,h⟩
    exact h.perform

end Exact

structure Along (J : List Occasion → World → Prop) (acc tr : List Occasion) (w' : World) :
    Prop where
  finish : J (acc ++ tr) w'
  at_ : ∀ before o after, tr = before ++ o :: after → J (acc ++ before) o.world

section Along
variable {J : List Occasion → World → Prop} {acc tr₁ tr₂ : List Occasion} {w₁ w' : World}

theorem Along.nil (h : J acc w') : Along J acc [] w' := ⟨by simpa using h,by simp⟩

theorem Along.cons {o₁ : Occasion} {tr : List Occasion} (hfirst : J acc o₁.world)
    (hrest : Along J (acc ++ [o₁]) tr w') : Along J acc (o₁ :: tr) w' := by
  refine ⟨by simpa using hrest.finish,fun before o after heq => ?_⟩
  cases before with
  | nil =>
    cases heq
    simpa using hfirst
  | cons o₂ before =>
    cases heq
    simpa using hrest.at_ before o after rfl

theorem Along.append (hleft : Along J acc tr₁ w₁) (hright : Along J (acc ++ tr₁) tr₂ w') :
    Along J acc (tr₁ ++ tr₂) w' := by
  refine ⟨by simpa using hright.finish,fun before o after heq => ?_⟩
  rcases List.append_eq_append_iff.mp heq with ⟨mid,hbefore,hmid⟩ | ⟨mid,hbefore,hmid⟩
  · subst hbefore
    simpa using hright.at_ mid o after hmid
  · cases mid with
    | nil =>
      have hmid' : tr₂ = o :: after := by simpa using hmid.symm
      have hbefore' : tr₁ = before := by simpa using hbefore
      subst hbefore'
      simpa using hright.at_ [] o after hmid'
    | cons o' mid =>
      cases hmid
      exact hleft.at_ before o mid hbefore

end Along

/-- What every occasion keeps holds at each occasion of an execution and after it. `J` may
depend on the occasions so far. -/
theorem Executes.keeps {rules : List Rule} (J : List Occasion → World → Prop)
    (ok : World → Action → Prop) (hrecord : ∀ acc w o, J acc w → J acc (w.record o))
    (hraise : ∀ acc w event, J acc w → J (acc ++ [.raise w event]) w)
    (hexec : ∀ acc w action event w₁ raised, J acc w → ok w action →
      (∀ trigger, deviceSet trigger action.device action event w =
        resume trigger action.device w₁ raised) → J (acc ++ [.exec w action]) w₁)
    {call : Call} {w w' : World} {tr : List Occasion} (h : Executes rules call w tr w')
    (acc : List Occasion) (hJ : J acc w) (hok : ∀ v action, .exec v action ∈ tr → ok v action) :
    Along J acc tr w' := by
  induction h generalizing acc with
  | trigger _ ih =>
    exact .cons hJ (ih _ (hrecord _ _ _ (hraise _ _ _ hJ))
      (fun v action hmem => hok v action (List.mem_cons_of_mem _ hmem)))
  | offered | executed => exact .nil hJ
  | passed _ _ ih => exact ih acc (hrecord _ _ _ hJ) hok
  | fired _ _ _ _ ih₁ ih₂ =>
    have h₁ := ih₁ acc (hrecord _ _ _ hJ)
      (fun v action hmem => hok v action (List.mem_append_left _ hmem))
    exact h₁.append (ih₂ _ h₁.finish
      (fun v action hmem => hok v action (List.mem_append_right _ hmem)))
  | action _ _ ih₁ ih₂ =>
    have h₁ := ih₁ acc hJ (fun v action hmem => hok v action (List.mem_append_left _ hmem))
    exact h₁.append (ih₂ _ h₁.finish
      (fun v action hmem => hok v action (List.mem_append_right _ hmem)))
  | quiet hset =>
    have h₁ := hexec acc _ _ _ _ _ hJ (hok _ _ (by simp)) hset
    exact .cons hJ (.nil h₁)
  | raising hset _ ih =>
    have h₁ := hexec acc _ _ _ _ _ hJ (hok _ _ (by simp)) hset
    exact .cons hJ (ih _ h₁ (fun v action hmem => hok v action (List.mem_cons_of_mem _ hmem)))

/-- The callback raises this event in this state: it returns exactly when the engine returns
from it. -/
def Asks {α : Type} (callback : Trigger → Option α) (event : Event) (w : World) : Prop :=
  ∀ trigger, callback trigger = none ↔ trigger event w = none

section Asks
variable {α β : Type} {callback : Trigger → Option α} {event event' : Event} {w v : World}

open Classical in
/-- The engine that does not return from one event in one state. -/
noncomputable def refusing (event : Event) (w : World) : Trigger := fun event' v =>
  if event' = event ∧ v = w then none else some v

theorem refusing_eq_none : refusing event w event' v = none ↔ event' = event ∧ v = w := by
  unfold refusing
  split <;> simp_all

theorem asks_map {f : α → β} :
    Asks (fun trigger => (callback trigger).map f) event w ↔ Asks callback event w := by
  simp [Asks]

theorem asks_trigger :
    Asks (fun trigger => trigger event w) event' v ↔ event' = event ∧ v = w := by
  constructor
  · intro h
    obtain ⟨hevent,hw⟩ := refusing_eq_none.mp ((h (refusing event' v)).mpr
      (refusing_eq_none.mpr ⟨rfl,rfl⟩))
    exact ⟨hevent.symm,hw.symm⟩
  · rintro ⟨rfl,rfl⟩ trigger
    exact Iff.rfl

theorem not_asks_some {a : α} : ¬ Asks (fun _ => some a) event w := by
  intro h
  have := (h (fun _ _ => none)).mpr rfl
  cases this

theorem not_asks_none : ¬ Asks (fun _ => (none : Option α)) event w := by
  intro h
  have := (h (fun _ w => some w)).mp rfl
  cases this

theorem asks_resume {device : DeviceId} {raised : Option EventType} :
    Asks (fun trigger => resume trigger device w raised) event' v ↔
      ∃ type, raised = some type ∧ event' = ⟨device,type⟩ ∧ v = w := by
  cases raised with
  | none => exact iff_of_false not_asks_some (by simp)
  | some type =>
    refine asks_trigger.trans ⟨fun h => ⟨type,rfl,h⟩,?_⟩
    rintro ⟨_,⟨⟩,h⟩
    exact h

theorem resume_unique {device : DeviceId} {w₁ w₂ : World} {raised₁ raised₂ : Option EventType}
    (h : ∀ trigger, resume trigger device w₁ raised₁ = resume trigger device w₂ raised₂) :
    w₁ = w₂ ∧ raised₁ = raised₂ := by
  have hw : w₁ = w₂ := by
    have hquiet := h (fun _ w => some w)
    rw [resume_quiet,resume_quiet] at hquiet
    exact Option.some.inj hquiet
  subst hw
  have hnone := h (fun _ _ => none)
  cases raised₁ with
  | none =>
    cases raised₂ with
    | none => exact ⟨rfl,rfl⟩
    | some type => cases hnone
  | some type =>
    cases raised₂ with
    | none => cases hnone
    | some type' =>
      have hasks : Asks (fun trigger => resume trigger device w₁ (some type)) ⟨device,type'⟩ w₁ :=
        fun trigger => Iff.of_eq (congrArg (· = none) (h trigger))
      obtain ⟨_,⟨⟩,heq,-⟩ := asks_resume.mp hasks
      cases heq
      exact ⟨rfl,rfl⟩

end Asks

end DomoticaEngine
