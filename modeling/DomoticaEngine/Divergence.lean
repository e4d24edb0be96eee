import DomoticaEngine.Progress

/-!
Rules that call each other without end: events from which the engine never returns.
-/

set_option autoImplicit false

namespace DomoticaEngine

def surelyRaises (types : DeviceId → DeviceType) (events : List Event) (action : Action) : Bool :=
  alwaysRaises (types action.device) action &&
    (actionRaises (types action.device) action).all (fun type => ⟨action.device,type⟩ ∈ events)

def ruleCaught (types : DeviceId → DeviceType) (events : List Event) (rule : Rule) : Bool :=
  rule.conditions.isEmpty && rule.actions.any (surelyRaises types events)

def unguardedCycle (rules : List Rule) (types : DeviceId → DeviceType) (events : List Event) :
    Bool :=
  events.all (fun event => rules.any (fun rule =>
    rule.event = event && ruleCaught types events rule))

def Caught (events : List Event) (w : World) (action : Action) (event : Option Event) : Prop :=
  ∃ w₁ type, (∀ trigger, deviceSet trigger action.device action event w =
    resume trigger action.device w₁ (some type)) ∧ ⟨action.device,type⟩ ∈ events

theorem surelyRaises_caught {types : DeviceId → DeviceType} {events : List Event} {w : World}
    (hw : HasTypes types w) {action : Action} (h : surelyRaises types events action = true)
    (event : Option Event) : Caught events w action event := by
  obtain ⟨halways,hevents⟩ := Bool.and_eq_true_iff.mp h
  obtain ⟨w₁,raised,hset,hmem,hraised⟩ := deviceSet_raised action event w
  rw [hw] at hmem hraised
  obtain ⟨type,rfl⟩ := Option.isSome_iff_exists.mp (hraised halways)
  exact ⟨w₁,type,hset,of_decide_eq_true (List.all_eq_true.mp hevents type (hmem type rfl))⟩

def Call.Endless (types : DeviceId → DeviceType) (events : List Event) : Call → Prop
  | .trigger event => event ∈ events
  | .offer _ event entries =>
    ∃ entry ∈ entries, entry.1.event = event ∧ ruleCaught types events entry.1 = true
  | .actions _ todo => ∃ action ∈ todo, surelyRaises types events action = true
  | .set action _ => surelyRaises types events action = true

section Endless
variable {rules : List Rule} {types : DeviceId → DeviceType} {events : List Event} {w w' : World}

theorem cycle_endless (hcycle : unguardedCycle rules types events = true) {event : Event}
    (hevent : event ∈ events) (n : Nat) :
    (Call.offer n event rules.zipIdx).Endless types events := by
  have hrules := List.all_eq_true.mp hcycle event hevent
  obtain ⟨rule,hrule,hcaught⟩ := List.any_eq_true.mp hrules
  rw [Bool.and_eq_true,decide_eq_true_eq] at hcaught
  obtain ⟨i,hi⟩ := List.getElem?_of_mem hrule
  exact ⟨(rule,i),List.mem_zipIdx_iff_getElem?.mpr hi,hcaught⟩

/-- Induction on the execution: one that comes to an end has no call that is endless. -/
theorem Executes.not_endless (hcycle : unguardedCycle rules types events = true) {call : Call}
    {tr : List Occasion} (h : Executes rules call w tr w') (hw : HasTypes types w) :
    ¬ call.Endless types events := by
  induction h with
  | trigger _ ih =>
    intro hevent
    exact ih (hw.record _) (cycle_endless hcycle hevent _)
  | offered =>
    rintro ⟨entry,hentry,-⟩
    exact List.not_mem_nil hentry
  | passed hpassed _ ih =>
    rintro ⟨entry,hentry,hevent,hcaught⟩
    rcases List.mem_cons.mp hentry with rfl | hentry
    · simp only [ruleCaught,Bool.and_eq_true,List.isEmpty_iff] at hcaught
      exact hpassed ⟨hevent,by rw [hcaught.1]; rfl⟩
    · exact ih (hw.record _) ⟨entry,hentry,hevent,hcaught⟩
  | fired _ _ hactions _ ih₁ ih₂ =>
    rintro ⟨entry,hentry,hevent,hcaught⟩
    rcases List.mem_cons.mp hentry with rfl | hentry
    · simp only [ruleCaught,Bool.and_eq_true] at hcaught
      exact ih₁ (hw.record _) (List.any_eq_true.mp hcaught.2)
    · exact ih₂ ((hw.record _).executes hactions) ⟨entry,hentry,hevent,hcaught⟩
  | executed =>
    rintro ⟨action,haction,-⟩
    exact List.not_mem_nil haction
  | action hset _ ih₁ ih₂ =>
    rintro ⟨action,haction,hsurely⟩
    rcases List.mem_cons.mp haction with rfl | haction
    · exact ih₁ hw hsurely
    · exact ih₂ (hw.executes hset) ⟨action,haction,hsurely⟩
  | quiet hset =>
    intro hsurely
    obtain ⟨w₁,type,hcaught,-⟩ := surelyRaises_caught hw hsurely _
    have hsame := resume_unique (fun trigger => (hset trigger).symm.trans (hcaught trigger))
    cases hsame.2
  | raising hset _ ih =>
    intro hsurely
    obtain ⟨w₂,type,hcaught,hmem⟩ := surelyRaises_caught hw hsurely _
    have hsame := resume_unique (fun trigger => (hset trigger).symm.trans (hcaught trigger))
    cases hsame.2
    exact ih (hw.set hset) hmem

theorem endless_never (hcycle : unguardedCycle rules types events = true) (hw : HasTypes types w)
    {event : Event} (hevent : event ∈ events) : ¬ ∃ w', Dispatches rules event w w' := by
  rintro ⟨w',h⟩
  obtain ⟨tr,htr⟩ := dispatches_iff_executes.mp h
  exact htr.not_endless hcycle hw hevent

end Endless

section Inside
variable {rules : List Rule} {event event' : Event} {w v : World}

theorem perform_mono {m n : Nat} (hmn : m ≤ n) {call : Call} {w w' : World}
    (h : call.perform rules (engineTriggerEvent rules m) w = some w') :
    call.perform rules (engineTriggerEvent rules n) w = some w' :=
  perform_le (Fuel.run_mono (engineBody_monotone rules) hmn) call w w' h

/-- Where the engine returns from an action, it has returned from the event that it asks for. -/
theorem asked_returns {fuel : Nat} {action : Action} {event₁ : Event} {w₁ w' : World}
    (hasks : Asks (fun trigger => actionExecute trigger action (some event) w) event₁ w₁)
    (h : actionExecute (engineTriggerEvent rules fuel) action (some event) w = some w') :
    ∃ w₂, Dispatches rules event₁ w₁ w₂ := by
  cases hinner : engineTriggerEvent rules fuel event₁ w₁ with
  | none =>
    have hnone : actionExecute (engineTriggerEvent rules fuel) action (some event) w = none :=
      (hasks _).mpr hinner
    rw [hnone] at h
    cases h
  | some w₂ => exact ⟨w₂,fuel,hinner⟩

/-- A dispatch returns only when all events return that are raised inside it. Induction on the
depth of the event. -/
theorem Reaches.returns (hreaches : Reaches rules event w event' v)
    (h : ∃ w', Dispatches rules event w w') : ∃ v', Dispatches rules event' v v' := by
  induction hreaches with
  | here => exact h
  | @inside event event₁ event' w w₁ w₂ w₃ v rule i before after action done todo tr₁ tr₂
      hentries hbefore hevent hconditions hactions hdone hasks _ ih =>
    obtain ⟨w',fuel,hfuel⟩ := h
    obtain ⟨m₁,hm₁⟩ := hbefore.perform
    obtain ⟨m₂,hm₂⟩ := hdone.perform
    let fuel' : Nat := max fuel (max m₁ m₂)
    have hrules : (Call.offer w.history.length event rules.zipIdx).perform rules
        (engineTriggerEvent rules fuel') (w.record (.raised w.history.length event)) =
          some w' := by
      have hsucc := Fuel.run_le_succ (engineBody_monotone rules) fuel event w w' hfuel
      have hbody : (Call.trigger event).perform rules (engineTriggerEvent rules fuel) w =
        some w' := hsucc
      exact perform_mono (Nat.le_max_left fuel _) hbody
    have hfirst := perform_mono (show m₁ ≤ fuel' by omega) hm₁
    have hothers := perform_mono (show m₂ ≤ fuel' by omega) hm₂
    simp only [Call.perform,ruleListForeachEvent] at hrules hfirst hothers
    rw [hentries,List.foldlM_append,hfirst] at hrules
    have hrest : ruleListForeachEvent (engineTriggerEvent rules fuel') w.history.length event
        ((rule,i) :: after) w₁ = some w' := hrules
    rw [offer_cons] at hrest
    obtain ⟨w₄,hoffer,-⟩ := Option.bind_eq_some_iff.mp hrest
    rw [offerRule_fired hevent hconditions,hactions,List.foldlM_append,hothers] at hoffer
    have haction : (action :: todo).foldlM (fun w action =>
        actionExecute (engineTriggerEvent rules fuel') action (some event) w) w₂ = some w₄ :=
      hoffer
    rw [List.foldlM_cons] at haction
    obtain ⟨w₅,hw₅,-⟩ := Option.bind_eq_some_iff.mp haction
    exact ih (asked_returns hasks hw₅)

end Inside

section Boot
variable {outside : Surroundings} {files : List (List Char)} {s : Serialisation}
  {file : Option s.File} {devices : List Device} {p p' : Program} {execdir : CString}
  {rules : List Rule} {events : List Event}

/-- A callback that raises an event, also inside the dispatch of another, returns only when the
engine returns from it. -/
theorem raised_returns {input : ProgramInput} {event : Event} {w : World}
    (hraises : ProgramRaises rules p input event w)
    (hstep : ∃ p', ProgramSteps execdir rules input p p') :
    ∃ w', Dispatches rules event w w' := by
  cases hraises with
  | @house input event w hraises =>
    obtain ⟨event₁,w₁,hasks,hreaches⟩ := hraises
    obtain ⟨p',fuel,hfuel⟩ := hstep
    obtain ⟨house,hhouse,-⟩ := Option.map_eq_some_iff.mp hfuel
    refine hreaches.returns ?_
    cases houter : engineTriggerEvent rules fuel event₁ w₁ with
    | none =>
      have hnone : houseStep (engineTriggerEvent rules fuel) input p.house = none :=
        (hasks _).mpr houter
      rw [hnone] at hhouse
      cases hhouse
    | some w₂ => exact ⟨w₂,fuel,houter⟩

/-- With rules that call each other without a guard, the engine hangs: whatever run has led to a
state after a start, a callback in which an event of the cycle is raised never returns. -/
theorem unguarded_hangs (hboots : Boots outside files s file devices p)
    (hcycle : unguardedCycle rules (fun d => (declared devices d).deviceType) events = true)
    (hrun : Relation.ReflTransGen (fun p p' => ∃ input, ProgramSteps execdir rules input p p')
      p p') {input : ProgramInput} {event : Event} {w : World}
    (hraises : ProgramRaises rules p' input event w) (hevent : event ∈ events) :
    ¬ ∃ p'', ProgramSteps execdir rules input p' p'' := by
  intro hstep
  have hinvariant := types_invariant rules (fun d => (declared devices d).deviceType)
  have htypes : HasTypes (fun d => (declared devices d).deviceType) w :=
    (hinvariant.raises ⟨hboots.types hrun,trivial⟩ (fun _ _ => trivial) hraises).types
  exact endless_never hcycle htypes hevent (raised_returns hraises hstep)

def flickeringRules : List Rule :=
  [⟨⟨0,.set⟩,[],[⟨.toggle,0,[]⟩]⟩,⟨⟨0,.unset⟩,[],[⟨.toggle,0,[]⟩]⟩]

theorem unguarded_hangs_switch :
    ∃ p, Boots quietHouse [roomFile] plainSerialisation none roomDevices p ∧
      ¬ ∃ p', ProgramSteps [] flickeringRules (.house (.command ⟨.toggle,0,[]⟩)) p p' := by
  obtain ⟨p,hboots⟩ : ∃ p, Boots quietHouse [roomFile] plainSerialisation none roomDevices p :=
    ⟨_,@Boots.boots quietHouse [roomFile] plainSerialisation none ⟨roomDevices,none⟩ _ _
      (fun _ _ => 0) (fun _ _ => 0) rfl rfl⟩
  have htypes : HasTypes (fun d => (declared roomDevices d).deviceType) p.world :=
    @Boots.types _ _ _ _ _ _ _ [] flickeringRules hboots .refl
  obtain ⟨w₁,type,hcaught,hmem⟩ := @surelyRaises_caught _ [⟨0,.set⟩,⟨0,.unset⟩] _ htypes
    ⟨.toggle,0,[]⟩ (by decide) none
  have hraises : ProgramRaises flickeringRules p (.house (.command ⟨.toggle,0,[]⟩)) ⟨0,type⟩ w₁ :=
    .house ⟨_,_,asks_map.mpr (fun trigger =>
      Iff.of_eq (congrArg (· = none) (hcaught trigger))),.here⟩
  exact ⟨p,hboots,unguarded_hangs hboots (by decide) .refl hraises hmem⟩

end Boot

end DomoticaEngine
