import DomoticaEngine.Engine

set_option autoImplicit false

namespace DomoticaEngine

/-- Some rule on the event `e` has an action on the device of `e'`, and such an action
may raise `e'`. -/
def Cascades (rules : List Rule) (types : DeviceId → DeviceType) (e e' : Event) : Prop :=
  (∃ rule ∈ rules, rule.event = e ∧ ∃ action ∈ rule.actions, action.device = e'.device) ∧
    (types e'.device).Raises ∧ (e'.type = .set ∨ e'.type = .unset)

def cascadeTargets (rules : List Rule) : List Event :=
  rules.flatMap (fun rule => rule.actions.flatMap (fun action =>
    [⟨action.device,.set⟩,⟨action.device,.unset⟩]))

theorem cascades_target {rules : List Rule} {types : DeviceId → DeviceType} {e e' : Event}
    (h : Cascades rules types e e') : e' ∈ cascadeTargets rules := by
  obtain ⟨⟨rule,hrule,-,action,haction,hdevice⟩,-,htype⟩ := h
  obtain ⟨device,type⟩ := e'
  simp only [cascadeTargets,List.mem_flatMap]
  refine ⟨rule,hrule,action,haction,?_⟩
  simp only at hdevice htype
  subst hdevice
  rcases htype with rfl | rfl <;> simp

def HasTypes (types : DeviceId → DeviceType) (w : World) : Prop :=
  ∀ d, (w.userdata d).deviceType = types d

def Covers (rules : List Rule) (types : DeviceId → DeviceType) (R : Event → Event → Prop) : Prop :=
  ∀ rule ∈ rules, ∀ action ∈ rule.actions, ∀ (event : Option Event) w, HasTypes types w →
    ∃ w₁ raised, (∀ trigger, deviceSet trigger action.device action event w =
        resume trigger action.device w₁ raised) ∧
      ExecFrame action.device w w₁ ∧ ∀ type ∈ raised, R rule.event ⟨action.device,type⟩

theorem cascades_cover (rules : List Rule) (types : DeviceId → DeviceType) :
    Covers rules types (Cascades rules types) := by
  intro rule hrule action haction event w hw
  obtain ⟨w₁,raised,hresume,hframe,hraised⟩ := deviceSet_spec action.device action event w
  refine ⟨w₁,raised,hresume,hframe,fun type htype => ?_⟩
  obtain ⟨hset,hdevice⟩ := hraised type htype
  rw [hw action.device] at hdevice
  exact ⟨⟨rule,hrule,rfl,action,haction,rfl⟩,hdevice,hset⟩

section Step
variable {rules : List Rule} {types : DeviceId → DeviceType} {R : Event → Event → Prop}
  {f : Trigger} {event : Event}

theorem actionExecute_returns (hcover : Covers rules types R)
    (hf : ∀ e', R event e' →
      ∀ w, HasTypes types w → ∃ w', f e' w = some w' ∧ HasTypes types w')
    {rule : Rule} (hrule : rule ∈ rules) (hevent : rule.event = event) {action : Action}
    (haction : action ∈ rule.actions) (w : World) (hw : HasTypes types w) :
    ∃ w', actionExecute f action (some event) w = some w' ∧ HasTypes types w' := by
  obtain ⟨w₁,raised,hresume,hframe,hraised⟩ := hcover rule hrule action haction (some event) w hw
  have hw₁ : HasTypes types w₁ := fun d => (hframe.types d).trans (hw d)
  rw [actionExecute,hresume]
  cases raised with
  | none => exact ⟨w₁,rfl,hw₁⟩
  | some type => exact hf ⟨action.device,type⟩ (hevent ▸ hraised type rfl) w₁ hw₁

theorem engineBody_returns (hcover : Covers rules types R)
    (hf : ∀ e', R event e' →
      ∀ w, HasTypes types w → ∃ w', f e' w = some w' ∧ HasTypes types w')
    (w : World) (hw : HasTypes types w) :
    ∃ w', engineBody rules f event w = some w' ∧ HasTypes types w' := by
  refine Fuel.foldlM_returns _ (fun entry hentry s hs => ?_) _ hw
  obtain ⟨rule,i⟩ := entry
  have hrule : rule ∈ rules := (List.mem_zipIdx' hentry).2 ▸ List.getElem_mem _
  unfold offerRule triggerEventIterCb
  simp only
  split
  · rename_i hevent
    split
    · exact Fuel.foldlM_returns _ (fun action haction t ht =>
        actionExecute_returns hcover hf hrule (eventEqual_iff.mp hevent) haction t ht) _ hs
    · exact ⟨_,rfl,hs⟩
  · exact ⟨_,rfl,hs⟩

/-- Without a cycle in a relation that covers the rules, every dispatch returns. Induction on the
number of events that the relation leads to. -/
theorem covered_returns (hcover : Covers rules types R)
    (htargets : ∀ e e', R e e' → e' ∈ cascadeTargets rules)
    (hacyclic : ∀ e, ¬ Relation.TransGen R e e) (event : Event) (w : World)
    (hw : HasTypes types w) : ∃ w', Dispatches rules event w w' := by
  have hrank : ∀ {e e'}, R e e' → Fuel.reach R e' < Fuel.reach R e := fun h =>
    Fuel.reach_lt _ (List.finite_toSet (cascadeTargets rules)) htargets hacyclic h
  obtain ⟨w',hw',-⟩ := Fuel.returns_of_rank (F := engineBody rules) (Fuel.reach R)
    (HasTypes types)
    (fun f e hf s hs => engineBody_returns hcover (fun e' he' => hf e' (hrank he')) s hs)
    (Fuel.reach R event + 1) event (by omega) w hw
  exact ⟨w',_,hw'⟩

end Step

/-- When the events that rules raise for each other form no cycle, every dispatch
returns, and the number of events a cascade can raise bounds its depth. -/
theorem engineTriggerEvent_returns (rules : List Rule) (event : Event) (w : World)
    (hacyclic : ∀ e, ¬ Relation.TransGen
      (Cascades rules (fun d => (w.userdata d).deviceType)) e e) :
    ∃ w', Dispatches rules event w w' :=
  covered_returns (cascades_cover rules _) (fun _ _ => cascades_target) hacyclic event w
    (fun _ => rfl)

theorem acyclic_of_later {rules : List Rule} {types : DeviceId → DeviceType}
    (h : ∀ rule ∈ rules, ∀ action ∈ rule.actions, rule.event.device < action.device) (e : Event) :
    ¬ Relation.TransGen (Cascades rules types) e e := by
  have hlt : ∀ e', Relation.TransGen (Cascades rules types) e e' → e.device < e'.device := by
    intro e' he'
    induction he' with
    | single hstep =>
      obtain ⟨⟨rule,hrule,rfl,action,haction,hdevice⟩,-⟩ := hstep
      exact hdevice ▸ h rule hrule action haction
    | tail _ hstep ih =>
      obtain ⟨⟨rule,hrule,rfl,action,haction,hdevice⟩,-⟩ := hstep
      exact Nat.lt_trans ih (hdevice ▸ h rule hrule action haction)
  intro he
  exact Nat.lt_irrefl _ (hlt e he)

theorem engineTriggerEvent_returns_chain :
    ∃ w', Dispatches [⟨⟨0,.set⟩,[],[⟨.set,1,[]⟩]⟩,⟨⟨1,.set⟩,[],[⟨.toggle,2,[]⟩]⟩] ⟨0,.set⟩
      (World.start (fun _ => .bool ⟨0⟩)) w' :=
  engineTriggerEvent_returns _ _ _ (acyclic_of_later (by decide))

end DomoticaEngine
