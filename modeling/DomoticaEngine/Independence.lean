import DomoticaEngine.Engine
import DomoticaEngine.Library.Footprint

/-!
Rules that have nothing to do with each other, in one order and in the other.
-/

set_option autoImplicit false

namespace DomoticaEngine
open Footprint

/-- The devices that the rule can change: those of its actions, and with every device those of
the actions of all rules on its events. -/
inductive Writes (rules : List Rule) (rule : Rule) : DeviceId → Prop where
  | action {action : Action} (h : action ∈ rule.actions) : Writes rules rule action.device
  | cascade {rule' : Rule} {action : Action} (hdevice : Writes rules rule rule'.event.device)
      (hrule : rule' ∈ rules) (h : action ∈ rule'.actions) : Writes rules rule action.device

/-- The devices of the conditions of the rule and of the rules on what it can change. -/
def ReadsFrom (rules : List Rule) (rule : Rule) (d : DeviceId) : Prop :=
  (∃ condition ∈ rule.conditions, condition.device = d) ∨
    ∃ rule' ∈ rules, Writes rules rule rule'.event.device ∧
      ∃ condition ∈ rule'.conditions, condition.device = d

structure Independent (rules : List Rule) (r₁ r₂ : Rule) : Prop where
  writes : ∀ d, Writes rules r₁ d → ¬ Writes rules r₂ d
  reads₂ : ∀ d, Writes rules r₁ d → ¬ ReadsFrom rules r₂ d
  reads₁ : ∀ d, Writes rules r₂ d → ¬ ReadsFrom rules r₁ d

def SwitchesBools (rules : List Rule) (w : World) : Prop :=
  ∀ rule ∈ rules, ∀ action ∈ rule.actions, (w.userdata action.device).deviceType = .bool

abbrev Values := DeviceId → Userdata

def holdsIn (s : Values) (rule : Rule) : Bool :=
  rule.conditions.all (fun condition => conditionCheck (World.start s) condition)

section Bools
variable (trigger : Fuel.Call Event Values)

def boolSet (s : Values) (action : Action) : Option Values :=
  match s action.device with
  | .bool b =>
    if action.type ∈ (deviceTypeInfo .bool).actions then
      let val := boolCommand b action.type
      let s := Function.update s action.device (.bool ⟨val⟩)
      if b.val ≠ val then trigger ⟨action.device,if val = 1 then .set else .unset⟩ s else some s
    else some s
  | _ => some s

def applyRule (s : Values) (rule : Rule) : Option Values :=
  if holdsIn s rule then rule.actions.foldlM (boolSet trigger) s else some s

def offerTo (event : Event) (s : Values) (rule : Rule) : Option Values :=
  if rule.event = event then applyRule trigger s rule else some s

end Bools

/-- The engine on BOOL devices: what is sent, timed and logged is left out. -/
def boolBody (rules : List Rule) : Fuel.Body Event Values := fun trigger event s =>
  rules.foldlM (offerTo trigger event) s

section Simulation
variable {rules : List Rule} {w : World}

def Simulates (rules : List Rule) (f : Trigger) (g : Fuel.Call Event Values) : Prop :=
  ∀ event w, SwitchesBools rules w → (f event w).map World.userdata = g event w.userdata ∧
    ∀ w', f event w = some w' → SwitchesBools rules w'

theorem SwitchesBools.setBool (h : SwitchesBools rules w) (device : DeviceId) (b : BoolT) :
    SwitchesBools rules (w.setUserdata device (.bool b)) := by
  intro rule hrule action haction
  by_cases hdevice : action.device = device
  · rw [hdevice,setUserdata_same]
    rfl
  · rw [setUserdata_other hdevice]
    exact h rule hrule action haction

variable {f : Trigger} {g : Fuel.Call Event Values}

theorem action_simulates (hsim : Simulates rules f g) {rule : Rule} (hrule : rule ∈ rules)
    {action : Action} (haction : action ∈ rule.actions) (event : Option Event) (w : World)
    (hw : SwitchesBools rules w) :
    (actionExecute f action event w).map World.userdata = boolSet g w.userdata action ∧
      ∀ w', actionExecute f action event w = some w' → SwitchesBools rules w' := by
  obtain ⟨b,hdata⟩ : ∃ b, w.userdata action.device = .bool b := by
    have htype := hw rule hrule action haction
    cases hdata : w.userdata action.device with
    | bool b => exact ⟨b,rfl⟩
    | plain type =>
      rw [hdata] at htype
      cases type <;> cases htype
    | _ =>
      rw [hdata] at htype
      cases htype
  have htype : (w.userdata action.device).deviceType = .bool := hw rule hrule action haction
  have hset := hw.setBool action.device ⟨boolCommand b action.type⟩
  unfold actionExecute deviceSet boolSet
  simp only [htype]
  rw [hdata]
  simp only
  by_cases hmask : action.type ∈ (deviceTypeInfo .bool).actions
  · rw [if_pos hmask,if_pos hmask,boolExec]
    by_cases hchanged : b.val ≠ boolCommand b action.type
    · rw [if_pos hchanged,if_pos hchanged]
      exact hsim _ _ hset
    · rw [if_neg hchanged,if_neg hchanged]
      refine ⟨rfl,fun w' hw' => ?_⟩
      cases hw'
      exact hset
  · rw [if_neg hmask,if_neg hmask]
    refine ⟨rfl,fun w' hw' => ?_⟩
    cases hw'
    exact hw

theorem offer_simulates (hsim : Simulates rules f g) (n : Nat) (event : Event)
    {entry : Rule × Nat} (hentry : entry.1 ∈ rules) (w : World) (hw : SwitchesBools rules w) :
    (offerRule f n event w entry).map World.userdata = offerTo g event w.userdata entry.1 ∧
      ∀ w', offerRule f n event w entry = some w' → SwitchesBools rules w' := by
  obtain ⟨rule,i⟩ := entry
  have hskip : (some (w.record (.offered n i event))).map World.userdata = some w.userdata ∧
      ∀ w', some (w.record (.offered n i event)) = some w' → SwitchesBools rules w' := by
    refine ⟨rfl,fun w' hw' => ?_⟩
    cases hw'
    exact hw
  have hconditions : rule.conditions.all (conditionCheck (w.record (.offered n i event))) =
      holdsIn w.userdata rule := rfl
  unfold offerRule offerTo triggerEventIterCb applyRule
  simp only [eventEqual_iff,hconditions]
  by_cases hevent : rule.event = event
  · rw [if_pos hevent,if_pos hevent]
    by_cases hholds : holdsIn w.userdata rule = true
    · rw [if_pos hholds,if_pos hholds]
      exact Fuel.foldlM_map (I := SwitchesBools rules) rule.actions
        (fun action haction w hw => action_simulates hsim hentry haction (some event) w hw) _ hw
    · rw [if_neg hholds,if_neg hholds]
      exact hskip
  · rw [if_neg hevent,if_neg hevent]
    exact hskip

theorem engine_simulates (rules : List Rule) (fuel : Nat) :
    Simulates rules (engineTriggerEvent rules fuel) (Fuel.run (boolBody rules) fuel) := by
  refine fun event w hw => Fuel.run_map (I := SwitchesBools rules)
    (fun f g hsim event w hw => ?_) fuel event w hw
  have hentries : boolBody rules g event w.userdata =
      rules.zipIdx.foldlM (fun s entry => offerTo g event s entry.1) w.userdata := by
    rw [← List.foldlM_map (g := offerTo g event),List.zipIdx_map_fst]
    rfl
  rw [hentries]
  refine Fuel.foldlM_map (I := SwitchesBools rules) rules.zipIdx (fun entry hmem w hw => ?_) _ hw
  exact offer_simulates hsim _ event ((List.mem_zipIdx' hmem).2 ▸ List.getElem_mem _) w hw

/-- On BOOL devices a dispatch does what the engine on BOOL devices does. -/
theorem dispatches_values {event : Event} {s : Values} (hw : SwitchesBools rules w) :
    (∃ w', Dispatches rules event w w' ∧ w'.userdata = s) ↔
      Fuel.Returns (boolBody rules) event w.userdata s := by
  have hmap : ∀ fuel, (engineTriggerEvent rules fuel event w).map World.userdata =
      Fuel.run (boolBody rules) fuel event w.userdata :=
    fun fuel => (engine_simulates rules fuel event w hw).1
  constructor
  · rintro ⟨w',⟨fuel,hfuel⟩,rfl⟩
    exact ⟨fuel,(hmap fuel).symm.trans (congrArg (Option.map World.userdata) hfuel)⟩
  · rintro ⟨fuel,hfuel⟩
    obtain ⟨w',hw',hs⟩ := Option.map_eq_some_iff.mp ((hmap fuel).trans hfuel)
    exact ⟨w',⟨fuel,hw'⟩,hs⟩

end Simulation

section Locality
variable {rules : List Rule} {R W : Set DeviceId}

/-- With a device of `W`, everything that its events can lead to stays in `W` and `R`. -/
def Closed (rules : List Rule) (R W : Set DeviceId) : Prop :=
  ∀ rule ∈ rules, rule.event.device ∈ W →
    (∀ action ∈ rule.actions, action.device ∈ W) ∧
      ∀ condition ∈ rule.conditions, condition.device ∈ R

theorem boolSet_local {g : Fuel.Call Event Values}
    (hg : ∀ event, event.device ∈ W → Local R W (g event)) {action : Action}
    (hdevice : action.device ∈ W) : Local R W (fun s => boolSet g s action) := by
  refine Local.read (f := fun (data : Userdata) (s : Values) =>
    match data with
    | .bool b =>
      if action.type ∈ (deviceTypeInfo .bool).actions then
        let val := boolCommand b action.type
        let s := Function.update s action.device (Userdata.bool ⟨val⟩)
        if b.val ≠ val then g ⟨action.device,if val = 1 then .set else .unset⟩ s else some s
      else some s
    | _ => some s) (.inr hdevice) (fun data => ?_)
  cases data with
  | bool b =>
    have hupdate := Local.update (R := R) hdevice (Userdata.bool ⟨boolCommand b action.type⟩)
    by_cases hmask : action.type ∈ (deviceTypeInfo .bool).actions
    · simp only [if_pos hmask]
      by_cases hchanged : b.val ≠ boolCommand b action.type
      · simp only [if_pos hchanged]
        exact hupdate.bind (hg _ hdevice)
      · simp only [if_neg hchanged]
        exact hupdate
    · simp only [if_neg hmask]
      exact Local.pure
  | _ => exact Local.pure

theorem applyRule_local {g : Fuel.Call Event Values}
    (hg : ∀ event, event.device ∈ W → Local R W (g event)) {rule : Rule}
    (hactions : ∀ action ∈ rule.actions, action.device ∈ W)
    (hconditions : ∀ condition ∈ rule.conditions, condition.device ∈ R) :
    Local R W (fun s => applyRule g s rule) := by
  refine Local.ite (fun s s' heq => ?_) (Local.foldlM rule.actions (fun action haction =>
    boolSet_local hg (hactions action haction))) Local.pure
  have hsame : ∀ condition ∈ rule.conditions, conditionCheck (World.start s) condition =
      conditionCheck (World.start s') condition := fun condition hcondition =>
    deviceCheck_congr (heq (.inl (hconditions condition hcondition))) condition
  unfold holdsIn
  rw [Bool.eq_iff_iff,List.all_eq_true,List.all_eq_true]
  exact forall₂_congr (fun condition hcondition => by rw [hsame condition hcondition])

/-- A dispatch of an event on a device of `W` reads and writes nothing else. -/
theorem boolBody_local (hclosed : Closed rules R W) (fuel : Nat) (event : Event)
    (hevent : event.device ∈ W) : Local R W (Fuel.run (boolBody rules) fuel event) := by
  induction fuel generalizing event with
  | zero => exact ⟨fun _ _ h => (by cases h),fun _ _ _ _ h => (by cases h)⟩
  | succ fuel ih =>
    refine Local.foldlM rules (fun rule hrule => ?_)
    unfold offerTo
    by_cases hmatch : rule.event = event
    · simp only [if_pos hmatch]
      obtain ⟨hactions,hconditions⟩ := hclosed rule hrule (hmatch ▸ hevent)
      exact applyRule_local ih hactions hconditions
    · simp only [if_neg hmatch]
      exact Local.pure

end Locality

section Swap
variable {before after : List Rule} {r₁ r₂ : Rule}

theorem writes_closed (rules : List Rule) (rule : Rule) :
    Closed rules {d | ReadsFrom rules rule d} {d | Writes rules rule d} := by
  intro rule' hmem hdevice
  refine ⟨fun action haction => .cascade hdevice hmem haction,fun condition hcondition => ?_⟩
  exact .inr ⟨rule',hmem,hdevice,condition,hcondition,rfl⟩

theorem applyRule_footprint (rules : List Rule) (rule : Rule) (fuel : Nat) :
    Local {d | ReadsFrom rules rule d} {d | Writes rules rule d}
      (fun s => applyRule (Fuel.run (boolBody rules) fuel) s rule) := by
  refine applyRule_local (fun event => boolBody_local (writes_closed rules rule) fuel event)
    (fun action haction => .action haction) (fun condition hcondition => ?_)
  exact .inl ⟨condition,hcondition,rfl⟩

theorem offers_commute {rules : List Rule} (h : Independent rules r₁ r₂) (fuel : Nat)
    (event : Event) (s : Values) :
    let g := Fuel.run (boolBody rules) fuel
    (offerTo g event s r₁).bind (fun s => offerTo g event s r₂) =
      (offerTo g event s r₂).bind (fun s => offerTo g event s r₁) := by
  intro g
  have h₁ : Disjoint {d | Writes rules r₁ d} ({d | ReadsFrom rules r₂ d} ∪ {d | Writes rules r₂ d})
      := Set.disjoint_left.mpr (fun d hd hother =>
        hother.elim (h.reads₂ d hd) (h.writes d hd))
  have h₂ : Disjoint {d | Writes rules r₂ d} ({d | ReadsFrom rules r₁ d} ∪ {d | Writes rules r₁ d})
      := Set.disjoint_left.mpr (fun d hd hother =>
        hother.elim (h.reads₁ d hd) (fun hd' => h.writes d hd' hd))
  unfold offerTo
  by_cases hevent₁ : r₁.event = event
  · by_cases hevent₂ : r₂.event = event
    · simp only [if_pos hevent₁,if_pos hevent₂]
      exact (applyRule_footprint rules r₁ fuel).comm (applyRule_footprint rules r₂ fuel) h₁ h₂ s
    · simp only [if_neg hevent₂,Option.bind_some,Option.bind_fun_some]
  · simp only [if_neg hevent₁,Option.bind_some,Option.bind_fun_some]

theorem boolBody_adjacent (before after : List Rule) (r₁ r₂ : Rule)
    (g : Fuel.Call Event Values) (event : Event) (s : Values) :
    boolBody (before ++ r₁ :: r₂ :: after) g event s =
      (before.foldlM (offerTo g event) s).bind (fun s =>
        ((offerTo g event s r₁).bind (fun s => offerTo g event s r₂)).bind
          (fun s => after.foldlM (offerTo g event) s)) := by
  unfold boolBody
  simp only [List.foldlM_append,List.foldlM_cons,Option.bind_eq_bind,Option.bind_assoc]

/-- At every depth the two orders do the same. -/
theorem boolBody_swap (h : Independent (before ++ r₁ :: r₂ :: after) r₁ r₂) (fuel : Nat) :
    Fuel.run (boolBody (before ++ r₁ :: r₂ :: after)) fuel =
      Fuel.run (boolBody (before ++ r₂ :: r₁ :: after)) fuel := by
  refine Fuel.run_congr (fun fuel => ?_) fuel
  funext event s
  rw [boolBody_adjacent,boolBody_adjacent]
  congr 1
  funext s'
  rw [offers_commute h fuel event s']

theorem switchesBools_swap {w : World}
    (h : SwitchesBools (before ++ r₁ :: r₂ :: after) w) :
    SwitchesBools (before ++ r₂ :: r₁ :: after) w := by
  intro rule hrule
  have hperm : (before ++ r₂ :: r₁ :: after).Perm (before ++ r₁ :: r₂ :: after) :=
    (List.Perm.swap r₁ r₂ after).append_left before
  exact h rule (hperm.mem_iff.mp hrule)

end Swap

/-- Two rules next to each other that have nothing to do with each other can change places. -/
theorem independent_rules_swap (before after : List Rule) (r₁ r₂ : Rule) (event : Event)
    (w : World) (hbools : SwitchesBools (before ++ r₁ :: r₂ :: after) w)
    (hindependent : Independent (before ++ r₁ :: r₂ :: after) r₁ r₂) :
    ((∃ w', Dispatches (before ++ r₂ :: r₁ :: after) event w w') ↔
      ∃ w', Dispatches (before ++ r₁ :: r₂ :: after) event w w') ∧
    ∀ w₁ w₂, Dispatches (before ++ r₁ :: r₂ :: after) event w w₁ →
      Dispatches (before ++ r₂ :: r₁ :: after) event w w₂ → w₂.userdata = w₁.userdata := by
  have hvalues : ∀ s, (∃ w', Dispatches (before ++ r₂ :: r₁ :: after) event w w' ∧
      w'.userdata = s) ↔
        ∃ w', Dispatches (before ++ r₁ :: r₂ :: after) event w w' ∧ w'.userdata = s := by
    intro s
    rw [dispatches_values hbools,dispatches_values (switchesBools_swap hbools)]
    unfold Fuel.Returns
    simp only [boolBody_swap hindependent]
  constructor
  · constructor
    · rintro ⟨w',h⟩
      obtain ⟨w₁,h₁,-⟩ := (hvalues w'.userdata).mp ⟨w',h,rfl⟩
      exact ⟨w₁,h₁⟩
    · rintro ⟨w',h⟩
      obtain ⟨w₁,h₁,-⟩ := (hvalues w'.userdata).mpr ⟨w',h,rfl⟩
      exact ⟨w₁,h₁⟩
  · intro w₁ w₂ h₁ h₂
    obtain ⟨w₃,h₃,hsame⟩ := (hvalues w₁.userdata).mpr ⟨w₁,h₁,rfl⟩
    rw [Dispatches.unique h₂ h₃,hsame]

def buttonLamp : Rule := ⟨⟨0,.press⟩,[],[⟨.set,1,[]⟩]⟩
def buttonFan : Rule := ⟨⟨0,.press⟩,[],[⟨.toggle,2,[]⟩]⟩
def lampPorch : Rule := ⟨⟨1,.set⟩,[⟨.unset,3⟩],[⟨.set,3,[]⟩]⟩

def porchWorld : World := World.start (fun d => if d = 0 then .plain .gpi else .bool ⟨0⟩)

theorem buttonLamp_writes {d : DeviceId}
    (h : Writes [buttonLamp,buttonFan,lampPorch] buttonLamp d) : d = 1 ∨ d = 3 := by
  induction h with
  | action h =>
    cases List.mem_singleton.mp h
    exact .inl rfl
  | cascade _ hrule h ih =>
    simp only [List.mem_cons,List.not_mem_nil,or_false] at hrule
    rcases hrule with rfl | rfl | rfl
    · rcases ih with ih | ih <;> cases ih
    · rcases ih with ih | ih <;> cases ih
    · cases List.mem_singleton.mp h
      exact .inr rfl

theorem buttonFan_writes {d : DeviceId}
    (h : Writes [buttonLamp,buttonFan,lampPorch] buttonFan d) : d = 2 := by
  induction h with
  | action h =>
    cases List.mem_singleton.mp h
    rfl
  | cascade _ hrule h ih =>
    simp only [List.mem_cons,List.not_mem_nil,or_false] at hrule
    rcases hrule with rfl | rfl | rfl <;> cases ih

theorem button_independent :
    Independent ([] ++ buttonLamp :: buttonFan :: [lampPorch]) buttonLamp buttonFan := by
  have hrules : ∀ rule ∈ [buttonLamp,buttonFan,lampPorch], ∀ condition ∈ rule.conditions,
      condition.device = 3 ∧ rule.event.device = 1 := by decide
  constructor
  · intro d h₁ h₂
    rcases buttonLamp_writes h₁ with rfl | rfl <;> cases buttonFan_writes h₂
  · rintro d h₁ (⟨condition,hmem,-⟩ | ⟨rule,hrule,hdevice,condition,hmem,-⟩)
    · cases hmem
    · rw [(hrules rule hrule condition hmem).2] at hdevice
      cases buttonFan_writes hdevice
  · rintro d h₂ (⟨condition,hmem,-⟩ | ⟨rule,hrule,-,condition,hmem,rfl⟩)
    · cases hmem
    · rw [(hrules rule hrule condition hmem).1] at h₂
      cases buttonFan_writes h₂

theorem independent_rules_swap_button :
    ∃ w', Dispatches [buttonFan,buttonLamp,lampPorch] ⟨0,.press⟩ porchWorld w' ∧
      w'.userdata 2 = .bool ⟨1⟩ ∧ w'.userdata 3 = .bool ⟨1⟩ := by
  have hbools : SwitchesBools [buttonLamp,buttonFan,lampPorch] porchWorld := by
    intro rule hrule action haction
    have hdevices : ∀ rule ∈ [buttonLamp,buttonFan,lampPorch], ∀ action ∈ rule.actions,
        action.device ≠ 0 := by decide
    simp [porchWorld,World.start,hdevices rule hrule action haction,Userdata.deviceType]
  have hgiven : (engineTriggerEvent [buttonLamp,buttonFan,lampPorch] 3 ⟨0,.press⟩ porchWorld).map
      (fun w => (w.userdata 2,w.userdata 3)) = some (.bool ⟨1⟩,.bool ⟨1⟩) := by decide +kernel
  obtain ⟨w₁,hw₁,hvalues⟩ := Option.map_eq_some_iff.mp hgiven
  obtain ⟨hfan,hporch⟩ := Prod.mk.inj hvalues
  obtain ⟨hreturns,hsame⟩ := independent_rules_swap [] [lampPorch] buttonLamp buttonFan ⟨0,.press⟩
    porchWorld hbools button_independent
  obtain ⟨w₂,hw₂⟩ := hreturns.mpr ⟨w₁,3,hw₁⟩
  have huserdata := hsame w₁ w₂ ⟨3,hw₁⟩ hw₂
  exact ⟨w₂,hw₂,by rw [huserdata,hfan],by rw [huserdata,hporch]⟩

end DomoticaEngine
