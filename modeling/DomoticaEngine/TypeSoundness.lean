import DomoticaEngine.Outputs
import DomoticaEngine.RemoteServer
import DomoticaEngine.RuleParser

/-!
What the two passes over the rule files check of a rule, and that no run goes beyond it.
-/

set_option autoImplicit false

namespace DomoticaEngine
open Reads

def Supported (devices : List Device) (action : Action) : Prop :=
  ∃ device, devices[action.device]? = some device ∧
    action.type ∈ deviceGetSupportedAction device

structure RuleTyped (devices : List Device) (rule : Rule) : Prop where
  event : rule.event.device < devices.length
  conditions : ∀ condition ∈ rule.conditions, condition.device < devices.length
  actions : ∀ action ∈ rule.actions, Supported devices action

def RulesTyped (devices : List Device) (rules : List Rule) : Prop :=
  ∀ rule ∈ rules, RuleTyped devices rule

section Pass
variable {devices : List Device} {rules : List Rule} {s s' : RuleReader} {ln : Line}

theorem created_supported {device : DeviceId} {type : ActionType} {options : List CString}
    {action : Action} (h : actionCreate devices device type options = .ok (some action)) :
    Supported devices action := by
  unfold actionCreate at h
  cases hdevice : devices[device]? with
  | none => simp [hdevice] at h
  | some d =>
    simp only [hdevice] at h
    split at h
    · rename_i hmask
      split at h
      · cases h
        exact ⟨d,hdevice,hmask⟩
      · cases h
    · cases h

theorem lookup_declared {α : Type} {typeFromChar : CString → Option α} {device : DeviceId}
    {type : α} (h : lineLookup typeFromChar devices ln = some (device,type)) :
    device < devices.length := by
  obtain ⟨d,hd⟩ := lineLookup_device h
  exact (List.getElem?_eq_some_iff.mp hd).1

theorem RulesTyped.update (h : RulesTyped devices rules) {f : Rule → Rule}
    (hf : ∀ rule, RuleTyped devices rule → RuleTyped devices (f rule)) (open_ : Option Nat) :
    RulesTyped devices (ruleUpdate open_ f rules) := by
  cases open_ with
  | none => exact h
  | some i =>
    intro rule hrule
    obtain ⟨k,hk,rfl⟩ := List.getElem_of_mem hrule
    have hlength : k < rules.length := by simpa [ruleUpdate] using hk
    have hold : RuleTyped devices rules[k] := h _ (List.getElem_mem hlength)
    simp only [ruleUpdate,List.getElem_modify]
    split
    · exact hf _ hold
    · exact hold

theorem RulesTyped.addCondition (h : RulesTyped devices rules) {condition : Condition}
    (hcondition : condition.device < devices.length) (open_ : Option Nat) :
    RulesTyped devices (ruleAddCondition open_ condition rules) := by
  refine RulesTyped.update h (f := fun rule => { rule with
    conditions := rule.conditions ++ [condition] }) (fun rule hrule => ?_) open_
  refine ⟨hrule.event,fun c hmem => ?_,hrule.actions⟩
  rcases List.mem_append.mp hmem with hmem | hmem
  · exact hrule.conditions c hmem
  · rw [List.mem_singleton.mp hmem]
    exact hcondition

theorem RulesTyped.addAction (h : RulesTyped devices rules) {action : Action}
    (haction : Supported devices action) (open_ : Option Nat) :
    RulesTyped devices (ruleAddAction open_ (some action) rules) := by
  refine RulesTyped.update h (f := fun rule => { rule with
    actions := rule.actions ++ [action] }) (fun rule hrule => ?_) open_
  refine ⟨hrule.event,hrule.conditions,fun a hmem => ?_⟩
  rcases List.mem_append.mp hmem with hmem | hmem
  · exact hrule.actions a hmem
  · rw [List.mem_singleton.mp hmem]
    exact haction

theorem RulesTyped.statement (h : RulesTyped devices s.rules) {status : Int}
    (hstatement : ruleStatement devices ln s = .ok (status,s')) :
    RulesTyped devices s'.rules := by
  unfold ruleStatement at hstatement
  cases hst : ln.statement with
  | if_ =>
    simp only [hst] at hstatement
    cases hlookup : lineLookup eventTypeFromChar devices ln with
    | none =>
      simp only [hlookup] at hstatement
      cases hstatement
      exact h
    | some found =>
      obtain ⟨device,type⟩ := found
      simp only [hlookup] at hstatement
      cases hstatement
      intro rule hrule
      rcases List.mem_append.mp hrule with hrule | hrule
      · exact h rule hrule
      · rw [List.mem_singleton.mp hrule]
        exact ⟨lookup_declared hlookup,by simp,by simp⟩
  | and_ =>
    simp only [hst] at hstatement
    cases hlookup : lineLookup conditionTypeFromChar devices ln with
    | none =>
      simp only [hlookup] at hstatement
      cases hstatement
      exact h
    | some found =>
      obtain ⟨device,type⟩ := found
      simp only [hlookup] at hstatement
      cases hstatement
      exact h.addCondition (lookup_declared hlookup) s.rule
  | do_ =>
    simp only [hst] at hstatement
    cases hlookup : lineLookup actionTypeFromChar devices ln with
    | none =>
      simp only [hlookup] at hstatement
      cases hstatement
      exact h
    | some found =>
      obtain ⟨device,type⟩ := found
      simp only [hlookup] at hstatement
      obtain ⟨created,hcreate,hstatement⟩ := bind_eq_ok.mp hstatement
      cases hstatement
      cases created with
      | none => exact h
      | some action => exact h.addAction (created_supported hcreate) s.rule
  | _ =>
    simp only [hst] at hstatement
    cases hstatement
    exact h

theorem RulesTyped.line (h : RulesTyped devices s.rules) {strline : CString} {status : Int}
    (hline : ruleLine devices strline s = .ok (status,s')) : RulesTyped devices s'.rules := by
  unfold ruleLine at hline
  cases hparse : lineParse strline with
  | error e => simp [hparse] at hline
  | ok parsed =>
    simp only [hparse] at hline
    cases parsed with
    | none =>
      cases hline
      exact h
    | some ln =>
      simp only at hline
      split at hline
      · cases hline
        exact h
      · exact h.statement hline

theorem readAll_typed {ε α : Type} {read : Read ε α RuleReader} {l : List α} {status : Int}
    (hread : ∀ a (s : RuleReader) status s', read a s = .ok (status,s') →
      RulesTyped devices s.rules → RulesTyped devices s'.rules)
    (h : readAll read l s = .ok (status,s')) (hs : RulesTyped devices s.rules) :
    RulesTyped devices s'.rules := by
  let R : RuleReader → RuleReader → Prop :=
    fun s s' => RulesTyped devices s.rules → RulesTyped devices s'.rules
  have htrans : ∀ {s s' s'' : RuleReader}, R s s' → R s' s'' → R s s'' :=
    fun h h' hs => h' (h hs)
  exact readAll_keeps (R := R) (fun _ => id) htrans hread h hs

/-- Every rule that the second pass has made is typed, also where the pass has failed. -/
theorem rulesReadDir_typed {files : List (List Char)} {status : Int}
    (h : rulesReadDir (rulesReadFileRules devices) files .start = .ok (status,s)) :
    RulesTyped devices s.rules := by
  have hstart : RulesTyped devices RuleReader.start.rules := by simp [RulesTyped,RuleReader.start]
  cases files with
  | nil =>
    cases h
    exact hstart
  | cons file files =>
    refine readAll_typed (fun content s status s' hfile hs => ?_) h hstart
    exact readAll_typed (fun _ _ _ _ hline hs => hs.line hline) hfile hs

theorem Ordered.supported {buf : CString} {action : Action} (h : Ordered devices buf action) :
    Supported devices action := by
  obtain ⟨ln,horders⟩ := h
  exact created_supported horders.created

end Pass

section Runs
variable {devices : List Device} {rules : List Rule} {w : World}

def SupportedIn (w : World) (action : Action) : Prop :=
  action.type ∈ (deviceTypeInfo (w.userdata action.device).deviceType).actions

theorem Supported.here {action : Action} (h : Supported devices action)
    (htypes : HasTypes (fun d => (declared devices d).deviceType) w) : SupportedIn w action := by
  obtain ⟨device,hdevice,hmask⟩ := h
  unfold SupportedIn
  have htype : (w.userdata action.device).deviceType = device.deviceType := by
    have hdeclared := htypes action.device
    simp only [declared_device hdevice,configuration_type] at hdeclared
    exact hdeclared
  rw [htype]
  exact hmask

theorem supported_invariant (htyped : RulesTyped devices rules) :
    RuleInvariant rules (fun d => (declared devices d).deviceType) (fun _ => True)
      SupportedIn where
  action := fun _ _ _ _ => trivial
  own := fun _ _ _ => trivial
  record := fun _ _ => trivial
  loop := fun _ _ => trivial
  queue := fun _ => trivial
  rule := by
    intro rule hrule w hw _ _ done action todo hactions v _ hv _
    have hmem : action ∈ rule.actions := by simp [hactions]
    exact ((htyped rule hrule).actions action hmem).here hv

end Runs

section Boot
variable {outside : Surroundings} {files : List (List Char)} {s : Serialisation}
  {file : Option s.File} {devices : List Device} {p p' : Program} {execdir : CString}
  {r : RuleReader}

/-- With rules that the second pass has accepted, every action that is ever executed, by a rule in
any dispatch of any run or for a command, is one that its device supports: `device_set` never
refuses one. -/
theorem accepted_supported (hboots : Boots outside files s file devices p)
    (hrules : rulesReadDir (rulesReadFileRules devices) files .start = .ok (0,r))
    (hrun : Relation.ReflTransGen (fun p p' => ∃ input, ProgramSteps execdir r.rules input p p')
      p p') {input : ProgramInput}
    (hinput : ∀ action, input = .house (.command action) → ∃ buf, Ordered devices buf action)
    {action : Action} {v : World} (hexecutes : ProgramExecutes r.rules p' input action v) :
    action.type ∈ (deviceTypeInfo (v.userdata action.device).deviceType).actions := by
  have hp' : Outputs (declared devices) p'.world :=
    (@Boots.outputs _ _ _ _ _ _ execdir hboots).run hrun |>.world
  have hholds : Holds (fun d => (declared devices d).deviceType) (fun _ => True) p'.world :=
    ⟨fun d => by rw [← hp'.kept,configuration_type],trivial⟩
  refine ((supported_invariant (rulesReadDir_typed hrules)).program_executes hholds ?_
    hexecutes).2
  intro action hcommand
  obtain ⟨buf,hordered⟩ := hinput action hcommand
  exact hordered.supported.here hholds.types

end Boot

def switchedFile : List Char :=
  "BOOL s 1\nOUTPUT lamp FUD14 2\nIF s UNSET\nDO lamp SET\n".toList

theorem accepted_supported_room :
    ∃ r p v, rulesReadDir (rulesReadFileRules roomDevices) [switchedFile] .start = .ok (0,r) ∧
      Boots quietHouse [switchedFile] plainSerialisation none roomDevices p ∧
      ProgramExecutes r.rules p (.house (.command ⟨.unset,0,[]⟩)) ⟨.set,1,[]⟩ v ∧
      .set ∈ (deviceTypeInfo (v.userdata 1).deviceType).actions := by
  obtain ⟨r,p,v,hrules,hboots,hexecutes⟩ :
      ∃ r p v, rulesReadDir (rulesReadFileRules roomDevices) [switchedFile] .start = .ok (0,r) ∧
        Boots quietHouse [switchedFile] plainSerialisation none roomDevices p ∧
        ProgramExecutes r.rules p (.house (.command ⟨.unset,0,[]⟩)) ⟨.set,1,[]⟩ v :=
    ⟨⟨[⟨⟨0,.unset⟩,[],[⟨.set,1,[]⟩]⟩],some 0,false⟩,_,_,rfl,
      @Boots.boots quietHouse [switchedFile] plainSerialisation none ⟨roomDevices,none⟩ _ _
        (fun _ _ => 0) (fun _ _ => 0) rfl rfl,
      .rule (.house ⟨_,_,asks_map.mpr (asks_trigger.mpr ⟨rfl,rfl⟩),.here⟩)
        (@Performs.performs _ _ _ _ _ _ [] [] _ _
          (@Checks.checks _ _ _ _ 0 [] [] _ _ rfl .offered rfl) rfl rfl .executed)⟩
  refine ⟨r,p,v,hrules,hboots,hexecutes,?_⟩
  have hrun : Relation.ReflTransGen (fun p p' => ∃ input, ProgramSteps [] r.rules input p p')
      p p := .refl
  refine accepted_supported hboots hrules hrun ?_ hexecutes
  intro action hcommand
  cases hcommand
  exact ⟨"DO s UNSET".toList,_,rfl,rfl,rfl,rfl,rfl⟩

end DomoticaEngine
