import DomoticaEngine.DeviceParser
import DomoticaEngine.HouseTraces
import DomoticaEngine.Library.Edges

/-!
The events of a BOOL and the changes of its condition.
-/

set_option autoImplicit false

namespace DomoticaEngine
open Edges

section Signal
variable (d : DeviceId)

/-- The truth of CONDITION_SET on the device, as a rule reads it. -/
def conditionSet (w : World) : Bool := conditionCheck w ⟨.set,d⟩

def Occasion.conditionSet (o : Occasion) : Bool := DomoticaEngine.conditionSet d o.world

def Occasion.raisedOn : Occasion → Option EventType
  | .raise _ event => if event.device = d then some event.type else none
  | .exec _ _ => none

def Occasion.executedOn : Occasion → Option ActionType
  | .raise _ _ => none
  | .exec _ action => if action.device = d then some action.type else none

/-- SET is raised where CONDITION_SET has become true, UNSET where it has become false, and
nothing anywhere else. -/
def Changes (s : Bool) (tr : List Occasion) (s' : Bool) : Prop :=
  Marked (Occasion.conditionSet d) (Occasion.raisedOn d) .set .unset s tr s'

def firstCommand (tr : List Occasion) : Option ActionType :=
  (tr.filterMap (Occasion.executedOn d)).find?
    (fun type => type ∈ (deviceTypeInfo .bool).actions)

end Signal

def truth (val : Int) : Bool := val ≠ 0

def undefinedSet (d : DeviceId) (val : Int) (tr : List Occasion) : Prop :=
  val = -1 ∧ firstCommand d tr = some .set

/-- How a BOOL gets from one value to another: its changes are the ones that it raises, unless it
is set without having had a value. -/
structure BoolStretch (d : DeviceId) (val : Int) (tr : List Occasion) (val' : Int) : Prop where
  changes : ¬ undefinedSet d val tr → Changes d (truth val) tr (truth val')
  spoilt : undefinedSet d val tr → ∀ s', ¬ Changes d (truth val) tr s'
  idle : firstCommand d tr = none → val' = val
  value : val = -1 ∨ val = 0 ∨ val = 1 → firstCommand d tr ≠ none → val' = 0 ∨ val' = 1

def BoolSeen (d : DeviceId) (w : World) (tr : List Occasion) (w' : World) : Prop :=
  ∀ val, w.userdata d = .bool ⟨val⟩ → (val = -1 ∨ val = 0 ∨ val = 1) →
    ∃ val', w'.userdata d = .bool ⟨val'⟩ ∧ (val' = -1 ∨ val' = 0 ∨ val' = 1) ∧
      BoolStretch d val tr val'

section Stretches
variable {d : DeviceId} {w w₁ w' : World} {tr tr' : List Occasion} {val val₁ val' : Int}

theorem conditionSet_bool (h : w.userdata d = .bool ⟨val⟩) : conditionSet d w = truth val := by
  simp only [conditionSet,conditionCheck,deviceCheck,h]
  rfl

theorem firstCommand_append (tr tr' : List Occasion) :
    firstCommand d (tr ++ tr') = (firstCommand d tr).or (firstCommand d tr') := by
  simp [firstCommand,List.filterMap_append,List.find?_append]

theorem BoolStretch.refl (d : DeviceId) (val : Int) : BoolStretch d val [] val where
  changes := fun _ => rfl
  spoilt := fun h => by cases h.2
  idle := fun _ => rfl
  value := fun _ h => absurd rfl h

theorem BoolStretch.append (hval : val = -1 ∨ val = 0 ∨ val = 1)
    (hval₁ : val₁ = -1 ∨ val₁ = 0 ∨ val₁ = 1) (h : BoolStretch d val tr val₁)
    (h' : BoolStretch d val₁ tr' val') : BoolStretch d val (tr ++ tr') val' := by
  cases hfirst : firstCommand d tr with
  | none =>
    have hsame := h.idle hfirst
    subst hsame
    have hfirst' : firstCommand d (tr ++ tr') = firstCommand d tr' := by
      rw [firstCommand_append,hfirst]
      rfl
    have hquiet : Changes d (truth val₁) tr (truth val₁) :=
      h.changes (fun hspoilt => by simp [undefinedSet,hfirst] at hspoilt)
    refine ⟨fun hgood => ?_,fun hspoilt s' hchanges => ?_,fun hnone => ?_,fun hval hsome => ?_⟩
    · refine marked_append.mpr ⟨_,hquiet,h'.changes (fun hspoilt => hgood ?_)⟩
      exact ⟨hspoilt.1,hfirst'.trans hspoilt.2⟩
    · obtain ⟨s₁,hfront,hback⟩ := marked_append.mp hchanges
      rw [← hquiet.unique hfront] at hback
      exact h'.spoilt ⟨hspoilt.1,hfirst'.symm.trans hspoilt.2⟩ s' hback
    · exact h'.idle (hfirst'.symm.trans hnone)
    · exact h'.value hval (fun hnone => hsome (hfirst'.trans hnone))
  | some type =>
    have hfirst' : firstCommand d (tr ++ tr') = firstCommand d tr := by
      rw [firstCommand_append,hfirst]
      rfl
    have hvalue : val₁ = 0 ∨ val₁ = 1 := h.value hval (by simp [hfirst])
    refine ⟨fun hgood => ?_,fun hspoilt s' hchanges => ?_,fun hnone => ?_,fun _ _ => ?_⟩
    · refine marked_append.mpr ⟨_,h.changes (fun hspoilt => hgood ?_),
        h'.changes (fun hspoilt => ?_)⟩
      · exact ⟨hspoilt.1,hfirst'.trans hspoilt.2⟩
      · have hundefined := hspoilt.1
        omega
    · obtain ⟨s₁,hfront,-⟩ := marked_append.mp hchanges
      exact h.spoilt ⟨hspoilt.1,hfirst'.symm.trans hspoilt.2⟩ s₁ hfront
    · rw [hfirst',hfirst] at hnone
      cases hnone
    · by_cases hidle : firstCommand d tr' = none
      · rw [h'.idle hidle]
        exact hvalue
      · exact h'.value hval₁ hidle

theorem stretch_other (hdata : w.userdata d = .bool ⟨val⟩) (hdata₁ : w₁.userdata d = .bool ⟨val⟩)
    (htr : ∀ o ∈ tr, (o.world = w ∨ o.world = w₁) ∧ o.raisedOn d = none ∧ o.executedOn d = none) :
    BoolStretch d val tr val := by
  have hfirst : firstCommand d tr = none := by
    have hnone : tr.filterMap (Occasion.executedOn d) = [] :=
      List.filterMap_eq_nil_iff.mpr (fun o ho => (htr o ho).2.2)
    rw [firstCommand,hnone]
    rfl
  have hchanges : Changes d (truth val) tr (truth val) := by
    induction tr with
    | nil => rfl
    | cons o tr ih =>
      obtain ⟨hworld,hraised,-⟩ := htr o (by simp)
      have hlevel : o.conditionSet d = truth val := by
        rcases hworld with h | h
        · exact conditionSet_bool (h ▸ hdata)
        · exact conditionSet_bool (h ▸ hdata₁)
      refine (marked_same hlevel hraised).mpr (ih (fun o ho => htr o (by simp [ho])) ?_)
      have hexecuted := (htr o (by simp)).2.2
      rwa [firstCommand,List.filterMap_cons_none hexecuted] at hfirst
  exact ⟨fun _ => hchanges,fun h => (by simp [undefinedSet,hfirst] at h),fun _ => rfl,
    fun _ h => absurd hfirst h⟩

theorem boolAfter_value (hval : val = -1 ∨ val = 0 ∨ val = 1) {type : ActionType}
    (h : type ∈ (deviceTypeInfo .bool).actions) :
    boolAfter val type = 0 ∨ boolAfter val type = 1 := by
  rw [boolAfter,if_pos h]
  change type ∈ [ActionType.set,.unset,.toggle] at h
  rcases hval with rfl | rfl | rfl <;> cases type <;> simp_all [boolCommand]

def boolRaises (val val' : Int) : Option EventType :=
  if val = val' then none else some (if val' = 1 then .set else .unset)

theorem boolRaises_edge (hval : val = -1 ∨ val = 0 ∨ val = 1) (type : ActionType) :
    boolRaises val (boolAfter val type) =
        edge .set .unset (truth val) (truth (boolAfter val type)) ↔
      ¬ (val = -1 ∧ type = .set) := by
  rcases hval with rfl | rfl | rfl <;> cases type <;> decide

theorem firstCommand_exec {action : Action} (hdevice : action.device = d)
    (raised : Option EventType) :
    firstCommand d (.exec w action :: raisedAt d w₁ raised) =
      if action.type ∈ (deviceTypeInfo .bool).actions then some action.type else none := by
  have hraised : (raisedAt d w₁ raised).filterMap (Occasion.executedOn d) = [] := by
    cases raised <;> rfl
  have hexecuted : Occasion.executedOn d (.exec w action) = some action.type := if_pos hdevice
  rw [firstCommand,List.filterMap_cons_some hexecuted,hraised,List.find?_singleton]
  split <;> simp_all

theorem undefinedSet_exec {action : Action} (hdevice : action.device = d)
    (raised : Option EventType) :
    undefinedSet d val (.exec w action :: raisedAt d w₁ raised) ↔
      val = -1 ∧ action.type = .set := by
  unfold undefinedSet
  rw [firstCommand_exec hdevice]
  refine and_congr_right (fun _ => ?_)
  constructor
  · intro h
    split at h
    · exact Option.some.inj h
    · cases h
  · intro h
    rw [h]
    rfl

theorem changes_exec (hdata : w.userdata d = .bool ⟨val⟩) {action : Action}
    (hdata₁ : w₁.userdata d = .bool ⟨boolAfter val action.type⟩) (s' : Bool) :
    Changes d (truth val) (.exec w action ::
        raisedAt d w₁ (boolRaises val (boolAfter val action.type))) s' ↔
      boolRaises val (boolAfter val action.type) =
          edge .set .unset (truth val) (truth (boolAfter val action.type)) ∧
        s' = truth (boolAfter val action.type) := by
  have hlevel := conditionSet_bool hdata
  have hlevel₁ := conditionSet_bool hdata₁
  unfold Changes
  rw [marked_same (by exact hlevel) rfl]
  cases hraises : boolRaises val (boolAfter val action.type) with
  | none =>
    have hsame : val = boolAfter val action.type := by
      unfold boolRaises at hraises
      split at hraises
      · assumption
      · cases hraises
    rw [← hsame,edge_none]
    simp [raisedAt,Marked]
  | some type =>
    have hmark : Occasion.raisedOn d (.raise w₁ ⟨d,type⟩) = some type := if_pos rfl
    have hafter : Occasion.conditionSet d (.raise w₁ ⟨d,type⟩) =
        truth (boolAfter val action.type) := hlevel₁
    simp only [raisedAt,Marked,hmark,hafter]

theorem stretch_exec (hval : val = -1 ∨ val = 0 ∨ val = 1) (hdata : w.userdata d = .bool ⟨val⟩)
    {action : Action} (hdevice : action.device = d)
    (hdata₁ : w₁.userdata d = .bool ⟨boolAfter val action.type⟩) :
    BoolStretch d val (.exec w action :: raisedAt d w₁ (boolRaises val (boolAfter val action.type)))
      (boolAfter val action.type) := by
  have hfirst : firstCommand d (.exec w action ::
      raisedAt d w₁ (boolRaises val (boolAfter val action.type))) = _ :=
    firstCommand_exec hdevice _
  have hspoilt : undefinedSet d val (.exec w action ::
      raisedAt d w₁ (boolRaises val (boolAfter val action.type))) ↔ _ :=
    undefinedSet_exec hdevice _
  have hchanges := changes_exec hdata hdata₁
  refine ⟨fun hgood => ?_,fun hbad s' h => ?_,fun hidle => ?_,fun hval hcommand => ?_⟩
  · rw [hspoilt] at hgood
    exact (hchanges _).mpr ⟨(boolRaises_edge hval action.type).mpr hgood,rfl⟩
  · exact (boolRaises_edge hval action.type).mp ((hchanges s').mp h).1 (hspoilt.mp hbad)
  · rw [hfirst] at hidle
    by_cases hmask : action.type ∈ (deviceTypeInfo .bool).actions
    · rw [if_pos hmask] at hidle
      cases hidle
    · rw [boolAfter,if_neg hmask]
  · rw [hfirst] at hcommand
    by_cases hmask : action.type ∈ (deviceTypeInfo .bool).actions
    · exact boolAfter_value hval hmask
    · exact absurd (if_neg hmask) hcommand

theorem boolSeen_rule (d : DeviceId) : TraceRule (BoolSeen d) where
  refl := fun w val hdata hval => ⟨val,hdata,hval,.refl d val⟩
  append := by
    intro w w₁ w' tr tr' h h' val hdata hval
    obtain ⟨val₁,hdata₁,hval₁,hstretch⟩ := h val hdata hval
    obtain ⟨val',hdata',hval',hstretch'⟩ := h' val₁ hdata₁ hval₁
    exact ⟨val',hdata',hval',hstretch.append hval hval₁ hstretch'⟩
  record := fun w o val hdata hval => ⟨val,hdata,hval,.refl d val⟩
  set := by
    intro w w₁ action event raised hset val hdata hval
    by_cases hdevice : action.device = d
    · have hresume : ∀ trigger, resume trigger d w₁ raised =
          resume trigger d (if val = boolAfter val action.type then w
            else w.setUserdata d (.bool ⟨boolAfter val action.type⟩))
          (boolRaises val (boolAfter val action.type)) := by
        intro trigger
        rw [← hdevice] at hdata ⊢
        rw [← hset,deviceSet_boolAfter hdata]
        unfold boolRaises
        split <;> rfl
      obtain ⟨rfl,rfl⟩ := resume_unique hresume
      have hdata₁ : (if val = boolAfter val action.type then w
          else w.setUserdata d (.bool ⟨boolAfter val action.type⟩)).userdata d =
            .bool ⟨boolAfter val action.type⟩ := by
        split
        · rename_i hsame
          rw [← hsame]
          exact hdata
        · exact setUserdata_same _ _ _
      refine ⟨_,hdata₁,?_,?_⟩
      · by_cases hmask : action.type ∈ (deviceTypeInfo .bool).actions
        · exact .inr (boolAfter_value hval hmask)
        · rw [boolAfter,if_neg hmask]
          exact hval
      · rw [hdevice]
        exact stretch_exec hval hdata hdevice hdata₁
    · have hdata₁ : w₁.userdata d = .bool ⟨val⟩ :=
        ((deviceSet_frame hset).other d (Ne.symm hdevice)).trans hdata
      refine ⟨val,hdata₁,hval,stretch_other hdata hdata₁ ?_⟩
      intro o ho
      rcases List.mem_cons.mp ho with rfl | ho
      · exact ⟨.inl rfl,rfl,if_neg hdevice⟩
      · cases raised with
        | none => cases ho
        | some type =>
          rw [List.mem_singleton.mp ho]
          exact ⟨.inr rfl,if_neg hdevice,rfl⟩

theorem boolSeen_same (h : w'.userdata d = w.userdata d) : BoolSeen d w [] w' :=
  fun val hdata hval => ⟨val,h.trans hdata,hval,.refl d val⟩

theorem boolSeen_input {rules : List Rule} {input : HouseInput} {house house' : House}
    (h : HouseTraced rules input house tr house') : BoolSeen d house.world tr house'.world := by
  have hrule := boolSeen_rule d
  by_cases hcommand : ∃ action, input = .command action
  · obtain ⟨action,rfl⟩ := hcommand
    obtain ⟨w',hrun,rfl⟩ := h
    obtain ⟨rest,rfl,hrest⟩ := hrule.executes hrun
    exact hrest
  · have hinput : ∀ action, input ≠ .command action := fun action heq => hcommand ⟨action,heq⟩
    rw [houseTraced_callback hinput] at h
    intro val hdata
    cases houseStep_call (d := d) input hinput (.inl (by rw [hdata]; rfl)) with
    | stuck hstuck =>
      simp only [hstuck] at h
      exact absurd h traced_none
    | fires t delay tmr _ htimer =>
      rw [hdata] at htimer
      cases htimer
    | other own hown w₁ raised stopped finish hcall hbefore hafter =>
      simp only [hcall] at h
      obtain ⟨w',rfl,hend⟩ := traced_resume h
      have hfirst : BoolSeen d house.world [] w₁ := boolSeen_same (hbefore.other d hown.symm)
      have hlast : BoolSeen d w' [] (finish w').world :=
        boolSeen_same ((hafter w').other d hown.symm)
      have hmiddle : BoolSeen d w₁ tr w' := by
        cases raised with
        | none =>
          obtain ⟨rfl,rfl⟩ := hend
          exact hrule.refl _
        | some type =>
          obtain ⟨rest,rfl,hrest⟩ := hrule.executes hend
          have hraise : BoolSeen d w₁ [.raise w₁ ⟨own,type⟩] w₁ := by
            intro val hdata hval
            refine ⟨val,hdata,hval,stretch_other hdata hdata (fun o ho => ?_)⟩
            rw [List.mem_singleton.mp ho]
            exact ⟨.inl rfl,if_neg hown,rfl⟩
          exact hrule.append hraise hrest
      simpa using hrule.append (hrule.append hfirst hmiddle) hlast val hdata

end Stretches

/-- The events of the device mean changes of its condition, and alternate. -/
structure EventsMeanChanges (d : DeviceId) (w : World) (tr : List Occasion) (w' : World) :
    Prop where
  changes : Changes d (conditionSet d w) tr (conditionSet d w')
  alternate : List.IsChain (fun x y => x ≠ y) (tr.filterMap (Occasion.raisedOn d))

theorem changes_alternate {d : DeviceId} {s s' : Bool} {tr : List Occasion}
    (h : Changes d s tr s') :
    List.IsChain (fun x y => x ≠ y) (tr.filterMap (Occasion.raisedOn d)) := by
  have hchain := h.alternate (by decide)
  exact hchain.tail

theorem stretch_changes_iff {d : DeviceId} {w w' : World} {tr : List Occasion} {val val' : Int}
    (hdata : w.userdata d = .bool ⟨val⟩) (hdata' : w'.userdata d = .bool ⟨val'⟩)
    (h : BoolStretch d val tr val') :
    EventsMeanChanges d w tr w' ↔ ¬ undefinedSet d val tr := by
  have htruth := conditionSet_bool hdata
  have htruth' := conditionSet_bool hdata'
  constructor
  · rintro ⟨hchanges,-⟩ hspoilt
    rw [htruth] at hchanges
    exact h.spoilt hspoilt _ hchanges
  · intro hgood
    have hchanges : Changes d (conditionSet d w) tr (conditionSet d w') := by
      rw [htruth,htruth']
      exact h.changes hgood
    exact ⟨hchanges,changes_alternate hchanges⟩

theorem boolParser_value (options : List CString) : (boolParser options).val = -1 ∨
    (boolParser options).val = 0 ∨ (boolParser options).val = 1 := by
  unfold boolParser
  simp only
  split
  · simp
  · split <;> simp

theorem boolParser_undefined (options : List CString) : (boolParser options).val = -1 ↔
    options.head? ≠ some "0".toList ∧ options.head? ≠ some "1".toList := by
  unfold boolParser
  by_cases hzero : options.head? = some "0".toList
  · rw [if_pos hzero]
    exact iff_of_false (by decide) (fun h => h.1 hzero)
  · rw [if_neg hzero]
    by_cases hone : options.head? = some "1".toList
    · rw [if_pos hone]
      exact iff_of_false (by decide) (fun h => h.2 hone)
    · rw [if_neg hone]
      exact iff_of_true rfl ⟨hzero,hone⟩

/-- From its declaration on, the events of a BOOL mean changes exactly when the declaration gives
it a value, or the first action that it executes is not SET. -/
theorem bool_changes_iff (rules : List Rule) (d : DeviceId) (options : List CString) (w : World)
    (ct et : DeviceId → SunrisetEvent → Int) (hdata : w.userdata d = .bool (boolParser options))
    {served : List (HouseInput × List Occasion)} {house' : House}
    (hrun : HouseRun rules (House.start w ct et) served house') :
    EventsMeanChanges d (House.start w ct et).world (occasions served) house'.world ↔
      options.head? = some "0".toList ∨ options.head? = some "1".toList ∨
        firstCommand d (occasions served) ≠ some .set := by
  have hrule := boolSeen_rule d
  have hstart : (House.start w ct et).world.userdata d = .bool (boolParser options) := by
    simp [House.start,hdata]
  have hseen : BoolSeen d (House.start w ct et).world (occasions served) house'.world :=
    hrun.composes hrule.refl hrule.append boolSeen_input
  obtain ⟨val',hdata',-,hstretch⟩ := hseen (boolParser options).val hstart
    (boolParser_value options)
  have hiff : EventsMeanChanges d (House.start w ct et).world (occasions served) house'.world ↔
      ¬ undefinedSet d (boolParser options).val (occasions served) :=
    stretch_changes_iff hstart hdata' hstretch
  rw [hiff,undefinedSet,boolParser_undefined]
  tauto

def fanWorld (options : List CString) : World := World.start (fun _ => .bool (boolParser options))

def fanHouse (options : List CString) : House :=
  House.start (fanWorld options) (fun _ _ => 0) (fun _ _ => 0)

theorem fan_set {options : List CString} (hval : (boolParser options).val ≠ 1) :
    ∃ w₁ house', HouseRun [] (fanHouse options)
      [(.command ⟨.set,0,[]⟩,[.exec (fanHouse options).world ⟨.set,0,[]⟩,.raise w₁ ⟨0,.set⟩])]
      house' := by
  have hafter : boolAfter (boolParser options).val .set = 1 := rfl
  have hset : ∀ trigger, deviceSet trigger 0 ⟨.set,0,[]⟩ none (fanHouse options).world =
      resume trigger 0 ((fanHouse options).world.setUserdata 0 (.bool ⟨1⟩)) (some .set) := by
    intro trigger
    have hdata : (fanHouse options).world.userdata 0 = .bool ⟨(boolParser options).val⟩ := rfl
    rw [deviceSet_boolAfter hdata,hafter,if_neg hval]
    rfl
  exact ⟨_,_,.cons ⟨_,.raising hset (.trigger .offered),rfl⟩ .nil⟩

theorem bool_changes_fan : ∃ served house', HouseRun [] (fanHouse ["0".toList]) served house' ∧
    firstCommand 0 (occasions served) = some .set ∧
    EventsMeanChanges 0 (fanHouse ["0".toList]).world (occasions served) house'.world := by
  obtain ⟨w₁,house',hrun⟩ := @fan_set ["0".toList] (by decide)
  exact ⟨_,house',hrun,rfl,(bool_changes_iff [] 0 ["0".toList] (fanWorld ["0".toList]) _ _ rfl
    hrun).mpr (.inl rfl)⟩

/-- A fan that is declared with another word is SET already, and raises SET when it is set. -/
theorem bool_set_again : ∃ served house', HouseRun [] (fanHouse ["off".toList]) served house' ∧
    conditionSet 0 (fanHouse ["off".toList]).world = true ∧
    (occasions served).filterMap (Occasion.raisedOn 0) = [.set] ∧
    ¬ EventsMeanChanges 0 (fanHouse ["off".toList]).world (occasions served) house'.world := by
  obtain ⟨w₁,house',hrun⟩ := @fan_set ["off".toList] (by decide)
  refine ⟨_,house',hrun,rfl,rfl,?_⟩
  have hrule := boolSeen_rule 0
  have hseen := hrun.composes hrule.refl hrule.append boolSeen_input
  obtain ⟨val',hdata',-,hstretch⟩ := hseen (-1) rfl (.inl rfl)
  rw [stretch_changes_iff rfl hdata' hstretch]
  exact not_not.mpr ⟨rfl,rfl⟩

end DomoticaEngine
