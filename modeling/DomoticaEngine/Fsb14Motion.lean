import DomoticaEngine.DeviceParser
import DomoticaEngine.Library.Runs

/-!
The movements of one FSB14: its condition, its timer and what the rules make of its events.
-/

set_option autoImplicit false

namespace DomoticaEngine

def moving (condition : ConditionType) : Bool := condition = .rising || condition = .descending

structure Motion where
  condition : ConditionType
  locked : Bool
  deriving DecidableEq, Repr

def DeviceFsb14.motion (fsb14 : DeviceFsb14) : Motion := ⟨fsb14.condition,fsb14.locked⟩

def movesTo (data1 : UInt8) : ConditionType :=
  if data1 = 0x01 then .rising else if data1 = 0x02 then .descending else .stopped

def Motion.after (m : Motion) (type : ActionType) : Motion :=
  match type with
  | .lock => { m with locked := true }
  | .unlock => { m with locked := false }
  | type =>
    match fsb14Command m.condition type with
    | none => m
    | some data1 => if m.locked then m else { m with condition := movesTo data1 }

theorem Motion.after_command {m : Motion} {type : ActionType} {data1 : UInt8}
    (h : fsb14Command m.condition type = some data1) :
    m.after type = ⟨if m.locked then m.condition else movesTo data1,m.locked⟩ := by
  unfold Motion.after
  split
  · cases h
  · cases h
  · rw [h]
    obtain ⟨condition,locked⟩ := m
    cases locked <;> rfl

def Motion.afterAll (m : Motion) (actions : List Action) : Motion :=
  actions.foldl (fun m action => m.after action.type) m

section Steps
variable (device : DeviceId)

def HasTimer (w : World) (t : Nat) : Prop :=
  ∃ delay, w.loop.pending t = some ⟨delay,.fsb14Timer,device⟩

def fsb14Act (action : Action) (w : World) : Option World :=
  deviceSet (fun _ w => some w) device action none w

def rulesDo (actions : List Action) : Trigger := fun _ w =>
  actions.foldlM (fun w action => fsb14Act device action w) w

inductive Fsb14Input where
  | act (action : Action)
  | expire (t : Nat) (actions : List Action)

/-- An action, or the expiry of a timer of the device, with the actions that the rules
execute meanwhile. -/
def fsb14Step : Fsb14Input → World → Option World
  | .act action, w => fsb14Act device action w
  | .expire t actions, w =>
    match w.loop.pending t with
    | some ⟨_,.fsb14Timer,d⟩ =>
      if d = device then
        (fsb14TimerCallback (rulesDo device actions) device w).map (fun w =>
          { w with loop := w.loop.stop t })
      else none
    | _ => none

/-- The device moves exactly when it has a timer, which is the one that it remembers, and it
remembers where it goes. -/
structure Fsb14Holds (w : World) (fsb14 : DeviceFsb14) : Prop where
  userdata : w.userdata device = .fsb14 fsb14
  pending : (∃ t, HasTimer device w t) ↔ moving fsb14.condition = true
  timer : ∀ t, HasTimer device w t ↔ fsb14.timer = some t
  rising : fsb14.condition = .rising → fsb14.lastAction = some .up
  descending : fsb14.condition = .descending → fsb14.lastAction = some .down

def Fsb14Invariant (w : World) : Prop := ∃ fsb14, Fsb14Holds device w fsb14

def endedIn (condition : ConditionType) : ConditionType :=
  if condition = .rising then .up else .down

end Steps

/-- A locked device that moves gets no movement action, and what the rules do when a
movement ends does not leave the device moving. -/
def Fsb14Input.safe (input : Fsb14Input) (m : Motion) : Bool :=
  match input with
  | .act action =>
    !(m.locked && moving m.condition && (fsb14Command m.condition action.type).isSome)
  | .expire _ actions => !moving (Motion.afterAll ⟨endedIn m.condition,m.locked⟩ actions).condition

def Fsb14Input.next (input : Fsb14Input) (m : Motion) : Motion :=
  match input with
  | .act action => m.after action.type
  | .expire _ actions => Motion.afterAll ⟨endedIn m.condition,m.locked⟩ actions

def safeRun (inputs : List Fsb14Input) (m : Motion) : Bool :=
  Runs.scan Fsb14Input.safe Fsb14Input.next inputs m

inductive Acted (device : DeviceId) (type : ActionType) (w w' : World)
    (fsb14 fsb14' : DeviceFsb14) : Prop where
  | kept (hcommand : fsb14Command fsb14.condition type = none)
      (htimers : ∀ u, HasTimer device w' u ↔ HasTimer device w u)
      (htimer : fsb14'.timer = fsb14.timer) (hcondition : fsb14'.condition = fsb14.condition)
      (hlast : fsb14'.lastAction = fsb14.lastAction)
  | cancelled (hcommand : (fsb14Command fsb14.condition type).isSome = true)
      (hlocked : fsb14.locked = true)
      (htimers : ∀ u, HasTimer device w' u ↔ HasTimer device w u ∧ fsb14.timer ≠ some u)
      (htimer : fsb14'.timer = none) (hcondition : fsb14'.condition = fsb14.condition)
      (hlast : fsb14'.lastAction = fsb14.lastAction)
  | started (t : Nat) (hlocked : fsb14.locked = false)
      (htimers : ∀ u, HasTimer device w' u ↔ u = t ∨ HasTimer device w u ∧ fsb14.timer ≠ some u)
      (htimer : fsb14'.timer = some t)
      (hcondition : (fsb14'.condition = .rising ∧ fsb14'.lastAction = some .up) ∨
        (fsb14'.condition = .descending ∧ fsb14'.lastAction = some .down))
  | stopped (hlocked : fsb14.locked = false)
      (htimers : ∀ u, HasTimer device w' u ↔ HasTimer device w u ∧ fsb14.timer ≠ some u)
      (htimer : fsb14'.timer = none) (hcondition : fsb14'.condition = .stopped)

section Act
variable {device : DeviceId} {w w' : World} {fsb14 : DeviceFsb14}

theorem setFsb14_userdata (w : World) (device : DeviceId) (fsb14 : DeviceFsb14)
    (loop : EventLoop) : (w.setFsb14 device fsb14 loop).userdata device = .fsb14 fsb14 := by
  simp [World.setFsb14]

theorem cancel_pending (fsb14 : DeviceFsb14) (loop : EventLoop) (u : Nat) :
    (fsb14CancelTimer fsb14 loop).2.pending u =
      if fsb14.timer = some u then none else loop.pending u := by
  unfold fsb14CancelTimer
  cases htimer : fsb14.timer with
  | none => simp
  | some t =>
    simp only [destroy_pending,Option.some.injEq]
    by_cases hu : u = t
    · simp [hu]
    · simp [hu,Ne.symm hu]

theorem cancel_fst (fsb14 : DeviceFsb14) (loop : EventLoop) :
    (fsb14CancelTimer fsb14 loop).1 = { fsb14 with timer := none } := by
  obtain ⟨address,duration,timer,condition,lastAction,locked⟩ := fsb14
  cases timer <;> rfl

theorem hasTimer_congr {w w' : World} (h : ∀ u, w'.loop.pending u = w.loop.pending u) (u : Nat) :
    HasTimer device w' u ↔ HasTimer device w u := by
  simp [HasTimer,h]

theorem cancel_timers {w' : World}
    (h : ∀ u, w'.loop.pending u = (fsb14CancelTimer fsb14 w.loop).2.pending u) (u : Nat) :
    HasTimer device w' u ↔ HasTimer device w u ∧ fsb14.timer ≠ some u := by
  simp only [HasTimer,h,cancel_pending]
  by_cases hu : fsb14.timer = some u <;> simp [hu]

/-- The part after the switch: a locked device only loses its timer. -/
theorem fsb14Exec_acted (device : DeviceId) (w : World) (action : Action) {data1 : UInt8}
    (hcommand : fsb14Command fsb14.condition action.type = some data1) :
    ∃ fsb14', (fsb14Exec device fsb14 data1 action w).userdata device = .fsb14 fsb14' ∧
      fsb14'.locked = fsb14.locked ∧
      (fsb14'.condition = if fsb14.locked then fsb14.condition else movesTo data1) ∧
      Acted device action.type w (fsb14Exec device fsb14 data1 action w) fsb14 fsb14' := by
  have hcancel := cancel_fst fsb14 w.loop
  unfold fsb14Exec
  rcases hresult : fsb14CancelTimer fsb14 w.loop with ⟨cancelled,loop⟩
  rw [hresult] at hcancel
  simp only at hcancel
  subst hcancel
  simp only
  cases hlocked : fsb14.locked with
  | true =>
    simp only [if_true]
    refine ⟨_,setFsb14_userdata _ _ _ _,rfl,rfl,.cancelled (by simp [hcommand]) hlocked ?_
      rfl rfl rfl⟩
    exact cancel_timers (fun u => by rw [hresult]; rfl)
  | false =>
    simp only [Bool.false_eq_true,if_false]
    unfold fsb14Move
    have hstarted : ∀ (w' : World) (timer : Timer), timer.callback = .fsb14Timer →
        timer.arg = device →
        (∀ u, w'.loop.pending u = (euEventTimerCreate loop timer).2.pending u) →
        ∀ u, HasTimer device w' u ↔ u = loop.calls.length ∨
          HasTimer device w u ∧ fsb14.timer ≠ some u := by
      rintro w' ⟨delay,callback,arg⟩ rfl rfl hw' u
      have hcancelled : HasTimer arg { w with loop := loop } u ↔
          HasTimer arg w u ∧ fsb14.timer ≠ some u :=
        cancel_timers (fun u => by rw [hresult]) u
      rw [← hcancelled]
      simp only [HasTimer,hw',create_pending]
      by_cases hu : u = loop.calls.length <;> simp [hu]
    by_cases hrise : data1 = 0x01
    · subst hrise
      exact ⟨_,setFsb14_userdata _ _ _ _,rfl,rfl,.started loop.calls.length hlocked
        (hstarted _ _ rfl rfl (fun _ => rfl)) rfl (.inl ⟨rfl,rfl⟩)⟩
    · by_cases hdescend : data1 = 0x02
      · subst hdescend
        exact ⟨_,setFsb14_userdata _ _ _ _,rfl,rfl,.started loop.calls.length hlocked
          (hstarted _ _ rfl rfl (fun _ => rfl)) rfl (.inr ⟨rfl,rfl⟩)⟩
      · simp only [movesTo,hrise,hdescend,if_false]
        exact ⟨_,setFsb14_userdata _ _ _ _,rfl,rfl,.stopped hlocked
          (cancel_timers (fun u => by rw [hresult]; rfl)) rfl rfl⟩

theorem deviceSet_fsb14 (h : w.userdata device = .fsb14 fsb14) {trigger : Trigger}
    {action : Action} {event : Option Event} :
    deviceSet trigger device action event w = fsb14Act device action w := by
  unfold fsb14Act deviceSet
  simp only [h]

theorem fsb14_actions : (deviceTypeInfo .fsb14).actions =
    [.up,.down,.stop,.toggleUp,.toggleDown,.lock,.unlock] := rfl

theorem fsb14Command_supported {condition : ConditionType} {type : ActionType} {data1 : UInt8}
    (h : fsb14Command condition type = some data1) :
    type ∈ (deviceTypeInfo .fsb14).actions := by
  rw [fsb14_actions]
  cases type <;> simp_all [fsb14Command]

theorem fsb14Act_command (h : w.userdata device = .fsb14 fsb14) {action : Action} {data1 : UInt8}
    (hcommand : fsb14Command fsb14.condition action.type = some data1) :
    fsb14Act device action w = some (fsb14Exec device fsb14 data1 action w) := by
  have hexec : fsb14DeviceExec device fsb14 action w = fsb14Exec device fsb14 data1 action w := by
    unfold fsb14DeviceExec
    split
    · rename_i htype
      simp [htype,fsb14Command] at hcommand
    · rename_i htype
      simp [htype,fsb14Command] at hcommand
    · rw [hcommand]
  have hmem : action.type ∈ (deviceTypeInfo (Userdata.fsb14 fsb14).deviceType).actions :=
    fsb14Command_supported hcommand
  simp only [fsb14Act,deviceSet,h,if_pos hmem,hexec]

theorem fsb14Act_other (h : w.userdata device = .fsb14 fsb14) {action : Action}
    (hcommand : fsb14Command fsb14.condition action.type = none) :
    ∃ locked, fsb14Act device action w =
        some (w.setFsb14 device { fsb14 with locked := locked } w.loop) ∧
      fsb14.motion.after action.type = ⟨fsb14.condition,locked⟩ := by
  have hsame : w.setFsb14 device { fsb14 with locked := fsb14.locked } w.loop = w := by
    simp only [World.setFsb14,World.setUserdata]
    rw [← h,Function.update_eq_self]
  simp only [fsb14Act,deviceSet,h,Userdata.deviceType,fsb14_actions]
  cases htype : action.type with
  | lock => exact ⟨true,by simp [fsb14DeviceExec,htype],rfl⟩
  | unlock => exact ⟨false,by simp [fsb14DeviceExec,htype],rfl⟩
  | set | unset | toggle | dim => exact ⟨fsb14.locked,by simp [hsame],rfl⟩
  | _ => simp [htype,fsb14Command] at hcommand

theorem fsb14Act_acted (h : w.userdata device = .fsb14 fsb14) (action : Action) :
    ∃ w' fsb14', fsb14Act device action w = some w' ∧ w'.userdata device = .fsb14 fsb14' ∧
      fsb14'.motion = fsb14.motion.after action.type ∧
      Acted device action.type w w' fsb14 fsb14' := by
  cases hcommand : fsb14Command fsb14.condition action.type with
  | none =>
    obtain ⟨locked,hact,hafter⟩ := fsb14Act_other h hcommand
    refine ⟨_,_,hact,setFsb14_userdata _ _ _ _,hafter.symm,.kept hcommand ?_ rfl rfl rfl⟩
    exact hasTimer_congr (fun _ => rfl)
  | some data1 =>
    obtain ⟨fsb14',hdata,hlocked,hcondition,hacted⟩ := fsb14Exec_acted device w action hcommand
    refine ⟨_,fsb14',fsb14Act_command h hcommand,hdata,?_,hacted⟩
    rw [Motion.after_command (m := fsb14.motion) hcommand]
    simp only [DeviceFsb14.motion,hlocked,hcondition]
    rfl

end Act

section Invariant
variable {device : DeviceId} {w w' : World} {fsb14 fsb14' : DeviceFsb14}

theorem invariant_iff (h : w.userdata device = .fsb14 fsb14) :
    Fsb14Invariant device w ↔ Fsb14Holds device w fsb14 := by
  constructor
  · rintro ⟨fsb14',hholds⟩
    have hsame := hholds.userdata
    rw [h] at hsame
    cases hsame
    exact hholds
  · exact fun hholds => ⟨fsb14,hholds⟩

theorem holds_still (hdata : w.userdata device = .fsb14 fsb14)
    (hmoving : moving fsb14.condition = false) (htimer : fsb14.timer = none)
    (htimers : ∀ u, ¬ HasTimer device w u) : Fsb14Holds device w fsb14 where
  userdata := hdata
  pending := by simp [hmoving,htimers]
  timer := by simp [htimer,htimers]
  rising := fun h => by simp [moving,h] at hmoving
  descending := fun h => by simp [moving,h] at hmoving

theorem acted_holds_iff {type : ActionType} (h : Fsb14Holds device w fsb14)
    (hdata : w'.userdata device = .fsb14 fsb14') (hacted : Acted device type w w' fsb14 fsb14') :
    Fsb14Holds device w' fsb14' ↔ ¬ (fsb14.locked = true ∧ moving fsb14.condition = true ∧
      (fsb14Command fsb14.condition type).isSome = true) := by
  cases hacted with
  | kept hcommand htimers htimer hcondition hlast =>
    refine iff_of_true ⟨hdata,?_,?_,?_,?_⟩ (by simp [hcommand])
    · simpa [htimers,hcondition] using h.pending
    · simpa [htimers,htimer] using h.timer
    · simpa [hcondition,hlast] using h.rising
    · simpa [hcondition,hlast] using h.descending
  | cancelled hcommand hlocked htimers htimer hcondition hlast =>
    have hnone : ∀ u, ¬ HasTimer device w' u := by
      intro u
      rw [htimers,h.timer]
      exact fun ⟨hsame,hne⟩ => hne hsame
    cases hmoving : moving fsb14.condition with
    | false =>
      refine iff_of_true (holds_still hdata ?_ htimer hnone) (by simp)
      rw [hcondition,hmoving]
    | true =>
      refine iff_of_false (fun hholds => ?_) (by simp [hlocked,hcommand])
      obtain ⟨u,hu⟩ := hholds.pending.mpr (by rw [hcondition,hmoving])
      exact hnone u hu
  | started t hlocked htimers htimer hcondition =>
    have honly : ∀ u, HasTimer device w' u ↔ u = t := by
      intro u
      rw [htimers,h.timer]
      simp
    refine iff_of_true ⟨hdata,?_,?_,?_,?_⟩ (by simp [hlocked])
    · rcases hcondition with ⟨hcondition,-⟩ | ⟨hcondition,-⟩ <;> simp [honly,moving,hcondition]
    · intro u
      rw [honly,htimer,Option.some.injEq,eq_comm]
    · rcases hcondition with ⟨hcondition,hlast⟩ | ⟨hcondition,-⟩ <;> simp [hcondition]
      exact hlast
    · rcases hcondition with ⟨hcondition,-⟩ | ⟨hcondition,hlast⟩ <;> simp [hcondition]
      exact hlast
  | stopped hlocked htimers htimer hcondition =>
    refine iff_of_true (holds_still hdata (by rw [hcondition]; rfl) htimer ?_) (by simp [hlocked])
    intro u
    rw [htimers,h.timer]
    exact fun ⟨hsame,hne⟩ => hne hsame

/-- The device while its timer `t` expires: other timers it remembers, and it remembers none
but `t` unless it moves again. -/
structure Expiring (device : DeviceId) (t : Nat) (w : World) (fsb14 : DeviceFsb14) : Prop where
  userdata : w.userdata device = .fsb14 fsb14
  timers : ∀ u, HasTimer device w u → u = t ∨ fsb14.timer = some u
  still : moving fsb14.condition = false → ∀ u, fsb14.timer = some u → u = t

theorem acted_expiring {t : Nat} {type : ActionType} (h : Expiring device t w fsb14)
    (hdata : w'.userdata device = .fsb14 fsb14') (hacted : Acted device type w w' fsb14 fsb14') :
    Expiring device t w' fsb14' := by
  have hcancelled : (∀ u, HasTimer device w' u ↔ HasTimer device w u ∧ fsb14.timer ≠ some u) →
      fsb14'.timer = none → Expiring device t w' fsb14' := by
    intro htimers htimer
    refine ⟨hdata,fun u hu => ?_,fun _ u hu => by simp [htimer] at hu⟩
    obtain ⟨hold,hne⟩ := (htimers u).mp hu
    exact .inl ((h.timers u hold).resolve_right hne)
  cases hacted with
  | kept _ htimers htimer hcondition _ =>
    refine ⟨hdata,fun u hu => ?_,?_⟩
    · rw [htimer]
      exact h.timers u ((htimers u).mp hu)
    · rw [htimer,hcondition]
      exact h.still
  | cancelled _ _ htimers htimer _ _ => exact hcancelled htimers htimer
  | stopped _ htimers htimer _ => exact hcancelled htimers htimer
  | started t' _ htimers htimer hcondition =>
    refine ⟨hdata,fun u hu => ?_,fun hmoving => ?_⟩
    · rcases (htimers u).mp hu with rfl | ⟨hold,hne⟩
      · exact .inr htimer
      · exact .inl ((h.timers u hold).resolve_right hne)
    · rcases hcondition with ⟨hcondition,-⟩ | ⟨hcondition,-⟩ <;> simp [moving,hcondition] at hmoving

theorem rulesDo_expiring {t : Nat} (h : Expiring device t w fsb14) (event : Event)
    (actions : List Action) :
    ∃ w' fsb14', rulesDo device actions event w = some w' ∧ Expiring device t w' fsb14' ∧
      fsb14'.motion = fsb14.motion.afterAll actions := by
  induction actions generalizing w fsb14 with
  | nil => exact ⟨w,fsb14,rfl,h,rfl⟩
  | cons action actions ih =>
    obtain ⟨w₁,fsb₁,hact,hdata,hmotion,hacted⟩ := fsb14Act_acted h.userdata action
    obtain ⟨w',fsb14',hrest,hexpiring,hafter⟩ := ih (acted_expiring h hdata hacted)
    refine ⟨w',fsb14',?_,hexpiring,?_⟩
    · simp only [rulesDo,List.foldlM_cons,hact]
      exact hrest
    · rw [hafter,hmotion]
      rfl

theorem fsb14TimerCallback_eq (h : Fsb14Holds device w fsb14)
    (hmoving : moving fsb14.condition = true) (actions : List Action) :
    ∃ w₁ event, w₁.loop = w.loop ∧
      w₁.userdata device = .fsb14 { fsb14 with condition := endedIn fsb14.condition } ∧
      fsb14TimerCallback (rulesDo device actions) device w =
        (rulesDo device actions event w₁).map (fun w => w.modifyFsb14 device (fun fsb14 =>
          { fsb14 with lastAction := some .stop, timer := none })) := by
  have hways : fsb14.condition = .rising ∨ fsb14.condition = .descending := by
    simpa [moving] using hmoving
  refine ⟨(w.setUserdata device (.fsb14 { fsb14 with condition := .stopped })).setUserdata device
      (.fsb14 { fsb14 with condition := endedIn fsb14.condition }),
    ⟨device,if fsb14.condition = .rising then .up else .down⟩,rfl,setUserdata_same _ _ _,?_⟩
  unfold fsb14TimerCallback
  rw [modifyFsb14_eq h.userdata,Option.map_eq_bind]
  rcases hways with hcondition | hcondition
  · have hlast := h.rising hcondition
    simp [hcondition,hlast,endedIn,World.modifyFsb14,deviceTriggerEvent,Function.comp_def]
  · have hlast := h.descending hcondition
    simp [hcondition,hlast,endedIn,World.modifyFsb14,deviceTriggerEvent,Function.comp_def]

theorem stop_timers (w : World) (t u : Nat) :
    HasTimer device { w with loop := w.loop.stop t } u ↔ HasTimer device w u ∧ u ≠ t := by
  simp only [HasTimer,stop_pending]
  by_cases hu : u = t <;> simp [hu]

theorem expire_spec (h : Fsb14Holds device w fsb14) {t : Nat} (ht : HasTimer device w t)
    (actions : List Action) :
    ∃ w' fsb14', fsb14Step device (.expire t actions) w = some w' ∧
      w'.userdata device = .fsb14 fsb14' ∧ fsb14'.timer = none ∧
      fsb14'.motion = Motion.afterAll ⟨endedIn fsb14.condition,fsb14.locked⟩ actions ∧
      (moving fsb14'.condition = false → ∀ u, ¬ HasTimer device w' u) := by
  obtain ⟨w₁,event,hloop,hdata₁,hcallback⟩ :=
    fsb14TimerCallback_eq h (h.pending.mp ⟨t,ht⟩) actions
  have htimer := (h.timer t).mp ht
  have hexpiring : Expiring device t w₁ { fsb14 with condition := endedIn fsb14.condition } := by
    refine ⟨hdata₁,fun u hu => .inr ?_,fun _ u hu => ?_⟩
    · refine (h.timer u).mp ?_
      simpa [HasTimer,hloop] using hu
    · exact (Option.some.inj (htimer.symm.trans hu)).symm
  obtain ⟨w₂,fsb₂,hrules,hexpired,hmotion⟩ := rulesDo_expiring hexpiring event actions
  refine ⟨{ w₂.setUserdata device (.fsb14 { fsb₂ with lastAction := some .stop, timer := none })
      with loop := w₂.loop.stop t },{ fsb₂ with lastAction := some .stop, timer := none },
    ?_,setUserdata_same _ _ _,rfl,?_,?_⟩
  · obtain ⟨delay,hpending⟩ := ht
    simp [fsb14Step,hpending,hcallback,hrules,modifyFsb14_eq hexpired.userdata]
  · exact hmotion
  · intro hmoving u hu
    obtain ⟨hold,hne⟩ := (stop_timers (w₂.setUserdata device _) t u).mp hu
    rcases hexpired.timers u hold with heq | hsome
    · exact hne heq
    · exact hne (hexpired.still hmoving u hsome)

/-- One step keeps the invariant exactly when it is a safe one, and then the motion is the
next one. -/
theorem fsb14Step_iff {input : Fsb14Input} (h : Fsb14Holds device w fsb14)
    (hstep : fsb14Step device input w = some w') :
    ∃ fsb14', (Fsb14Invariant device w' ↔ Fsb14Holds device w' fsb14') ∧
      (Fsb14Holds device w' fsb14' ↔ input.safe fsb14.motion = true) ∧
      fsb14'.motion = input.next fsb14.motion := by
  cases input with
  | act action =>
    obtain ⟨w₁,fsb14',hact,hdata,hmotion,hacted⟩ := fsb14Act_acted h.userdata action
    have hsame : w₁ = w' := Option.some.inj (hact.symm.trans hstep)
    subst hsame
    refine ⟨fsb14',invariant_iff hdata,?_,hmotion⟩
    rw [acted_holds_iff h hdata hacted]
    cases hlocked : fsb14.locked <;> cases hmoving : moving fsb14.condition <;>
      simp [Fsb14Input.safe,DeviceFsb14.motion,hlocked,hmoving]
  | expire t actions =>
    have ht : HasTimer device w t := by
      simp only [fsb14Step] at hstep
      split at hstep
      · rename_i delay d hpending
        split at hstep
        · rename_i hd
          exact ⟨delay,hd ▸ hpending⟩
        · cases hstep
      · cases hstep
    obtain ⟨w₁,fsb14',hexpire,hdata,htimer,hmotion,hnone⟩ := expire_spec h ht actions
    have hsame : w₁ = w' := Option.some.inj (hexpire.symm.trans hstep)
    subst hsame
    refine ⟨fsb14',invariant_iff hdata,?_,hmotion⟩
    have hsafe : (Fsb14Input.expire t actions).safe fsb14.motion = !moving fsb14'.condition := by
      rw [show fsb14'.condition = fsb14'.motion.condition from rfl,hmotion]
      rfl
    rw [hsafe,Bool.not_eq_true']
    constructor
    · intro hkept
      cases hmoving : moving fsb14'.condition with
      | false => rfl
      | true =>
        obtain ⟨u,hu⟩ := hkept.pending.mpr hmoving
        have hsome := (hkept.timer u).mp hu
        rw [htimer] at hsome
        cases hsome
    · intro hmoving
      exact holds_still hdata hmoving htimer (hnone hmoving)

theorem motion_iff {inputs : List Fsb14Input} (h : Fsb14Holds device w fsb14)
    (hrun : Runs.after (fsb14Step device) inputs w = some w') :
    Runs.Always (fsb14Step device) (Fsb14Invariant device) inputs w ↔
      safeRun inputs fsb14.motion = true := by
  refine Runs.always_iff (R := fun w m => ∃ fsb14, Fsb14Holds device w fsb14 ∧ fsb14.motion = m)
    (fun w m ⟨fsb14,hholds,_⟩ => ⟨fsb14,hholds⟩) ?_ ⟨fsb14,h,rfl⟩ hrun
  rintro input w w' _ ⟨fsb14,hholds,rfl⟩ hstep
  obtain ⟨fsb14',hinvariant,hsafe,hnext⟩ := fsb14Step_iff hholds hstep
  exact ⟨hinvariant.trans hsafe,fun hkept => ⟨fsb14',hinvariant.mp hkept,hnext⟩⟩

end Invariant

theorem start_holds {device : DeviceId} {userdata : DeviceId → Userdata}
    {options : List CString} {fsb14 : DeviceFsb14}
    (hparse : fsb14DeviceParser options = .ok (some fsb14))
    (hd : userdata device = .fsb14 fsb14) :
    Fsb14Holds device (World.start userdata) fsb14 ∧ fsb14.motion = ⟨.stopped,false⟩ := by
  unfold fsb14DeviceParser at hparse
  split at hparse
  · cases hparse
  · obtain ⟨duration,-,hdata⟩ := bind_eq_ok.mp hparse
    cases hdata
    exact ⟨holds_still hd rfl rfl (fun u ⟨_,hu⟩ => by cases hu),rfl⟩

/-- From a freshly parsed device on, the device, its timer and its fields agree in every state
that a run reaches exactly when every step of the run is safe. -/
theorem fsb14_motion_iff (device : DeviceId) (userdata : DeviceId → Userdata)
    (options : List CString) (fsb14 : DeviceFsb14)
    (hparse : fsb14DeviceParser options = .ok (some fsb14))
    (hd : userdata device = .fsb14 fsb14) (inputs : List Fsb14Input) (w : World)
    (hrun : Runs.after (fsb14Step device) inputs (World.start userdata) = some w) :
    Runs.Always (fsb14Step device) (Fsb14Invariant device) inputs (World.start userdata) ↔
      safeRun inputs ⟨.stopped,false⟩ = true := by
  obtain ⟨hholds,hmotion⟩ := start_holds hparse hd
  rw [motion_iff hholds hrun,hmotion]

def blind : DeviceFsb14 :=
  { address := 1, duration := 30, timer := none, condition := .stopped, lastAction := none,
    locked := false }

def blindOptions : List CString := ["FSB14".toList,"1".toList,"30".toList]

def blindUp : Fsb14Input := .act ⟨.up,0,[]⟩
def blindDown : Fsb14Input := .act ⟨.down,0,[]⟩
def blindLock : Fsb14Input := .act ⟨.lock,0,[]⟩

/-- Up to the end, where a rule locks the blind, which ignores the movement after that. -/
theorem fsb14_motion_blind :
    Runs.Always (fsb14Step 0) (Fsb14Invariant 0) [blindUp,.expire 0 [⟨.lock,0,[]⟩],blindDown]
      (World.start fun _ => .fsb14 blind) :=
  (fsb14_motion_iff 0 (fun _ => .fsb14 blind) blindOptions blind rfl rfl _ _ rfl).mpr rfl

/-- A locked blind that moves loses its timer, and a rule that moves the blind again at the
end of a movement gets a timer that the callback forgets. -/
theorem fsb14_timer_lost :
    fsb14DeviceParser blindOptions = .ok (some blind) ∧
      ¬ Runs.Always (fsb14Step 0) (Fsb14Invariant 0) [blindUp,blindLock,blindDown]
        (World.start fun _ => .fsb14 blind) ∧
      ¬ Runs.Always (fsb14Step 0) (Fsb14Invariant 0) [blindUp,.expire 0 [⟨.down,0,[]⟩]]
        (World.start fun _ => .fsb14 blind) := by
  have hparse : fsb14DeviceParser blindOptions = .ok (some blind) := rfl
  have hholds : Fsb14Holds 0 (World.start fun _ => .fsb14 blind) blind :=
    (start_holds hparse rfl).1
  refine ⟨hparse,?_,?_⟩
  · rw [motion_iff hholds rfl]
    decide
  · rw [motion_iff hholds rfl]
    decide

end DomoticaEngine
