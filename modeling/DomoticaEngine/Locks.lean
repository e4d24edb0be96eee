import DomoticaEngine.Fsb14Motion
import DomoticaEngine.Program

/-!
The lock of a shutter against the actions that move it, in whole runs of the program.
-/

set_option autoImplicit false

namespace DomoticaEngine

def movementActions : List ActionType := [.up,.down,.stop,.toggle,.toggleUp,.toggleDown]

def lockOf : Userdata → Option Bool
  | .fsb14 fsb14 => some fsb14.locked
  | .veluxKlf200 klf200 => some klf200.locked
  | _ => none

def withLock (locked : Bool) : Userdata → Userdata
  | .fsb14 fsb14 => .fsb14 { fsb14 with locked := locked }
  | .veluxKlf200 klf200 => .veluxKlf200 { klf200 with locked := locked }
  | data => data

def Program.scripts (p : Program) : List Script := p.velux.scripts

/-- An action in the whole program: the devices, the timers and the queue of frames are in the
world, and the worker of the shutters has the scripts. -/
def Program.execute (trigger : Trigger) (action : Action) (event : Option Event) (p : Program) :
    Option Program :=
  (deviceSet trigger action.device action event p.world).map p.setWorld

/-- The action leaves its device as it was, it queues no frame, and whatever the program does next,
it starts the same scripts. -/
structure Refused (action : Action) (p p' : Program) : Prop where
  device : p'.world.userdata action.device = p.world.userdata action.device
  frames : p'.world.eltako = p.world.eltako
  scripts : ∀ execdir trigger inputs,
    (Runs.after (programStep execdir trigger) inputs p').map Program.scripts =
      (Runs.after (programStep execdir trigger) inputs p).map Program.scripts

/-- A locked shutter refuses a movement, and LOCK and UNLOCK write the lock and nothing else. -/
structure LockHolds (action : Action) (p : Program) : Prop where
  refuses : lockOf (p.world.userdata action.device) = some true →
    action.type ∈ movementActions → ∀ trigger event,
      ∃ p', p.execute trigger action event = some p' ∧ Refused action p p'
  sets : lockOf (p.world.userdata action.device) ≠ none →
    action.type = .lock ∨ action.type = .unlock → ∀ trigger event,
      p.execute trigger action event = some (p.setWorld (p.world.setUserdata action.device
        (withLock (action.type = .lock) (p.world.userdata action.device))))

def veluxTarget (type : ActionType) : Int := if type = .down ∨ type = .toggleDown then 1 else 0

/-- The locked shutters that the action leaves alone: an FSB14 without a running timer, or with an
action that it does not support; a VELUX-KLF200 that is already told to go there, or to stop. -/
def LeftAlone (type : ActionType) : Userdata → Prop
  | .fsb14 fsb14 => type = .toggle ∨ fsb14.timer = none
  | .veluxKlf200 klf200 => type = .stop ∨ type = .toggle ∨
      klf200.changed = true ∧ klf200.actualValue = veluxTarget type
  | _ => True

def LockRespected (action : Action) (p : Program) : Prop :=
  lockOf (p.world.userdata action.device) = some true → action.type ∈ movementActions →
    LeftAlone action.type (p.world.userdata action.device)

section Exec
variable {trigger : Trigger} {action : Action} {event : Option Event} {p : Program} {w : World}

theorem fsb14_refuses {fsb14 : DeviceFsb14} (h : w.userdata action.device = .fsb14 fsb14)
    (hlocked : fsb14.locked = true) (htype : action.type ∈ movementActions) :
    ∃ w', fsb14Act action.device action w = some w' ∧
      (w'.userdata action.device = w.userdata action.device →
        LeftAlone action.type (.fsb14 fsb14)) ∧
      (LeftAlone action.type (.fsb14 fsb14) → w' = w) := by
  cases hcommand : fsb14Command fsb14.condition action.type with
  | none =>
    have htoggle : action.type = .toggle := by
      cases hcase : action.type <;> simp_all [fsb14Command,movementActions]
    refine ⟨w,?_,fun _ => .inl htoggle,fun _ => rfl⟩
    simp [fsb14Act,deviceSet,h,Userdata.deviceType,fsb14_actions,htoggle]
  | some data1 =>
    have htoggle : action.type ≠ .toggle := by
      intro htoggle
      simp [htoggle,fsb14Command] at hcommand
    have hexec : fsb14Exec action.device fsb14 data1 action w =
        w.setFsb14 action.device { fsb14 with timer := none }
          (fsb14CancelTimer fsb14 w.loop).2 := by
      unfold fsb14Exec
      simp [cancel_fst,hlocked]
    refine ⟨_,(fsb14Act_command h hcommand).trans (congrArg some hexec),?_,?_⟩
    · intro hsame
      rw [setFsb14_userdata,h,Userdata.fsb14.injEq] at hsame
      exact .inr (by rw [← hsame])
    · intro halone
      have htimer := halone.resolve_left htoggle
      have hcancel : (fsb14CancelTimer fsb14 w.loop).2 = w.loop := by
        unfold fsb14CancelTimer
        rw [htimer]
      have hdata : Userdata.fsb14 { fsb14 with timer := none } = w.userdata action.device := by
        rw [h,← htimer]
      rw [hcancel,World.setFsb14,hdata]
      simp [World.setUserdata]

theorem velux_actions : (deviceTypeInfo .veluxKlf200).actions =
    [.up,.down,.stop,.toggleUp,.toggleDown,.lock,.unlock] := rfl

theorem velux_refuses {klf200 : DeviceVeluxKlf200}
    (h : w.userdata action.device = .veluxKlf200 klf200)
    (htype : action.type ∈ movementActions) :
    ∃ w', (∀ trigger event, deviceSet trigger action.device action event w = some w') ∧
      (w'.userdata action.device = w.userdata action.device →
        LeftAlone action.type (.veluxKlf200 klf200)) ∧
      (LeftAlone action.type (.veluxKlf200 klf200) → w' = w) := by
  simp only [deviceSet,h,Userdata.deviceType,velux_actions]
  by_cases hstill : action.type = .stop ∨ action.type = .toggle
  · refine ⟨w,fun _ _ => ?_,fun _ => hstill.imp_right .inl,fun _ => rfl⟩
    rcases hstill with hstop | htoggle
    · simp [veluxKlf200DeviceExec,hstop]
    · simp [htoggle]
  · obtain ⟨hstop,htoggle⟩ := not_or.mp hstill
    refine ⟨w.setUserdata action.device (.veluxKlf200 { klf200 with
      actualValue := veluxTarget action.type, changed := true }),fun _ _ => ?_,?_,?_⟩
    · cases hcase : action.type <;>
        simp_all [veluxKlf200DeviceExec,veluxTarget,movementActions]
    · intro hsame
      rw [setUserdata_same,Userdata.veluxKlf200.injEq] at hsame
      exact .inr (.inr ⟨by rw [← hsame],by rw [← hsame]⟩)
    · intro halone
      obtain ⟨hchanged,hvalue⟩ := (halone.resolve_left hstop).resolve_left htoggle
      rw [← hchanged,← hvalue,← h]
      simp [World.setUserdata]

theorem lock_sets (hlock : lockOf (w.userdata action.device) ≠ none)
    (htype : action.type = .lock ∨ action.type = .unlock) :
    deviceSet trigger action.device action event w = some (w.setUserdata action.device
      (withLock (action.type = .lock) (w.userdata action.device))) := by
  cases hdata : w.userdata action.device with
  | fsb14 fsb14 =>
    simp only [deviceSet,hdata,Userdata.deviceType,fsb14_actions]
    rcases htype with htype | htype <;> simp [fsb14DeviceExec,htype,withLock,World.setFsb14]
  | veluxKlf200 klf200 =>
    simp only [deviceSet,hdata,Userdata.deviceType,velux_actions]
    rcases htype with htype | htype <;> simp [veluxKlf200DeviceExec,htype,withLock]
  | _ =>
    rw [hdata] at hlock
    exact absurd rfl hlock

theorem locked_refuses (hlocked : lockOf (w.userdata action.device) = some true)
    (htype : action.type ∈ movementActions) :
    ∃ w', (∀ trigger event, deviceSet trigger action.device action event w = some w') ∧
      (w'.userdata action.device = w.userdata action.device →
        LeftAlone action.type (w.userdata action.device)) ∧
      (LeftAlone action.type (w.userdata action.device) → w' = w) := by
  cases hdata : w.userdata action.device with
  | fsb14 fsb14 =>
    rw [hdata] at hlocked
    obtain ⟨w',hact,hleft⟩ := fsb14_refuses hdata (Option.some.inj hlocked) htype
    rw [hdata] at hleft
    exact ⟨w',fun _ _ => (deviceSet_fsb14 hdata).trans hact,hleft⟩
  | veluxKlf200 klf200 =>
    have hrefuses := velux_refuses hdata htype
    rwa [hdata] at hrefuses
  | _ =>
    rw [hdata] at hlocked
    cases hlocked

end Exec

theorem lockHolds_iff (action : Action) (p : Program) :
    LockHolds action p ↔ LockRespected action p := by
  constructor
  · intro h hlocked htype
    obtain ⟨w',hset,hleft,-⟩ := locked_refuses hlocked htype
    obtain ⟨p',hexecute,hrefused⟩ := h.refuses hlocked htype (fun _ w => some w) none
    rw [Program.execute,hset] at hexecute
    cases hexecute
    exact hleft hrefused.device
  · intro h
    refine ⟨fun hlocked htype trigger event => ?_,fun hlock htype trigger event => ?_⟩
    · obtain ⟨w',hset,-,hsame⟩ := locked_refuses hlocked htype
      refine ⟨p,?_,rfl,rfl,fun _ _ _ => rfl⟩
      rw [Program.execute,hset,hsame (h hlocked htype)]
      rfl
    · rw [Program.execute,lock_sets hlock htype]
      rfl

/-- The locks of the shutters hold in a run of the program exactly when no movement reaches a
locked FSB14 with a running timer, or a locked VELUX-KLF200 that would have to move for it. -/
theorem locks_hold_iff (execdir : CString) (rules : List Rule) (inputs : List ProgramInput)
    (p : Program) :
    Runs.During (ProgramSteps execdir rules) (fun input p => ∀ action w,
      ProgramExecutes rules p input action w → LockHolds action (p.setWorld w)) inputs p ↔
    Runs.During (ProgramSteps execdir rules) (fun input p => ∀ action w,
      ProgramExecutes rules p input action w → LockRespected action (p.setWorld w)) inputs p :=
  Runs.during_iff (I := fun _ => True) (fun _ _ _ _ _ => trivial)
    (fun _ _ _ => by simp only [lockHolds_iff]) trivial

def blindInputs : List ProgramInput :=
  [.house (.command ⟨.up,0,[]⟩),.house (.command ⟨.lock,0,[]⟩),.house (.command ⟨.up,0,[]⟩)]

def windowFile : List Char := "OUTPUT window VELUX-KLF200 klf200 velux 1\n".toList

def windowDevices : List Device :=
  [⟨"window".toList,.veluxKlf200 ⟨1,"klf200".toList,"velux".toList,0,false,false⟩⟩]

def windowInputs : List ProgramInput :=
  [.house (.command ⟨.lock,0,[]⟩),.house (.command ⟨.down,0,[]⟩)]

/-- The last command of each run is not refused. -/
theorem locks_leak :
    (∃ p, Boots quietHouse [blindFile] plainSerialisation none blindDevices p ∧
      ¬ Runs.During (ProgramSteps [] []) (fun input p => ∀ action w,
        ProgramExecutes [] p input action w → LockHolds action (p.setWorld w)) blindInputs p) ∧
    ∃ p, Boots quietHouse [windowFile] plainSerialisation none windowDevices p ∧
      ¬ Runs.During (ProgramSteps [] []) (fun input p => ∀ action w,
        ProgramExecutes [] p input action w → LockHolds action (p.setWorld w)) windowInputs p := by
  constructor
  · refine ⟨_,@Boots.boots quietHouse [blindFile] plainSerialisation none ⟨blindDevices,none⟩ _ _
      (fun _ _ => 0) (fun _ _ => 0) rfl rfl,?_⟩
    rintro ⟨-,hrest⟩
    obtain ⟨-,hrest⟩ := hrest _ ⟨0,rfl⟩
    obtain ⟨hlast,-⟩ := hrest _ ⟨0,rfl⟩
    have hheld := (lockHolds_iff _ _).mp (hlast _ _ (.command ⟨.up,0,[]⟩)) rfl (by decide)
    rcases hheld with htype | htimer
    · cases htype
    · cases htimer
  · refine ⟨_,@Boots.boots quietHouse [windowFile] plainSerialisation none ⟨windowDevices,none⟩ _ _
      (fun _ _ => 0) (fun _ _ => 0) rfl rfl,?_⟩
    rintro ⟨-,hrest⟩
    obtain ⟨hlast,-⟩ := hrest _ ⟨0,rfl⟩
    have hheld := (lockHolds_iff _ _).mp (hlast _ _ (.command ⟨.down,0,[]⟩)) rfl (by decide)
    rcases hheld with htype | htype | ⟨hchanged,-⟩
    · cases htype
    · cases htype
    · cases hchanged

end DomoticaEngine
