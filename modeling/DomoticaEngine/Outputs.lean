import DomoticaEngine.FrameAgreement
import DomoticaEngine.RuleInvariants

/-!
What the program tells the outside: frames for the actuators, levels for the pins, commands for the
shutters.
-/

set_option autoImplicit false

namespace DomoticaEngine

/-- The data of a device without what changes while the program runs. -/
def configuration : Userdata → Userdata
  | .bool _ => .bool ⟨0⟩
  | .fsr14 fsr14 => .fsr14 { fsr14 with val := 0 }
  | .fud14 fud14 => .fud14 { fud14 with dimValue := 0, dimDirection := 0 }
  | .fsb14 fsb14 =>
    .fsb14 { fsb14 with timer := none, condition := .stopped, lastAction := none, locked := false }
  | .timer tmr => .timer { tmr with timer := none }
  | .gpo gpio => .gpo { gpio with value := false }
  | .veluxKlf200 klf200 =>
    .veluxKlf200 { klf200 with actualValue := 0, changed := false, locked := false }
  | .schedule schedule => .schedule (schedule.setCondition .unset)
  | .sunriset _ => .sunriset ⟨false,false,false,false⟩
  | .plain type => .plain type

/-- The frames for a device: an FSR14 is switched, an FUD14 gets a level, an FSB14 is told to open,
to close or to stop. -/
def FrameOf : Userdata → EltakoMessage → Prop
  | .fsr14 fsr14, msg => ∃ state, (state = 0x08 ∨ state = 0x09) ∧
      msg = .message 0 0x07 [state,0x00,0x00,0x01] fsr14.address 0
  | .fud14 fud14, msg => ∃ event value, msg = .dimmer fud14.address event value 1 false
  | .fsb14 fsb14, msg => ∃ data1 data2, (data1 = 0x00 ∨ data1 = 0x01 ∨ data1 = 0x02) ∧
      msg = .message 0 0x07 [0x08,data1,data2,0x00] fsb14.address 0
  | _, _ => False

def PinOf : Userdata → Int → Prop
  | .gpo gpio, pin => pin = gpio.pin
  | _, _ => False

def CommandOf (execdir : CString) : Userdata → CString → Prop
  | .veluxKlf200 klf200, command =>
    command = veluxCommand execdir klf200 0 ∨ command = veluxCommand execdir klf200 100
  | _, _ => False

section Configuration
variable {data data' : Userdata}

theorem configuration_type (data : Userdata) :
    (configuration data).deviceType = data.deviceType := by
  cases data <;> rfl

theorem frameOf_configuration (data : Userdata) :
    FrameOf (configuration data) = FrameOf data := by
  cases data <;> rfl

theorem pinOf_configuration (data : Userdata) : PinOf (configuration data) = PinOf data := by
  cases data <;> rfl

theorem commandOf_configuration (execdir : CString) (data : Userdata) :
    CommandOf execdir (configuration data) = CommandOf execdir data := by
  cases data <;> rfl

theorem own_configuration (h : OwnUpdate data data') :
    configuration data' = configuration data := by
  cases h <;> rfl

theorem restore_configuration {state : VariantMap} (h : deviceRestore data state = .ok data') :
    configuration data' = configuration data := by
  cases data with
  | bool b =>
    obtain ⟨b',-,rfl⟩ := except_map_ok h
    rfl
  | fsr14 fsr14 =>
    obtain ⟨fsr14',hfsr14,rfl⟩ := except_map_ok h
    obtain ⟨v,-,rfl⟩ := except_map_ok hfsr14
    rfl
  | fud14 fud14 =>
    obtain ⟨fud14',hfud14,rfl⟩ := except_map_ok h
    obtain ⟨v,-,rfl⟩ := except_map_ok hfud14
    rfl
  | fsb14 fsb14 =>
    obtain ⟨fsb14',hfsb14,rfl⟩ := except_map_ok h
    obtain ⟨locked,-,hrest⟩ := bind_eq_ok.mp hfsb14
    obtain ⟨value,-,hsame⟩ := bind_eq_ok.mp hrest
    cases hsame
    rfl
  | veluxKlf200 klf200 =>
    obtain ⟨klf200',hklf200,rfl⟩ := except_map_ok h
    unfold veluxKlf200DeviceRestore at hklf200
    split at hklf200
    · obtain ⟨v,-,rfl⟩ := except_map_ok hklf200
      rfl
    · cases hklf200
      rfl
  | _ =>
    cases h
    rfl

end Configuration

structure ActionOutputs (action : Action) (w w' : World) : Prop where
  kept : ∀ d, configuration (w'.userdata d) = configuration (w.userdata d)
  frames : ∀ msg ∈ w'.frames, msg ∈ w.frames ∨ FrameOf (w.userdata action.device) msg
  pins : ∀ write ∈ w'.pins, write ∈ w.pins ∨ PinOf (w.userdata action.device) write.1

section Exec
variable {w w₁ : World} {action : Action}

theorem ActionOutputs.refl (action : Action) (w : World) : ActionOutputs action w w :=
  ⟨fun _ => rfl,fun _ => .inl,fun _ => .inl⟩

theorem ActionOutputs.set {data : Userdata} (hu : w₁.userdata = w.userdata)
    (hframes : w₁.frames = w.frames) (hpins : w₁.pins = w.pins)
    (hdata : configuration data = configuration (w.userdata action.device)) :
    ActionOutputs action w (w₁.setUserdata action.device data) := by
  refine ⟨fun d => ?_,fun msg hmsg => .inl ?_,fun write hwrite => .inl ?_⟩
  · by_cases hd : d = action.device
    · rw [hd,setUserdata_same,hdata]
    · rw [setUserdata_other hd,hu]
  · rwa [frames_setUserdata,hframes] at hmsg
  · exact hpins ▸ hwrite

theorem ActionOutputs.send {msg : EltakoMessage} (h : ActionOutputs action w w₁)
    (hmsg : FrameOf (w.userdata action.device) msg) : ActionOutputs action w (w₁.send msg) := by
  refine ⟨h.kept,fun msg' hmem => ?_,h.pins⟩
  rw [frames_send] at hmem
  rcases List.mem_append.mp hmem with hmem | hmem
  · exact h.frames msg' hmem
  · rw [List.mem_singleton.mp hmem]
    exact .inr hmsg

theorem fsr14_outputs {fsr14 : DeviceFsr14} (hdata : w.userdata action.device = .fsr14 fsr14)
    (h : fsr14DeviceExec untriggered action.device fsr14 action w = some w₁) :
    ActionOutputs action w w₁ := by
  unfold fsr14DeviceExec at h
  cases hcommand : fsr14Command fsr14 action with
  | none =>
    simp only [hcommand] at h
    cases h
    exact .refl action w
  | some command =>
    simp only [hcommand,deviceTriggerEvent,untriggered] at h
    cases h
    refine .send (.set rfl rfl rfl (by rw [hdata]; rfl)) ?_
    rw [hdata]
    refine ⟨command.2,?_,rfl⟩
    unfold fsr14Command at hcommand
    cases htype : action.type <;> simp only [htype,Option.some.injEq,reduceCtorEq] at hcommand
    · exact .inr (congrArg Prod.snd hcommand).symm
    · exact .inl (congrArg Prod.snd hcommand).symm
    · rw [← congrArg Prod.snd hcommand]
      by_cases hval : fsr14.val = 0
      · exact .inr (by simp only [hval,ne_eq,not_true,if_false]; decide)
      · exact .inl (by simp only [hval,ne_eq,not_false_eq_true,if_true]; decide)

theorem fud14Dim_configuration (fud14 : DeviceFud14) :
    configuration (.fud14 (fud14Dim fud14)) = configuration (.fud14 fud14) := by
  unfold fud14Dim
  simp only
  split <;> split <;> split <;> rfl

theorem fud14Command_outputs {fud14 fud14' : DeviceFud14} {msg : EltakoMessage}
    (h : fud14Command fud14 action = some (fud14',msg)) :
    configuration (.fud14 fud14') = configuration (.fud14 fud14) ∧ FrameOf (.fud14 fud14) msg := by
  unfold fud14Command at h
  cases htype : action.type <;>
    simp only [htype,Option.some.injEq,Prod.mk.injEq,reduceCtorEq] at h
  case dim =>
    obtain ⟨rfl,rfl⟩ := h
    exact ⟨fud14Dim_configuration fud14,_,_,rfl⟩
  all_goals
    obtain ⟨rfl,rfl⟩ := h
    exact ⟨rfl,_,_,rfl⟩

theorem fud14_outputs {fud14 : DeviceFud14} (hdata : w.userdata action.device = .fud14 fud14)
    (h : fud14DeviceExec untriggered action.device fud14 action w = some w₁) :
    ActionOutputs action w w₁ := by
  unfold fud14DeviceExec at h
  cases hcommand : fud14Command fud14 action with
  | none =>
    simp only [hcommand] at h
    cases h
    exact .refl action w
  | some command =>
    obtain ⟨fud14',msg⟩ := command
    obtain ⟨hconfiguration,hmsg⟩ := fud14Command_outputs hcommand
    simp only [hcommand,deviceTriggerEvent,untriggered] at h
    cases h
    refine .send (.set rfl rfl rfl (by rw [hdata]; exact hconfiguration)) ?_
    rw [hdata]
    exact hmsg

theorem timer_outputs {tmr : Tmr} (hdata : w.userdata action.device = .timer tmr) :
    ActionOutputs action w (timerDeviceExec action.device tmr action w) := by
  have hset : ∀ timer, configuration (.timer { tmr with timer := timer }) =
      configuration (w.userdata action.device) := by
    intro timer
    rw [hdata]
    rfl
  unfold timerDeviceExec
  cases tmr.timer <;> cases action.type <;>
    first | exact .refl action w | exact .set rfl rfl rfl (hset _)

theorem gpo_outputs {gpio : Gpio} (hdata : w.userdata action.device = .gpo gpio) :
    ActionOutputs action w (gpioOutputExec action.device gpio action w) := by
  have hwrite : ∀ value : Bool, ActionOutputs action w
      ({ w with pins := w.pins ++ [(gpio.pin,value)] }.setUserdata action.device
        (.gpo { gpio with value := value })) := by
    intro value
    have hset : ActionOutputs action w
        (w.setUserdata action.device (.gpo { gpio with value := value })) :=
      .set rfl rfl rfl (by rw [hdata]; rfl)
    refine ⟨hset.kept,hset.frames,fun write hmem => ?_⟩
    rcases List.mem_append.mp hmem with hmem | hmem
    · exact .inl hmem
    · rw [List.mem_singleton.mp hmem,hdata]
      exact .inr rfl
  unfold gpioOutputExec
  cases action.type <;> first | exact .refl action w | exact hwrite _

theorem velux_outputs {klf200 : DeviceVeluxKlf200}
    (hdata : w.userdata action.device = .veluxKlf200 klf200) :
    ActionOutputs action w (veluxKlf200DeviceExec action.device klf200 action w) := by
  have hset : ∀ value changed locked, configuration (.veluxKlf200
      { klf200 with actualValue := value, changed := changed, locked := locked }) =
      configuration (w.userdata action.device) := by
    intro value changed locked
    rw [hdata]
    rfl
  unfold veluxKlf200DeviceExec
  cases action.type <;> first | exact .refl action w | exact .set rfl rfl rfl (hset _ _ _)

theorem fsb14CancelTimer_configuration (fsb14 : DeviceFsb14) (loop : EventLoop) :
    configuration (.fsb14 (fsb14CancelTimer fsb14 loop).1) = configuration (.fsb14 fsb14) := by
  unfold fsb14CancelTimer
  split <;> rfl

theorem fsb14Move_configuration (device : DeviceId) (fsb14 : DeviceFsb14) (data1 : UInt8)
    (loop : EventLoop) :
    configuration (.fsb14 (fsb14Move device fsb14 data1 loop).1) =
      configuration (.fsb14 fsb14) := by
  unfold fsb14Move
  simp only
  split
  · rfl
  · split <;> rfl

theorem fsb14Command_data {condition : ConditionType} {type : ActionType} {data1 : UInt8}
    (h : fsb14Command condition type = some data1) :
    data1 = 0x00 ∨ data1 = 0x01 ∨ data1 = 0x02 := by
  cases type <;> cases condition <;> simp [fsb14Command] at h <;> simp [← h]

theorem fsb14_outputs {fsb14 : DeviceFsb14} (hdata : w.userdata action.device = .fsb14 fsb14) :
    ActionOutputs action w (fsb14DeviceExec action.device fsb14 action w) := by
  have hset : ∀ (fsb14' : DeviceFsb14) (loop : EventLoop),
      configuration (.fsb14 fsb14') = configuration (.fsb14 fsb14) →
      ActionOutputs action w (w.setFsb14 action.device fsb14' loop) :=
    fun fsb14' loop hsame => .set rfl rfl rfl (by rw [hdata]; exact hsame)
  unfold fsb14DeviceExec
  split
  · exact hset _ _ rfl
  · exact hset _ _ rfl
  · cases hcommand : fsb14Command fsb14.condition action.type with
    | none => exact .refl action w
    | some data1 =>
      have hcancel := fsb14CancelTimer_configuration fsb14 w.loop
      have hmove := (fsb14Move_configuration action.device (fsb14CancelTimer fsb14 w.loop).1 data1
        (fsb14CancelTimer fsb14 w.loop).2).trans hcancel
      unfold fsb14Exec
      simp only
      split
      · exact hset _ _ hcancel
      · refine (hset _ _ hmove).send ?_
        rw [hdata,← frameOf_configuration,← hmove,frameOf_configuration]
        exact ⟨data1,_,fsb14Command_data hcommand,rfl⟩

theorem deviceSet_outputs {event : Option Event}
    (h : deviceSet untriggered action.device action event w = some w₁) :
    ActionOutputs action w w₁ := by
  unfold deviceSet at h
  simp only at h
  split at h
  · cases hdata : w.userdata action.device with
    | bool b =>
      simp only [hdata,boolExec,deviceTriggerEvent,untriggered,ite_self] at h
      cases h
      exact .set rfl rfl rfl (by rw [hdata]; rfl)
    | fsr14 fsr14 =>
      simp only [hdata] at h
      exact fsr14_outputs hdata h
    | fud14 fud14 =>
      simp only [hdata] at h
      exact fud14_outputs hdata h
    | fsb14 fsb14 =>
      simp only [hdata] at h
      cases h
      exact fsb14_outputs hdata
    | timer tmr =>
      simp only [hdata] at h
      cases h
      exact timer_outputs hdata
    | gpo gpio =>
      simp only [hdata] at h
      cases h
      exact gpo_outputs hdata
    | veluxKlf200 klf200 =>
      simp only [hdata] at h
      cases h
      exact velux_outputs hdata
    | schedule schedule | sunriset sr | plain type =>
      simp only [hdata] at h
      cases h
      exact .refl action w
  · cases h
    exact .refl action w

end Exec

/-- The devices are configured as in `conf`, and everything that went outside is for one of them. -/
structure Outputs (conf : DeviceId → Userdata) (w : World) : Prop where
  kept : ∀ d, configuration (w.userdata d) = conf d
  frames : ∀ msg ∈ w.frames, ∃ d, FrameOf (conf d) msg
  pins : ∀ write ∈ w.pins, ∃ d, PinOf (conf d) write.1

section Invariant
variable {conf : DeviceId → Userdata} {w w₁ : World}

theorem Outputs.action (h : Outputs conf w) {action : Action}
    (houtputs : ActionOutputs action w w₁) : Outputs conf w₁ := by
  refine ⟨fun d => (houtputs.kept d).trans (h.kept d),fun msg hmsg => ?_,fun write hwrite => ?_⟩
  · rcases houtputs.frames msg hmsg with hold | hnew
    · exact h.frames msg hold
    · refine ⟨action.device,?_⟩
      rwa [← h.kept,frameOf_configuration]
  · rcases houtputs.pins write hwrite with hold | hnew
    · exact h.pins write hold
    · refine ⟨action.device,?_⟩
      rwa [← h.kept,pinOf_configuration]

theorem Outputs.own (h : Outputs conf w) {d : DeviceId} {data : Userdata}
    (hown : OwnUpdate (w.userdata d) data) : Outputs conf (w.setUserdata d data) := by
  refine ⟨fun d' => ?_,h.frames,h.pins⟩
  by_cases hd : d' = d
  · rw [hd,setUserdata_same,own_configuration hown,h.kept]
  · rw [setUserdata_other hd,h.kept]

theorem Outputs.queue (h : Outputs conf w) :
    Outputs conf { w with eltako := eltakoCheckSendQueue w.eltako } := by
  refine ⟨h.kept,fun msg hmsg => h.frames msg ?_,h.pins⟩
  have hkeeps := eltakoCheckSendQueue_keeps w.eltako
  rw [World.frames,← hkeeps]
  exact hmsg

theorem outputs_invariant (rules : List Rule) (types : DeviceId → DeviceType) :
    RuleInvariant rules types (Outputs conf) (fun _ _ => True) where
  action := fun _ h _ hset => h.action (deviceSet_outputs (deviceSet_quiet hset))
  own := fun _ h hown => h.own hown
  record := fun _ h => ⟨h.kept,h.frames,h.pins⟩
  loop := fun _ h => ⟨h.kept,h.frames,h.pins⟩
  queue := Outputs.queue
  rule := fun _ _ _ _ _ _ _ _ _ _ _ _ _ _ => trivial

end Invariant

def ScriptsFor (execdir : CString) (conf : DeviceId → Userdata) (s : VeluxState) : Prop :=
  ∀ script ∈ s.scripts, ∃ d, CommandOf execdir (conf d) script.command

section Scripts
variable {execdir : CString} {conf : DeviceId → Userdata} {s s' : VeluxState}

theorem pclose_commands {scripts : List Script} {i : Nat} {script : Script}
    (h : script ∈ pclose scripts i) : ∃ old ∈ scripts, script.command = old.command := by
  obtain ⟨k,hk,rfl⟩ := List.getElem_of_mem h
  have hlength : k < scripts.length := by simpa [pclose] using hk
  refine ⟨scripts[k],List.getElem_mem _,?_⟩
  simp only [pclose,List.getElem_modify]
  split <;> rfl

theorem cmdClose_commands {cmd : Cmd} {scripts : List Script} {script : Script}
    (h : script ∈ (cmdClose cmd scripts).2) : ∃ old ∈ scripts, script.command = old.command := by
  unfold cmdClose at h
  simp only at h
  split at h
  · exact pclose_commands h
  · exact ⟨script,h,rfl⟩

theorem ScriptsFor.close (h : ScriptsFor execdir conf s) (device : DeviceId) (cmd : Cmd) :
    ScriptsFor execdir conf (s.close device cmd) := by
  intro script hscript
  obtain ⟨old,hold,hcommand⟩ := cmdClose_commands hscript
  rw [hcommand]
  exact h old hold

theorem response_scripts (device : DeviceId) (s : VeluxState) :
    (veluxKlf200CmdCb device s).scripts = s.scripts ∨
      ∃ cmd, (veluxKlf200CmdCb device s).scripts = (cmdClose cmd s.scripts).2 := by
  unfold veluxKlf200CmdCb
  cases hdata : s.world.userdata device with
  | veluxKlf200 klf200 =>
    by_cases htarget : s.targetValue device = klf200.actualValue
    · simp only [htarget,if_true]
      cases s.cmd device with
      | none => exact .inl rfl
      | some cmd => exact .inr ⟨cmd,rfl⟩
    · simp only [htarget,if_false]
      cases s.cmd device with
      | none => exact .inl rfl
      | some cmd => exact .inr ⟨cmd,rfl⟩
  | _ =>
    simp only
    cases s.cmd device with
    | none => exact .inl rfl
    | some cmd => exact .inr ⟨cmd,rfl⟩

theorem ScriptsFor.response (h : ScriptsFor execdir conf s) (device : DeviceId) :
    ScriptsFor execdir conf (veluxKlf200CmdCb device s) := by
  intro script hscript
  rcases response_scripts device s with hsame | ⟨cmd,hclosed⟩
  · exact h script (hsame ▸ hscript)
  · rw [hclosed] at hscript
    obtain ⟨old,hold,hcommand⟩ := cmdClose_commands hscript
    rw [hcommand]
    exact h old hold

theorem ScriptsFor.incoming (h : ScriptsFor execdir conf s) {device : DeviceId}
    {revents : Incoming} (hstep : veluxStep execdir (.incoming device revents) s = some s') :
    ScriptsFor execdir conf s' := by
  simp only [veluxStep] at hstep
  cases hcmd : s.cmd device with
  | none => simp [hcmd] at hstep
  | some cmd =>
    simp only [hcmd] at hstep
    split at hstep
    · cases revents with
      | hangUp =>
        cases hstep
        exact (h.close device cmd).response _
      | data c =>
        obtain ⟨cmd',-,hs'⟩ := Option.bind_eq_some_iff.mp hstep
        cases hs'
        exact h
      | eof =>
        cases hstep
        exact h.close device cmd
    · cases hstep

theorem ScriptsFor.checkVelux (h : ScriptsFor execdir conf s)
    (hkept : ∀ d, configuration (s.world.userdata d) = conf d) {popen : Bool} {device : DeviceId}
    {klf200 : DeviceVeluxKlf200} (hdata : s.world.userdata device = .veluxKlf200 klf200) :
    ScriptsFor execdir conf (veluxKlf200WorkerCheckVelux execdir popen device klf200 s) := by
  have hcommand : CommandOf execdir (conf device)
      (veluxCommand execdir klf200 (veluxPosition klf200.actualValue)) := by
    rw [← hkept,hdata,commandOf_configuration]
    unfold veluxPosition
    split
    · exact .inl rfl
    · exact .inr rfl
  intro script hscript
  unfold veluxKlf200WorkerCheckVelux cmdExec at hscript
  split at hscript
  · cases popen with
    | false => exact h script hscript
    | true =>
      rcases List.mem_append.mp hscript with hold | hnew
      · exact h script hold
      · rw [List.mem_singleton.mp hnew]
        exact ⟨device,hcommand⟩
  · exact h script hscript

theorem ScriptsFor.workerLoop (popen : Bool) (devices : List DeviceId)
    (h : ScriptsFor execdir conf s) (hkept : ∀ d, configuration (s.world.userdata d) = conf d) :
    ScriptsFor execdir conf (veluxKlf200WorkerLoop execdir popen devices s) := by
  induction devices generalizing s with
  | nil => exact h
  | cons device devices ih =>
    unfold veluxKlf200WorkerLoop
    cases hdata : s.world.userdata device with
    | veluxKlf200 klf200 =>
      by_cases hchanged : klf200.changed = true
      · have hworld : (veluxKlf200WorkerCheckVelux execdir popen device klf200 s).world =
            s.world := by
          simp [veluxKlf200WorkerCheckVelux,hchanged]
        have hcheck : ScriptsFor execdir conf
            (veluxKlf200WorkerCheckVelux execdir popen device klf200 s) := h.checkVelux hkept hdata
        simp only [hchanged,if_true]
        split
        · exact hcheck
        · exact ih hcheck (by rwa [hworld])
      · simp only [hchanged,Bool.false_eq_true,if_false]
        exact ih h hkept
    | _ => exact ih h hkept

theorem ScriptsFor.worker (h : ScriptsFor execdir conf s)
    (hkept : ∀ d, configuration (s.world.userdata d) = conf d) (popen : Bool) :
    ScriptsFor execdir conf (veluxKlf200Worker execdir popen s) := by
  unfold veluxKlf200Worker
  split
  · exact h
  · exact h.workerLoop popen s.klf200Devices hkept

end Scripts

structure ProgramOutputs (execdir : CString) (conf : DeviceId → Userdata) (p : Program) : Prop where
  world : Outputs conf p.world
  scripts : ScriptsFor execdir conf p.velux

section Runs
variable {execdir : CString} {rules : List Rule} {conf : DeviceId → Userdata} {p p' : Program}

theorem ProgramOutputs.step (h : ProgramOutputs execdir conf p) {input : ProgramInput}
    (hstep : ProgramSteps execdir rules input p p') : ProgramOutputs execdir conf p' := by
  have hworld : Outputs conf p'.world :=
    ((outputs_invariant rules (fun d => (p.world.userdata d).deviceType)).program_step
      ⟨fun _ => rfl,h.world⟩ (fun _ _ => trivial) hstep).data
  refine ⟨hworld,?_⟩
  obtain ⟨fuel,hstep⟩ := hstep
  cases input with
  | house input =>
    obtain ⟨house,-,rfl⟩ := Option.map_eq_some_iff.mp hstep
    exact h.scripts
  | worker popen =>
    cases hstep
    exact h.scripts.worker h.world.kept popen
  | incoming device revents =>
    obtain ⟨velux,hvelux,rfl⟩ := Option.map_eq_some_iff.mp hstep
    exact h.scripts.incoming hvelux
  | queue =>
    cases hstep
    exact h.scripts

/-- Induction on the run. -/
theorem ProgramOutputs.run (h : ProgramOutputs execdir conf p)
    (hrun : Relation.ReflTransGen (fun p p' => ∃ input, ProgramSteps execdir rules input p p')
      p p') : ProgramOutputs execdir conf p' := by
  induction hrun with
  | refl => exact h
  | tail _ hstep ih =>
    obtain ⟨input,hstep⟩ := hstep
    exact ih.step hstep

end Runs

section Boot
variable {outside : Surroundings} {files : List (List Char)} {s : Serialisation}
  {file : Option s.File} {devices : List Device} {p p' : Program} {execdir : CString}
  {rules : List Rule}

theorem restore_outputs {conf : DeviceId → Userdata} {w w' : World} (hw : Outputs conf w)
    (h : restoreDevicesState s devices file w = .ok w') : Outputs conf w' := by
  refine restore_keeps (R := fun w w' => Outputs conf w → Outputs conf w') (fun _ => id)
    (fun _ _ _ h₁ h₂ hw => h₂ (h₁ hw)) ?_ h hw
  intro w device data _ state _ _ hdata hw
  refine ⟨fun d => ?_,hw.frames,hw.pins⟩
  by_cases hd : d = device
  · rw [hd,setUserdata_same,restore_configuration hdata,hw.kept]
  · rw [setUserdata_other hd,hw.kept]

theorem start_outputs {conf : DeviceId → Userdata} {w : World} (hw : Outputs conf w)
    (ct et : DeviceId → SunrisetEvent → Int) :
    ProgramOutputs execdir conf (Program.start devices w ct et) := by
  refine ⟨⟨fun d => ?_,hw.frames,hw.pins⟩,?_⟩
  · have hstart : (Program.start devices w ct et).world.userdata d =
        (House.start w ct et).world.userdata d := rfl
    rw [hstart,← hw.kept]
    unfold House.start
    cases hdata : w.userdata d with
    | sunriset sr =>
      simp only [hdata]
      rfl
    | _ => simp only [hdata]
  · intro script hscript
    cases hscript

def declared (devices : List Device) (d : DeviceId) : Userdata :=
  configuration ((parsedWorld devices).userdata d)

theorem Boots.outputs (h : Boots outside files s file devices p) :
    ProgramOutputs execdir (declared devices) p := by
  obtain ⟨d,w₁,w₂,ct,et,-,-,hfirst,hsecond,rfl⟩ := h.steps
  have hparsed : Outputs (declared devices) (parsedWorld devices) :=
    ⟨fun _ => rfl,by simp [World.frames,parsedWorld,World.start],by simp [parsedWorld,World.start]⟩
  exact start_outputs (restore_outputs (restore_outputs hparsed hfirst) hsecond) ct et

theorem declared_device {d : DeviceId} {device : Device} (h : devices[d]? = some device) :
    declared devices d = configuration device.userdata := by
  simp [declared,parsedWorld,World.start,h]

theorem declared_outputs {P : Userdata → Prop} (hplain : ∀ type, ¬ P (.plain type))
    (hP : ∀ data, P (configuration data) ↔ P data) {d : DeviceId} (h : P (declared devices d)) :
    ∃ device ∈ devices, P device.userdata := by
  unfold declared parsedWorld World.start at h
  rw [hP] at h
  cases hd : devices[d]? with
  | none =>
    simp only [hd,Option.map_none,Option.getD_none] at h
    exact absurd h (hplain _)
  | some device =>
    simp only [hd,Option.map_some,Option.getD_some] at h
    exact ⟨device,List.mem_of_getElem? hd,h⟩

/-- In every run after a start, also in the middle of a dispatch, the devices have the configuration
with which they are declared; each frame that waits or was sent, each level on a pin and each
command is one for a declared device. -/
theorem outputs_declared (hboots : Boots outside files s file devices p)
    (hrun : Relation.ReflTransGen (fun p p' => ∃ input, ProgramSteps execdir rules input p p')
      p p') (inputs : List ProgramInput) (v : World) (hvisits : Visits execdir rules inputs p' v) :
    (∀ (i : Nat) device, devices[i]? = some device →
      configuration (v.userdata i) = configuration device.userdata) ∧
    (∀ msg ∈ v.frames, ∃ device ∈ devices, FrameOf device.userdata msg) ∧
    (∀ write ∈ v.pins, ∃ device ∈ devices, PinOf device.userdata write.1) ∧
    (∀ script ∈ p'.velux.scripts, ∃ device ∈ devices,
      CommandOf execdir device.userdata script.command) := by
  have hp' : ProgramOutputs execdir (declared devices) p' := hboots.outputs.run hrun
  have hv : Outputs (declared devices) v :=
    ((outputs_invariant rules (fun d => (p'.world.userdata d).deviceType)).visits
      (fun _ _ _ _ => trivial) ⟨fun _ => rfl,hp'.world⟩ hvisits).data
  refine ⟨fun i device hi => ?_,fun msg hmsg => ?_,fun write hwrite => ?_,fun script hscript => ?_⟩
  · rw [hv.kept,declared_device hi]
  · obtain ⟨d,hd⟩ := hv.frames msg hmsg
    exact @declared_outputs devices (fun data => FrameOf data msg) (fun _ h => h)
      (fun data => by rw [frameOf_configuration]) d hd
  · obtain ⟨d,hd⟩ := hv.pins write hwrite
    exact @declared_outputs devices (fun data => PinOf data write.1) (fun _ h => h)
      (fun data => by rw [pinOf_configuration]) d hd
  · obtain ⟨d,hd⟩ := hp'.scripts script hscript
    exact @declared_outputs devices (fun data => CommandOf execdir data script.command)
      (fun _ h => h) (fun data => by rw [commandOf_configuration]) d hd

/-- The dimmer of a room is switched on after the start. -/
theorem outputs_declared_room :
    ∃ p p', Boots quietHouse [roomFile] plainSerialisation none roomDevices p ∧
      ProgramSteps [] [] (.house (.command ⟨.set,1,[]⟩)) p p' ∧
      p'.world.frames = [.dimmer 2 .on 100 1 false] ∧
      ∀ msg ∈ p'.world.frames, ∃ device ∈ roomDevices, FrameOf device.userdata msg := by
  obtain ⟨p,p',hboots,hstep,hframes⟩ :
      ∃ p p', Boots quietHouse [roomFile] plainSerialisation none roomDevices p ∧
        ProgramSteps [] [] (.house (.command ⟨.set,1,[]⟩)) p p' ∧
        p'.world.frames = [.dimmer 2 .on 100 1 false] :=
    ⟨_,_,@Boots.boots quietHouse [roomFile] plainSerialisation none ⟨roomDevices,none⟩ _ _
      (fun _ _ => 0) (fun _ _ => 0) rfl rfl,⟨1,rfl⟩,rfl⟩
  refine ⟨p,p',hboots,hstep,hframes,?_⟩
  exact (outputs_declared hboots (.single ⟨_,hstep⟩) [] _ .now).2.1

end Boot

end DomoticaEngine
