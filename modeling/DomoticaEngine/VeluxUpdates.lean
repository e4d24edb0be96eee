import DomoticaEngine.VeluxWorker
import DomoticaEngine.Library.Runs

/-!
The VELUX-KLF200 worker over any run: the script of every device tells its last value, and
when the worker stops for good.
-/

set_option autoImplicit false

namespace DomoticaEngine

def ActionType.Moves (type : ActionType) : Prop :=
  type ∈ [ActionType.up,.down,.toggle,.toggleUp,.toggleDown]

def scriptsOf (scripts : List Script) (d : DeviceId) : List Script :=
  scripts.filter (fun script => script.owner = d)

def lastScript (s : VeluxState) (d : DeviceId) : Option Script := (scriptsOf s.scripts d).getLast?

theorem scriptsOf_snoc (scripts : List Script) (script : Script) (d : DeviceId) :
    (scriptsOf (scripts ++ [script]) d).getLast? =
      if script.owner = d then some script else (scriptsOf scripts d).getLast? := by
  unfold scriptsOf
  by_cases h : script.owner = d <;> simp [h]

theorem pclose_last (scripts : List Script) (script : Script) :
    pclose (scripts ++ [script]) scripts.length =
      scripts ++ [{ script with running := false }] := by
  unfold pclose
  induction scripts with
  | nil => rfl
  | cons first scripts ih => simp [ih]

theorem veluxCommand_congr {execdir : CString} {klf200 klf200' : DeviceVeluxKlf200}
    (hhost : klf200'.hostname = klf200.hostname) (hpassword : klf200'.password = klf200.password)
    (haddress : klf200'.address = klf200.address) (position : Int) :
    veluxCommand execdir klf200' position = veluxCommand execdir klf200 position := by
  unfold veluxCommand
  rw [hhost,hpassword,haddress]

structure VeluxActs (action : Action) (klf200 klf200' : DeviceVeluxKlf200) : Prop where
  hostname : klf200'.hostname = klf200.hostname
  password : klf200'.password = klf200.password
  address : klf200'.address = klf200.address
  changed : klf200.changed = true → klf200'.changed = true
  unchanged : klf200'.changed = false →
    klf200'.actualValue = klf200.actualValue ∧ klf200.changed = false ∧ ¬ action.type.Moves

theorem veluxKlf200DeviceExec_acts {device : DeviceId} {klf200 : DeviceVeluxKlf200} {w : World}
    (h : w.userdata device = .veluxKlf200 klf200) (action : Action) :
    ∃ klf200', (veluxKlf200DeviceExec device klf200 action w).userdata =
        Function.update w.userdata device (.veluxKlf200 klf200') ∧
      VeluxActs action klf200 klf200' := by
  unfold veluxKlf200DeviceExec
  cases htype : action.type with
  | set | unset | dim | stop =>
    refine ⟨klf200,by simp [← h],rfl,rfl,rfl,id,fun hc => ⟨rfl,hc,?_⟩⟩
    simp [htype,ActionType.Moves]
  | lock =>
    refine ⟨{ klf200 with locked := true },rfl,rfl,rfl,rfl,id,fun hc => ⟨rfl,hc,?_⟩⟩
    simp [htype,ActionType.Moves]
  | unlock =>
    refine ⟨{ klf200 with locked := false },rfl,rfl,rfl,rfl,id,fun hc => ⟨rfl,hc,?_⟩⟩
    simp [htype,ActionType.Moves]
  | up | down | toggle | toggleUp | toggleDown =>
    exact ⟨_,rfl,rfl,rfl,rfl,fun _ => rfl,fun hc => nomatch hc⟩

/-- A script is running for `d`, which is marked as changed until it ends. -/
structure Flight (execdir : CString) (s : VeluxState) (d : DeviceId) (cmd : Cmd)
    (earlier : List Script) (script : Script) : Prop where
  inProgress : s.inProgress = some d
  held : s.cmd d = some cmd
  event : cmd.event = true
  pp : cmd.pp = some earlier.length
  respCbArg : cmd.respCbArg = d
  scripts : s.scripts = earlier ++ [script]
  running : script.running = true
  owner : script.owner = d
  device : ∃ klf200, s.world.userdata d = .veluxKlf200 klf200 ∧ klf200.changed = true ∧
    script.command = veluxCommand execdir klf200 (veluxPosition (s.targetValue d))

def AllEnded (scripts : List Script) : Prop := ∀ script ∈ scripts, script.running = false

inductive Phase (execdir : CString) (s : VeluxState) : Prop where
  | idle (hnone : s.inProgress = none) (hcmd : ∀ d, s.cmd d = none) (hended : AllEnded s.scripts)
  | flying (d : DeviceId) (cmd : Cmd) (earlier : List Script) (script : Script)
      (hflight : Flight execdir s d cmd earlier script) (hother : ∀ d', d' ≠ d → s.cmd d' = none)
      (hended : AllEnded earlier)
  | wedged (d : DeviceId) (hd : s.inProgress = some d)
      (hcmd : ∀ d' cmd, s.cmd d' = some cmd → cmd.event = false) (hended : AllEnded s.scripts)

/-- What is known of the devices that are not marked, after the inputs `done`. -/
def Told (execdir : CString) (done : List VeluxInput) (s : VeluxState) : Prop :=
  ∀ d klf200, s.world.userdata d = .veluxKlf200 klf200 → klf200.changed = false →
    (∀ script, lastScript s d = some script →
      script.command = veluxCommand execdir klf200 (veluxPosition klf200.actualValue)) ∧
    (lastScript s d = none → ∀ action, .exec d action ∈ done → ¬ action.type.Moves)

/-- The pipe of the command of `d` is open and its event is registered, and its end clears
`velux_klf200_device_in_progress`. -/
structure CommandRuns (execdir : CString) (s : VeluxState) (d : DeviceId) : Prop where
  open_ : ∃ cmd, s.cmd d = some cmd ∧ cmd.pp ≠ none ∧ cmd.event = true
  clears : ∃ s', veluxStep execdir (.incoming d .hangUp) s = some s' ∧ s'.inProgress = none

def NotWedged (execdir : CString) (s : VeluxState) : Prop :=
  ∀ d, s.inProgress = some d → CommandRuns execdir s d

/-- The first device that the worker would start a script for. -/
def nextChanged (s : VeluxState) : Option DeviceId :=
  s.klf200Devices.find? (fun d =>
    match s.world.userdata d with
    | .veluxKlf200 klf200 => klf200.changed
    | _ => false)

/-- The inputs after which the completion callback is still to come: popen answers when it is
called, and a pipe does not end before it hangs up. -/
def PipeKept (input : VeluxInput) (s : VeluxState) : Prop :=
  match input with
  | .tick false => s.inProgress ≠ none ∨ nextChanged s = none
  | .incoming _ .eof => False
  | _ => True

section Steps
variable {execdir : CString} {s s' : VeluxState}

def VeluxState.ended (s : VeluxState) (d : DeviceId) (klf200 : DeviceVeluxKlf200)
    (earlier : List Script) (script : Script) : VeluxState :=
  { s with
    world := if s.targetValue d = klf200.actualValue then
      s.world.setUserdata d (.veluxKlf200 { klf200 with changed := false }) else s.world,
    inProgress := none, cmd := Function.update s.cmd d none,
    scripts := earlier ++ [{ script with running := false }] }

theorem close_flight {d : DeviceId} {cmd : Cmd} {earlier : List Script} {script : Script}
    (h : Flight execdir s d cmd earlier script) :
    s.close d cmd =
      { s with
        cmd := Function.update s.cmd d
          (some { cmd with event := false, pp := none, done := true }),
        scripts := earlier ++ [{ script with running := false }] } := by
  unfold VeluxState.close cmdClose
  simp only [h.pp,h.scripts,pclose_last]

theorem hangUp_flight {d : DeviceId} {cmd : Cmd} {earlier : List Script} {script : Script}
    (h : Flight execdir s d cmd earlier script) {klf200 : DeviceVeluxKlf200}
    (hd : s.world.userdata d = .veluxKlf200 klf200) :
    veluxStep execdir (.incoming d .hangUp) s = some (s.ended d klf200 earlier script) := by
  simp only [veluxStep,h.held,h.event,if_true,cmdIncomingData,close_flight h,h.respCbArg,
    veluxKlf200CmdCb,hd]
  by_cases htarget : s.targetValue d = klf200.actualValue <;>
    simp [htarget,VeluxState.ended,cmdClose]

theorem Phase.notWedged (h : Phase execdir s) :
    NotWedged execdir s ↔
      ∀ d, s.inProgress = some d → ∃ cmd, s.cmd d = some cmd ∧ cmd.event = true := by
  constructor
  · intro hs d hd
    obtain ⟨cmd,hcmd,-,hevent⟩ := (hs d hd).open_
    exact ⟨cmd,hcmd,hevent⟩
  · intro hs d hd
    obtain ⟨cmd,hcmd,hevent⟩ := hs d hd
    cases h with
    | idle hnone _ _ =>
      rw [hnone] at hd
      cases hd
    | wedged d' _ hclosed _ =>
      rw [hclosed d cmd hcmd] at hevent
      cases hevent
    | flying d' cmd' earlier script hflight _ _ =>
      obtain ⟨klf200,hdata,-,-⟩ := hflight.device
      have hsame : d' = d := by
        rw [hflight.inProgress] at hd
        exact Option.some.inj hd
      subst hsame
      refine ⟨⟨cmd',hflight.held,?_,hflight.event⟩,_,hangUp_flight hflight hdata,rfl⟩
      rw [hflight.pp]
      exact Option.some_ne_none _

def WorkerTurn (execdir : CString) (popen : Bool) (devices : List DeviceId)
    (s s' : VeluxState) : Prop :=
  (s' = s ∧ ∀ d ∈ devices, ∀ klf200, s.world.userdata d = .veluxKlf200 klf200 →
    klf200.changed = false) ∨
  ∃ d klf200, d ∈ devices ∧ s.world.userdata d = .veluxKlf200 klf200 ∧ klf200.changed = true ∧
    s' = veluxKlf200WorkerCheckVelux execdir popen d klf200 s

theorem veluxKlf200WorkerLoop_turn (popen : Bool) (devices : List DeviceId) (s : VeluxState) :
    WorkerTurn execdir popen devices s (veluxKlf200WorkerLoop execdir popen devices s) := by
  induction devices with
  | nil => exact .inl ⟨rfl,by simp⟩
  | cons d devices ih =>
    have hskip (heq : veluxKlf200WorkerLoop execdir popen (d :: devices) s =
          veluxKlf200WorkerLoop execdir popen devices s)
        (hquiet : ∀ klf200, s.world.userdata d = .veluxKlf200 klf200 → klf200.changed = false) :
        WorkerTurn execdir popen (d :: devices) s
          (veluxKlf200WorkerLoop execdir popen (d :: devices) s) := by
      rw [heq]
      rcases ih with ⟨hsame,hall⟩ | ⟨d',klf200,hmem,hdata,hchanged,hrest⟩
      · refine .inl ⟨hsame,fun d' hd' => ?_⟩
        rcases List.mem_cons.mp hd' with rfl | hd'
        · exact hquiet
        · exact hall d' hd'
      · exact .inr ⟨d',klf200,List.mem_cons_of_mem d hmem,hdata,hchanged,hrest⟩
    cases hdata : s.world.userdata d with
    | veluxKlf200 klf200 =>
      by_cases hchanged : klf200.changed = true
      · refine .inr ⟨d,klf200,by simp,hdata,hchanged,?_⟩
        rw [veluxKlf200WorkerLoop]
        simp only [hdata,if_pos hchanged]
        have hbusy : (veluxKlf200WorkerCheckVelux execdir popen d klf200 s).inProgress.isSome := by
          simp [veluxKlf200WorkerCheckVelux,hchanged]
        rw [if_pos hbusy]
      · refine hskip ?_ ?_
        · rw [veluxKlf200WorkerLoop]
          simp only [hdata,if_neg hchanged]
        · intro klf200' heq
          cases hdata.symm.trans heq
          simpa using hchanged
    | _ =>
      refine hskip ?_ ?_
      · rw [veluxKlf200WorkerLoop]
        simp only [hdata]
      · intro klf200 heq
        cases hdata.symm.trans heq

structure VeluxKeeps (execdir : CString) (done : List VeluxInput) (input : VeluxInput)
    (s s' : VeluxState) : Prop where
  phase : Phase execdir s'
  told : Told execdir (done ++ [input]) s'
  notWedged : NotWedged execdir s → (NotWedged execdir s' ↔ PipeKept input s)

theorem Told.keep {done : List VeluxInput} {input : VeluxInput} (h : Told execdir done s)
    (hkeep : ∀ d klf200, s'.world.userdata d = .veluxKlf200 klf200 → klf200.changed = false →
      s.world.userdata d = .veluxKlf200 klf200 ∧ lastScript s' d = lastScript s d)
    (hinput : ∀ d action, input ≠ .exec d action) : Told execdir (done ++ [input]) s' := by
  intro d klf200 hd hchanged
  obtain ⟨hd₀,hlast⟩ := hkeep d klf200 hd hchanged
  obtain ⟨hscript,hnone⟩ := h d klf200 hd₀ hchanged
  rw [hlast]
  refine ⟨hscript,fun hstarted action hmem => ?_⟩
  rcases List.mem_append.mp hmem with hmem | hmem
  · exact hnone hstarted action hmem
  · exact absurd (List.mem_singleton.mp hmem).symm (hinput d action)

theorem exec_keeps {done : List VeluxInput} {device : DeviceId} {action : Action}
    (hphase : Phase execdir s) (htold : Told execdir done s)
    (hstep : veluxStep execdir (.exec device action) s = some s') :
    VeluxKeeps execdir done (.exec device action) s s' := by
  simp only [veluxStep] at hstep
  split at hstep
  · rename_i klf200 hd
    cases hstep
    obtain ⟨klf200',hdata,hacts⟩ := veluxKlf200DeviceExec_acts hd action
    have hphase' : Phase execdir
        { s with world := veluxKlf200DeviceExec device klf200 action s.world } := by
      cases hphase with
      | idle hnone hcmd hended => exact .idle hnone hcmd hended
      | wedged d hd hcmd hended => exact .wedged d hd hcmd hended
      | flying d cmd earlier script hflight hother hended =>
        refine .flying d cmd earlier script { hflight with device := ?_ } hother hended
        obtain ⟨klf200₀,hd₀,hchanged,hcommand⟩ := hflight.device
        simp only [hdata]
        by_cases hsame : d = device
        · subst hsame
          cases hd.symm.trans hd₀
          exact ⟨klf200',by simp,hacts.changed hchanged,
            by rw [hcommand,veluxCommand_congr hacts.hostname hacts.password hacts.address]⟩
        · exact ⟨klf200₀,by simp [hsame,hd₀],hchanged,hcommand⟩
    refine ⟨hphase',?_,fun hs => ?_⟩
    · intro d klf200₁ hd₁ hchanged
      simp only [hdata] at hd₁
      by_cases hsame : d = device
      · subst hsame
        simp only [Function.update_self,Userdata.veluxKlf200.injEq] at hd₁
        subst hd₁
        obtain ⟨hactual,hbefore,hstill⟩ := hacts.unchanged hchanged
        obtain ⟨hscript,hnone⟩ := htold d klf200 hd hbefore
        refine ⟨fun script hlast => ?_,fun hlast action' hmem => ?_⟩
        · rw [hscript script hlast,hactual,
            veluxCommand_congr hacts.hostname hacts.password hacts.address]
        · rcases List.mem_append.mp hmem with hmem | hmem
          · exact hnone hlast action' hmem
          · cases List.mem_singleton.mp hmem
            exact hstill
      · rw [Function.update_of_ne hsame] at hd₁
        obtain ⟨hscript,hnone⟩ := htold d klf200₁ hd₁ hchanged
        refine ⟨hscript,fun hlast action' hmem => ?_⟩
        rcases List.mem_append.mp hmem with hmem | hmem
        · exact hnone hlast action' hmem
        · cases List.mem_singleton.mp hmem
          exact absurd rfl hsame
    · rw [hphase'.notWedged]
      exact iff_of_true (hphase.notWedged.mp hs) trivial
  · cases hstep

def VeluxState.asked (s : VeluxState) (d : DeviceId) (klf200 : DeviceVeluxKlf200) (cmd : Cmd)
    (scripts : List Script) : VeluxState :=
  { s with
    inProgress := some d,
    targetValue := Function.update s.targetValue d klf200.actualValue,
    cmd := Function.update s.cmd d (some cmd), scripts := scripts }

@[simp] theorem asked_cmd_same (s : VeluxState) (d : DeviceId) (klf200 : DeviceVeluxKlf200)
    (cmd : Cmd) (scripts : List Script) : (s.asked d klf200 cmd scripts).cmd d = some cmd := by
  simp [VeluxState.asked]

theorem asked_cmd_other {d d' : DeviceId} (h : d' ≠ d) (s : VeluxState)
    (klf200 : DeviceVeluxKlf200) (cmd : Cmd) (scripts : List Script) :
    (s.asked d klf200 cmd scripts).cmd d' = s.cmd d' := by
  simp [VeluxState.asked,h]

section Ask
variable (execdir) (d : DeviceId) {klf200 : DeviceVeluxKlf200}
  (hchanged : klf200.changed = true)
include hchanged

theorem checkVelux_started (s : VeluxState) :
    ∃ cmd, veluxKlf200WorkerCheckVelux execdir true d klf200 s =
        s.asked d klf200 cmd (s.scripts ++
          [⟨d,veluxCommand execdir klf200 (veluxPosition klf200.actualValue),true⟩]) ∧
      cmd.event = true ∧ cmd.pp = some s.scripts.length ∧ cmd.respCbArg = d := by
  unfold veluxKlf200WorkerCheckVelux
  rw [if_pos hchanged]
  exact ⟨_,rfl,rfl,rfl,rfl⟩

theorem checkVelux_refused (s : VeluxState) :
    ∃ cmd, veluxKlf200WorkerCheckVelux execdir false d klf200 s = s.asked d klf200 cmd s.scripts ∧
      cmd.event = false := by
  unfold veluxKlf200WorkerCheckVelux
  rw [if_pos hchanged]
  exact ⟨_,rfl,rfl⟩

end Ask

theorem nextChanged_none : nextChanged s = none ↔
    ∀ d ∈ s.klf200Devices, ∀ klf200, s.world.userdata d = .veluxKlf200 klf200 →
      klf200.changed = false := by
  unfold nextChanged
  rw [List.find?_eq_none]
  refine forall_congr' fun d => forall_congr' fun _ => ?_
  cases s.world.userdata d <;> simp

theorem Phase.free (h : Phase execdir s) (hfree : s.inProgress = none) :
    (∀ d, s.cmd d = none) ∧ AllEnded s.scripts := by
  cases h with
  | idle _ hcmd hended => exact ⟨hcmd,hended⟩
  | flying d' cmd earlier script hflight _ _ =>
    exact absurd (hfree.symm.trans hflight.inProgress) (by simp)
  | wedged d' hd' _ _ => exact absurd (hfree.symm.trans hd') (by simp)

section Tick
variable {done : List VeluxInput}

theorem quiet_keeps {popen : Bool} (hphase : Phase execdir s) (htold : Told execdir done s)
    (hquiet : s.inProgress ≠ none ∨ nextChanged s = none) :
    VeluxKeeps execdir done (.tick popen) s s := by
  refine ⟨hphase,htold.keep (fun d klf200 hd _ => ⟨hd,rfl⟩) (by simp),fun hs => ?_⟩
  refine iff_of_true hs ?_
  unfold PipeKept
  split
  · exact hquiet
  · rename_i heq
    cases heq
  · trivial

variable {d : DeviceId} {klf200 : DeviceVeluxKlf200}
  (hd : s.world.userdata d = .veluxKlf200 klf200) (hchanged : klf200.changed = true)
include hd hchanged

theorem started_keeps (htold : Told execdir done s) (hcmd : ∀ d, s.cmd d = none)
    (hended : AllEnded s.scripts) : VeluxKeeps execdir done (.tick true) s
      (veluxKlf200WorkerCheckVelux execdir true d klf200 s) := by
  obtain ⟨cmd,hasked,hevent,hpp,harg⟩ := checkVelux_started execdir d hchanged s
  rw [hasked]
  let script : Script := ⟨d,veluxCommand execdir klf200 (veluxPosition klf200.actualValue),true⟩
  have hflight : Flight execdir (s.asked d klf200 cmd (s.scripts ++ [script])) d cmd s.scripts
      script :=
    ⟨rfl,asked_cmd_same s d klf200 cmd _,hevent,hpp,harg,rfl,rfl,rfl,
      klf200,hd,hchanged,by simp [script,VeluxState.asked]⟩
  have hphase : Phase execdir (s.asked d klf200 cmd (s.scripts ++ [script])) :=
    .flying d cmd s.scripts script hflight
      (fun d' hd' => (asked_cmd_other hd' s klf200 cmd _).trans (hcmd d')) hended
  refine ⟨hphase,htold.keep (fun d' klf200' hd' hunmarked => ⟨hd',?_⟩) (by simp),fun _ => ?_⟩
  · have hne : d ≠ d' := by
      rintro rfl
      cases hd.symm.trans hd'
      rw [hchanged] at hunmarked
      cases hunmarked
    exact (scriptsOf_snoc _ _ _).trans (if_neg hne)
  · rw [hphase.notWedged]
    refine iff_of_true (fun d' hd' => ?_) trivial
    cases hd'
    exact ⟨cmd,asked_cmd_same s d klf200 cmd _,hevent⟩

theorem refused_keeps (htold : Told execdir done s) (hcmd : ∀ d, s.cmd d = none)
    (hended : AllEnded s.scripts) (hfree : s.inProgress = none) (hmem : d ∈ s.klf200Devices) :
    VeluxKeeps execdir done (.tick false) s
      (veluxKlf200WorkerCheckVelux execdir false d klf200 s) := by
  obtain ⟨cmd,hasked,hevent⟩ := checkVelux_refused execdir d hchanged s
  rw [hasked]
  have hclosed : ∀ d' cmd', (s.asked d klf200 cmd s.scripts).cmd d' = some cmd' →
      cmd'.event = false := by
    intro d' cmd' hd'
    by_cases hsame : d' = d
    · rw [hsame,asked_cmd_same] at hd'
      cases hd'
      exact hevent
    · rw [asked_cmd_other hsame,hcmd] at hd'
      cases hd'
  have hphase : Phase execdir (s.asked d klf200 cmd s.scripts) := .wedged d rfl hclosed hended
  refine ⟨hphase,htold.keep (fun d' klf200' hd' _ => ⟨hd',rfl⟩) (by simp),fun _ => ?_⟩
  rw [hphase.notWedged]
  refine iff_of_false (fun hs => ?_) ?_
  · obtain ⟨cmd',hheld,hevent'⟩ := hs d rfl
    rw [hclosed d cmd' hheld] at hevent'
    cases hevent'
  · rintro (hbusy | hnone)
    · exact hbusy hfree
    · have hunmarked := nextChanged_none.mp hnone d hmem klf200 hd
      rw [hchanged] at hunmarked
      cases hunmarked

end Tick

theorem tick_keeps {done : List VeluxInput} {popen : Bool} (hphase : Phase execdir s)
    (htold : Told execdir done s) :
    VeluxKeeps execdir done (.tick popen) s (veluxKlf200Worker execdir popen s) := by
  unfold veluxKlf200Worker
  by_cases hbusy : s.inProgress.isSome = true
  · rw [if_pos hbusy]
    exact quiet_keeps hphase htold (.inl (Option.isSome_iff_ne_none.mp hbusy))
  rw [if_neg hbusy]
  rcases veluxKlf200WorkerLoop_turn popen s.klf200Devices s with
    ⟨hsame,hall⟩ | ⟨d,klf200,hmem,hd,hchanged,hstart⟩
  · rw [hsame]
    exact quiet_keeps hphase htold (.inr (nextChanged_none.mpr hall))
  have hfree : s.inProgress = none := by simpa using hbusy
  obtain ⟨hcmd,hended⟩ := hphase.free hfree
  rw [hstart]
  cases popen with
  | true => exact started_keeps hd hchanged htold hcmd hended
  | false => exact refused_keeps hd hchanged htold hcmd hended hfree hmem

theorem cmdAppend_keeps {cmd cmd' : Cmd} {c : Char} (h : cmdAppend cmd c = some cmd') :
    cmd'.event = cmd.event ∧ cmd'.pp = cmd.pp ∧ cmd'.respCbArg = cmd.respCbArg := by
  have hstore : ∀ cmd₀ : Cmd, cmdStoreChar cmd₀ c = some cmd' →
      cmd'.event = cmd₀.event ∧ cmd'.pp = cmd₀.pp ∧ cmd'.respCbArg = cmd₀.respCbArg := by
    intro cmd₀ h₀
    unfold cmdStoreChar at h₀
    split at h₀
    · cases h₀
      exact ⟨rfl,rfl,rfl⟩
    · cases h₀
  unfold cmdAppend at h
  simp only at h
  split at h
  · split at h
    · cases h
      exact ⟨rfl,rfl,rfl⟩
    · have hstored := hstore _ h
      exact hstored
  · exact hstore cmd h

theorem allEnded_snoc {earlier : List Script} (h : AllEnded earlier) (script : Script) :
    AllEnded (earlier ++ [{ script with running := false }]) := by
  intro script' hmem
  rcases List.mem_append.mp hmem with hmem | hmem
  · exact h script' hmem
  · rw [List.mem_singleton.mp hmem]

section Incoming
variable {done : List VeluxInput} {d : DeviceId} {cmd : Cmd} {earlier : List Script}
  {script : Script} (hflight : Flight execdir s d cmd earlier script)
  (hother : ∀ d', d' ≠ d → s.cmd d' = none) (hended : AllEnded earlier)
  (hphase : Phase execdir s) (htold : Told execdir done s)
include hflight hended htold

theorem hangUp_keeps (hother : ∀ d', d' ≠ d → s.cmd d' = none)
    (hstep : veluxStep execdir (.incoming d .hangUp) s = some s') :
    VeluxKeeps execdir done (.incoming d .hangUp) s s' := by
  obtain ⟨klf200,hd,hchanged,hcommand⟩ := hflight.device
  rw [hangUp_flight hflight hd] at hstep
  cases hstep
  have hphase' : Phase execdir (s.ended d klf200 earlier script) := by
    refine .idle rfl (fun d' => ?_) (allEnded_snoc hended script)
    by_cases hsame : d' = d
    · simp [VeluxState.ended,hsame]
    · simp [VeluxState.ended,hsame,hother d' hsame]
  have hlast : ∀ d', lastScript (s.ended d klf200 earlier script) d' =
      if d = d' then some { script with running := false } else lastScript s d' := by
    intro d'
    unfold lastScript
    rw [hflight.scripts,scriptsOf_snoc earlier script d',hflight.owner]
    refine (scriptsOf_snoc earlier { script with running := false } d').trans ?_
    simp only [hflight.owner]
    split <;> rfl
  refine ⟨hphase',?_,fun _ => ?_⟩
  · intro d' klf200' hd' hunmarked
    rw [hlast d']
    by_cases hsame : d = d'
    · subst hsame
      rw [if_pos rfl]
      refine ⟨fun script' hscript' => ?_,fun hnone => by cases hnone⟩
      cases hscript'
      simp only [VeluxState.ended] at hd'
      split at hd'
      · rename_i htarget
        rw [setUserdata_same] at hd'
        cases hd'
        rw [← htarget]
        exact hcommand
      · cases hd.symm.trans hd'
        rw [hchanged] at hunmarked
        cases hunmarked
    · rw [if_neg hsame]
      have hd₀ : s.world.userdata d' = .veluxKlf200 klf200' := by
        simp only [VeluxState.ended] at hd'
        split at hd'
        · rwa [setUserdata_other (Ne.symm hsame)] at hd'
        · exact hd'
      obtain ⟨hscript,hnone⟩ := htold d' klf200' hd₀ hunmarked
      refine ⟨hscript,fun hstarted action hmem => ?_⟩
      rcases List.mem_append.mp hmem with hmem | hmem
      · exact hnone hstarted action hmem
      · cases List.mem_singleton.mp hmem
  · rw [hphase'.notWedged]
    refine iff_of_true (fun d' hd' => ?_) trivial
    cases hd'

theorem eof_keeps (hother : ∀ d', d' ≠ d → s.cmd d' = none)
    (hstep : veluxStep execdir (.incoming d .eof) s = some s') :
    VeluxKeeps execdir done (.incoming d .eof) s s' := by
  obtain ⟨klf200,hd,hchanged,-⟩ := hflight.device
  simp only [veluxStep,hflight.held,hflight.event,if_true,cmdIncomingData,
    close_flight hflight] at hstep
  cases hstep
  have hclosed : ∀ d' cmd', Function.update s.cmd d
      (some { cmd with event := false, pp := none, done := true }) d' = some cmd' →
      cmd'.event = false := by
    intro d' cmd' hd'
    by_cases hsame : d' = d
    · rw [hsame,Function.update_self] at hd'
      cases hd'
      rfl
    · rw [Function.update_of_ne hsame,hother d' hsame] at hd'
      cases hd'
  refine ⟨.wedged d hflight.inProgress hclosed (allEnded_snoc hended script),
    htold.keep (fun d' klf200' hd' hunmarked => ⟨hd',?_⟩) (by simp),fun _ => ?_⟩
  · have hne : script.owner ≠ d' := by
      rw [hflight.owner]
      rintro rfl
      cases hd.symm.trans hd'
      rw [hchanged] at hunmarked
      cases hunmarked
    rw [lastScript,lastScript,hflight.scripts,scriptsOf_snoc earlier script,if_neg hne]
    exact (scriptsOf_snoc earlier { script with running := false } d').trans (if_neg hne)
  · refine iff_of_false (fun hs => ?_) (by simp [PipeKept])
    obtain ⟨cmd',hheld,-,hevent⟩ := (hs d hflight.inProgress).open_
    rw [hclosed d cmd' hheld] at hevent
    cases hevent

theorem data_keeps {c : Char} (hother : ∀ d', d' ≠ d → s.cmd d' = none)
    (hstep : veluxStep execdir (.incoming d (.data c)) s = some s') :
    VeluxKeeps execdir done (.incoming d (.data c)) s s' := by
  simp only [veluxStep,hflight.held,hflight.event,if_true,cmdIncomingData] at hstep
  obtain ⟨cmd',happend,hs'⟩ := Option.bind_eq_some_iff.mp hstep
  cases hs'
  obtain ⟨hevent,hpp,harg⟩ := cmdAppend_keeps happend
  have hheld : Function.update s.cmd d (some cmd') d = some cmd' := Function.update_self _ _ _
  have hphase' : Phase execdir { s with cmd := Function.update s.cmd d (some cmd') } := by
    refine .flying d cmd' earlier script
      { hflight with
        held := hheld, event := hevent.trans hflight.event, pp := hpp.trans hflight.pp,
        respCbArg := harg.trans hflight.respCbArg } (fun d' hd' => ?_) hended
    simp [hd',hother d' hd']
  refine ⟨hphase',htold.keep (fun d' klf200' hd' _ => ⟨hd',rfl⟩) (by simp),fun _ => ?_⟩
  rw [hphase'.notWedged]
  refine iff_of_true (fun d' hd' => ?_) trivial
  cases hflight.inProgress.symm.trans hd'
  exact ⟨cmd',hheld,hevent.trans hflight.event⟩

end Incoming

theorem incoming_keeps {done : List VeluxInput} {device : DeviceId} {revents : Incoming}
    (hphase : Phase execdir s) (htold : Told execdir done s)
    (hstep : veluxStep execdir (.incoming device revents) s = some s') :
    VeluxKeeps execdir done (.incoming device revents) s s' := by
  obtain ⟨cmd₀,hheld,hevent⟩ : ∃ cmd, s.cmd device = some cmd ∧ cmd.event = true := by
    simp only [veluxStep] at hstep
    split at hstep
    · rename_i cmd hcmd
      split at hstep
      · exact ⟨cmd,hcmd,by assumption⟩
      · cases hstep
    · cases hstep
  cases hphase with
  | idle _ hcmd _ =>
    rw [hcmd device] at hheld
    cases hheld
  | wedged d _ hcmd _ =>
    rw [hcmd device cmd₀ hheld] at hevent
    cases hevent
  | flying d cmd earlier script hflight hother hended =>
    have hsame : device = d := by
      by_contra hne
      rw [hother device hne] at hheld
      cases hheld
    subst hsame
    cases revents with
    | hangUp => exact hangUp_keeps hflight hended htold hother hstep
    | eof => exact eof_keeps hflight hended htold hother hstep
    | data c => exact data_keeps hflight hended htold hother hstep

theorem veluxStep_keeps {done : List VeluxInput} {input : VeluxInput} (hphase : Phase execdir s)
    (htold : Told execdir done s) (hstep : veluxStep execdir input s = some s') :
    VeluxKeeps execdir done input s s' := by
  cases input with
  | exec device action => exact exec_keeps hphase htold hstep
  | tick popen =>
    cases hstep
    exact tick_keeps hphase htold
  | incoming device revents => exact incoming_keeps hphase htold hstep

end Steps

section Start
variable {execdir : CString} {world : World} {klf200Devices : List DeviceId}

theorem start_phase : Phase execdir (VeluxState.start world klf200Devices) :=
  .idle rfl (fun _ => rfl) (fun _ hmem => nomatch hmem)

theorem start_told : Told execdir [] (VeluxState.start world klf200Devices) :=
  fun _ _ _ _ => ⟨fun _ hscript => (nomatch hscript),fun _ _ hmem => (nomatch hmem)⟩

theorem start_notWedged : NotWedged execdir (VeluxState.start world klf200Devices) :=
  fun _ hd => (nomatch hd)

end Start

def roofWindow : DeviceVeluxKlf200 :=
  { address := 3, hostname := "klf".toList, password := "pw".toList, actualValue := 0,
    changed := false, locked := false }

def roofWindows : World := World.start (fun _ => .veluxKlf200 roofWindow)

theorem notWedged_iff {execdir : CString} {inputs done : List VeluxInput} {s : VeluxState}
    (hphase : Phase execdir s) (htold : Told execdir done s) (hs : NotWedged execdir s) :
    Runs.Always (veluxStep execdir) (NotWedged execdir) inputs s ↔
      Runs.Meets (veluxStep execdir) PipeKept inputs s := by
  refine Runs.always_iff_meets (I := fun s => Phase execdir s ∧ ∃ done, Told execdir done s)
    ?_ ⟨hphase,done,htold⟩ hs
  rintro input s s' ⟨hphase,done,htold⟩ hs hstep
  have hkeeps := veluxStep_keeps hphase htold hstep
  exact ⟨⟨hkeeps.phase,_,hkeeps.told⟩,hkeeps.notWedged hs⟩

/-- The worker goes on in every state of a run exactly when popen answers whenever it is
called and no pipe ends before it hangs up. -/
theorem velux_notWedged_iff (execdir : CString) (world : World) (klf200Devices : List DeviceId)
    (inputs : List VeluxInput) :
    Runs.Always (veluxStep execdir) (NotWedged execdir) inputs (.start world klf200Devices) ↔
      Runs.Meets (veluxStep execdir) PipeKept inputs (.start world klf200Devices) :=
  notWedged_iff start_phase start_told start_notWedged

/-- The window is moved, and then popen fails, or the script closes its output before it
ends: the worker waits for a callback that does not come. -/
theorem velux_wedged :
    ¬ Runs.Always (veluxStep []) (NotWedged []) [.exec 0 ⟨.down,0,[]⟩,.tick false]
        (.start roofWindows [0]) ∧
      ¬ Runs.Always (veluxStep []) (NotWedged [])
        [.exec 0 ⟨.down,0,[]⟩,.tick true,.incoming 0 .eof] (.start roofWindows [0]) := by
  constructor
  · rw [notWedged_iff start_phase start_told start_notWedged]
    intro hmeets
    obtain ⟨-,htick⟩ := hmeets _ rfl
    obtain ⟨hkept,-⟩ := htick _ rfl
    exact hkept.elim (fun hbusy => hbusy rfl) (fun hnone => nomatch hnone)
  · rw [notWedged_iff start_phase start_told start_notWedged]
    intro hmeets
    obtain ⟨-,htick⟩ := hmeets _ rfl
    obtain ⟨-,heof⟩ := htick _ rfl
    obtain ⟨hkept,-⟩ := heof _ rfl
    exact hkept

end DomoticaEngine
