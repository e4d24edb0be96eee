import DomoticaEngine.Program
import DomoticaEngine.ResponseBuffer
import DomoticaEngine.VeluxUpdates

/-!
The buffers of the running commands, over whole runs of the program.
-/

set_option autoImplicit false

namespace DomoticaEngine

def Cmd.Buffered (junk : Nat → Char) (cmd : Cmd) : Prop :=
  ∃ output buffer, respAfter junk output = .ok buffer ∧ cmd.HasBuffer buffer

def VeluxState.Buffered (junk : Nat → Char) (s : VeluxState) : Prop :=
  ∀ d cmd, s.cmd d = some cmd → cmd.Buffered junk

section Commands
variable {junk : Nat → Char} {cmd : Cmd}

theorem cmdExec_buffered {popen : Bool} {scripts : List Script} {consoleCmd : CString}
    {arg : DeviceId} : (cmdExec popen (cmdCreate consoleCmd arg) scripts).1.Buffered junk := by
  have hcreated := cmdCreate_hasBuffer consoleCmd arg
  cases popen with
  | true => exact ⟨[],_,rfl,hcreated.of_same rfl rfl rfl⟩
  | false => exact ⟨[],_,rfl,hcreated.of_same rfl rfl rfl⟩

theorem cmdClose_same (cmd : Cmd) (scripts : List Script) :
    (cmdClose cmd scripts).1.resp = cmd.resp ∧
      (cmdClose cmd scripts).1.respAlloc = cmd.respAlloc ∧
      (cmdClose cmd scripts).1.respBufSize = cmd.respBufSize := by
  unfold cmdClose
  cases cmd.pp <;> exact ⟨rfl,rfl,rfl⟩

theorem cmdAppend_buffered (h : cmd.Buffered junk) {cmd' : Cmd} {c : Char}
    (happend : cmdAppend cmd c = some cmd') : cmd'.Buffered junk := by
  obtain ⟨output,buffer,hrun,hbuffer⟩ := h
  obtain ⟨hstored,hoverrun⟩ := @cmdAppend_refines junk cmd buffer c hbuffer
  cases hstep : respIncoming junk buffer c with
  | ok buffer' =>
    obtain ⟨cmd'',happend',hbuffer'⟩ := hstored buffer' hstep
    rw [happend] at happend'
    cases happend'
    exact ⟨output ++ [c],buffer',by rw [respAfter_concat,hrun]; exact hstep,hbuffer'⟩
  | error e =>
    rw [hoverrun e hstep] at happend
    cases happend

end Commands

section Worker
variable {junk : Nat → Char} {execdir : CString} {s s' : VeluxState}

theorem VeluxState.Buffered.update (h : s.Buffered junk) {d : DeviceId} {cmd : Option Cmd}
    (hs' : s'.cmd = Function.update s.cmd d cmd) (hcmd : ∀ cmd' ∈ cmd, cmd'.Buffered junk) :
    s'.Buffered junk := by
  intro d' cmd' hd'
  rw [hs'] at hd'
  by_cases hsame : d' = d
  · subst hsame
    rw [Function.update_self] at hd'
    exact hcmd cmd' hd'
  · rw [Function.update_of_ne hsame] at hd'
    exact h d' cmd' hd'

theorem close_buffered (h : s.Buffered junk) {d : DeviceId} {cmd : Cmd} (hd : s.cmd d = some cmd) :
    (s.close d cmd).Buffered junk := by
  obtain ⟨output,buffer,hrun,hbuffer⟩ := h d cmd hd
  refine @VeluxState.Buffered.update _ _ (s.close d cmd) h d (some _) rfl (fun cmd' hcmd' => ?_)
  cases hcmd'
  obtain ⟨hresp,halloc,hsize⟩ := cmdClose_same cmd s.scripts
  exact ⟨output,buffer,hrun,hbuffer.of_same hresp halloc hsize⟩

theorem cmdCb_cmd (d : DeviceId) (s : VeluxState) :
    (veluxKlf200CmdCb d s).cmd = s.cmd ∨
      (veluxKlf200CmdCb d s).cmd = Function.update s.cmd d none := by
  unfold veluxKlf200CmdCb
  extract_lets s₁ s₂
  -- What comes before `cmd_destroy` leaves the commands alone.
  have hsame : s₂.cmd = s.cmd := by
    change s₁.cmd = s.cmd
    unfold s₁
    split
    · split <;> rfl
    · rfl
  split
  · exact .inr (congrArg (fun cmds => Function.update cmds d none) hsame)
  · exact .inl hsame

theorem cmdCb_buffered (h : s.Buffered junk) (d : DeviceId) :
    (veluxKlf200CmdCb d s).Buffered junk := by
  rcases cmdCb_cmd d s with hsame | hnone
  · unfold VeluxState.Buffered
    rw [hsame]
    exact h
  · exact h.update hnone (by simp)

theorem worker_buffered (h : s.Buffered junk) (popen : Bool) :
    (veluxKlf200Worker execdir popen s).Buffered junk := by
  unfold veluxKlf200Worker
  split
  · exact h
  · rcases @veluxKlf200WorkerLoop_turn execdir popen s.klf200Devices s with
      ⟨hsame,-⟩ | ⟨d,klf200,-,-,hchanged,hturn⟩
    · rwa [hsame]
    · rw [hturn,veluxKlf200WorkerCheckVelux,if_pos hchanged]
      exact @VeluxState.Buffered.update junk s _ h d (some _) rfl (fun cmd' hcmd' =>
        Option.some.inj hcmd' ▸ cmdExec_buffered)

theorem veluxStep_buffered (h : s.Buffered junk) {input : VeluxInput}
    (hstep : veluxStep execdir input s = some s') : s'.Buffered junk := by
  cases input with
  | exec device action =>
    simp only [veluxStep] at hstep
    split at hstep
    · cases hstep
      exact h
    · cases hstep
  | tick popen =>
    cases hstep
    exact worker_buffered h popen
  | incoming device revents =>
    simp only [veluxStep] at hstep
    cases hcmd : s.cmd device with
    | none => simp [hcmd] at hstep
    | some cmd =>
      simp only [hcmd] at hstep
      split at hstep
      · cases revents with
        | hangUp =>
          cases hstep
          exact cmdCb_buffered (close_buffered h hcmd) _
        | eof =>
          cases hstep
          exact close_buffered h hcmd
        | data c =>
          obtain ⟨cmd',happend,hs'⟩ := Option.bind_eq_some_iff.mp hstep
          cases hs'
          exact @VeluxState.Buffered.update junk s _ h device (some cmd') rfl (fun cmd'' hcmd'' =>
            Option.some.inj hcmd'' ▸ cmdAppend_buffered (h device cmd hcmd) happend)
      · cases hstep

/-- A command takes what comes, a byte while the recorded size is below the limit. -/
theorem incoming_returns (h : s.Buffered junk) {d : DeviceId} {cmd : Cmd} {revents : Incoming}
    (hd : s.cmd d = some cmd) (hevent : cmd.event = true)
    (hlimit : ∀ c, revents = .data c → cmd.respBufSize < maxResSize) :
    ∃ s', veluxStep execdir (.incoming d revents) s = some s' := by
  simp only [veluxStep,hd,if_pos hevent]
  cases revents with
  | hangUp => exact ⟨_,rfl⟩
  | eof => exact ⟨_,rfl⟩
  | data c =>
    obtain ⟨output,buffer,hrun,hbuffer⟩ := h d cmd hd
    obtain ⟨hshort,hfilled⟩ := respAfter_below hrun (hbuffer.respBufSize ▸ hlimit c rfl)
    obtain ⟨buffer',hstep⟩ := filled_takes hfilled hshort c
    obtain ⟨cmd',happend,-⟩ := (@cmdAppend_refines junk cmd buffer c hbuffer).1 buffer' hstep
    exact ⟨_,by rw [cmdIncomingData,happend]; rfl⟩

end Worker

section Runs
variable {junk : Nat → Char} {execdir : CString} {rules : List Rule} {p p' : Program}

theorem step_buffered (h : p.velux.Buffered junk) {input : ProgramInput}
    (hstep : ProgramSteps execdir rules input p p') : p'.velux.Buffered junk := by
  obtain ⟨fuel,hstep⟩ := hstep
  cases input with
  | house input =>
    obtain ⟨house,-,rfl⟩ := Option.map_eq_some_iff.mp hstep
    exact h
  | worker popen =>
    have hworker : (veluxStep execdir (.tick popen) p.velux).map p.setVelux = some p' := hstep
    obtain ⟨velux,hvelux,rfl⟩ := Option.map_eq_some_iff.mp hworker
    exact veluxStep_buffered h hvelux
  | incoming device revents =>
    obtain ⟨velux,hvelux,rfl⟩ := Option.map_eq_some_iff.mp hstep
    exact veluxStep_buffered h hvelux
  | queue =>
    cases hstep
    exact h

/-- In every run after a start, every command has the buffer that some output has left. -/
theorem Boots.buffered {outside : Surroundings} {files : List (List Char)} {s : Serialisation}
    {file : Option s.File} {devices : List Device} (hboots : Boots outside files s file devices p)
    (hrun : Relation.ReflTransGen (fun p p' => ∃ input, ProgramSteps execdir rules input p p')
      p p') : p'.velux.Buffered junk := by
  induction hrun with
  | refl =>
    cases hboots
    intro d cmd hcmd
    cases hcmd
  | tail _ hstep ih =>
    obtain ⟨input,hstep⟩ := hstep
    exact step_buffered ih hstep

end Runs

end DomoticaEngine
