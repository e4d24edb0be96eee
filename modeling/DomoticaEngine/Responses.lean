import DomoticaEngine.Library.Runs
import DomoticaEngine.ResponseBuffer

/-!
From the pipe of a command to its response callback: one byte for every time that the pipe is
ready.
-/

set_option autoImplicit false

namespace DomoticaEngine

/-- What the command has written and the program not read, in the pipe and in the buffer of its
stream. `hungUp` is whether the program has been told of the end. -/
structure Pipe where
  buffered : List Char
  unread : List Char
  closed : Bool
  hungUp : Bool
  deriving DecidableEq, Repr

def Pipe.start : Pipe := ⟨[],[],false,false⟩

inductive PipeInput where
  | write (bytes : List Char)
  | close
  | poll (n : Nat)
  deriving DecidableEq, Repr

/-- `fgetc`. With an empty buffer it reads from the pipe, which gives up to `n`+1 bytes. -/
def fgetc (n : Nat) (pipe : Pipe) : Incoming × Pipe :=
  match pipe.buffered with
  | c :: buffered => (.data c,{ pipe with buffered := buffered })
  | [] =>
    match pipe.unread with
    | c :: unread => (.data c,{ pipe with buffered := unread.take n, unread := unread.drop n })
    | [] => (.eof,pipe)

def readiness (n : Nat) (pipe : Pipe) : Incoming × Pipe :=
  if pipe.closed then (.hangUp,{ pipe with hungUp := true }) else fgetc n pipe

/-- The command writes, or ends; the program is called when the pipe is ready, until it has been
told of the end. -/
def pipeStep (input : PipeInput) (pipe : Pipe) : Option Pipe :=
  match input with
  | .write bytes =>
    if pipe.closed then none else some { pipe with unread := pipe.unread ++ bytes }
  | .close => if pipe.closed then none else some { pipe with closed := true }
  | .poll n =>
    if !pipe.hungUp && (pipe.closed || !pipe.unread.isEmpty) then some (readiness n pipe).2
    else none

/-- The calls of `cmd_incoming_data`. -/
def callbacks : List PipeInput → Pipe → List Incoming
  | [], _ => []
  | input :: inputs, pipe =>
    let called :=
      match input with
      | .poll n => [(readiness n pipe).1]
      | _ => []
    match pipeStep input pipe with
    | some pipe => called ++ callbacks inputs pipe
    | none => []

structure BufferedCmd where
  buffer : RespBuffer
  done : Bool
  event : Bool
  responses : List (List Char)

/-- After cmd_create and cmd_exec. -/
def BufferedCmd.start : BufferedCmd := ⟨.start,false,true,[]⟩

/-- `cmd_incoming_data`, with any response callback. -/
def bufferedIncoming (junk : Nat → Char) (cmd : BufferedCmd) (revents : Incoming) :
    Except Fault BufferedCmd :=
  match revents with
  | .hangUp => .ok { cmd with
      done := true, event := false,
      responses := cmd.responses ++ [cmd.buffer.resp.take cmd.buffer.respSize] }
  | .eof => .ok { cmd with done := true, event := false }
  | .data c => (respIncoming junk cmd.buffer c).map (fun buffer => { cmd with buffer := buffer })

def bufferedRun (junk : Nat → Char) (calls : List Incoming) : Except Fault BufferedCmd :=
  calls.foldlM (bufferedIncoming junk) .start

def PipeInput.written : PipeInput → List Char
  | .write bytes => bytes
  | _ => []

def output (inputs : List PipeInput) : List Char := inputs.flatMap PipeInput.written

def readyCount : List PipeInput → Nat
  | [] => 0
  | .write _ :: inputs => readyCount inputs
  | .close :: _ => 0
  | .poll _ :: inputs => readyCount inputs+1

section Steps
variable {junk : Nat → Char} {pipe pipe' : Pipe} {cmd : BufferedCmd} {text : List Char}

/-- A pipe that is ready gives the next byte of what is on its way. -/
theorem fgetc_next (n : Nat) (h : pipe.unread ≠ []) :
    ∃ c next, fgetc n pipe = (.data c,next) ∧
      pipe.buffered ++ pipe.unread = c :: (next.buffered ++ next.unread) ∧
      next.closed = pipe.closed ∧ next.hungUp = pipe.hungUp := by
  unfold fgetc
  cases hbuffered : pipe.buffered with
  | cons c buffered => exact ⟨c,_,rfl,rfl,rfl,rfl⟩
  | nil =>
    cases hunread : pipe.unread with
    | nil => exact absurd hunread h
    | cons c unread =>
      refine ⟨c,_,rfl,?_,rfl,rfl⟩
      simp [List.take_append_drop]

theorem hungUp_ends {inputs : List PipeInput} (hclosed : pipe.closed = true)
    (hhungUp : pipe.hungUp = true) (hrun : Runs.after pipeStep inputs pipe = some pipe') :
    inputs = [] := by
  cases inputs with
  | nil => rfl
  | cons input inputs =>
    obtain ⟨next,hstep,-⟩ := Runs.after_cons.mp hrun
    cases input <;> simp [pipeStep,hclosed,hhungUp] at hstep

theorem closed_calls {inputs : List PipeInput} (hclosed : pipe.closed = true)
    (hhungUp : pipe.hungUp = false) (hrun : Runs.after pipeStep inputs pipe = some pipe')
    (hdone : pipe'.hungUp = true) :
    callbacks inputs pipe = [.hangUp] ∧ output inputs = [] := by
  obtain ⟨buffered,unread,closed,hungUp⟩ := pipe
  simp only at hclosed hhungUp
  subst hclosed hhungUp
  cases inputs with
  | nil =>
    cases hrun
    cases hdone
  | cons input inputs =>
    obtain ⟨next,hstep,hrest⟩ := Runs.after_cons.mp hrun
    cases input with
    | write bytes => simp [pipeStep] at hstep
    | close => simp [pipeStep] at hstep
    | poll n =>
      simp only [pipeStep,readiness,Bool.not_false,Bool.true_or,Bool.and_self,if_true,
        Option.some.injEq] at hstep
      subst hstep
      have hnil := hungUp_ends rfl rfl hrest
      subst hnil
      simp [callbacks,readiness,pipeStep,output,PipeInput.written]

/-- A poll of a pipe that is open takes one byte. -/
theorem open_poll {n : Nat} (hclosed : pipe.closed = false) (hhungUp : pipe.hungUp = false)
    (hstep : pipeStep (.poll n) pipe = some pipe') :
    ∃ c, (∀ inputs, callbacks (.poll n :: inputs) pipe = .data c :: callbacks inputs pipe') ∧
      pipe.buffered ++ pipe.unread = c :: (pipe'.buffered ++ pipe'.unread) ∧
      pipe'.closed = false ∧ pipe'.hungUp = false := by
  have hunread : pipe.unread ≠ [] := by
    intro hnil
    simp [pipeStep,hclosed,hnil] at hstep
  obtain ⟨c,next,hread,hbytes,hclosed',hhungUp'⟩ := fgetc_next n hunread
  have hready : readiness n pipe = (.data c,next) := by simp [readiness,hclosed,hread]
  have hnext : pipeStep (.poll n) pipe = some next := by
    simp [pipeStep,hhungUp,hunread,hready]
  cases hnext.symm.trans hstep
  refine ⟨c,fun inputs => ?_,hbytes,hclosed'.trans hclosed,hhungUp'.trans hhungUp⟩
  simp [callbacks,hnext,hready]

/-- A byte that is called in is stored, as long as there is room. -/
theorem byte_stored (c : Char) (hfilled : cmd.buffer.Filled text)
    (hroom : text.length+1 < 130*1024) :
    ∃ buffer, bufferedIncoming junk cmd (.data c) = .ok { cmd with buffer := buffer } ∧
      buffer.Filled (text ++ [c]) := by
  obtain ⟨buffer,hstore,hfilled',-,-⟩ :=
    @filled_step junk _ _ c hfilled ((capacity_limit _).mpr hroom)
  refine ⟨buffer,?_,hfilled'⟩
  simp [bufferedIncoming,hstore,Except.map]

/-- Induction on the run, with what has been stored so far: the response is what could be read
until the command ended. -/
theorem open_run {inputs : List PipeInput} (hclosed : pipe.closed = false)
    (hhungUp : pipe.hungUp = false) (hfilled : cmd.buffer.Filled text)
    (hnone : cmd.responses = [])
    (hshort : (text ++ (pipe.buffered ++ pipe.unread) ++ output inputs).length < 130*1024)
    (hrun : Runs.after pipeStep inputs pipe = some pipe') (hdone : pipe'.hungUp = true) :
    ∃ cmd' response, (callbacks inputs pipe).foldlM (bufferedIncoming junk) cmd = .ok cmd' ∧
      cmd'.responses = [response] ∧
      response <+: text ++ (pipe.buffered ++ pipe.unread) ++ output inputs ∧
      response.length = text.length+readyCount inputs := by
  induction inputs generalizing pipe cmd text with
  | nil =>
    cases hrun
    rw [hhungUp] at hdone
    cases hdone
  | cons input inputs ih =>
    obtain ⟨next,hstep,hrest⟩ := Runs.after_cons.mp hrun
    cases input with
    | write bytes =>
      have hcalls : callbacks (.write bytes :: inputs) pipe = callbacks inputs next := by
        simp [callbacks,hstep]
      simp only [pipeStep,hclosed,Bool.false_eq_true,if_false,Option.some.injEq] at hstep
      subst hstep
      have htotal : text ++ (pipe.buffered ++ pipe.unread) ++ output (.write bytes :: inputs) =
          text ++ (pipe.buffered ++ (pipe.unread ++ bytes)) ++ output inputs := by
        simp [output,PipeInput.written,List.append_assoc]
      rw [hcalls]
      simp only [htotal] at hshort ⊢
      exact @ih ⟨pipe.buffered,pipe.unread ++ bytes,false,pipe.hungUp⟩ _ _ rfl hhungUp hfilled
        hnone hshort hrest
    | close =>
      have hcalls : callbacks (.close :: inputs) pipe = callbacks inputs next := by
        simp [callbacks,hstep]
      simp only [pipeStep,hclosed,Bool.false_eq_true,if_false,Option.some.injEq] at hstep
      subst hstep
      obtain ⟨hlast,-⟩ := @closed_calls { pipe with closed := true } _ _ rfl hhungUp hrest hdone
      rw [hcalls,hlast]
      refine ⟨_,text,rfl,?_,?_,rfl⟩
      · simp [hnone,hfilled.respSize,hfilled.stored]
      · rw [List.append_assoc]
        exact List.prefix_append _ _
    | poll n =>
      obtain ⟨c,hcalls,hbytes,hclosed',hhungUp'⟩ := open_poll hclosed hhungUp hstep
      have htotal : text ++ (pipe.buffered ++ pipe.unread) ++ output (.poll n :: inputs) =
          text ++ [c] ++ (next.buffered ++ next.unread) ++ output inputs := by
        simp [hbytes,output,PipeInput.written,List.append_assoc]
      rw [hcalls,List.foldlM_cons]
      simp only [htotal] at hshort ⊢
      have hroom : text.length+1 < 130*1024 := by
        simp only [List.length_append,List.length_singleton] at hshort
        omega
      obtain ⟨buffer,hstored,hfilled'⟩ := @byte_stored junk _ _ c hfilled hroom
      obtain ⟨cmd',response,hrun',hresponses,hbegins,hlength⟩ :=
        @ih _ { cmd with buffer := buffer } _ hclosed' hhungUp' hfilled' hnone hshort hrest
      refine ⟨cmd',response,?_,hresponses,hbegins,?_⟩
      · rw [hstored]
        exact hrun'
      · rw [hlength,readyCount,List.length_append,List.length_singleton]
        omega

theorem bufferedRun_spec {inputs : List PipeInput} (hshort : (output inputs).length < 130*1024)
    (hrun : Runs.after pipeStep inputs .start = some pipe) (hdone : pipe.hungUp = true) :
    ∃ cmd response, bufferedRun junk (callbacks inputs .start) = .ok cmd ∧
      cmd.responses = [response] ∧
      (response = output inputs ↔ readyCount inputs = (output inputs).length) := by
  obtain ⟨cmd,response,hcalls,hresponses,hbegins,hlength⟩ :=
    @open_run junk .start pipe .start [] inputs rfl rfl start_filled rfl
      (by simpa [Pipe.start] using hshort) hrun hdone
  simp only [Pipe.start,List.append_nil,List.nil_append] at hbegins
  simp only [List.length_nil,Nat.zero_add] at hlength
  refine ⟨cmd,response,hcalls,hresponses,?_⟩
  rw [← hlength]
  exact ⟨fun heq => congrArg List.length heq,fun heq => hbegins.eq_of_length heq⟩

/-- With fewer or more polls than bytes, the response is another text. -/
theorem bufferedRun_cut {inputs : List PipeInput}
    (hrun : Runs.after pipeStep inputs .start = some pipe) (hdone : pipe.hungUp = true)
    (hshort : (output inputs).length < 130*1024)
    (hcount : readyCount inputs ≠ (output inputs).length) :
    ∃ cmd, bufferedRun junk (callbacks inputs .start) = .ok cmd ∧
      cmd.responses ≠ [output inputs] := by
  obtain ⟨cmd,response,hcalls,hresponses,hiff⟩ := @bufferedRun_spec junk _ _ hshort hrun hdone
  refine ⟨cmd,hcalls,?_⟩
  rw [hresponses]
  simpa [hiff] using hcount

end Steps

/-- However the output of a command is written and polled, its response callback is called once;
it gets the whole output exactly when the pipe is ready once for every byte before the command
ends. -/
theorem response_complete_iff (junk : Nat → Char) (inputs : List PipeInput) (pipe : Pipe)
    (hrun : Runs.after pipeStep inputs .start = some pipe) (hdone : pipe.hungUp = true)
    (hshort : (output inputs).length < maxResSize-1024) :
    ∃ cmd, bufferedRun junk (callbacks inputs .start) = .ok cmd ∧ cmd.responses.length = 1 ∧
      (cmd.responses = [output inputs] ↔ readyCount inputs = (output inputs).length) := by
  have hlimit : maxResSize-1024 < 130*1024 := by decide
  obtain ⟨cmd,response,hcalls,hresponses,hiff⟩ :=
    @bufferedRun_spec junk pipe inputs (Nat.lt_trans hshort hlimit) hrun hdone
  refine ⟨cmd,hcalls,by rw [hresponses]; rfl,?_⟩
  rw [hresponses,List.singleton_inj]
  exact hiff

/-- A command that waits until each of its bytes has been read. -/
def slowCommand : List PipeInput :=
  [.write ['o'],.poll 4095,.write ['k'],.poll 4095,.close,.poll 4095]

theorem response_complete_slow :
    ∃ cmd, bufferedRun (fun _ => nul) (callbacks slowCommand .start) = .ok cmd ∧
      cmd.responses.length = 1 ∧ (cmd.responses = [output slowCommand] ↔
        readyCount slowCommand = (output slowCommand).length) :=
  response_complete_iff (fun _ => nul) slowCommand _ rfl rfl (by decide)

/-- The usual command: it writes its output and ends. When the whole output is read into the buffer
of the stream at once, only its first byte is looked at; when it ends first, none is. -/
def usualCommand : List PipeInput := [.write ['o','k'],.poll 4095,.close,.poll 4095]
def quickCommand : List PipeInput := [.write ['o','k'],.close,.poll 4095]

theorem response_cut :
    (∃ pipe, Runs.after pipeStep usualCommand .start = some pipe ∧ pipe.hungUp = true) ∧
    (∃ cmd, bufferedRun (fun _ => nul) (callbacks usualCommand .start) = .ok cmd ∧
      cmd.responses ≠ [output usualCommand]) ∧
    (∃ pipe, Runs.after pipeStep quickCommand .start = some pipe ∧ pipe.hungUp = true) ∧
    ∃ cmd, bufferedRun (fun _ => nul) (callbacks quickCommand .start) = .ok cmd ∧
      cmd.responses ≠ [output quickCommand] := by
  have husual : Runs.after pipeStep usualCommand .start = some _ := rfl
  have hquick : Runs.after pipeStep quickCommand .start = some _ := rfl
  exact ⟨⟨_,husual,rfl⟩,bufferedRun_cut husual rfl (by decide) (by decide),⟨_,hquick,rfl⟩,
    bufferedRun_cut hquick rfl (by decide) (by decide)⟩

end DomoticaEngine
