import DomoticaEngine.World

set_option autoImplicit false

namespace DomoticaEngine

/-- A process that `popen` started, for the device that the response is for. -/
structure Script where
  owner : DeviceId
  command : CString
  running : Bool
  deriving DecidableEq, Repr

/-- `pp` is the position of the process among all that were started. The response is the
text up to `resp_size`; `respAlloc` is the size of its buffer, which `resp_buf_size` passes
when the response is too big. -/
structure Cmd where
  cmd : CString
  resp : List Char
  respAlloc : Nat
  respBufSize : Nat
  rv : Int
  done : Bool
  pp : Option Nat
  event : Bool
  respCbArg : DeviceId
  deriving DecidableEq, Repr

def maxResSize : Nat := 128*1042

def cmdCreate (consoleCmd : CString) (arg : DeviceId) : Cmd :=
  { cmd := consoleCmd, resp := [], respAlloc := 0, respBufSize := 0, rv := 0, done := false,
    pp := none, event := false, respCbArg := arg }

/-- `pclose` waits until the process has ended. -/
def pclose (scripts : List Script) (i : Nat) : List Script :=
  scripts.modify i (fun script => { script with running := false })

def cmdClose (cmd : Cmd) (scripts : List Script) : Cmd × List Script :=
  let cmd := { cmd with event := false }
  match cmd.pp with
  | some i => ({ cmd with pp := none },pclose scripts i)
  | none => (cmd,scripts)

/-- `popen` is what popen answers: whether there is a new process. -/
def cmdExec (popen : Bool) (cmd : Cmd) (scripts : List Script) : Cmd × List Script :=
  let cmd := { cmd with done := false, rv := -1 }
  if popen then
    ({ cmd with pp := some scripts.length, event := true },
      scripts ++ [⟨cmd.respCbArg,cmd.cmd,true⟩])
  else ({ cmd with resp := [], respAlloc := 0, respBufSize := 0 },scripts)

def cmdStoreChar (cmd : Cmd) (c : Char) : Option Cmd :=
  if cmd.resp.length+1 < cmd.respAlloc then some { cmd with resp := cmd.resp ++ [c] } else none

/-- The last part of `cmd_incoming_data`. A character outside the buffer has no result. -/
def cmdAppend (cmd : Cmd) (c : Char) : Option Cmd :=
  if cmd.resp.length+1 ≥ cmd.respBufSize then
    let cmd := { cmd with respBufSize := cmd.respBufSize+1024 }
    if cmd.respBufSize ≥ maxResSize then some cmd
    else cmdStoreChar { cmd with respAlloc := cmd.respBufSize } c
  else cmdStoreChar cmd c

/-- The devices, the VELUX-KLF200 ones among them in `klf200Devices`, with the fields of their
records that only the worker uses. -/
structure VeluxState where
  world : World
  klf200Devices : List DeviceId
  inProgress : Option DeviceId
  targetValue : DeviceId → Int
  cmd : DeviceId → Option Cmd
  scripts : List Script

/-- What `cmd_incoming_data` finds: POLLHUP, or what `fgetc` gives. -/
inductive Incoming where
  | hangUp
  | data (c : Char)
  | eof
  deriving DecidableEq, Repr

inductive VeluxInput where
  | exec (device : DeviceId) (action : Action)
  | tick (popen : Bool)
  | incoming (device : DeviceId) (revents : Incoming)
  deriving DecidableEq, Repr

def veluxPosition (value : Int) : Int := if value = 0 then 0 else 100

/-- `"%s/velux-klf200.sh %s %s %d %d"`. -/
def veluxCommand (execdir : CString) (klf200 : DeviceVeluxKlf200) (position : Int) : CString :=
  execdir ++ "/velux-klf200.sh ".toList ++ klf200.hostname ++ " ".toList ++ klf200.password ++
    " ".toList ++ (toString (wrap 32 klf200.address.toNat)).toList ++ " ".toList ++
    (toString position).toList

/-- `velux_klf200_cmd_cb`. -/
def veluxKlf200CmdCb (device : DeviceId) (s : VeluxState) : VeluxState :=
  let s :=
    match s.world.userdata device with
    | .veluxKlf200 klf200 =>
      if s.targetValue device = klf200.actualValue then
        { s with world :=
          s.world.setUserdata device (.veluxKlf200 { klf200 with changed := false }) }
      else s
    | _ => s
  let s := { s with inProgress := none }
  -- cmd_destroy
  match s.cmd device with
  | some cmd =>
    { s with scripts := (cmdClose cmd s.scripts).2, cmd := Function.update s.cmd device none }
  | none => s

def VeluxState.close (s : VeluxState) (device : DeviceId) (cmd : Cmd) : VeluxState :=
  let (cmd,scripts) := cmdClose cmd s.scripts
  { s with cmd := Function.update s.cmd device (some { cmd with done := true }),
           scripts := scripts }

/-- `cmd_incoming_data`, for the command of a device. -/
def cmdIncomingData (device : DeviceId) (cmd : Cmd) (revents : Incoming) (s : VeluxState) :
    Option VeluxState :=
  match revents with
  | .hangUp => some (veluxKlf200CmdCb cmd.respCbArg (s.close device cmd))
  | .eof => some (s.close device cmd)
  | .data c => do
    let cmd ← cmdAppend cmd c
    return { s with cmd := Function.update s.cmd device (some cmd) }

section Worker
variable (execdir : CString) (popen : Bool)

def veluxKlf200WorkerCheckVelux (device : DeviceId) (klf200 : DeviceVeluxKlf200)
    (s : VeluxState) : VeluxState :=
  if klf200.changed then
    let s := { s with inProgress := some device }
    let cmd := cmdCreate (veluxCommand execdir klf200 (veluxPosition klf200.actualValue)) device
    let s := { s with targetValue := Function.update s.targetValue device klf200.actualValue }
    let (cmd,scripts) := cmdExec popen cmd s.scripts
    { s with cmd := Function.update s.cmd device (some cmd), scripts := scripts }
  else s

/-- The loop of `velux_klf200_worker`. -/
def veluxKlf200WorkerLoop : List DeviceId → VeluxState → VeluxState
  | [], s => s
  | device :: devices, s =>
    match s.world.userdata device with
    | .veluxKlf200 klf200 =>
      if klf200.changed then
        let s := veluxKlf200WorkerCheckVelux execdir popen device klf200 s
        if s.inProgress.isSome then s else veluxKlf200WorkerLoop devices s
      else veluxKlf200WorkerLoop devices s
    | _ => veluxKlf200WorkerLoop devices s

def veluxKlf200Worker (s : VeluxState) : VeluxState :=
  if s.inProgress.isSome then s else veluxKlf200WorkerLoop execdir popen s.klf200Devices s

end Worker

/-- One step. The pipe of a command is only looked at while its event is registered. -/
def veluxStep (execdir : CString) : VeluxInput → VeluxState → Option VeluxState
  | .exec device action, s =>
    match s.world.userdata device with
    | .veluxKlf200 klf200 =>
      some { s with world := veluxKlf200DeviceExec device klf200 action s.world }
    | _ => none
  | .tick popen, s => some (veluxKlf200Worker execdir popen s)
  | .incoming device revents, s =>
    match s.cmd device with
    | some cmd => if cmd.event then cmdIncomingData device cmd revents s else none
    | none => none

def VeluxState.start (world : World) (klf200Devices : List DeviceId) : VeluxState :=
  { world := world, klf200Devices := klf200Devices, inProgress := none,
    targetValue := fun _ => 0, cmd := fun _ => none, scripts := [] }

end DomoticaEngine
