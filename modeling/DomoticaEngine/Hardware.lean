import DomoticaEngine.Dht22Logging
import DomoticaEngine.EltakoReceive
import DomoticaEngine.EventVocabulary
import DomoticaEngine.GpioDelivery
import DomoticaEngine.Soltracker

/-!
The program with its hardware: the serial port, the pins, the sensors and the sun. What the engine
hears of them is what the inputs of the program stand for.
-/

set_option autoImplicit false

namespace DomoticaEngine

section Trackers
variable {σ : Type}

/-- No rule reads the options of an event. -/
def sunTrigger (around : Around σ) (event : SunEvent) (s : Option σ) : Option σ :=
  s.bind (around.trigger event.type)

def soltrackerCheckAllTrackers (around : DeviceId → Around σ)
    (position : DeviceId → ℚ → ℚ → ℚ × ℚ) :
    List (DeviceId × Soltracker) → σ → Option (List (DeviceId × Soltracker) × σ)
  | [], s => some ([],s)
  | (device,st) :: trackers, s => do
    let (st,s) := soltrackerCheckTracker (sunTrigger (around device)) (position device) st (some s)
    let s ← s
    let (trackers,s) ← soltrackerCheckAllTrackers around position trackers s
    return ((device,st) :: trackers,s)

end Trackers

structure Running where
  program : Program
  readings : Nat

/-- `device_trigger_event` and `get_current_time_ms`, for such a callback. -/
def Running.around (trigger : Trigger) (clock : Nat → UInt64) (d : DeviceId) : Around Running where
  trigger type s := (deviceTriggerEvent trigger d type s.program.world).map (fun w =>
    { s with program := s.program.setWorld w })
  getCurrentTimeMs s := (clock s.readings,{ s with readings := s.readings+1 })

/-- The data of the FTS14EM devices by their places in the device list, of the GPI devices, of the
trackers and of the DHT22 sensors, with the receiver of the serial port. -/
structure Machine (ρ : Type) where
  program : Program
  receiver : ρ
  buttons : List (Option Fts14emDevice)
  inputs : DeviceId → GpioT
  pressTimers : Slots GpioTimer
  trackers : List (DeviceId × Soltracker)
  sensors : List (DeviceId × Dht22)
  logs : List DeviceLog
  due : Nat

def Machine.running {ρ : Type} (m : Machine ρ) : Running := ⟨m.program,0⟩

def Machine.gpio {ρ : Type} (m : Machine ρ) : GpioDevices Running :=
  ⟨m.inputs,m.pressTimers,m.running⟩

def Machine.setGpio {ρ : Type} (m : Machine ρ) (s : GpioDevices Running) : Machine ρ :=
  { m with inputs := s.inputs, pressTimers := s.timers, program := s.outside.program }

/-- What happens to the machine: what happens to the engine by itself, data on the serial port, an
edge on a pin, the end of a timer of a GPI device, a look at the sun, a measurement of the worker,
a round of the measurements. -/
inductive HardwareInput where
  | program (input : ProgramInput)
  | serial (read : Nat → ReadResult) (turns : Nat)
  | edge (fd : Int) (buf0 : Char)
  | pressed (device : DeviceId) (t : Nat)
  | sun (position : DeviceId → ℚ → ℚ → ℚ × ℚ)
  | measured (sensor : Nat) (temperature humidity : Double)
  | measure (now : Nat)

def ProgramInput.isHeard : ProgramInput → Bool
  | .house (.plain _ _) => true
  | _ => false

section Steps
variable {ρ φ μ : Type} (eltako : Libeltako ρ φ μ) (scripts : Option (List (CString × Bool)))
  (execdir : CString) (devices : List Device)

def eltakoRunning (trigger : Trigger) (clock : Nat → UInt64) : EltakoOutside μ Running where
  around := Running.around trigger clock
  readdir _ := scripts
  runScript _ _ _ s := some s

def gpioTimerCallback (around : Around Running) (t : Nat) (timer : GpioTimer)
    (s : GpioState Running) : Option (GpioState Running) :=
  match timer.callback with
  | .dimPressTimer => gpioInputDimPressTimerCb around t timer.due s
  | .shortPressTimer => gpioInputShortPressTimerCb around t s

def hardwareStep (trigger : Trigger) (clock : Nat → UInt64) (input : HardwareInput)
    (m : Machine ρ) : Option (Machine ρ) :=
  match input with
  | .program input =>
    if input.isHeard then none
    else (programStep execdir trigger input m.program).map (fun p => { m with program := p })
  | .serial read turns =>
    (incomingEltakoData eltako (eltakoRunning scripts trigger clock) read turns 0 m.receiver
      ⟨m.buttons,m.running⟩).map (fun (_,receiver,s) =>
        { m with receiver := receiver, buttons := s.devices, program := s.outside.program })
  | .edge fd buf0 =>
    (gpioInputEdgeDetectedCb (Running.around trigger clock) devices fd buf0 m.gpio).map m.setGpio
  | .pressed device t =>
    match m.pressTimers.get t with
    | none => none
    | some timer =>
      (gpioTimerCallback (Running.around trigger clock device) t timer (m.gpio.device device)).map
        (fun s => m.setGpio (m.gpio.setDevice device s))
  | .sun position =>
    (soltrackerCheckAllTrackers (Running.around trigger clock) position m.trackers m.running).map
      (fun (trackers,s) => { m with trackers := trackers, program := s.program })
  | .measured sensor temperature humidity =>
    some { m with sensors := m.sensors.modify sensor (fun (d,dht22) =>
      (d,{ dht22 with temperature := temperature, humidity := humidity })) }
  | .measure now =>
    (dht22CalculateNextMeasurementMoment (Running.around trigger clock) true now m.sensors
      ⟨m.due,m.logs,m.running⟩).map (fun s =>
        { m with due := s.due, logs := s.logging.logs, program := s.logging.outside.program })

def HardwareSteps (rules : List Rule) (m m' : Machine ρ) : Prop :=
  ∃ fuel clock input, hardwareStep eltako scripts execdir devices (engineTriggerEvent rules fuel)
    clock input m = some m'

end Steps

section Handlers
variable {σ : Type} {R : σ → σ → Prop} {types : List EventType}

structure Around.Keeps (around : Around σ) (types : List EventType) (R : σ → σ → Prop) : Prop where
  trigger : ∀ type ∈ types, ∀ s s', around.trigger type s = some s' → R s s'
  clock : ∀ s, R s (around.getCurrentTimeMs s).2

variable (hrefl : ∀ s, R s s) (htrans : ∀ s t u, R s t → R t u → R s u)
include hrefl htrans

theorem fts14em_keeps {around : Around σ} {status : Nat} {s s' : Fts14emState σ}
    (hkeeps : around.Keeps PlainType.fts14em.events R)
    (h : eltakoFts14emIncomingData around status s = some s') : R s.outside s'.outside := by
  unfold eltakoFts14emIncomingData at h
  split at h
  · obtain ⟨outside,hpress,h⟩ := Option.bind_eq_some_iff.mp h
    cases h
    exact htrans _ _ _ (hkeeps.trigger _ (by decide) _ _ hpress) (hkeeps.clock _)
  · split at h
    · simp only at h
      split at h
      · obtain ⟨outside,hrelease,h⟩ := Option.bind_eq_some_iff.mp h
        obtain ⟨outside',hlength,h⟩ := Option.bind_eq_some_iff.mp h
        cases h
        refine htrans _ _ _ (hkeeps.clock _) (htrans _ _ _ ?_ (hkeeps.trigger _ ?_ _ _ hlength))
        · exact hkeeps.trigger _ (by decide) _ _ hrelease
        · split <;> decide
      · cases h
        exact hrefl _
    · cases h
      exact hrefl _

omit hrefl in
theorem tracker_keeps {around : Around σ} {position : ℚ → ℚ → ℚ × ℚ} {st : Soltracker} {s s' : σ}
    (hkeeps : around.Keeps PlainType.soltracker.events R)
    (h : (soltrackerCheckTracker (sunTrigger around) position st (some s)).2 = some s') :
    R s s' := by
  unfold soltrackerCheckTracker at h
  simp only at h
  split at h
  · obtain ⟨s₁,hsun,hposition⟩ := Option.bind_eq_some_iff.mp h
    refine htrans _ _ _ (hkeeps.trigger _ ?_ _ _ hsun) (hkeeps.trigger .sunPosition (by decide) _ _
      hposition)
    dsimp only
    split <;> decide
  · exact hkeeps.trigger .sunPosition (by decide) _ _ h

theorem trackers_keeps {around : DeviceId → Around σ} {position : DeviceId → ℚ → ℚ → ℚ × ℚ}
    {trackers trackers' : List (DeviceId × Soltracker)} {s s' : σ}
    (hkeeps : ∀ tracker ∈ trackers, (around tracker.1).Keeps PlainType.soltracker.events R)
    (h : soltrackerCheckAllTrackers around position trackers s = some (trackers',s')) :
    R s s' ∧ trackers'.map Prod.fst = trackers.map Prod.fst := by
  induction trackers generalizing s trackers' with
  | nil =>
    cases h
    exact ⟨hrefl _,rfl⟩
  | cons tracker trackers ih =>
    obtain ⟨device,st⟩ := tracker
    simp only [soltrackerCheckAllTrackers,Option.bind_eq_bind,Option.bind_eq_some_iff] at h
    obtain ⟨s₁,hfirst,⟨rest,s₂⟩,hrest,h⟩ := h
    cases h
    obtain ⟨hkept,hsame⟩ := ih (fun t ht => hkeeps t (List.mem_cons_of_mem _ ht)) hrest
    refine ⟨htrans _ _ _ ?_ hkept,congrArg (List.cons device) hsame⟩
    exact tracker_keeps htrans (hkeeps _ List.mem_cons_self) hfirst

theorem measureDevice_keeps {around : DeviceId → Around σ} {sensor : DeviceId × Dht22}
    {s s' : Logging σ} (hkeeps : (around sensor.1).Keeps PlainType.dht22.events R)
    (h : dht22MeasureDevice around s sensor = some s') : R s.outside s'.outside := by
  unfold dht22MeasureDevice at h
  simp only at h
  split at h
  · cases h
    exact hrefl _
  · obtain ⟨outside,htemperature,h⟩ := Option.bind_eq_some_iff.mp h
    obtain ⟨outside',hhumidity,h⟩ := Option.bind_eq_some_iff.mp h
    cases h
    refine htrans _ _ _ (hkeeps.trigger _ (by decide) _ _ htemperature)
      (htrans _ _ _ (hkeeps.trigger _ (by decide) _ _ hhumidity) (hkeeps.clock _))

theorem measureDevices_keeps {around : DeviceId → Around σ} {sensors : List (DeviceId × Dht22)}
    {s s' : Logging σ}
    (hkeeps : ∀ sensor ∈ sensors, (around sensor.1).Keeps PlainType.dht22.events R)
    (h : dht22MeasureDevices around sensors s = some s') : R s.outside s'.outside :=
  Fuel.foldlM_keeps (P := fun s s' : Logging σ => R s.outside s'.outside) (fun _ => hrefl _)
    (fun _ _ _ => htrans _ _ _) sensors
    (fun sensor hsensor _ _ hstep => measureDevice_keeps hrefl htrans (hkeeps sensor hsensor) hstep)
    s s' h

omit hrefl htrans in
theorem set_shape {devices : List (Option Fts14emDevice)} {i : Nat} {old : Fts14emDevice}
    (hi : devices[i]? = some (some old)) (device : Fts14emDevice) :
    (devices.set i (some device)).map Option.isSome = devices.map Option.isSome := by
  rw [List.map_set]
  refine List.ext_getElem? (fun j => ?_)
  by_cases hij : i = j
  · subst hij
    rw [List.getElem?_set_self (by
      rw [List.length_map]
      exact (List.getElem?_eq_some_iff.mp hi).1),List.getElem?_map,hi]
    rfl
  · rw [List.getElem?_set_ne hij]

variable {ρ φ μ : Type} {eltako : Libeltako ρ φ μ} {out : EltakoOutside μ σ} {shape : List Bool}

/-- What a telegram may do, when the buttons are where `shape` says. -/
def SerialKeeps (R : σ → σ → Prop) (shape : List Bool) (s s' : EltakoDevices σ) : Prop :=
  s.devices.map Option.isSome = shape →
    s'.devices.map Option.isSome = shape ∧ R s.outside s'.outside

omit htrans in
theorem serialKeeps_refl (s : EltakoDevices σ) : SerialKeeps R shape s s :=
  fun hshape => ⟨hshape,hrefl _⟩

omit hrefl in
theorem serialKeeps_trans (s t u : EltakoDevices σ) (h : SerialKeeps R shape s t)
    (h' : SerialKeeps R shape t u) : SerialKeeps R shape s u := by
  intro hshape
  obtain ⟨hshape',hfirst⟩ := h hshape
  obtain ⟨hshape'',hrest⟩ := h' hshape'
  exact ⟨hshape'',htrans _ _ _ hfirst hrest⟩

variable (haround : ∀ i : Nat, shape[i]? = some true →
    (out.around i).Keeps PlainType.fts14em.events R)
  (hscripts : ∀ path pre msg s s', out.runScript path pre msg s = some s' → R s s')
include haround

theorem incomingEltakoMsg_keeps {msg : μ} {s s' : EltakoDevices σ}
    (h : incomingEltakoMsg eltako out msg s = some s') : SerialKeeps R shape s s' := by
  unfold incomingEltakoMsg at h
  split at h
  · rename_i i _
    split at h
    · rename_i device hdevice
      obtain ⟨after,hafter,h⟩ := Option.bind_eq_some_iff.mp h
      cases h
      intro hshape
      have hi : shape[i]? = some true := by
        rw [← hshape,List.getElem?_map,hdevice]
        rfl
      exact ⟨(set_shape hdevice after.device).trans hshape,
        fts14em_keeps hrefl htrans (haround i hi) hafter⟩
    · cases h
      exact serialKeeps_refl hrefl s
  · cases h
    exact serialKeeps_refl hrefl s

include hscripts

omit haround in
theorem executeScripts_keeps {frame : φ} {pre : CString} {outside outside' : σ}
    (h : eltakodExecuteScripts eltako out frame pre outside = some outside') :
    R outside outside' := by
  unfold eltakodExecuteScripts at h
  split at h
  · refine Fuel.foldlM_keeps hrefl htrans _ (fun entry _ r r' hentry => ?_) _ _ h
    unfold eltakodExecuteScript at hentry
    split at hentry
    · cases hentry
      exact hrefl _
    · split at hentry
      · exact hscripts _ _ _ _ _ hentry
      · cases hentry
        exact hrefl _
  · cases h
    exact hrefl _

theorem incomingEltakoFrame_keeps {frame : φ} {s s' : EltakoDevices σ}
    (h : incomingEltakoFrame eltako out frame s = some s') : SerialKeeps R shape s s' := by
  have hrest : ∀ s₁, ((eltakodExecuteScripts eltako out frame "RX".toList s₁.outside).bind
      (fun outside => some { s₁ with outside := outside })) = some s' →
        SerialKeeps R shape s₁ s' := by
    intro s₁ h hshape
    obtain ⟨outside,hexecute,h⟩ := Option.bind_eq_some_iff.mp h
    cases h
    exact ⟨hshape,executeScripts_keeps hrefl htrans hscripts hexecute⟩
  unfold incomingEltakoFrame at h
  split at h
  · obtain ⟨s₁,hmsg,h⟩ := Option.bind_eq_some_iff.mp h
    exact serialKeeps_trans htrans s s₁ s'
      (incomingEltakoMsg_keeps hrefl htrans haround hmsg) (hrest s₁ h)
  · exact hrest s h

/-- Induction on the turns of the loop. -/
theorem incomingEltakoData_keeps {read : Nat → ReadResult} {turns n reads : Nat}
    {receiver receiver' : ρ} {s s' : EltakoDevices σ}
    (h : incomingEltakoData eltako out read turns n receiver s = some (reads,receiver',s')) :
    SerialKeeps R shape s s' := by
  induction turns generalizing n receiver s with
  | zero => cases h
  | succ turns ih =>
    rw [incomingEltakoData] at h
    cases hread : read n with
    | error errno =>
      simp only [hread] at h
      split at h
      · cases h
        exact serialKeeps_refl hrefl _
      · exact ih h
    | endOfFile =>
      simp only [hread] at h
      exact ih h
    | data chunk =>
      simp only [hread] at h
      obtain ⟨⟨receiver₁,s₁⟩,hdrain,hrest⟩ := Option.bind_eq_some_iff.mp h
      refine serialKeeps_trans htrans s s₁ s' ?_ (ih hrest)
      exact Drain.drain_keeps (serialKeeps_refl hrefl) (serialKeeps_trans htrans)
        (fun _ _ _ hframe => incomingEltakoFrame_keeps hrefl htrans haround hscripts hframe) hdrain

end Handlers

/-- The machine after the devices are parsed and the technologies are initialised, with what the
parsers read of the FTS14EM, GPI and SOLTRACKER devices. -/
def Machine.start {ρ : Type} (devices : List Device) (p : Program) (receiver : ρ)
    (addresses : DeviceId → UInt32) (inputs : DeviceId → GpioT) (trackers : DeviceId → Soltracker)
    (now : Nat) : Machine ρ :=
  let ofType (type : DeviceType) :=
    (devices.zipIdx.filter (fun entry => entry.1.deviceType = type)).map Prod.snd
  { program := p,
    receiver := receiver,
    buttons := devices.zipIdx.map (fun (device,d) =>
      if device.deviceType = .fts14em then some ⟨addresses d,0⟩ else none),
    inputs := inputs,
    pressTimers := .empty,
    trackers := (ofType .soltracker).map (fun d => (d,trackers d)),
    sensors := (ofType .dht22).map (fun d => (d,⟨.finite false 0,.finite false 0,false⟩)),
    logs := [],
    due := now + dht22UntilNext now }

/-- An input that the hardware can cause: an event of a device that can raise it, other than a GPI
device, whose edges are all lost. -/
def Audible (devices : List Device) (input : ProgramInput) : Prop :=
  Heard devices input ∧ ∀ d type, input = .house (.plain d type) →
    devices[d]?.map Device.userdata ≠ some (.plain .gpi)

def AudibleRun (execdir : CString) (rules : List Rule) (devices : List Device) :
    Program → Program → Prop :=
  Relation.ReflTransGen (fun p p' =>
    ∃ input, Audible devices input ∧ ProgramSteps execdir rules input p p')

structure Wired {ρ : Type} (execdir : CString) (devices : List Device) (m : Machine ρ) : Prop where
  outputs : ProgramOutputs execdir (declared devices) m.program
  buttons : m.buttons.map Option.isSome =
    devices.map (fun device => decide (device.deviceType = .fts14em))
  trackers : ∀ d ∈ m.trackers.map Prod.fst,
    devices[d]?.map Device.userdata = some (.plain .soltracker)
  sensors : ∀ d ∈ m.sensors.map Prod.fst, devices[d]?.map Device.userdata = some (.plain .dht22)
  timers : ∀ t, m.pressTimers.get t = none

section Simulation
variable {ρ φ μ : Type} {eltako : Libeltako ρ φ μ} {scripts : Option (List (CString × Bool))}
  {execdir : CString} {devices : List Device} {rules : List Rule} {p p' : Program}

theorem AudibleRun.outputs (h : AudibleRun execdir rules devices p p')
    (hp : ProgramOutputs execdir (declared devices) p) :
    ProgramOutputs execdir (declared devices) p' := by
  have hle : ∀ p p', (∃ input, Audible devices input ∧ ProgramSteps execdir rules input p p') →
      ∃ input, ProgramSteps execdir rules input p p' :=
    fun _ _ ⟨input,_,hstep⟩ => ⟨input,hstep⟩
  exact hp.run (Relation.ReflTransGen.mono hle _ _ h)

def RunsOn (execdir : CString) (rules : List Rule) (devices : List Device) (s s' : Running) :
    Prop :=
  ProgramOutputs execdir (declared devices) s.program →
    AudibleRun execdir rules devices s.program s'.program

theorem runsOn_refl (s : Running) : RunsOn execdir rules devices s s := fun _ => .refl

theorem runsOn_trans (s t u : Running) (h : RunsOn execdir rules devices s t)
    (h' : RunsOn execdir rules devices t u) : RunsOn execdir rules devices s u :=
  fun hs => (h hs).trans (h' ((h hs).outputs hs))

theorem around_keeps {fuel : Nat} {clock : Nat → UInt64} {d : DeviceId} {plain : PlainType}
    (hplain : devices[d]?.map Device.userdata = some (.plain plain)) (hgpi : plain ≠ .gpi) :
    (Running.around (engineTriggerEvent rules fuel) clock d).Keeps plain.events
      (RunsOn execdir rules devices) where
  trigger type htype s s' h hs := by
    obtain ⟨device,hdevice,hdata⟩ := Option.map_eq_some_iff.mp hplain
    obtain ⟨w,htrigger,rfl⟩ := Option.map_eq_some_iff.mp h
    have hkept : s.program.world.userdata d = .plain plain := by
      have hconfiguration := hs.world.kept d
      rw [declared_device hdevice,hdata] at hconfiguration
      cases hdata' : s.program.world.userdata d with
      | plain plain' =>
        rw [hdata'] at hconfiguration
        exact hconfiguration
      | _ =>
        rw [hdata'] at hconfiguration
        cases hconfiguration
    have hhouse : houseStep (engineTriggerEvent rules fuel) (.plain d type) s.program.house =
        some (s.program.house.setWorld w) := by
      have hdata' : s.program.house.world.userdata d = .plain plain := hkept
      simp only [houseStep,hdata']
      exact congrArg (Option.map _) htrigger
    refine .single ⟨.house (.plain d type),⟨⟨device,hdevice,?_⟩,?_⟩,fuel,?_⟩
    · rw [hdata]
      exact htype
    · rintro d' type' heq
      cases heq
      rw [hplain]
      intro heq
      cases heq
      exact hgpi rfl
    · simp only [programStep,hhouse]
      rfl
  clock s _ := .refl

variable {m m' : Machine ρ}

theorem deviceType_plain {device : Device} {plain : PlainType}
    (h : device.deviceType = (Userdata.plain plain).deviceType) :
    device.userdata = .plain plain := by
  unfold Device.deviceType at h
  cases hdata : device.userdata with
  | plain plain' =>
    rw [hdata] at h
    cases plain <;> cases plain' <;> first | rfl | cases h
  | _ =>
    rw [hdata] at h
    cases plain <;> cases h

theorem ofType_plain {α : Type} {type : DeviceType} {plain : PlainType}
    (htype : type = (Userdata.plain plain).deviceType) (f : DeviceId → α) {d : DeviceId}
    (hd : d ∈ (((devices.zipIdx.filter (fun entry => entry.1.deviceType = type)).map Prod.snd).map
      (fun d => (d,f d))).map Prod.fst) :
    devices[d]?.map Device.userdata = some (.plain plain) := by
  subst htype
  obtain ⟨pair,hpair,rfl⟩ := List.mem_map.mp hd
  obtain ⟨d',hd',rfl⟩ := List.mem_map.mp hpair
  obtain ⟨⟨device,i⟩,hentry,rfl⟩ := List.mem_map.mp hd'
  obtain ⟨hmem,htype⟩ := List.mem_filter.mp hentry
  rw [List.mem_zipIdx_iff_getElem?.mp hmem]
  exact congrArg some (deviceType_plain (of_decide_eq_true htype))

theorem start_wired {receiver : ρ} {addresses : DeviceId → UInt32} {inputs : DeviceId → GpioT}
    {trackers : DeviceId → Soltracker} {now : Nat}
    (hp : ProgramOutputs execdir (declared devices) p) :
    Wired execdir devices (Machine.start devices p receiver addresses inputs trackers now) where
  outputs := hp
  buttons := by
    have hdevices := congrArg (List.map (fun device : Device =>
      decide (device.deviceType = .fts14em))) (List.zipIdx_map_fst 0 devices)
    rw [List.map_map] at hdevices
    rw [← hdevices,Machine.start,List.map_map]
    refine List.map_congr_left (fun entry _ => ?_)
    simp only [Function.comp_apply]
    split <;> simp [*]
  trackers d hd := ofType_plain rfl trackers hd
  sensors d hd := ofType_plain rfl (fun _ => (⟨.finite false 0,.finite false 0,false⟩ : Dht22)) hd
  timers _ := rfl

theorem modify_fst {α β : Type} {f : α × β → α × β} (hf : ∀ a, (f a).1 = a.1) (l : List (α × β))
    (i : Nat) : (l.modify i f).map Prod.fst = l.map Prod.fst := by
  induction l generalizing i with
  | nil => simp
  | cons a l ih =>
    cases i with
    | zero => simp [hf]
    | succ i => simp [ih]

/-- A callback of the hardware, or of the engine, is a number of steps of the program. -/
theorem Wired.step (hm : Wired execdir devices m)
    (hstep : HardwareSteps eltako scripts execdir devices rules m m') :
    AudibleRun execdir rules devices m.program m'.program ∧ Wired execdir devices m' := by
  obtain ⟨fuel,clock,input,hstep⟩ := hstep
  have hrunning : ∀ {s : Running}, RunsOn execdir rules devices m.running s →
      AudibleRun execdir rules devices m.program s.program ∧
        ProgramOutputs execdir (declared devices) s.program :=
    fun h => ⟨h hm.outputs,(h hm.outputs).outputs hm.outputs⟩
  cases input with
  | program input =>
    simp only [hardwareStep] at hstep
    split at hstep
    · cases hstep
    · rename_i hheard
      obtain ⟨p,hprogram,rfl⟩ := Option.map_eq_some_iff.mp hstep
      have hsteps : ProgramSteps execdir rules input m.program p := ⟨fuel,hprogram⟩
      have haudible : Audible devices input := by
        constructor
        · unfold Heard
          split
          · exact absurd rfl hheard
          · trivial
        · rintro d type rfl
          exact absurd rfl hheard
      exact ⟨.single ⟨input,haudible,hsteps⟩,hm.outputs.step hsteps,hm.buttons,hm.trackers,
        hm.sensors,hm.timers⟩
  | serial read turns =>
    obtain ⟨⟨reads,receiver,s⟩,hdata,rfl⟩ := Option.map_eq_some_iff.mp hstep
    have haround : ∀ i : Nat, (devices.map (fun device : Device =>
        decide (device.deviceType = .fts14em)))[i]? = some true →
          (Running.around (engineTriggerEvent rules fuel) clock i).Keeps PlainType.fts14em.events
            (RunsOn execdir rules devices) := by
      intro i hi
      rw [List.getElem?_map] at hi
      obtain ⟨device,hdevice,htype⟩ := Option.map_eq_some_iff.mp hi
      refine around_keeps ?_ (by decide)
      rw [hdevice]
      exact congrArg some (deviceType_plain (of_decide_eq_true htype))
    obtain ⟨hbuttons,hruns⟩ := incomingEltakoData_keeps runsOn_refl runsOn_trans haround
      (fun _ _ _ s s' h => by cases h; exact runsOn_refl s) hdata hm.buttons
    obtain ⟨hrun,houtputs⟩ := hrunning hruns
    exact ⟨hrun,houtputs,hbuttons,hm.trackers,hm.sensors,hm.timers⟩
  | edge fd buf0 =>
    simp only [hardwareStep,gpioInputEdgeDetectedCb_unchanged] at hstep
    cases hstep
    exact ⟨.refl,hm⟩
  | pressed device t =>
    simp only [hardwareStep,hm.timers t] at hstep
    cases hstep
  | sun position =>
    obtain ⟨⟨trackers,s⟩,hcheck,rfl⟩ := Option.map_eq_some_iff.mp hstep
    obtain ⟨hruns,hsame⟩ := trackers_keeps runsOn_refl runsOn_trans (fun tracker htracker =>
      around_keeps (hm.trackers _ (List.mem_map_of_mem htracker)) (by decide)) hcheck
    obtain ⟨hrun,houtputs⟩ := hrunning hruns
    exact ⟨hrun,houtputs,hm.buttons,hsame ▸ hm.trackers,hm.sensors,hm.timers⟩
  | measured sensor temperature humidity =>
    cases hstep
    have hsame : (m.sensors.modify sensor (fun (d,dht22) =>
        (d,{ dht22 with temperature := temperature, humidity := humidity }))).map Prod.fst =
          m.sensors.map Prod.fst := by
      refine modify_fst ?_ m.sensors sensor
      intro a
      rfl
    exact ⟨.refl,hm.outputs,hm.buttons,hm.trackers,fun d hd => hm.sensors d (hsame ▸ hd),hm.timers⟩
  | measure now =>
    obtain ⟨s,hmeasure,rfl⟩ := Option.map_eq_some_iff.mp hstep
    obtain ⟨logging,hdevices,rfl⟩ := Option.map_eq_some_iff.mp hmeasure
    have hruns := measureDevices_keeps (R := RunsOn execdir rules devices) runsOn_refl runsOn_trans
      (fun sensor hsensor => around_keeps (hm.sensors _ (List.mem_map_of_mem hsensor)) (by decide))
      hdevices
    obtain ⟨hrun,houtputs⟩ := hrunning hruns
    exact ⟨hrun,houtputs,hm.buttons,hm.trackers,hm.sensors,hm.timers⟩

variable {outside : Surroundings} {files : List (List Char)} {s : Serialisation}
  {file : Option s.File} {receiver : ρ} {addresses : DeviceId → UInt32} {inputs : DeviceId → GpioT}
  {trackers : DeviceId → Soltracker} {now : Nat}

theorem Boots.wired (hboots : Boots outside files s file devices p)
    (hrun : Relation.ReflTransGen (HardwareSteps eltako scripts execdir devices rules)
      (Machine.start devices p receiver addresses inputs trackers now) m) :
    AudibleRun execdir rules devices p m.program ∧ Wired execdir devices m := by
  induction hrun with
  | refl => exact ⟨.refl,start_wired hboots.outputs⟩
  | tail _ hstep ih =>
    obtain ⟨hrest,hm⟩ := ih
    obtain ⟨hnext,hm'⟩ := hm.step hstep
    exact ⟨hrest.trans hnext,hm'⟩

/-- Whatever comes in on the serial port, on the pins, from the sensors and from the sun, in any
order and with any readings of the clock, the program makes a run: each callback of the hardware
only raises events on its own devices, of the kinds that they can raise, and a GPI device raises
none. -/
theorem hardware_refines (hboots : Boots outside files s file devices p)
    (hrun : Relation.ReflTransGen (HardwareSteps eltako scripts execdir devices rules)
      (Machine.start devices p receiver addresses inputs trackers now) m) :
    AudibleRun execdir rules devices p m.program := (hboots.wired hrun).1

def bellFile : List Char := "INPUT bell FTS14EM 1001\nOUTPUT lamp FSR14 2\n".toList

def bellHouse : List Device :=
  [⟨"bell".toList,.plain .fts14em⟩, ⟨"lamp".toList,.fsr14 ⟨2,0⟩⟩]

theorem bell_telegram :
    ∃ (p : Program) (m : Machine (List UInt8)),
      Boots quietHouse [bellFile] plainSerialisation none bellHouse p ∧
      HardwareSteps eltakoBytes none [] bellHouse [⟨⟨0,.press⟩,[],[⟨.set,1,[]⟩]⟩]
        (Machine.start bellHouse p [] (fun _ => 0x1001) (fun _ => gpioInputStart 17 5 false)
          (fun _ => southWindow) 0) m ∧
      m.program.world.userdata 1 = .fsr14 ⟨2,1⟩ :=
  ⟨_,_,@Boots.boots quietHouse [bellFile] plainSerialisation none ⟨bellHouse,none⟩ _ _
    (fun _ _ => 0) (fun _ _ => 0) rfl rfl,
    ⟨2,fun _ => 1000,.serial quietPort.read 3,rfl⟩,rfl⟩

/-- A telegram comes in, and a rule on the button switches on the lamp. -/
theorem hardware_refines_bell :
    ∃ (p : Program) (m : Machine (List UInt8)),
      Boots quietHouse [bellFile] plainSerialisation none bellHouse p ∧
      AudibleRun [] [⟨⟨0,.press⟩,[],[⟨.set,1,[]⟩]⟩] bellHouse p m.program ∧
      m.program.world.userdata 1 = .fsr14 ⟨2,1⟩ := by
  obtain ⟨p,m,hboots,hstep,hlamp⟩ := bell_telegram
  exact ⟨p,m,hboots,hardware_refines hboots (.single hstep),hlamp⟩

/-- So in every run of the machine, only live rules fire, whatever the hardware does. -/
theorem hardware_lively (hboots : Boots outside files s file devices p)
    (hrun : Relation.ReflTransGen (HardwareSteps eltako scripts execdir devices rules)
      (Machine.start devices p receiver addresses inputs trackers now) m) :
    Relation.ReflTransGen (fun p p' => ∃ input, ProgramSteps execdir rules input p p' ∧
      Lively rules devices p input) p m.program := by
  have houtputs : ProgramOutputs execdir (declared devices) p := hboots.outputs
  have haudible := (hboots.wired hrun).1
  generalize m.program = p' at haudible
  induction haudible with
  | refl => exact .refl
  | @tail q q' hbefore hstep ih =>
    obtain ⟨input,⟨hheard,-⟩,hstep⟩ := hstep
    have hq : ProgramOutputs execdir (declared devices) q := AudibleRun.outputs hbefore houtputs
    exact ih.tail ⟨input,hstep,hq.world.lively hheard⟩

theorem hardware_lively_bell :
    ∃ (p p' : Program), Boots quietHouse [bellFile] plainSerialisation none bellHouse p ∧
      Relation.ReflTransGen (fun p p' => ∃ input,
        ProgramSteps [] [⟨⟨0,.press⟩,[],[⟨.set,1,[]⟩]⟩] input p p' ∧
        Lively [⟨⟨0,.press⟩,[],[⟨.set,1,[]⟩]⟩] bellHouse p input) p p' ∧
      p'.world.userdata 1 = .fsr14 ⟨2,1⟩ := by
  obtain ⟨p,m,hboots,hstep,hlamp⟩ := bell_telegram
  exact ⟨p,m.program,hboots,hardware_lively hboots (.single hstep),hlamp⟩

end Simulation

end DomoticaEngine
