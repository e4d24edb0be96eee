import DomoticaEngine.DeviceData
import DomoticaEngine.StoreRoundtrip
import DomoticaEngine.VeluxWorker

/-!
The whole program: the devices, the timers, the worker of the shutters and the queue of frames,
from the start on, and what whole runs keep of the data of a device.
-/

set_option autoImplicit false

namespace DomoticaEngine

structure Program where
  velux : VeluxState
  sunrisetTimers : DeviceId → SunrisetEvent → Bool

def Program.world (p : Program) : World := p.velux.world

def Program.setWorld (p : Program) (w : World) : Program :=
  { p with velux := { p.velux with world := w } }

def Program.house (p : Program) : House := ⟨p.world,p.sunrisetTimers⟩

def Program.setHouse (p : Program) (house : House) : Program :=
  { p.setWorld house.world with sunrisetTimers := house.sunrisetTimers }

def Program.setVelux (p : Program) (velux : VeluxState) : Program := { p with velux := velux }

/-- What the event loop calls: the engine, the worker of the shutters, the command of a shutter
whose pipe is ready, the timer of the queue. -/
inductive ProgramInput where
  | house (input : HouseInput)
  | worker (popen : Bool)
  | incoming (device : DeviceId) (revents : Incoming)
  | queue

def programStep (execdir : CString) (trigger : Trigger) (input : ProgramInput) (p : Program) :
    Option Program :=
  match input with
  | .house input => (houseStep trigger input p.house).map p.setHouse
  | .worker popen => (veluxStep execdir (.tick popen) p.velux).map p.setVelux
  | .incoming device revents =>
    (veluxStep execdir (.incoming device revents) p.velux).map p.setVelux
  | .queue => some (p.setWorld { p.world with eltako := eltakoCheckSendQueue p.world.eltako })

/-- The devices of `klf200_devices`, in the order in which they are parsed. -/
def klf200DevicesOf (devices : List Device) : List DeviceId :=
  (devices.zipIdx.filter (fun entry => entry.1.deviceType = .veluxKlf200)).map Prod.snd

def Program.start (devices : List Device) (w : World) (ct et : DeviceId → SunrisetEvent → Int) :
    Program :=
  let house := House.start w ct et
  { velux := VeluxState.start house.world (klf200DevicesOf devices),
    sunrisetTimers := house.sunrisetTimers }

inductive Boots (outside : Surroundings) (files : List (List Char)) (s : Serialisation)
    (file : Option s.File) : List Device → Program → Prop where
  | boots {d : DeclarationReader} {w : World} {stored : s.File}
      (ct et : DeviceId → SunrisetEvent → Int)
      (hdeclared : rulesReadDir (rulesReadFileDeclarations outside) files .start = .ok (0,d))
      (hrestored : storeInit s d.devices file (parsedWorld d.devices) = .ok (w,stored)) :
      Boots outside files s file d.devices (Program.start d.devices w ct et)

section Steps
variable (execdir : CString) (rules : List Rule)

def ProgramSteps (input : ProgramInput) (p p' : Program) : Prop :=
  ∃ fuel, programStep execdir (engineTriggerEvent rules fuel) input p = some p'

inductive Checks (event : Event) (w : World) : Rule → World → Prop where
  | checks {rule : Rule} {i : Nat} {before after : List (Rule × Nat)} {tr : List Occasion}
      {w₁ : World} (hentries : rules.zipIdx = before ++ (rule,i) :: after)
      (hbefore : Executes rules (.offer w.history.length event before)
        (w.record (.raised w.history.length event)) tr w₁)
      (hevent : rule.event = event) :
      Checks event w rule (w₁.record (.offered w.history.length i event))

inductive Performs (event : Event) (w : World) : Action → World → Prop where
  | performs {rule : Rule} {v v' : World} {done todo : List Action} {action : Action}
      {tr : List Occasion} (hchecks : Checks rules event w rule v)
      (hconditions : rule.conditions.all (conditionCheck v) = true)
      (hactions : rule.actions = done ++ action :: todo)
      (hdone : Executes rules (.actions event done) v tr v') : Performs event w action v'

inductive ProgramRaises (p : Program) : ProgramInput → Event → World → Prop where
  | house {input : HouseInput} {event : Event} {w : World}
      (h : HouseRaises rules input p.house event w) : ProgramRaises p (.house input) event w

inductive ProgramExecutes (p : Program) : ProgramInput → Action → World → Prop where
  | command (action : Action) : ProgramExecutes p (.house (.command action)) action p.world
  | rule {input : ProgramInput} {event : Event} {w v : World} {action : Action}
      (hraises : ProgramRaises rules p input event w) (h : Performs rules event w action v) :
      ProgramExecutes p input action v

/-- The states of the world in a run: between the callbacks, and where rules are checked. -/
inductive Visits : List ProgramInput → Program → World → Prop where
  | now {inputs : List ProgramInput} {p : Program} : Visits inputs p p.world
  | checks {input : ProgramInput} {inputs : List ProgramInput} {p : Program} {event : Event}
      {w v : World} {rule : Rule} (hraises : ProgramRaises rules p input event w)
      (h : Checks rules event w rule v) : Visits (input :: inputs) p v
  | later {input : ProgramInput} {inputs : List ProgramInput} {p p' : Program} {v : World}
      (hstep : ProgramSteps execdir rules input p p') (h : Visits inputs p' v) :
      Visits (input :: inputs) p v

end Steps

section Worker
variable {execdir : CString}

theorem workerLoop_world (popen : Bool) (devices : List DeviceId) (s : VeluxState) :
    (veluxKlf200WorkerLoop execdir popen devices s).world = s.world := by
  induction devices generalizing s with
  | nil => rfl
  | cons device devices ih =>
    unfold veluxKlf200WorkerLoop
    cases hdata : s.world.userdata device with
    | veluxKlf200 klf200 =>
      by_cases hchanged : klf200.changed = true
      · have hcheck : (veluxKlf200WorkerCheckVelux execdir popen device klf200 s).world =
            s.world := by
          simp [veluxKlf200WorkerCheckVelux,hchanged]
        simp only [hchanged,if_true]
        split
        · exact hcheck
        · rw [ih,hcheck]
      · simp only [hchanged,Bool.false_eq_true,if_false]
        exact ih s
    | _ => exact ih s

theorem worker_world (popen : Bool) (s : VeluxState) :
    (veluxKlf200Worker execdir popen s).world = s.world := by
  unfold veluxKlf200Worker
  split
  · rfl
  · exact workerLoop_world popen s.klf200Devices s

theorem response_world (device : DeviceId) (s : VeluxState) :
    (veluxKlf200CmdCb device s).world = s.world ∨
      ∃ klf200, s.world.userdata device = .veluxKlf200 klf200 ∧
        (veluxKlf200CmdCb device s).world =
          s.world.setUserdata device (.veluxKlf200 { klf200 with changed := false }) := by
  unfold veluxKlf200CmdCb
  cases hdata : s.world.userdata device with
  | veluxKlf200 klf200 =>
    by_cases htarget : s.targetValue device = klf200.actualValue
    · refine .inr ⟨klf200,rfl,?_⟩
      simp only [htarget,if_true]
      cases s.cmd device <;> rfl
    · refine .inl ?_
      simp only [htarget,if_false]
      cases s.cmd device <;> rfl
  | _ =>
    refine .inl ?_
    simp only
    cases s.cmd device <;> rfl

theorem incoming_world {device : DeviceId} {revents : Incoming} {s s' : VeluxState}
    (hstep : veluxStep execdir (.incoming device revents) s = some s') :
    s'.world = s.world ∨ ∃ device klf200, s.world.userdata device = .veluxKlf200 klf200 ∧
      s'.world = s.world.setUserdata device (.veluxKlf200 { klf200 with changed := false }) := by
  simp only [veluxStep] at hstep
  cases hcmd : s.cmd device with
  | none => simp [hcmd] at hstep
  | some cmd =>
    simp only [hcmd] at hstep
    split at hstep
    · unfold cmdIncomingData at hstep
      cases revents with
      | hangUp =>
        simp only [Option.some.injEq] at hstep
        subst hstep
        have hclosed : (s.close device cmd).world = s.world := rfl
        rw [← hclosed]
        exact (response_world cmd.respCbArg (s.close device cmd)).imp_right
          (fun ⟨klf200,hdata,hset⟩ => ⟨_,klf200,hdata,hset⟩)
      | data c =>
        obtain ⟨cmd',-,hs'⟩ := Option.bind_eq_some_iff.mp hstep
        cases hs'
        exact .inl rfl
      | eof =>
        cases hstep
        exact .inl rfl
    · cases hstep

end Worker

namespace DataRule
variable {S : Userdata → Userdata → Prop} {execdir : CString} {rules : List Rule}

theorem checks (h : DataRule S) {event : Event} {rule : Rule} {w w' : World}
    (hchecks : Checks rules event w rule w') : Related S w w' := by
  cases hchecks with
  | checks _ hbefore _ =>
    have hrules := h.executes hbefore
    exact hrules

theorem program_step (h : DataRule S) {input : ProgramInput} {p p' : Program}
    (hstep : ProgramSteps execdir rules input p p') : Related S p.world p'.world := by
  obtain ⟨fuel,hstep⟩ := hstep
  cases input with
  | house input =>
    obtain ⟨house,hhouse,rfl⟩ := Option.map_eq_some_iff.mp hstep
    exact h.house_step hhouse
  | worker popen =>
    cases hstep
    exact h.same (congrArg World.userdata (worker_world popen p.velux))
  | incoming device revents =>
    obtain ⟨velux,hvelux,rfl⟩ := Option.map_eq_some_iff.mp hstep
    rcases incoming_world hvelux with hsame | ⟨owner,klf200,hdata,hset⟩
    · exact h.same (congrArg World.userdata hsame)
    · have hworld : (p.setVelux velux).world = p.world.setUserdata owner
          (.veluxKlf200 { klf200 with changed := false }) := hset
      rw [hworld]
      exact h.setUserdata (by rw [Program.world,hdata]; exact h.veluxKlf200 _)
  | queue =>
    cases hstep
    exact h.same rfl

/-- Induction on the run: whatever every callback keeps of the data of a device, the whole run
keeps, also where it is in the middle of a dispatch. -/
theorem visits (h : DataRule S) {inputs : List ProgramInput} {p : Program} {v : World}
    (hvisits : Visits execdir rules inputs p v) : Related S p.world v := by
  induction hvisits with
  | now => exact h.same rfl
  | checks hraises hchecks =>
    cases hraises with
    | house hraises => exact h.after (h.raises hraises) (h.checks hchecks)
  | later hstep _ ih => exact h.after (h.program_step hstep) ih

end DataRule

section Reached
variable {rules : List Rule} {devices : List Device} {w w' : World}

theorem Reachable.setUserdata {device : DeviceId} {data : Userdata}
    (hw : Reachable rules devices w)
    (hdata : data.deviceType = (w.userdata device).deviceType ∧
      observed data = observed (w.userdata device)) :
    Reachable rules devices (w.setUserdata device data) := by
  refine hw.other (fun d => ?_)
  by_cases hd : d = device
  · rw [hd,setUserdata_same]
    exact hdata
  · rw [setUserdata_other hd]
    exact ⟨rfl,rfl⟩

theorem Reachable.same (hw : Reachable rules devices w) (h : w'.userdata = w.userdata) :
    Reachable rules devices w' := by
  refine hw.other (fun d => ?_)
  rw [h]
  exact ⟨rfl,rfl⟩

theorem Reachable.timerCallback {fuel : Nat} {timer : Timer} (hw : Reachable rules devices w)
    (h : timerCallback (engineTriggerEvent rules fuel) timer w = some w') :
    Reachable rules devices w' := by
  unfold DomoticaEngine.timerCallback at h
  cases htimer : timer.callback with
  | fsb14Timer =>
    simp only [htimer] at h
    exact .fsb14Timer fuel timer.arg hw h
  | tmrTimeout =>
    simp only [htimer,tmrTimeout] at h
    cases hdata : w.userdata timer.arg with
    | timer tmr =>
      simp only [hdata] at h
      exact .event _ (hw.setUserdata (by rw [hdata]; exact ⟨rfl,rfl⟩)) ⟨fuel,h⟩
    | _ =>
      simp only [hdata] at h
      cases h
      exact hw

theorem Reachable.setCondition (hw : Reachable rules devices w) (device : DeviceId)
    (condition : ConditionType) : Reachable rules devices (w.setCondition device condition) := by
  unfold World.setCondition
  cases hdata : w.userdata device with
  | schedule schedule => exact hw.setUserdata (by rw [hdata]; exact ⟨rfl,rfl⟩)
  | _ => exact hw

theorem observed_sunriset {data : Userdata} (h : data.deviceType = .sunriset) :
    observed data = none := by
  cases data with
  | sunriset sr => rfl
  | plain type => cases type <;> cases h
  | _ => cases h

theorem Reachable.currentState (hw : Reachable rules devices w) {device : DeviceId}
    {sr : Sunriset} (hdevice : (w.userdata device).deviceType = .sunriset) :
    Reachable rules devices (w.setUserdata device (.sunriset sr)) := by
  refine hw.setUserdata ⟨hdevice.symm,?_⟩
  rw [observed_sunriset hdevice]
  rfl

theorem Reachable.houseSteps {input : HouseInput} {house house' : House}
    (hw : Reachable rules devices house.world) (hstep : HouseSteps rules input house house') :
    Reachable rules devices house'.world := by
  obtain ⟨fuel,hstep⟩ := hstep
  obtain ⟨step,hbranch,hsame⟩ := houseStep_branch input house
  rw [hsame] at hstep
  cases hbranch with
  | command action =>
    obtain ⟨w,hcommand,rfl⟩ := Option.map_eq_some_iff.mp hstep
    exact .command fuel action.device action hw hcommand
  | expire hpending =>
    obtain ⟨w,hcallback,rfl⟩ := Option.map_eq_some_iff.mp hstep
    exact (hw.timerCallback hcallback).same rfl
  | entry hdata hentry =>
    obtain ⟨w,hw₁,rfl⟩ := Option.map_eq_some_iff.mp hstep
    exact (Reachable.event _ hw ⟨fuel,hw₁⟩).setCondition _ _
  | idle =>
    cases hstep
    exact hw
  | @sun device se sr hdata hpending =>
    obtain ⟨w,hw₁,rfl⟩ := Option.map_eq_some_iff.mp hstep
    have hdispatch : Dispatches rules ⟨device,sunrisetEventType se⟩ house.world w := ⟨fuel,hw₁⟩
    refine (Reachable.event _ hw hdispatch).currentState ?_
    rw [(dispatches_kept hdispatch).type,hdata]
    rfl
  | midnight hdata =>
    cases hstep
    exact hw.currentState (by rw [hdata]; rfl)
  | plain hdata =>
    obtain ⟨w,hw₁,rfl⟩ := Option.map_eq_some_iff.mp hstep
    exact .event _ hw ⟨fuel,hw₁⟩
  | never => cases hstep

theorem Reachable.programSteps {execdir : CString} {input : ProgramInput} {p p' : Program}
    (hp : Reachable rules devices p.world) (hstep : ProgramSteps execdir rules input p p') :
    Reachable rules devices p'.world := by
  obtain ⟨fuel,hstep⟩ := hstep
  cases input with
  | house input =>
    obtain ⟨house,hhouse,rfl⟩ := Option.map_eq_some_iff.mp hstep
    have hstart : Reachable rules devices p.house.world := hp
    exact hstart.houseSteps ⟨fuel,hhouse⟩
  | worker popen =>
    cases hstep
    exact hp.same (congrArg World.userdata (worker_world popen p.velux))
  | incoming device revents =>
    obtain ⟨velux,hvelux,rfl⟩ := Option.map_eq_some_iff.mp hstep
    rcases incoming_world hvelux with hsame | ⟨owner,klf200,hdata,hset⟩
    · exact hp.same (congrArg World.userdata hsame)
    · have hworld : (p.setVelux velux).world = p.world.setUserdata owner
          (.veluxKlf200 { klf200 with changed := false }) := hset
      rw [hworld]
      exact hp.setUserdata (by rw [Program.world,hdata]; exact ⟨rfl,rfl⟩)
  | queue =>
    cases hstep
    exact hp.same rfl

end Reached

section Boot
variable {outside : Surroundings} {files : List (List Char)} {s : Serialisation}
  {file : Option s.File} {devices : List Device} {p p' : Program} {execdir : CString}
  {rules : List Rule}

theorem start_userdata (devices : List Device) (w : World) (ct et : DeviceId → SunrisetEvent → Int)
    (d : DeviceId) :
    ((Program.start devices w ct et).world.userdata d).deviceType = (w.userdata d).deviceType ∧
      ∀ data, data.deviceType ≠ .sunriset →
        (Program.start devices w ct et).world.userdata d = data → w.userdata d = data := by
  have hstart : (Program.start devices w ct et).world.userdata d =
      (House.start w ct et).world.userdata d := rfl
  rw [hstart]
  unfold House.start
  cases hdata : w.userdata d with
  | sunriset sr =>
    simp only [hdata]
    refine ⟨rfl,?_⟩
    rintro _ hother rfl
    exact absurd rfl hother
  | _ =>
    simp only [hdata]
    exact ⟨trivial,fun _ _ h => h⟩

theorem Boots.steps (h : Boots outside files s file devices p) :
    ∃ d w₁ w₂ ct et, rulesReadDir (rulesReadFileDeclarations outside) files .start = .ok (0,d) ∧
      d.devices = devices ∧
      restoreDevicesState s devices file (parsedWorld devices) = .ok w₁ ∧
      restoreDevicesState s devices (some (storeDevicesState s devices w₁)) w₁ = .ok w₂ ∧
      p = Program.start devices w₂ ct et := by
  cases h with
  | @boots d w stored ct et hdeclared hrestored =>
    obtain ⟨w₁,hfirst,hrestored⟩ := bind_eq_ok.mp hrestored
    obtain ⟨w₂,hsecond,hw⟩ := bind_eq_ok.mp hrestored
    obtain ⟨rfl,-⟩ := Prod.mk.inj (Except.ok.inj hw)
    exact ⟨d,w₁,w₂,ct,et,hdeclared,rfl,hfirst,hsecond,rfl⟩

end Boot

end DomoticaEngine
