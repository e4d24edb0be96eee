import DomoticaEngine.CommandBuffers
import DomoticaEngine.Outputs
import DomoticaEngine.RaisedEvents
import DomoticaEngine.RemoteServer

/-!
Rules without a cycle: no run of the program gets stuck, and no client waits for ever.
-/

set_option autoImplicit false

namespace DomoticaEngine
open Requests EngineInvariant

/-- The event loop has reason for the callback: its timer is pending, its device is there. -/
def HouseInput.Enabled (house : House) : HouseInput → Prop
  | .command _ | .minute _ _ => True
  | .expire t => ∃ timer, house.world.loop.pending t = some timer
  | .sun device se =>
    (∃ sr, house.world.userdata device = .sunriset sr) ∧ house.sunrisetTimers device se = true
  | .midnight device _ _ => ∃ sr, house.world.userdata device = .sunriset sr
  | .plain device _ => ∃ data, house.world.userdata device = .plain data

/-- The pipe of a command calls back while its event is registered. Bytes come until the recorded
size of the buffer has reached the limit: then one more is not defined. -/
def ProgramInput.Enabled (p : Program) : ProgramInput → Prop
  | .house input => input.Enabled p.house
  | .worker _ | .queue => True
  | .incoming device revents => ∃ cmd, p.velux.cmd device = some cmd ∧ cmd.event = true ∧
      ∀ c, revents = .data c → cmd.respBufSize < maxResSize

section Returns
variable {rules : List Rule} {types : DeviceId → DeviceType} {w : World}

theorem types_invariant (rules : List Rule) (types : DeviceId → DeviceType) :
    RuleInvariant rules types (fun _ => True) (fun _ _ => True) where
  action := fun _ _ _ _ => trivial
  own := fun _ _ _ => trivial
  record := fun _ _ => trivial
  loop := fun _ _ => trivial
  queue := fun _ => trivial
  rule := fun _ _ _ _ _ _ _ _ _ _ _ _ _ _ => trivial

theorem raising_completes (hacyclic : Acyclic rules types) {α : Type} {I : World → Prop}
    {world : α → World} {callback : Trigger → Option α}
    (hraising : Raising types I world callback) :
    ∃ fuel a, callback (engineTriggerEvent rules fuel) = some a := by
  obtain ⟨own,w₁,raised,finish,hcallback,hw₁,-⟩ := hraising
  cases raised with
  | none => exact ⟨0,finish w₁,by rw [hcallback]; rfl⟩
  | some type =>
    obtain ⟨w',fuel,hw'⟩ := dispatch_returns hacyclic hw₁.types ⟨own,type⟩
    refine ⟨fuel,finish w',?_⟩
    rw [hcallback,Option.map_eq_some_iff]
    exact ⟨w',hw',rfl⟩

variable {house : House}

theorem enabled_raising (hw : Holds types (fun _ => True) house.world) {input : HouseInput}
    (h : input.Enabled house) : Raising types (fun _ => True) House.world
      (fun trigger => houseStep trigger input house) := by
  have hinvariant := types_invariant [] types
  cases input with
  | command action =>
    exact raising_map (hinvariant.raising_set hw trivial none) (fun _ hv => hv)
  | expire t =>
    obtain ⟨timer,hpending⟩ := h
    simp only [houseStep,hpending]
    exact raising_map (hinvariant.raising_timer hw timer) (fun _ hv => ⟨hv.types,trivial⟩)
  | minute device ts =>
    cases hdata : house.world.userdata device with
    | schedule schedule =>
      cases hentry : scheduleSearchEntry schedule ts with
      | none =>
        simp only [houseStep,scheduleCheckEvent,hdata,hentry]
        exact raising_some hw hw
      | some entry =>
        simp only [houseStep,scheduleCheckEvent,hdata,hentry,Option.map_map]
        exact raising_trigger hw (fun v hv => hinvariant.setCondition hv _ _)
    | _ =>
      simp only [houseStep,scheduleCheckEvent,hdata]
      exact raising_some hw hw
  | sun device se =>
    obtain ⟨⟨sr,hdata⟩,hpending⟩ := h
    simp only [houseStep,hdata,hpending,if_true]
    refine raising_trigger hw (fun v hv => hinvariant.update hv (flags_own hv ?_ _))
    rw [← hw.types device,hdata]
    rfl
  | midnight device ct et =>
    obtain ⟨sr,hdata⟩ := h
    simp only [houseStep,hdata]
    refine raising_some hw (hinvariant.update hw ?_)
    rw [hdata]
    exact .sunriset _ _
  | plain device type =>
    obtain ⟨data,hdata⟩ := h
    simp only [houseStep,hdata]
    exact raising_trigger hw (fun v hv => hv)

theorem enabled_steps {execdir : CString} {p : Program} {junk : Nat → Char}
    (hacyclic : Acyclic rules types) (hp : HasTypes types p.world)
    (hbuffers : p.velux.Buffered junk) {input : ProgramInput} (h : input.Enabled p) :
    ∃ p', ProgramSteps execdir rules input p p' := by
  cases input with
  | house input =>
    have hhouse : Holds types (fun _ => True) p.house.world := ⟨hp,trivial⟩
    have hraising := enabled_raising hhouse h
    obtain ⟨fuel,house,hstep⟩ := raising_completes hacyclic hraising
    exact ⟨p.setHouse house,fuel,by rw [programStep,hstep]; rfl⟩
  | worker popen => exact ⟨_,0,rfl⟩
  | incoming device revents =>
    obtain ⟨cmd,hcmd,hevent,hlimit⟩ := h
    obtain ⟨velux,hvelux⟩ := @incoming_returns junk execdir _ hbuffers _ _ _ hcmd hevent hlimit
    exact ⟨p.setVelux velux,0,by rw [programStep,hvelux]; rfl⟩
  | queue => exact ⟨_,0,rfl⟩

end Returns

/-- The line parser stays within its arrays, and the options of a DO command leave room for the null
pointer. -/
def Parses (buf : CString) : Prop :=
  ∃ parsed, lineParse buf = .ok parsed ∧
    ∀ ln, parsed = some ln → ln.options.length < lineMaxOptions

section Commands
variable {rules : List Rule} {devices : List Device} {types : DeviceId → DeviceType} {w : World}
  {buf : CString} {ln : Line}

theorem actionCreate_returns {device : DeviceId} (hdevice : device < devices.length)
    (type : ActionType) {options : List CString} (hoptions : options.length < lineMaxOptions) :
    ∃ created, actionCreate devices device type options = .ok created := by
  unfold actionCreate
  rw [List.getElem?_eq_getElem hdevice]
  simp only [hoptions,if_true]
  split
  · exact ⟨_,rfl⟩
  · exact ⟨_,rfl⟩

theorem handleDo_returns (hacyclic : Acyclic rules types) (hw : HasTypes types w)
    (hoptions : ln.options.length < lineMaxOptions) :
    ∃ fuel handled, handleDo (engineTriggerEvent rules fuel) devices ln w =
      .ok (some handled) := by
  unfold handleDo
  cases hdevice : deviceListFindByName devices ln.name with
  | none => exact ⟨0,_,rfl⟩
  | some device =>
    cases htype : ln.options[0]?.bind actionTypeFromChar with
    | none => exact ⟨0,_,rfl⟩
    | some type =>
      have hlt : device < devices.length := by
        obtain ⟨d,hd,-⟩ := deviceListFindByName_some hdevice
        exact (List.getElem?_eq_some_iff.mp hd).1
      obtain ⟨created,hcreate⟩ := actionCreate_returns hlt type hoptions
      cases created with
      | none => exact ⟨0,.nok w,by simp only [hcreate]⟩
      | some action =>
        have hinvariant := types_invariant [] types
        have hraising : Raising types (fun _ => True) id
            (fun trigger => actionExecute trigger action none w) :=
          hinvariant.raising_set ⟨hw,trivial⟩ trivial none
        obtain ⟨fuel,w',hexecute⟩ := raising_completes hacyclic hraising
        exact ⟨fuel,⟨w',true,none,none⟩,by simp only [hcreate,hexecute,Option.map_some]⟩

theorem handleCommandReply_returns (hacyclic : Acyclic rules types) (hw : HasTypes types w)
    (hparses : Parses buf) (seen : Seen) :
    ∃ fuel handled, handleCommandReply (engineTriggerEvent rules fuel) devices seen buf w =
      .ok (some handled) := by
  obtain ⟨parsed,hparsed,hoptions⟩ := hparses
  unfold handleCommandReply
  rw [hparsed]
  cases parsed with
  | none => exact ⟨0,_,rfl⟩
  | some ln =>
    simp only
    cases ln.statement with
    | do_ => exact handleDo_returns hacyclic hw (hoptions ln rfl)
    | _ => exact ⟨0,_,rfl⟩

end Commands

section Boot
variable {outside : Surroundings} {files : List (List Char)} {s : Serialisation}
  {file : Option s.File} {devices : List Device} {p p' : Program} {execdir : CString}
  {rules : List Rule} {ι : Type} [DecidableEq ι]

theorem Boots.types (h : Boots outside files s file devices p)
    (hrun : Relation.ReflTransGen (fun p p' => ∃ input, ProgramSteps execdir rules input p p')
      p p') : HasTypes (fun d => (declared devices d).deviceType) p'.world := by
  have hp' : Outputs (declared devices) p'.world :=
    (@Boots.outputs _ _ _ _ _ _ execdir h).run hrun |>.world
  intro d
  simp only [← hp'.kept,configuration_type]

/-- With rules without a cycle the program never gets stuck: whatever run has led to a state after
a start, every callback that the event loop has reason for returns, unless a shutter's script
writes beyond the limit. -/
theorem never_stuck (hboots : Boots outside files s file devices p)
    (hacyclic : Acyclic rules (fun d => (declared devices d).deviceType))
    (hrun : Relation.ReflTransGen (fun p p' => ∃ input, ProgramSteps execdir rules input p p')
      p p') {input : ProgramInput} (henabled : input.Enabled p') :
    ∃ p'', ProgramSteps execdir rules input p' p'' := by
  have hbuffers : p'.velux.Buffered (fun _ => nul) := hboots.buffered hrun
  exact enabled_steps hacyclic (hboots.types hrun) hbuffers henabled

/-- The switch of a room is switched off, and its rule switches on the lamp. -/
theorem never_stuck_room :
    ∃ p p', Boots quietHouse [roomFile] plainSerialisation none roomDevices p ∧
      ProgramSteps [] [⟨⟨0,.unset⟩,[],[⟨.set,1,[]⟩]⟩] (.house (.command ⟨.unset,0,[]⟩)) p p' := by
  obtain ⟨p,hboots⟩ : ∃ p, Boots quietHouse [roomFile] plainSerialisation none roomDevices p :=
    ⟨_,@Boots.boots quietHouse [roomFile] plainSerialisation none ⟨roomDevices,none⟩ _ _
      (fun _ _ => 0) (fun _ _ => 0) rfl rfl⟩
  have henabled : (ProgramInput.house (.command ⟨.unset,0,[]⟩)).Enabled p := trivial
  have hacyclic : Acyclic [⟨⟨0,.unset⟩,[],[⟨.set,1,[]⟩]⟩]
      (fun d => (declared roomDevices d).deviceType) := later_acyclic (by decide)
  obtain ⟨p',hstep⟩ := never_stuck hboots hacyclic .refl henabled
  exact ⟨p,p',hboots,hstep⟩

/-- With rules without a cycle no client waits for ever: in every state of the connections, a client
whose command fits into the arrays of the parser can be answered and print the whole reply. -/
theorem clients_answered (hboots : Boots outside files s file devices p)
    (hacyclic : Acyclic rules (fun d => (declared devices d).deviceType))
    {served : List (Served ι Char)} {net : Network ι Char Program}
    (hrun : Run (remoteService execdir rules devices) ⟨p,fun _ => .start⟩ served net)
    (c : ι) (argument : CString) (hcalls : Calls (net.channel c) argument)
    (hparses : Parses argument)
    (hphase : (net.channel c).phase = .connected ∨ (net.channel c).phase = .waiting ∨
      (net.channel c).phase = .reading) :
    ∃ served' net', Run (remoteService execdir rules devices) net served' net' ∧
      (net'.channel c).phase = .finished := by
  refine calls_complete hrun c argument hcalls hphase (fun _ => ?_)
  have htypes := hboots.types (atomic_steps hrun.atomic)
  obtain ⟨fuel,handled,hhandled⟩ := @handleCommandReply_returns _ devices _ _ _ hacyclic htypes
    hparses ⟨nothingRead,[],0⟩
  rw [← cString_request hcalls.text] at hhandled
  exact ⟨_,_,.serves hhandled⟩

/-- A client that has just connected to the house of a room. -/
theorem clients_answered_lamp :
    ∃ (p : Program) (served : List (Served Unit Char)) (net : Network Unit Char Program),
      Run (remoteService [] [] roomDevices) ⟨p,fun _ => .start⟩ served net ∧
      (net.channel ()).request = domctlRequest lampCommand ∧
      ∃ served' net', Run (remoteService [] [] roomDevices) net served' net' ∧
        (net'.channel ()).phase = .finished := by
  obtain ⟨p,hboots⟩ : ∃ p, Boots quietHouse [roomFile] plainSerialisation none roomDevices p :=
    ⟨_,@Boots.boots quietHouse [roomFile] plainSerialisation none ⟨roomDevices,none⟩ _ _
      (fun _ _ => 0) (fun _ _ => 0) rfl rfl⟩
  obtain ⟨served,net,hrun,hchannel⟩ : ∃ (served : List (Served Unit Char))
      (net : Network Unit Char Program),
      Run (remoteService [] [] roomDevices) ⟨p,fun _ => .start⟩ served net ∧
        net.channel () = ⟨.connected,domctlRequest lampCommand,[],[],[],.pending⟩ :=
    ⟨_,_,.cons (.move () (.connect (domctlRequest lampCommand) rfl)) .nil,rfl⟩
  have hparses : Parses lampCommand := by
    refine ⟨_,lampCommand_parses,?_⟩
    rintro ln ⟨⟩
    exact (by decide : 1 < lineMaxOptions)
  refine ⟨p,served,net,hrun,by rw [hchannel],?_⟩
  exact clients_answered hboots (later_acyclic (by decide)) hrun () lampCommand
    (by rw [hchannel]; exact ⟨rfl,⟨by decide,by decide⟩,by decide,by decide⟩) hparses
    (.inl (by rw [hchannel]))

end Boot

end DomoticaEngine
