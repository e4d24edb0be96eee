import DomoticaEngine.LogExport
import DomoticaEngine.Library.Requests
import DomoticaEngine.Program
import DomoticaEngine.Remote
import DomoticaEngine.StateReply

/-!
The whole command server: every connection at once, what each command answers, and what a client
can conclude from the answer.
-/

set_option autoImplicit false

namespace DomoticaEngine
open Requests

/-- What `handle_command` leaves behind: its result, the state and the logs for the reply. -/
structure Handled where
  world : World
  rv : Bool
  map : Option StateMap
  json : Option CString

def Handled.nok (w : World) : Handled := ⟨w,false,none,none⟩

structure Seen where
  readings : Readings
  deviceLogs : List DeviceLog
  now : Int

section Commands
variable (trigger : Trigger) (devices : List Device) (seen : Seen)

/-- The case of `STATEMENT_DO`. -/
def handleDo (ln : Line) (w : World) : Except Fault (Option Handled) :=
  match deviceListFindByName devices ln.name with
  | none => .ok (some (.nok w))
  | some device =>
    match ln.options[0]?.bind actionTypeFromChar with
    | none => .ok (some (.nok w))
    | some actionType =>
      match actionCreate devices device actionType ln.options with
      | .error e => .error e
      | .ok none => .ok (some (.nok w))
      | .ok (some action) =>
        .ok ((actionExecute trigger action none w).map (fun w => ⟨w,true,none,none⟩))

def handleState (ln : Line) (w : World) : Handled :=
  match deviceListFindByName devices ln.name with
  | none => .nok w
  | some device =>
    let name := (devices[device]?.map Device.name).getD []
    ⟨w,true,some (deviceState seen.readings ⟨name,w.userdata device⟩),none⟩

def handleLogs (ln : Line) (w : World) : Handled :=
  match deviceListFindByName devices ln.name with
  | none => .nok w
  | some device =>
    ⟨w,true,none,some (deviceLogsGetJson seen.deviceLogs device seen.now (3600*24))⟩

/-- `handle_command`, with all that the reply is made from. -/
def handleCommandReply (buf : CString) (w : World) : Except Fault (Option Handled) :=
  match lineParse buf with
  | .error e => .error e
  | .ok none => .ok (some (.nok w))
  | .ok (some ln) =>
    match ln.statement with
    | .do_ => handleDo trigger devices ln w
    | .state => .ok (some (handleState devices seen ln w))
    | .logs => .ok (some (handleLogs devices seen ln w))
    | _ => .ok (some (.nok w))

/-- `eu_socket_write(conn_sock, response, strlen(response) + 1)`. -/
def sentReply (response : CString) : List Char := cString response ++ [nul]

end Commands

/-- What `handle_incoming_conn_event` does with the bytes of one read. -/
inductive ServesRead (rules : List Rule) (devices : List Device) (p : Program)
    (read : List Char) : List Char → Program → Prop where
  | serves {seen : Seen} {fuel : Nat} {handled : Handled}
      (h : handleCommandReply (engineTriggerEvent rules fuel) devices seen (cString read) p.world =
        .ok (some handled)) :
      ServesRead rules devices p read
        (sentReply (connResponse handled.rv handled.map handled.json)) (p.setWorld handled.world)

def OtherCallback (execdir : CString) (rules : List Rule) (p p' : Program) : Prop :=
  ∃ input, (∀ action, input ≠ .house (.command action)) ∧ ProgramSteps execdir rules input p p'

/-- domctl reads 1024 bytes at a time. -/
def domctlBuffer : Nat := 1024

def remoteService (execdir : CString) (rules : List Rule) (devices : List Device) :
    Service Char Program :=
  { serverSize := remoteBuffer-1,
    clientSize := domctlBuffer,
    serve := ServesRead rules devices,
    idle := OtherCallback execdir rules }

def domctlRequest (argument : CString) : List Char := argument ++ [nul]

/-- `printf("%.*s", rv, buf)` for each read. -/
def domctlPrints (pieces : List (List Char)) : CString := pieces.flatMap cString

section Printing

theorem cString_noNul {s : List Char} (h : nul ∉ s) : cString s = s := by
  refine List.takeWhile_eq_self_iff.mpr (fun c hc => ?_)
  simp only [ne_eq,decide_eq_true_eq]
  rintro rfl
  exact h hc

theorem cString_request {argument : CString} (h : nul ∉ argument) :
    cString (domctlRequest argument) = argument := by
  have hkept : ∀ c ∈ argument, decide (c ≠ nul) = true := by
    intro c hc
    simp only [ne_eq,decide_eq_true_eq]
    rintro rfl
    exact h hc
  rw [cString,domctlRequest,List.takeWhile_append_of_pos hkept]
  simp

theorem nul_notMem_cString (s : List Char) : nul ∉ cString s := by
  intro h
  have hkept := List.mem_takeWhile_imp h
  simp at hkept

theorem domctlPrints_reply {response : CString} (h : nul ∉ response) {pieces : List (List Char)}
    (hpieces : pieces.flatten = response ++ [nul]) : domctlPrints pieces = response := by
  induction pieces generalizing response with
  | nil => simp at hpieces
  | cons piece pieces ih =>
    rw [List.flatten_cons] at hpieces
    have hprints : domctlPrints (piece :: pieces) = cString piece ++ domctlPrints pieces := rfl
    rcases List.append_eq_append_iff.mp hpieces with ⟨rest,hresponse,hrest⟩ | ⟨last,hpiece,hlast⟩
    · subst hresponse
      rw [List.mem_append,not_or] at h
      rw [hprints,cString_noNul h.1,ih h.2 hrest]
    · rcases List.append_eq_cons_iff.mp hlast.symm with ⟨rfl,hrest⟩ | ⟨rest,rfl,hrest⟩
      · have hnone : domctlPrints pieces = [] := ih (by simp) hrest
        rw [hprints,hnone,hpiece,List.append_nil,List.append_nil,cString_noNul h]
      · obtain ⟨rfl,hempty⟩ := List.append_eq_nil_iff.mp hrest.symm
        have hnone : domctlPrints pieces = [] := by
          rw [domctlPrints,List.flatMap_eq_nil_iff]
          intro piece' hmem
          rw [List.flatten_eq_nil_iff.mp hempty piece' hmem]
          rfl
        rw [hprints,hnone,hpiece,List.append_nil]
        exact cString_request h

end Printing

structure Orders (devices : List Device) (buf : CString) (ln : Line) (action : Action) : Prop where
  parsed : lineParse buf = .ok (some ln)
  statement : ln.statement = .do_
  device : deviceListFindByName devices ln.name = some action.device
  type : ln.options[0]?.bind actionTypeFromChar = some action.type
  created : actionCreate devices action.device action.type ln.options = .ok (some action)

def Ordered (devices : List Device) (buf : CString) (action : Action) : Prop :=
  ∃ ln, Orders devices buf ln action

def okText : CString := "OK".toList
inductive CommandRun (execdir : CString) (rules : List Rule) :
    Program → List Action → Program → Prop where
  | nil {p : Program} : CommandRun execdir rules p [] p
  | callback {p p₁ p' : Program} {actions : List Action}
      (h : OtherCallback execdir rules p p₁) (hrest : CommandRun execdir rules p₁ actions p') :
      CommandRun execdir rules p actions p'
  | command {p p₁ p' : Program} {action : Action} {actions : List Action}
      (hstep : ProgramSteps execdir rules (.house (.command action)) p p₁)
      (hrest : CommandRun execdir rules p₁ actions p') :
      CommandRun execdir rules p (action :: actions) p'

section Answers
variable {trigger : Trigger} {devices : List Device} {seen : Seen} {buf : CString} {w : World}
  {handled : Handled} {rules : List Rule} {p p' : Program} {read reply : List Char}

theorem actionCreate_some {device : DeviceId} {type : ActionType} {options : List CString}
    {action : Action} (h : actionCreate devices device type options = .ok (some action)) :
    action.device = device ∧ action.type = type := by
  unfold actionCreate at h
  split at h
  · cases h
  · split at h
    · split at h
      · cases h
        exact ⟨rfl,rfl⟩
      · cases h
    · cases h

/-- `handle_command` is true of a DO command only when its action has been executed. -/
theorem handleDo_cases {ln : Line} (hparsed : lineParse buf = .ok (some ln))
    (hdo : ln.statement = .do_) (h : handleDo trigger devices ln w = .ok (some handled)) :
    (handled = .nok w ∧ ∀ action, ¬ Ordered devices buf action) ∨
      ∃ action w', Ordered devices buf action ∧ actionExecute trigger action none w = some w' ∧
        handled = ⟨w',true,none,none⟩ := by
  have hline : ∀ ln', lineParse buf = .ok (some ln') → ln' = ln := by
    intro ln' hparsed'
    rw [hparsed] at hparsed'
    cases hparsed'
    rfl
  unfold handleDo at h
  cases hdevice : deviceListFindByName devices ln.name with
  | none =>
    simp only [hdevice,Except.ok.injEq,Option.some.injEq] at h
    refine .inl ⟨h.symm,?_⟩
    rintro action ⟨ln',horders⟩
    cases hline ln' horders.parsed
    cases hdevice.symm.trans horders.device
  | some device =>
    simp only [hdevice] at h
    cases htype : ln.options[0]?.bind actionTypeFromChar with
    | none =>
      simp only [htype,Except.ok.injEq,Option.some.injEq] at h
      refine .inl ⟨h.symm,?_⟩
      rintro action ⟨ln',horders⟩
      cases hline ln' horders.parsed
      cases htype.symm.trans horders.type
    | some type =>
      simp only [htype] at h
      cases hcreate : actionCreate devices device type ln.options with
      | error e => simp [hcreate] at h
      | ok created =>
        cases created with
        | none =>
          simp only [hcreate,Except.ok.injEq,Option.some.injEq] at h
          refine .inl ⟨h.symm,?_⟩
          rintro action ⟨ln',horders⟩
          cases hline ln' horders.parsed
          have hdevice' := hdevice.symm.trans horders.device
          have htype' := htype.symm.trans horders.type
          cases hdevice'
          cases htype'
          cases hcreate.symm.trans horders.created
        | some action =>
          simp only [hcreate,Except.ok.injEq,Option.map_eq_some_iff] at h
          obtain ⟨w',hexecute,rfl⟩ := h
          obtain ⟨rfl,rfl⟩ := actionCreate_some hcreate
          exact .inr ⟨action,w',⟨ln,hparsed,hdo,hdevice,htype,hcreate⟩,hexecute,rfl⟩

def TellsOf (handled : Handled) (w : World) : Prop :=
  handled.world = w ∧ handled.rv = true ∧
    ((∃ map, handled.map = some map) ∨ handled.map = none ∧ ∃ deviceLogs device now interval,
      handled.json = some (deviceLogsGetJson deviceLogs device now interval))

theorem handleCommandReply_cases
    (h : handleCommandReply trigger devices seen buf w = .ok (some handled)) :
    ((handled = .nok w ∨ TellsOf handled w) ∧ ∀ action, ¬ Ordered devices buf action) ∨
      ∃ action w', Ordered devices buf action ∧ actionExecute trigger action none w = some w' ∧
        handled = ⟨w',true,none,none⟩ := by
  unfold handleCommandReply at h
  cases hparsed : lineParse buf with
  | error e => simp [hparsed] at h
  | ok parsed =>
    cases parsed with
    | none =>
      simp only [hparsed,Except.ok.injEq,Option.some.injEq] at h
      refine .inl ⟨.inl h.symm,?_⟩
      rintro action ⟨ln,horders⟩
      cases hparsed.symm.trans horders.parsed
    | some ln =>
      simp only [hparsed] at h
      have hother : ln.statement ≠ .do_ → ∀ action, ¬ Ordered devices buf action := by
        rintro hne action ⟨ln',horders⟩
        cases hparsed.symm.trans horders.parsed
        exact hne horders.statement
      cases hstatement : ln.statement with
      | do_ =>
        simp only [hstatement] at h
        exact (handleDo_cases hparsed hstatement h).imp_left
          (fun ⟨hnok,hnone⟩ => ⟨.inl hnok,hnone⟩)
      | state =>
        simp only [hstatement,Except.ok.injEq,Option.some.injEq] at h
        refine .inl ⟨?_,hother (by simp [hstatement])⟩
        unfold handleState at h
        cases hdevice : deviceListFindByName devices ln.name with
        | none => exact .inl (by simpa [hdevice] using h.symm)
        | some device =>
          simp only [hdevice] at h
          subst h
          exact .inr ⟨rfl,rfl,.inl ⟨_,rfl⟩⟩
      | logs =>
        simp only [hstatement,Except.ok.injEq,Option.some.injEq] at h
        refine .inl ⟨?_,hother (by simp [hstatement])⟩
        unfold handleLogs at h
        cases hdevice : deviceListFindByName devices ln.name with
        | none => exact .inl (by simpa [hdevice] using h.symm)
        | some device =>
          simp only [hdevice] at h
          subst h
          exact .inr ⟨rfl,rfl,.inr ⟨rfl,_,_,_,_,rfl⟩⟩
      | _ =>
        simp only [hstatement,Except.ok.injEq,Option.some.injEq] at h
        exact .inl ⟨.inl h.symm,hother (by simp [hstatement])⟩

theorem stateReply_brace (pairs : StateMap) : (stateReply pairs).head? = some '{' := by
  rw [stateReply_eq]
  rfl

theorem tellsOf_brace (h : TellsOf handled w) :
    (connResponse handled.rv handled.map handled.json).head? = some '{' := by
  obtain ⟨-,hrv,⟨map,hmap⟩ | ⟨hmap,deviceLogs,device,now,interval,hjson⟩⟩ := h
  · rw [hrv,hmap]
    exact stateReply_brace map
  · rw [hrv,hmap,hjson,connResponse]
    exact congrArg List.head? (deviceLogsGetJson_eq deviceLogs device)

theorem cString_brace {s : CString} (h : s.head? = some '{') : (cString s).head? = some '{' := by
  cases s with
  | nil => cases h
  | cons c s =>
    cases h
    rfl

/-- Each read of the server either executes one action, and answers OK, or changes nothing, and
answers something else. -/
theorem ServesRead.answer (execdir : CString) (h : ServesRead rules devices p read reply p') :
    ∃ response, reply = response ++ [nul] ∧ nul ∉ response ∧
      ((response = okText ∧ ∃ action, Ordered devices (cString read) action ∧
          ProgramSteps execdir rules (.house (.command action)) p p') ∨
        (response ≠ okText ∧ p' = p ∧ ∀ action, ¬ Ordered devices (cString read) action)) := by
  cases h with
  | @serves seen fuel handled h =>
    refine ⟨_,rfl,nul_notMem_cString _,?_⟩
    rcases handleCommandReply_cases h with ⟨hnothing,hnone⟩ | ⟨action,w',hordered,hexecute,rfl⟩
    · refine .inr ⟨?_,?_,hnone⟩
      · rcases hnothing with rfl | htold
        · have hnok : cString (connResponse false none none) ≠ okText := by decide
          exact hnok
        · intro hok
          have hbrace := cString_brace (tellsOf_brace htold)
          rw [hok] at hbrace
          cases hbrace
      · rcases hnothing with rfl | htold
        · rfl
        · rw [htold.1]
          rfl
    · refine .inl ⟨rfl,action,hordered,fuel,?_⟩
      have hhouse : houseStep (engineTriggerEvent rules fuel) (.command action) p.house =
          (actionExecute (engineTriggerEvent rules fuel) action none p.world).map
            p.house.setWorld := rfl
      simp only [programStep,hhouse,hexecute]
      rfl

end Answers

section Server
variable {execdir : CString} {rules : List Rule} {devices : List Device} {p p' : Program}

theorem CommandRun.append {p₁ : Program} {actions actions' : List Action}
    (h : CommandRun execdir rules p actions p₁) (h' : CommandRun execdir rules p₁ actions' p') :
    CommandRun execdir rules p (actions ++ actions') p' := by
  induction h with
  | nil => exact h'
  | callback h _ ih => exact .callback h (ih h')
  | command hstep _ ih => exact .command hstep (ih h')

variable {ι : Type}

/-- Whatever is proved of the runs of the program holds of the server. -/
theorem atomic_steps {served : List (Served ι Char)}
    (h : Atomic (remoteService execdir rules devices) p served p') :
    Relation.ReflTransGen (fun p p' => ∃ input, ProgramSteps execdir rules input p p') p p' := by
  induction h with
  | nil => exact .refl
  | idle hidle _ ih =>
    obtain ⟨input,-,hstep⟩ := hidle
    exact .head ⟨input,hstep⟩ ih
  | @serve s s₁ s' op served hserve _ ih =>
    have hserves : ServesRead rules devices s op.read op.reply s₁ := hserve
    obtain ⟨-,-,-,⟨-,action,-,hstep⟩ | ⟨-,rfl,-⟩⟩ := hserves.answer execdir
    · exact .head ⟨_,hstep⟩ ih
    · exact ih

/-- The actions of a run are those of the commands that are answered with OK. -/
theorem atomic_commands {served : List (Served ι Char)}
    (h : Atomic (remoteService execdir rules devices) p served p') :
    ∃ actions, CommandRun execdir rules p actions p' ∧
      List.Forall₂ (fun op action => Ordered devices (cString op.read) action)
        (served.filter (fun op => op.reply = okText ++ [nul])) actions := by
  induction h with
  | nil => exact ⟨[],.nil,.nil⟩
  | idle hidle _ ih =>
    obtain ⟨actions,hrun,hordered⟩ := ih
    exact ⟨actions,.callback hidle hrun,hordered⟩
  | @serve s s₁ s' op served hserve _ ih =>
    obtain ⟨actions,hrun,hordered⟩ := ih
    have hserves : ServesRead rules devices s op.read op.reply s₁ := hserve
    obtain ⟨response,hreply,-,⟨rfl,action,horder,hstep⟩ | ⟨hne,rfl,-⟩⟩ :=
      hserves.answer execdir
    · refine ⟨action :: actions,.command hstep hrun,?_⟩
      rw [List.filter_cons_of_pos (by simpa using hreply)]
      exact .cons horder hordered
    · refine ⟨actions,hrun,?_⟩
      rw [List.filter_cons_of_neg]
      · exact hordered
      · intro hok
        rw [hreply,decide_eq_true_eq] at hok
        exact hne (List.append_cancel_right hok)

variable [DecidableEq ι] {net₁ net' : Network ι Char Program}
  {served served₁ : List (Served ι Char)}

/-- A client that is neither a stranger nor longer than the buffer of the server. -/
structure Calls (ch : Channel Char) (argument : CString) : Prop where
  request : ch.request = domctlRequest argument
  client : ch.phase ≠ .stranger ∧ ch.phase ≠ .gone
  text : nul ∉ argument
  fits : argument.length ≤ remoteBuffer-2

theorem Calls.length {ch : Channel Char} {argument : CString} (h : Calls ch argument) :
    ch.request.length ≤ (remoteService execdir rules devices).serverSize := by
  have hfits := h.fits
  have hsize : (remoteService execdir rules devices).serverSize = 127 := rfl
  have hbuffer : remoteBuffer = 128 := rfl
  rw [h.request,domctlRequest,List.length_append,List.length_singleton,hsize]
  omega

def lampCommand : CString := "DO lamp SET".toList

theorem lampCommand_parses : lineParse lampCommand =
    .ok (some ⟨.do_,lampCommand,"lamp".toList,["SET".toList],by decide⟩) := by decide

theorem lampCommand_serves : ∃ p q,
    ServesRead [] roomDevices p (domctlRequest lampCommand) (okText ++ [nul]) q := by
  obtain ⟨p,w,hexecute⟩ : ∃ (p : Program) (w : World),
      actionExecute (engineTriggerEvent [] 1) ⟨.set,1,[]⟩ none p.world = some w :=
    ⟨Program.start roomDevices (parsedWorld roomDevices) (fun _ _ => 0) (fun _ _ => 0),_,rfl⟩
  have hdevice : deviceListFindByName roomDevices "lamp".toList = some 1 := by decide
  have htype : (["SET".toList][0]?).bind actionTypeFromChar = some .set := by decide
  have hcreate : actionCreate roomDevices 1 .set ["SET".toList] =
      .ok (some ⟨.set,1,[]⟩) := by decide
  have hhandled : handleCommandReply (engineTriggerEvent [] 1) roomDevices ⟨nothingRead,[],0⟩
      (cString (domctlRequest lampCommand)) p.world = .ok (some ⟨w,true,none,none⟩) := by
    rw [cString_request (by decide)]
    simp only [handleCommandReply,lampCommand_parses,handleDo,hdevice,htype,hcreate,hexecute]
    rfl
  have hok : okText ++ [nul] = sentReply (connResponse true none none) := by decide
  rw [hok]
  exact ⟨p,p.setWorld w,.serves hhandled⟩

theorem lamp_run : ∃ (p : Program) (served : List (Served Unit Char))
    (net : Network Unit Char Program),
    Run (remoteService [] [] roomDevices) ⟨p,fun _ => .start⟩ served net ∧
      Calls (net.channel ()) lampCommand ∧ (net.channel ()).phase = .finished ∧
      domctlPrints (net.channel ()).pieces = okText := by
  obtain ⟨p,q,hserves⟩ := lampCommand_serves
  obtain ⟨served,net,hrun,hchannel⟩ : ∃ (served : List (Served Unit Char))
      (net : Network Unit Char Program),
      Run (remoteService [] [] roomDevices) ⟨p,fun _ => .start⟩ served net ∧
        net.channel () =
          ⟨.finished,domctlRequest lampCommand,[okText ++ [nul]],[],[],.registered⟩ :=
    ⟨_,_,.cons (.move () (.connect (domctlRequest lampCommand) rfl))
      (.cons (.move () (.send rfl))
        (.cons (.move () (.accept (by simp [Network.put,Channel.send]) rfl))
          (.cons (.serve () rfl (List.cons_ne_nil _ _) hserves)
            (.cons (.move () (.receive (.inl rfl) (List.cons_ne_nil _ _)))
              (.cons (.move () (.finish rfl rfl)) .nil))))),rfl⟩
  refine ⟨p,served,net,hrun,?_,by rw [hchannel],by rw [hchannel]; rfl⟩
  rw [hchannel]
  exact ⟨rfl,⟨by decide,by decide⟩,by decide,by decide⟩

/-- In every run of any number of clients, the program runs as if the commands came one after the
other, and executes the actions of those that are answered with OK. The command of a client takes
effect at most once, only after it is sent, and no more when the client is done. -/
theorem commands_linearised
    (hrun₁ : Run (remoteService execdir rules devices) ⟨p,fun _ => .start⟩ served net₁)
    (hrun₂ : Run (remoteService execdir rules devices) net₁ served₁ net') :
    (∃ actions actions₁, CommandRun execdir rules p actions net₁.state ∧
      CommandRun execdir rules net₁.state actions₁ net'.state ∧
      List.Forall₂ (fun op action => Ordered devices (cString op.read) action)
        ((served ++ served₁).filter (fun op => op.reply = okText ++ [nul]))
        (actions ++ actions₁)) ∧
    ∀ c argument, Calls (net'.channel c) argument →
      ((net₁.channel c).phase = .absent ∨ (net₁.channel c).phase = .connected →
        mine c served = []) ∧
      ((net₁.channel c).phase = .finished → mine c served₁ = []) ∧
      (mine c (served ++ served₁) = [] ∨
        ∃ reply, mine c (served ++ served₁) = [(domctlRequest argument,reply)]) := by
  obtain ⟨hfirst,hsecond,hclients⟩ := linearised hrun₁ hrun₂
  refine ⟨?_,fun c argument hcalls => ?_⟩
  · obtain ⟨actions,hactions,hordered⟩ := atomic_commands hfirst
    obtain ⟨actions₁,hactions₁,hordered₁⟩ := atomic_commands hsecond
    refine ⟨actions,actions₁,hactions,hactions₁,?_⟩
    rw [List.filter_append]
    exact List.rel_append hordered hordered₁
  · obtain ⟨hbefore,hafter,honce,-⟩ := hclients c hcalls.client.1 hcalls.client.2 hcalls.length
    exact ⟨hbefore,hafter,hcalls.request ▸ honce⟩

theorem commands_linearised_lamp :
    ∃ (p : Program) (served : List (Served Unit Char)) (net : Network Unit Char Program),
      Run (remoteService [] [] roomDevices) ⟨p,fun _ => .start⟩ served net ∧
      ∃ actions, CommandRun [] [] p actions net.state ∧
        List.Forall₂ (fun op action => Ordered roomDevices (cString op.read) action)
          (served.filter (fun op => op.reply = okText ++ [nul])) actions := by
  obtain ⟨p,served,net,hrun,-⟩ := lamp_run
  obtain ⟨actions,actions₁,hactions,hactions₁,hordered⟩ := (commands_linearised hrun .nil).1
  rw [List.append_nil] at hordered
  exact ⟨p,served,net,hrun,_,hactions.append hactions₁,hordered⟩

/-- When a client is done, its command has been handled exactly once, at a point of the run. It has
printed OK exactly when the action was executed there, and otherwise nothing was changed. -/
theorem printed_tells
    (hrun : Run (remoteService execdir rules devices) ⟨p,fun _ => .start⟩ served net')
    (c : ι) (argument : CString) (hcalls : Calls (net'.channel c) argument)
    (hfinished : (net'.channel c).phase = .finished) :
    ∃ before after reply q q', served = before ++ ⟨c,domctlRequest argument,reply⟩ :: after ∧
      mine c before = [] ∧ mine c after = [] ∧
      Atomic (remoteService execdir rules devices) p before q ∧
      Atomic (remoteService execdir rules devices) q' after net'.state ∧
      (domctlPrints (net'.channel c).pieces = okText ∧ (∃ action, Ordered devices argument action ∧
          ProgramSteps execdir rules (.house (.command action)) q q') ∨
        domctlPrints (net'.channel c).pieces ≠ okText ∧ q' = q ∧
          ∀ action, ¬ Ordered devices argument action) := by
  obtain ⟨hatomic,-,hclients⟩ := linearised hrun .nil
  have hmine := (hclients c hcalls.client.1 hcalls.client.2 hcalls.length).2.2.2 hfinished
  rw [List.append_nil,hcalls.request] at hmine
  obtain ⟨before,after,q,q',hserved,hbefore,hafter,hfirst,hserve,hlast⟩ := hatomic.point hmine
  have hserves : ServesRead rules devices q (domctlRequest argument)
      (net'.channel c).pieces.flatten q' := hserve
  obtain ⟨response,hreply,hnul,hanswer⟩ := hserves.answer execdir
  rw [cString_request hcalls.text] at hanswer
  refine ⟨before,after,_,q,q',hserved,hbefore,hafter,hfirst,hlast,?_⟩
  rw [domctlPrints_reply hnul hreply]
  exact hanswer

/-- The dimmer has been switched on. -/
theorem printed_tells_lamp : ∃ q q' action, Ordered roomDevices lampCommand action ∧
    ProgramSteps [] [] (.house (.command action)) q q' := by
  obtain ⟨p,served,net,hrun,hcalls,hfinished,hprints⟩ := lamp_run
  obtain ⟨_,_,_,q,q',-,-,-,-,-,⟨-,action,hordered,hstep⟩ | ⟨hne,-⟩⟩ :=
    printed_tells hrun () lampCommand hcalls hfinished
  · exact ⟨q,q',action,hordered,hstep⟩
  · exact absurd hprints hne

/-- No command is lost: a client that is there can be answered and print the reply, if its command
returns. -/
theorem calls_complete
    (hrun : Run (remoteService execdir rules devices) ⟨p,fun _ => .start⟩ served net')
    (c : ι) (argument : CString) (hcalls : Calls (net'.channel c) argument)
    (hphase : (net'.channel c).phase = .connected ∨ (net'.channel c).phase = .waiting ∨
      (net'.channel c).phase = .reading)
    (hreturns : mine c served = [] →
      ∃ reply q, ServesRead rules devices net'.state (domctlRequest argument) reply q) :
    ∃ served₁ net₁, Run (remoteService execdir rules devices) net' served₁ net₁ ∧
      (net₁.channel c).phase = .finished := by
  have hsize : 0 < (remoteService execdir rules devices).clientSize :=
    Nat.lt_of_lt_of_le Nat.zero_lt_one (by decide : 1 ≤ domctlBuffer)
  refine completes hrun hsize hphase ?_ hcalls.length ?_ ?_
  · rw [hcalls.request,domctlRequest]
    simp
  · intro s read reply s' hserve
    have hserves : ServesRead rules devices s read reply s' := hserve
    obtain ⟨response,rfl,-⟩ := hserves.answer execdir
    simp
  · rw [hcalls.request]
    exact hreturns

end Server

end DomoticaEngine
