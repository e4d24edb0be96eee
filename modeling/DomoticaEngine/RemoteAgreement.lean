import DomoticaEngine.Execution
import DomoticaEngine.Remote
import DomoticaEngine.RuleText

/-!
A DO line on a remote connection against the same line in a rule file.
-/

set_option autoImplicit false

namespace DomoticaEngine
open Framing Reads

def raisedEvents (history : List Occurrence) : List Event :=
  history.filterMap (fun o =>
    match o with
    | .raised _ event => some event
    | .offered .. => none)

/-- `handle_command` returns in the state `w'`. -/
def CommandReturns (rules : List Rule) (devices : List Device) (buf : CString) (w w' : World) :
    Prop :=
  ∃ fuel, handleCommand (engineTriggerEvent rules fuel) devices buf w = .ok (some w')

def RaisedByAction (w : World) (event : Event) : Prop :=
  ∃ (action : Action) (cause : Option Event) (v v' : World),
    (∀ d, (v.userdata d).deviceType = (w.userdata d).deviceType) ∧
      Asks (fun trigger => actionExecute trigger action cause v) event v'

/-- The rules around an open one that the line `IF` has just made. -/
def openRule (before after : List Rule) (event : Event) : RuleReader :=
  { rules := before ++ ⟨event,[],[]⟩ :: after, rule := some before.length, schedule := false }

/-- A command and the dispatch of `event` have led from `w` to the same devices, and raised the
same events after `event`. -/
structure SameEffect (event : Event) (w w' w'' : World) : Prop where
  userdata : w''.userdata = w'.userdata
  loop : w''.loop = w'.loop
  eltako : w''.eltako = w'.eltako
  pins : w''.pins = w'.pins
  raised : ∃ events, raisedEvents w'.history = raisedEvents w.history ++ events ∧
    raisedEvents w''.history = raisedEvents w.history ++ event :: events

def World.withHistory (w : World) (history : List Occurrence) : World :=
  { w with history := history }

def SameTypes (w v : World) : Prop :=
  ∀ d, (v.userdata d).deviceType = (w.userdata d).deviceType

section Oblivious
variable {device : DeviceId} {w : World}

def Oblivious (device : DeviceId) (w : World) (exec : World → Trigger → Option World) : Prop :=
  ∃ (w₁ : World) (raised : Option EventType), ∀ history trigger,
    exec (w.withHistory history) trigger = resume trigger device (w₁.withHistory history) raised

theorem Oblivious.quiet (exec : World → World)
    (h : ∀ history, exec (w.withHistory history) = (exec w).withHistory history) :
    Oblivious device w (fun v _ => some (exec v)) :=
  ⟨exec w,none,fun history _ => congrArg some (h history)⟩

theorem fsb14DeviceExec_withHistory (fsb14 : DeviceFsb14) (action : Action)
    (history : List Occurrence) :
    fsb14DeviceExec device fsb14 action (w.withHistory history) =
      (fsb14DeviceExec device fsb14 action w).withHistory history := by
  unfold fsb14DeviceExec
  split
  · rfl
  · rfl
  · split
    · rfl
    · unfold fsb14Exec
      by_cases hlocked : (fsb14CancelTimer fsb14 w.loop).1.locked = true
      · simp only [World.withHistory,hlocked,if_true]
        rfl
      · simp only [World.withHistory,hlocked]
        rfl

theorem deviceSet_oblivious (action : Action) (event : Option Event) :
    Oblivious device w (fun v trigger => deviceSet trigger device action event v) := by
  have hnone : Oblivious device w (fun v _ => some v) := Oblivious.quiet id (fun _ => rfl)
  have hdata : ∀ history, (w.withHistory history).userdata = w.userdata := fun _ => rfl
  unfold deviceSet Oblivious
  simp only [hdata]
  by_cases hmask : action.type ∈ (deviceTypeInfo (w.userdata device).deviceType).actions
  · simp only [if_pos hmask]
    cases hcase : w.userdata device with
    | bool b =>
      simp only [boolExec]
      by_cases hchanged : b.val ≠ boolCommand b action.type
      · simp only [if_pos hchanged]
        exact ⟨w.setUserdata device (.bool { b with val := boolCommand b action.type }),some _,
          fun _ _ => rfl⟩
      · simp only [if_neg hchanged]
        exact ⟨w.setUserdata device (.bool { b with val := boolCommand b action.type }),none,
          fun _ _ => rfl⟩
    | fsr14 fsr14 =>
      simp only [fsr14DeviceExec]
      cases fsr14Command fsr14 action with
      | none => exact hnone
      | some command =>
        exact ⟨(w.setUserdata device (.fsr14 { fsr14 with val := command.1 })).send _,some _,
          fun _ _ => rfl⟩
    | fud14 fud14 =>
      simp only [fud14DeviceExec]
      cases fud14Command fud14 action with
      | none => exact hnone
      | some command =>
        exact ⟨(w.setUserdata device (.fud14 command.1)).send _,some _,fun _ _ => rfl⟩
    | fsb14 fsb14 => exact Oblivious.quiet _ (fsb14DeviceExec_withHistory fsb14 action)
    | timer tmr =>
      refine Oblivious.quiet (timerDeviceExec device tmr action) (fun history => ?_)
      unfold timerDeviceExec
      cases tmr.timer <;> cases action.type <;> rfl
    | gpo gpio =>
      refine Oblivious.quiet (gpioOutputExec device gpio action) (fun history => ?_)
      unfold gpioOutputExec
      cases action.type <;> rfl
    | veluxKlf200 klf200 =>
      refine Oblivious.quiet (veluxKlf200DeviceExec device klf200 action) (fun _ => ?_)
      unfold veluxKlf200DeviceExec
      cases action.type <;> rfl
    | schedule _ => exact hnone
    | sunriset _ => exact hnone
    | plain _ => exact hnone
  · simp only [if_neg hmask]
    exact hnone

theorem deviceSet_withHistory {action : Action} {cause : Option Event} {w₁ : World}
    {raised : Option EventType} (h : ∀ trigger, deviceSet trigger device action cause w =
      resume trigger device w₁ raised) (cause' : Option Event) (history : List Occurrence)
    (trigger : Trigger) :
    deviceSet trigger device action cause' (w.withHistory history) =
      resume trigger device (w₁.withHistory history) raised := by
  have hoblivious : Oblivious device w (fun v trigger => deviceSet trigger device action cause v) :=
    deviceSet_oblivious action cause
  obtain ⟨w₂,raised₂,hexec⟩ := hoblivious
  have hsame : ∀ trigger, resume trigger device (w₂.withHistory w.history) raised₂ =
      resume trigger device w₁ raised :=
    fun trigger => (hexec w.history trigger).symm.trans (h trigger)
  obtain ⟨hw,rfl⟩ := resume_unique hsame
  have hhistory : w₂.withHistory history = w₁.withHistory history := by
    rw [← hw]
    rfl
  exact (hexec history trigger).trans (by rw [hhistory])

end Oblivious

def matching (event : Event) (entries : List (Rule × Nat)) : List Rule :=
  (entries.filter (fun entry => entry.1.event = event)).map Prod.fst

def Occasion.raisedEvent : Occasion → Option Event
  | .raise _ event => some event
  | .exec .. => none

def raisedOnWay (tr : List Occasion) : List Event := tr.filterMap Occasion.raisedEvent

section Matching
variable {event : Event} {entries pre post : List (Rule × Nat)} {rules : List Rule}

theorem matching_cons {rule : Rule} {i : Nat} : matching event ((rule,i) :: entries) =
    if rule.event = event then rule :: matching event entries else matching event entries := by
  unfold matching
  by_cases h : rule.event = event <;> simp [h]

theorem matching_zipIdx (k : Nat) :
    matching event (rules.zipIdx k) = rules.filter (fun rule => rule.event = event) := by
  induction rules generalizing k with
  | nil => rfl
  | cons rule rules ih =>
    rw [List.zipIdx_cons,matching_cons,ih]
    by_cases h : rule.event = event <;> simp [h]

theorem matching_split {rule : Rule} {rest : List Rule}
    (h : matching event entries = rule :: rest) :
    ∃ pre i post, entries = pre ++ (rule,i) :: post ∧ (∀ entry ∈ pre, entry.1.event ≠ event) ∧
      rule.event = event ∧ matching event post = rest := by
  obtain ⟨⟨_,i⟩,rest',hfilter,rfl,rfl⟩ := List.map_eq_cons_iff.mp h
  obtain ⟨pre,post,hentries,hpre,hevent,rfl⟩ := List.filter_eq_cons_iff.mp hfilter
  exact ⟨pre,i,post,hentries,by simpa using hpre,by simpa using hevent,rfl⟩

theorem matching_nil (h : matching event entries = []) :
    ∀ entry ∈ entries, entry.1.event ≠ event := by
  have hfilter := List.map_eq_nil_iff.mp h
  simpa using List.filter_eq_nil_iff.mp hfilter

end Matching

/-- Calls that ask for the same: another number of the event, other rules that do not match it
and another cause of the actions make no difference. -/
inductive Corresponds (allowed : Event → Prop) : Call → Call → Prop where
  | trigger {event : Event} (h : allowed event) :
      Corresponds allowed (.trigger event) (.trigger event)
  | offer {n n' : Nat} {event : Event} {entries entries' : List (Rule × Nat)}
      (h : matching event entries = matching event entries') :
      Corresponds allowed (.offer n event entries) (.offer n' event entries')
  | actions {event event' : Event} {actions : List Action} :
      Corresponds allowed (.actions event actions) (.actions event' actions)
  | set {action : Action} {cause cause' : Option Event} :
      Corresponds allowed (.set action cause) (.set action cause')

/-- The call leads to `w'` from every history, and raises these events. -/
def ExecutesAs (rules : List Rule) (call : Call) (w : World) (events : List Event) (w' : World) :
    Prop :=
  ∀ history, ∃ tr history', Executes rules call (w.withHistory history) tr
    (w'.withHistory history') ∧ raisedOnWay tr = events

theorem raisedOnWay_append (tr tr' : List Occasion) :
    raisedOnWay (tr ++ tr') = raisedOnWay tr ++ raisedOnWay tr' := List.filterMap_append

section Rules
variable {rules : List Rule} {w w₁ w' : World} {event : Event} {events events₁ : List Event}
  {n i : Nat} {rule : Rule} {entries pre post : List (Rule × Nat)}

theorem ExecutesAs.trigger
    (h : ∀ n, ExecutesAs rules (.offer n event rules.zipIdx) w events w') :
    ExecutesAs rules (.trigger event) w (event :: events) w' := by
  intro history
  obtain ⟨tr,history',hoffer,hevents⟩ :=
    h history.length (history ++ [.raised history.length event])
  exact ⟨_,history',.trigger hoffer,congrArg (event :: ·) hevents⟩

theorem ExecutesAs.offered : ExecutesAs rules (.offer n event []) w [] w :=
  fun history => ⟨[],history,.offered,rfl⟩

theorem ExecutesAs.passed
    (hpassed : ¬ (rule.event = event ∧ rule.conditions.all (conditionCheck w) = true))
    (h : ExecutesAs rules (.offer n event entries) w events w') :
    ExecutesAs rules (.offer n event ((rule,i) :: entries)) w events w' := by
  intro history
  obtain ⟨tr,history',hrest,hevents⟩ := h (history ++ [.offered n i event])
  exact ⟨tr,history',.passed hpassed hrest,hevents⟩

theorem ExecutesAs.fired (hevent : rule.event = event)
    (hconditions : rule.conditions.all (conditionCheck w) = true)
    (hactions : ExecutesAs rules (.actions event rule.actions) w events w₁)
    (hrest : ExecutesAs rules (.offer n event entries) w₁ events₁ w') :
    ExecutesAs rules (.offer n event ((rule,i) :: entries)) w (events ++ events₁) w' := by
  intro history
  obtain ⟨tr,history₁,htr,hevents⟩ := hactions (history ++ [.offered n i event])
  obtain ⟨tr₁,history',htr₁,hevents₁⟩ := hrest history₁
  refine ⟨tr ++ tr₁,history',.fired hevent hconditions htr htr₁,?_⟩
  rw [raisedOnWay_append,hevents,hevents₁]

theorem ExecutesAs.executed : ExecutesAs rules (.actions event []) w [] w :=
  fun history => ⟨[],history,.executed,rfl⟩

theorem ExecutesAs.action {action : Action} {actions : List Action}
    (haction : ExecutesAs rules (.set action (some event)) w events w₁)
    (hrest : ExecutesAs rules (.actions event actions) w₁ events₁ w') :
    ExecutesAs rules (.actions event (action :: actions)) w (events ++ events₁) w' := by
  intro history
  obtain ⟨tr,history₁,htr,hevents⟩ := haction history
  obtain ⟨tr₁,history',htr₁,hevents₁⟩ := hrest history₁
  refine ⟨tr ++ tr₁,history',.action htr htr₁,?_⟩
  rw [raisedOnWay_append,hevents,hevents₁]

theorem ExecutesAs.quiet {action : Action} {cause : Option Event}
    (hset : ∀ trigger, deviceSet trigger action.device action cause w =
      resume trigger action.device w' none) (cause' : Option Event) :
    ExecutesAs rules (.set action cause') w [] w' :=
  fun history => ⟨_,history,.quiet (deviceSet_withHistory hset cause' history),rfl⟩

theorem ExecutesAs.raising {action : Action} {cause : Option Event} {type : EventType}
    (hset : ∀ trigger, deviceSet trigger action.device action cause w =
      resume trigger action.device w₁ (some type)) (cause' : Option Event)
    (h : ExecutesAs rules (.trigger ⟨action.device,type⟩) w₁ events w') :
    ExecutesAs rules (.set action cause') w events w' := by
  intro history
  obtain ⟨tr,history',hraised,hevents⟩ := h history
  exact ⟨_,history',.raising (deviceSet_withHistory hset cause' history) hraised,hevents⟩

theorem offer_skip (hpre : ∀ entry ∈ pre, entry.1.event ≠ event)
    (h : ExecutesAs rules (.offer n event post) w events w') :
    ExecutesAs rules (.offer n event (pre ++ post)) w events w' := by
  induction pre with
  | nil => exact h
  | cons entry pre ih =>
    obtain ⟨rule,i⟩ := entry
    have hne : rule.event ≠ event := hpre (rule,i) (by simp)
    have hrest := ih (fun entry hmem => hpre entry (by simp [hmem]))
    exact .passed (fun hfires => hne hfires.1) hrest

theorem offer_none (h : ∀ entry ∈ entries, entry.1.event ≠ event) :
    ExecutesAs rules (.offer n event entries) w [] w := by
  have hnil : ExecutesAs rules (.offer n event []) w [] w := .offered
  have hskip := offer_skip h hnil
  rwa [List.append_nil] at hskip

end Rules

section Transfer
variable {rules rules' : List Rule} {w₀ w w' : World} {event : Event}

theorem set_types {action : Action} {cause : Option Event} {raised : Option EventType}
    (h : ∀ trigger, deviceSet trigger action.device action cause w =
      resume trigger action.device w' raised) (htypes : SameTypes w₀ w) : SameTypes w₀ w' :=
  fun d => ((deviceSet_frame h).types d).trans (htypes d)

/-- What two rule lists do is the same when every event that can come up has the same matching
rules in both. -/
theorem Executes.transfer {allowed : Event → Prop}
    (hmatch : ∀ event, allowed event →
      matching event rules.zipIdx = matching event rules'.zipIdx)
    (hraise : ∀ (action : Action) (cause : Option Event) (v v' : World) (event : Event),
      SameTypes w₀ v → Asks (fun trigger => actionExecute trigger action cause v) event v' →
        allowed event)
    {call : Call} {tr : List Occasion} (h : Executes rules call w tr w') {call' : Call}
    (hcall : Corresponds allowed call call') (htypes : SameTypes w₀ w) :
    ExecutesAs rules' call' w (raisedOnWay tr) w' ∧ SameTypes w₀ w' := by
  induction h generalizing call' with
  | @trigger event w w' tr hrules ih =>
    cases hcall with
    | trigger hallowed =>
      have hoffer : ∀ n', Corresponds allowed (.offer w.history.length event rules.zipIdx)
          (.offer n' event rules'.zipIdx) := fun n' => .offer (hmatch event hallowed)
      exact ⟨.trigger (fun n' => (ih (hoffer n') htypes).1),(ih (hoffer 0) htypes).2⟩
  | offered =>
    cases hcall with
    | offer hsame => exact ⟨offer_none (matching_nil hsame.symm),htypes⟩
  | @passed n i event rule entries w w' tr hpassed hrest ih =>
    cases hcall with
    | @offer _ n' _ _ entries' hsame =>
      rw [matching_cons] at hsame
      by_cases hevent : rule.event = event
      · rw [if_pos hevent] at hsame
        obtain ⟨pre,i',post,rfl,hpre,-,hpost⟩ := matching_split hsame.symm
        have hothers : Corresponds allowed (.offer n event entries) (.offer n' event post) :=
          .offer hpost.symm
        obtain ⟨has,htypes'⟩ := ih hothers htypes
        exact ⟨offer_skip hpre (.passed hpassed has),htypes'⟩
      · rw [if_neg hevent] at hsame
        exact ih (.offer hsame) htypes
  | @fired n i event rule entries w w₁ w' tr₁ tr₂ hevent hconditions hactions hrest ih₁ ih₂ =>
    cases hcall with
    | @offer _ n' _ _ entries' hsame =>
      rw [matching_cons,if_pos hevent] at hsame
      obtain ⟨pre,i',post,rfl,hpre,-,hpost⟩ := matching_split hsame.symm
      have hsame : Corresponds allowed (.actions event rule.actions)
          (.actions event rule.actions) := .actions
      have hothers : Corresponds allowed (.offer n event entries) (.offer n' event post) :=
        .offer hpost.symm
      obtain ⟨has₁,htypes₁⟩ := ih₁ hsame htypes
      obtain ⟨has₂,htypes₂⟩ := ih₂ hothers htypes₁
      rw [raisedOnWay_append]
      exact ⟨offer_skip hpre (.fired hevent hconditions has₁ has₂),htypes₂⟩
  | executed =>
    cases hcall
    exact ⟨.executed,htypes⟩
  | @action event action actions w w₁ w' tr₁ tr₂ haction hrest ih₁ ih₂ =>
    cases hcall with
    | @actions _ event' _ =>
      have hset : Corresponds allowed (.set action (some event)) (.set action (some event')) := .set
      have hothers : Corresponds allowed (.actions event actions) (.actions event' actions) :=
        .actions
      obtain ⟨has₁,htypes₁⟩ := ih₁ hset htypes
      obtain ⟨has₂,htypes₂⟩ := ih₂ hothers htypes₁
      rw [raisedOnWay_append]
      exact ⟨.action has₁ has₂,htypes₂⟩
  | quiet hset =>
    cases hcall with
    | @set _ _ cause' => exact ⟨.quiet hset cause',set_types hset htypes⟩
  | @raising action cause type w w₁ w' tr hset hraised ih =>
    cases hcall with
    | @set _ _ cause' =>
      have hasks : Asks (fun trigger => actionExecute trigger action cause w)
          ⟨action.device,type⟩ w₁ := by
        simp only [actionExecute,hset]
        exact asks_resume.mpr ⟨type,rfl,rfl,rfl⟩
      have hallowed := hraise action cause w w₁ _ htypes hasks
      obtain ⟨has,htypes'⟩ := ih (.trigger hallowed) (set_types hset htypes)
      exact ⟨.raising hset cause' has,htypes'⟩

theorem Executes.again {call call' : Call} {tr : List Occasion} (h : Executes rules call w tr w')
    (hcall : Corresponds (fun _ => True) call call') :
    ExecutesAs rules call' w (raisedOnWay tr) w' := by
  have htypes : SameTypes w w := fun _ => rfl
  exact (h.transfer (fun _ _ => rfl) (fun _ _ _ _ _ _ _ => trivial) hcall htypes).1

end Transfer

theorem raisedEvents_record (history : List Occurrence) (o : Occurrence) :
    raisedEvents (history ++ [o]) = raisedEvents history ++ raisedEvents [o] :=
  List.filterMap_append

theorem Executes.raised {rules : List Rule} {call : Call} {w w' : World} {tr : List Occasion}
    (h : Executes rules call w tr w') :
    raisedEvents w'.history = raisedEvents w.history ++ raisedOnWay tr := by
  induction h with
  | trigger _ ih =>
    rw [ih,record_history,raisedEvents_record,List.append_assoc]
    rfl
  | offered | executed => simp [raisedOnWay]
  | passed _ _ ih =>
    rw [ih,record_history,raisedEvents_record]
    simp [raisedEvents]
  | fired _ _ _ _ ih₁ ih₂ =>
    rw [ih₂,ih₁,record_history,raisedEvents_record]
    simp [raisedEvents,raisedOnWay]
  | action _ _ ih₁ ih₂ =>
    rw [ih₂,ih₁]
    simp [raisedOnWay]
  | @quiet action cause w w' hset =>
    rw [(deviceSet_frame hset).history]
    exact (List.append_nil _).symm
  | @raising action cause type w w₁ w' tr hset _ ih =>
    rw [ih,(deviceSet_frame hset).history]
    rfl

section Line
variable {devices : List Device} {m : Message Char} {ln : Line} {device : DeviceId}
  {type : ActionType}

theorem actionCreate_ok (hwords : ln.options.length < lineMaxOptions)
    (hnames : lineLookup actionTypeFromChar devices ln = some (device,type)) :
    ∃ action, actionCreate devices device type ln.options = .ok action := by
  obtain ⟨d,hd⟩ := lineLookup_device hnames
  unfold actionCreate
  rw [hd]
  by_cases hsupported : type ∈ deviceGetSupportedAction d
  · exact ⟨_,by simp only [if_pos hsupported,if_pos hwords]; rfl⟩
  · exact ⟨none,by simp only [if_neg hsupported]⟩

theorem lineParse_ne_nil {text : CString} (hline : lineParse text = .ok (some ln)) :
    text ≠ [] := by
  rintro rfl
  cases hline

theorem lineParse_sent (hm : Command m) (hne : m.text ≠ []) :
    lineParse (cString m.sent) = lineParse m.text := by
  unfold lineParse
  rw [lineCleanup_text hm.valid hne]

theorem command_plain (hm : Command m) : (∀ c ∈ m.text, c ≠ '\n') ∧ nul ∉ m.text := by
  constructor
  · rintro c hc rfl
    have hstop := hm.valid.text _ hc
    simp [endsCommand] at hstop
  · intro hc
    have hstop := hm.valid.text _ hc
    simp [endsCommand] at hstop

theorem lineParse_newline (hm : Command m) (hne : m.text ≠ []) :
    lineParse (m.text ++ ['\n']) = lineParse m.text := by
  have hcommand : Command ⟨m.text,'\n'⟩ := ⟨⟨hm.valid.text,rfl⟩,hm.fits⟩
  have hstring : cString (m.text ++ ['\n']) = m.text ++ ['\n'] := by
    refine List.takeWhile_eq_self_iff.mpr (fun c hc => ?_)
    rcases List.mem_append.mp hc with hc | hc
    · simp only [ne_eq,decide_eq_true_eq]
      rintro rfl
      exact (command_plain hm).2 hc
    · rw [List.mem_singleton.mp hc]
      decide
  have hsent := lineParse_sent hcommand hne
  rw [Message.sent,hstring] at hsent
  exact hsent

variable (hm : Command m) (hline : lineParse m.text = .ok (some ln))
  (hdo : ln.statement = .do_)
  (hnames : lineLookup actionTypeFromChar devices ln = some (device,type))
  {action : Option Action} (haction : actionCreate devices device type ln.options = .ok action)
include hm hline hdo hnames haction

theorem handleCommand_do (trigger : Trigger) (event : Event) (w : World) :
    handleCommand trigger devices (cString m.sent) w =
      .ok (action.toList.foldlM
        (fun w action => actionExecute trigger action (some event) w) w) := by
  have hparse := (lineParse_sent hm (lineParse_ne_nil hline)).trans hline
  unfold handleCommand
  rw [hparse,ok_bind]
  simp only [hdo,if_true,hnames,haction,ok_bind]
  cases action with
  | none => rfl
  | some action =>
    simp only [Option.toList_some,List.foldlM_cons,List.foldlM_nil,Option.bind_eq_bind]
    exact congrArg Except.ok (Option.bind_fun_some _).symm

/-- The file adds the action to the open rule. -/
theorem doLine_read (before after : List Rule) (event : Event) :
    rulesReadFileRules devices (m.text ++ ['\n']) (openRule before after event) =
      .ok (0,(openRule before after event).setRules
        (before ++ ⟨event,[],action.toList⟩ :: after)) := by
  have hparse := (lineParse_newline hm (lineParse_ne_nil hline)).trans hline
  have hlines : fileLines (m.text ++ ['\n']) = [m.text ++ ['\n']] := by
    have hfits : m.text.length ≤ 254 := by
      have hfits := hm.fits
      unfold remoteBuffer at hfits
      omega
    simpa using fileLines_lines [m.text] (by simpa using ⟨hfits,command_plain hm⟩)
  have hadd : ruleAddAction (some before.length) action (before ++ ⟨event,[],[]⟩ :: after) =
      before ++ ⟨event,[],action.toList⟩ :: after := by
    cases action with
    | none => rfl
    | some action => exact modify_append _ before (⟨event,[],[]⟩ :: after) 0
  unfold rulesReadFileRules
  rw [hlines,readAll,ruleLine,hparse]
  simp only [openRule,Bool.false_eq_true,if_false,ruleStatement,hdo,hnames,haction,ok_bind,hadd]
  rfl

end Line

section Added
variable {rules rules' : List Rule} {event : Event} {w w' : World} {actions : List Action}

theorem dispatch_only {events : List Event}
    (honly : matching event rules.zipIdx = [⟨event,[],actions⟩])
    (h : ExecutesAs rules (.actions event actions) w events w') :
    ∃ tr history, Executes rules (.trigger event) w tr (w'.withHistory history) ∧
      raisedOnWay tr = event :: events := by
  obtain ⟨pre,i,post,hentries,hpre,-,hpost⟩ := matching_split honly
  have hoffer : ∀ n, ExecutesAs rules (.offer n event rules.zipIdx) w events w' := by
    intro n
    rw [hentries,← List.append_nil events]
    exact offer_skip hpre (.fired rfl rfl h (offer_none (matching_nil hpost)))
  obtain ⟨tr,history,hdispatch,hevents⟩ := ExecutesAs.trigger hoffer w.history
  exact ⟨tr,history,hdispatch,hevents⟩

theorem dispatch_only_inv {tr : List Occasion}
    (honly : matching event rules.zipIdx = [⟨event,[],actions⟩])
    (h : Executes rules (.trigger event) w tr w') :
    ∃ events, raisedOnWay tr = event :: events ∧
      ExecutesAs rules (.actions event actions) w events w' := by
  cases h with
  | @trigger _ _ _ tr hoffer =>
    refine ⟨raisedOnWay tr,rfl,?_⟩
    have hsingle : matching event [((⟨event,[],actions⟩ : Rule),0)] = [⟨event,[],actions⟩] := by
      simp [matching]
    have hcall : Corresponds (fun _ => True) (.offer w.history.length event rules.zipIdx)
        (.offer 0 event [(⟨event,[],actions⟩,0)]) := .offer (honly.trans hsingle.symm)
    obtain ⟨tr',history',hexecutes,hevents⟩ := hoffer.again hcall []
    have hinner : ∃ tr₁, Executes rules (.actions event actions)
        ((w.withHistory []).record (.offered 0 0 event)) tr₁ (w'.withHistory history') ∧
          raisedOnWay tr₁ = raisedOnWay tr := by
      cases hexecutes with
      | passed hpassed _ => exact absurd ⟨rfl,rfl⟩ hpassed
      | fired _ _ hactions hrest =>
        cases hrest
        exact ⟨_,hactions,by rw [← hevents,List.append_nil]⟩
    obtain ⟨tr₁,hactions,hraised⟩ := hinner
    have hsame : Corresponds (fun _ => True) (.actions event actions) (.actions event actions) :=
      .actions
    rw [← hraised]
    exact hactions.again hsame

variable {before after : List Rule} {rule : Rule}

theorem matching_other (hrule : rule.event = event) {event' : Event} (hother : event' ≠ event) :
    matching event' (before ++ rule :: after).zipIdx =
      matching event' (before ++ after).zipIdx := by
  have hne : rule.event ≠ event' := fun h => hother (h.symm.trans hrule)
  rw [matching_zipIdx,matching_zipIdx,List.filter_append,List.filter_append,
    List.filter_cons_of_neg (by simpa using hne)]

theorem matching_only (rule : Rule) (hrule : rule.event = event)
    (hunmatched : ∀ rule ∈ before ++ after, rule.event ≠ event) :
    matching event (before ++ rule :: after).zipIdx = [rule] := by
  have hfilter : ∀ rules : List Rule, (∀ rule ∈ rules, rule.event ≠ event) →
      rules.filter (fun rule => rule.event = event) = [] := by
    intro rules hrules
    exact List.filter_eq_nil_iff.mpr (by simpa using hrules)
  rw [matching_zipIdx,List.filter_append,List.filter_cons_of_pos (by simpa using hrule),
    hfilter before (fun rule hmem => hunmatched rule (List.mem_append_left _ hmem)),
    hfilter after (fun rule hmem => hunmatched rule (List.mem_append_right _ hmem)),
    List.nil_append]

/-- Under a rule for an event that no action raises, everything else is as without it. -/
theorem actions_added (rule : Rule) (hrule : rule.event = event)
    (hunraised : ¬ RaisedByAction w event) :
    (∀ tr, Executes (before ++ after) (.actions event actions) w tr w' →
      ExecutesAs (before ++ rule :: after) (.actions event actions) w (raisedOnWay tr) w') ∧
    (∀ tr, Executes (before ++ rule :: after) (.actions event actions) w tr w' →
      ExecutesAs (before ++ after) (.actions event actions) w (raisedOnWay tr) w') := by
  have hraise : ∀ (action : Action) (cause : Option Event) (v v' : World) (event' : Event),
      SameTypes w v → Asks (fun trigger => actionExecute trigger action cause v) event' v' →
        event' ≠ event := by
    rintro action cause v v' event' htypes hasks rfl
    exact hunraised ⟨action,cause,v,v',htypes,hasks⟩
  have hother : ∀ event', event' ≠ event → matching event' (before ++ rule :: after).zipIdx =
      matching event' (before ++ after).zipIdx := fun _ hne => matching_other hrule hne
  have hcall : Corresponds (· ≠ event) (.actions event actions) (.actions event actions) :=
    .actions
  constructor
  · intro tr h
    exact (h.transfer (fun event' hne => (hother event' hne).symm) hraise hcall (fun _ => rfl)).1
  · intro tr h
    exact (h.transfer hother hraise hcall (fun _ => rfl)).1

end Added

/-- A DO line does on a remote connection what it does as the action of a rule of its own. -/
theorem remote_rule_agree (devices : List Device) (before after : List Rule) (event : Event)
    (w : World) (m : Message Char) (ln : Line) (device : DeviceId) (type : ActionType)
    (hm : Command m) (hline : lineParse m.text = .ok (some ln)) (hdo : ln.statement = .do_)
    (hwords : ln.options.length < lineMaxOptions)
    (hnames : lineLookup actionTypeFromChar devices ln = some (device,type))
    (hunmatched : ∀ rule ∈ before ++ after, rule.event ≠ event)
    (hunraised : ¬ RaisedByAction w event) :
    ∃ s, rulesReadFileRules devices (m.text ++ ['\n']) (openRule before after event) =
        .ok (0,s) ∧
      (∀ w', CommandReturns (before ++ after) devices (cString m.sent) w w' →
        ∃ w'', Dispatches s.rules event w w'' ∧ SameEffect event w w' w'') ∧
      (∀ w'', Dispatches s.rules event w w'' →
        ∃ w', CommandReturns (before ++ after) devices (cString m.sent) w w' ∧
          SameEffect event w w' w'') := by
  obtain ⟨action,haction⟩ := actionCreate_ok hwords hnames
  refine ⟨_,doLine_read hm hline hdo hnames haction before after event,?_⟩
  have honly := matching_only ⟨event,[],action.toList⟩ rfl hunmatched
  have hcommand : ∀ w', CommandReturns (before ++ after) devices (cString m.sent) w w' ↔
      ∃ tr, Executes (before ++ after) (.actions event action.toList) w tr w' := by
    intro w'
    unfold CommandReturns
    simp only [handleCommand_do hm hline hdo hnames haction _ event,Except.ok.injEq]
    constructor
    · rintro ⟨fuel,h⟩
      have hperform : (Call.actions event action.toList).perform (before ++ after)
          (engineTriggerEvent (before ++ after) fuel) w = some w' := h
      exact executes_of_perform hperform
    · rintro ⟨tr,h⟩
      exact h.perform
  constructor
  · intro w' h
    obtain ⟨tr,htr⟩ := (hcommand w').mp h
    obtain ⟨tr',history,hdispatch,hevents⟩ :=
      dispatch_only honly ((actions_added _ rfl hunraised).1 tr htr)
    refine ⟨w'.withHistory history,dispatches_iff_executes.mpr ⟨tr',hdispatch⟩,rfl,rfl,rfl,rfl,
      raisedOnWay tr,htr.raised,?_⟩
    rw [hdispatch.raised,hevents]
  · intro w'' h
    obtain ⟨tr,htr⟩ := dispatches_iff_executes.mp h
    obtain ⟨events,hevents,has⟩ := dispatch_only_inv honly htr
    obtain ⟨tr₁,history₁,hactions,hevents₁⟩ := has w.history
    obtain ⟨tr₂,history₂,hcommanded,hevents₂⟩ :=
      (actions_added ⟨event,[],action.toList⟩ rfl hunraised).2 tr₁ hactions w.history
    refine ⟨w''.withHistory history₂,(hcommand _).mpr ⟨tr₂,hcommanded⟩,rfl,rfl,rfl,rfl,events,
      ?_,?_⟩
    · refine hcommanded.raised.trans ?_
      rw [hevents₂,hevents₁]
      rfl
    · rw [htr.raised,hevents]

theorem not_raisedByAction {w : World} {event : Event}
    (h : ¬ (w.userdata event.device).deviceType.Raises) : ¬ RaisedByAction w event := by
  rintro ⟨action,cause,v,v',htypes,hasks⟩
  obtain ⟨v₁,raised,hresume,-,hraised⟩ := deviceSet_spec action.device action cause v
  simp only [actionExecute,hresume] at hasks
  obtain ⟨type,htype,rfl,rfl⟩ := asks_resume.mp hasks
  have hraises := (hraised type htype).2
  rw [htypes] at hraises
  exact h hraises

def hallDevices : List Device :=
  [⟨"lamp".toList,.bool ⟨0⟩⟩,⟨"fan".toList,.bool ⟨0⟩⟩,⟨"delay".toList,.timer ⟨1000,none⟩⟩]

def hallWorld : World := World.start (fun d =>
  match hallDevices[d]? with
  | some device => device.userdata
  | none => .plain .gpi)

def hallRules : List Rule := [⟨⟨0,.set⟩,[],[⟨.set,1,[]⟩]⟩]

def lampOn : Message Char := ⟨"DO lamp SET".toList,nul⟩

theorem lampOn_command : Command lampOn := by
  have htext : lampOn.text.all (fun c => !endsCommand c) = true := rfl
  exact ⟨⟨by simpa using htext,rfl⟩,by decide⟩

theorem remote_rule_agree_hall :
    ∃ s w' w'', rulesReadFileRules hallDevices (lampOn.text ++ ['\n'])
        (openRule hallRules [] ⟨2,.timeout⟩) = .ok (0,s) ∧
      CommandReturns hallRules hallDevices (cString lampOn.sent) hallWorld w' ∧
      Dispatches s.rules ⟨2,.timeout⟩ hallWorld w'' ∧
      SameEffect ⟨2,.timeout⟩ hallWorld w' w'' ∧
      w'.userdata 1 = .bool ⟨1⟩ := by
  have htimer : (hallWorld.userdata 2).deviceType = .timer := rfl
  have hquiet : ¬ (hallWorld.userdata 2).deviceType.Raises := by simp [htimer,DeviceType.Raises]
  obtain ⟨s,hread,hforward,-⟩ := remote_rule_agree hallDevices hallRules [] ⟨2,.timeout⟩ hallWorld
    lampOn ⟨.do_,"DO lamp SET".toList,"lamp".toList,["SET".toList],by decide⟩ 0 .set lampOn_command
    rfl rfl (by decide) rfl (by decide) (not_raisedByAction hquiet)
  have hexecute : ∀ trigger, handleCommand trigger hallDevices (cString lampOn.sent) hallWorld =
      .ok (actionExecute trigger ⟨.set,0,[]⟩ none hallWorld) := fun _ => rfl
  have hfan : (actionExecute (engineTriggerEvent hallRules 2) ⟨.set,0,[]⟩ none hallWorld).map
      (fun w => w.userdata 1) = some (.bool ⟨1⟩) := by decide +kernel
  obtain ⟨w',hw',hvalue⟩ := Option.map_eq_some_iff.mp hfan
  have hreturns : CommandReturns hallRules hallDevices (cString lampOn.sent) hallWorld w' :=
    ⟨2,(hexecute _).trans (congrArg Except.ok hw')⟩
  obtain ⟨w'',hdispatch,heffect⟩ := hforward w' hreturns
  exact ⟨s,w',w'',hread,hreturns,hdispatch,heffect,hvalue⟩

end DomoticaEngine
