import DomoticaEngine.RuleParser
import Mathlib.Data.List.Nodup
import Mathlib.Data.List.TakeWhile

/-!
Rules written as text: an `IF` line, the `AND` lines, the `DO` lines and an empty line.
-/

set_option autoImplicit false

namespace DomoticaEngine
open Reads

def deviceName (devices : List Device) (device : DeviceId) : CString :=
  (devices[device]?.map Device.name).getD []

def eventLine (devices : List Device) (event : Event) : CString :=
  lineText "IF".toList (deviceName devices event.device) [(eventGetName event.type).getD []]

def conditionLine (devices : List Device) (condition : Condition) : CString :=
  lineText "AND".toList (deviceName devices condition.device)
    [(conditionTypeToChar condition.type).getD []]

def actionLine (devices : List Device) (action : Action) : CString :=
  lineText "DO".toList (deviceName devices action.device)
    ((actionTypeToChar action.type).getD [] :: action.options)

def ruleLines (devices : List Device) (rule : Rule) : List CString :=
  eventLine devices rule.event :: (rule.conditions.map (conditionLine devices) ++
    rule.actions.map (actionLine devices) ++ [[]])

def rulesText (devices : List Device) (rules : List Rule) : List Char :=
  (rules.flatMap (ruleLines devices)).flatMap (fun line => line ++ ['\n'])

def FileWord (w : CString) : Prop := Words.IsWord isBlank w ∧ nul ∉ w

/-- The rules that can be written: the devices exist, every action is supported by its
device and has room for its options, and the lines fit into the buffer. -/
structure Writable (devices : List Device) (rule : Rule) : Prop where
  eventDevice : rule.event.device < devices.length
  eventType : rule.event.type ≠ .invalid
  conditions : ∀ condition ∈ rule.conditions, condition.device < devices.length
  actions : ∀ action ∈ rule.actions,
    (∃ d, devices[action.device]? = some d ∧ action.type ∈ deviceGetSupportedAction d) ∧
    1 + action.options.length < lineMaxOptions ∧ ∀ w ∈ action.options, FileWord w
  lines : ∀ line ∈ ruleLines devices rule, line.length ≤ 254

section Names
variable {devices : List Device} (hnodup : (devices.map Device.name).Nodup)

theorem deviceName_eq {d : DeviceId} {device : Device} (h : devices[d]? = some device) :
    deviceName devices d = device.name := by
  simp [deviceName,h]

include hnodup in
theorem deviceListFindByName_deviceName {d : DeviceId} (hd : d < devices.length) :
    deviceListFindByName devices (deviceName devices d) = some d := by
  have hget := List.getElem?_eq_getElem hd
  rw [deviceName_eq hget]
  exact deviceListFindByName_name hnodup hget

theorem deviceName_fileWord (hnames : ∀ device ∈ devices, FileWord device.name) {d : DeviceId}
    (hd : d < devices.length) : FileWord (deviceName devices d) := by
  rw [deviceName_eq (List.getElem?_eq_getElem hd)]
  exact hnames _ (List.getElem_mem hd)

end Names

theorem eventGetName_fileWord {type : EventType} (h : type ≠ .invalid) :
    FileWord ((eventGetName type).getD []) := by
  cases type <;> first | contradiction | exact ⟨by decide,by decide⟩

theorem conditionTypeToChar_fileWord (type : ConditionType) :
    FileWord ((conditionTypeToChar type).getD []) := by
  cases type <;> exact ⟨by decide,by decide⟩

theorem actionTypeToChar_fileWord (type : ActionType) :
    FileWord ((actionTypeToChar type).getD []) := by
  cases type <;> exact ⟨by decide,by decide⟩

section Text

theorem fileLines_lines (lines : List CString)
    (hlines : ∀ line ∈ lines, line.length ≤ 254 ∧ (∀ c ∈ line, c ≠ '\n') ∧ nul ∉ line) :
    fileLines (lines.flatMap (fun line => line ++ ['\n'])) =
      lines.map (fun line => line ++ ['\n']) := by
  induction lines with
  | nil => rfl
  | cons line lines ih =>
    obtain ⟨hlength,hnewline,hnul⟩ := hlines line (by simp)
    have hrest := ih (fun l hl => hlines l (by simp [hl]))
    have hcut := Pieces.pieces_line isNewline (n := lineBuffer-1) (s := '\n') (by decide) line
      (lines.flatMap (fun line => line ++ ['\n']))
      (fun c hc => by simpa [isNewline] using hnewline c hc) (by unfold lineBuffer; omega)
    have hstring : cString (line ++ ['\n']) = line ++ ['\n'] := by
      apply List.takeWhile_eq_self_iff.mpr
      intro c hc
      rcases List.mem_append.mp hc with hc | hc
      · simp only [ne_eq,decide_eq_true_eq]
        rintro rfl
        exact hnul hc
      · rw [List.mem_singleton.mp hc]
        decide
    unfold fileLines at hrest ⊢
    simp only [List.flatMap_cons,List.append_assoc,List.singleton_append]
    rw [hcut,List.map_cons,List.map_cons,hstring,hrest]

theorem lineText_plain {statement name : CString} {options : List CString}
    (hs : FileWord statement) (hname : FileWord name) (ho : ∀ w ∈ options, FileWord w) :
    (∀ c ∈ lineText statement name options, c ≠ '\n') ∧
      nul ∉ lineText statement name options := by
  have hword : ∀ w, FileWord w → ∀ c ∈ w, c ≠ '\n' ∧ c ≠ nul := by
    intro w hw c hc
    constructor
    · rintro rfl
      exact absurd (hw.1.2 _ hc) (by decide)
    · rintro rfl
      exact hw.2 hc
  have hall : ∀ c ∈ lineText statement name options, c ≠ '\n' ∧ c ≠ nul := by
    intro c hc
    rcases List.mem_append.mp hc with hc | hc
    · exact hword _ hs c hc
    · rcases Words.mem_spaced hc with rfl | ⟨w,hw,hcw⟩
      · decide
      · rcases List.mem_cons.mp hw with rfl | hw
        · exact hword _ hname c hcw
        · exact hword _ (ho w hw) c hcw
  exact ⟨fun c hc => (hall c hc).1,fun hc => (hall _ hc).2 rfl⟩

end Text

section Reading
variable {devices : List Device}

theorem ruleLine_text (st : Statement) {statement name : CString} {options : List CString}
    (hst : lineGetStatement statement = st) (hs : FileWord statement)
    (hcomment : statement.head? ≠ some '#') (hmin : minOptions st ≤ 1) (hname : FileWord name)
    (ho : ∀ w ∈ options, FileWord w) (hone : options ≠ [])
    (hfits : options.length ≤ lineMaxOptions) {s : RuleReader} (hopen : s.schedule = false) :
    ruleLine devices (lineText statement name options ++ ['\n']) s =
      ruleStatement devices ⟨st,lineText statement name options,name,options,hfits⟩ s := by
  subst hst
  have hlength : 1 ≤ options.length := List.length_pos_iff.mpr hone
  have hparse := lineParse_text hs.1 hcomment hname.1 (fun w hw => (ho w hw).1) hfits
    (by omega)
  simp [ruleLine,hparse,hopen]

theorem lineLookup_name {α : Type} {typeFromChar : CString → Option α} {ln : Line} {d : DeviceId}
    {type : α} {word : CString} {rest : List CString}
    (hd : deviceListFindByName devices ln.name = some d) (hoptions : ln.options = word :: rest)
    (htype : typeFromChar word = some type) :
    lineLookup typeFromChar devices ln = some (d,type) := by
  simp [lineLookup,hd,hoptions,htype]

variable (hnodup : (devices.map Device.name).Nodup)
  (hnames : ∀ device ∈ devices, FileWord device.name)
include hnodup hnames

theorem eventLine_accepts {event : Event} (hd : event.device < devices.length)
    (ht : event.type ≠ .invalid) {s : RuleReader} (hopen : s.schedule = false) :
    Accepts (ruleLine devices) (eventLine devices event ++ ['\n']) s
      { s with rules := s.rules ++ [⟨event,[],[]⟩], rule := some s.rules.length } := by
  obtain ⟨name,hname,hchar⟩ := eventType_roundtrip ht
  have hword := eventGetName_fileWord ht
  rw [hname] at hword
  unfold Accepts eventLine
  rw [ruleLine_text .if_ rfl ⟨by decide,by decide⟩ (by decide) (by decide)
    (deviceName_fileWord hnames hd) (by simpa [hname] using hword) (by simp)
    (by simp [lineMaxOptions]) hopen]
  simp only [ruleStatement]
  rw [lineLookup_name (deviceListFindByName_deviceName hnodup hd) rfl
    (by simpa [hname] using hchar)]

theorem conditionLine_accepts {condition : Condition} (hd : condition.device < devices.length)
    {s : RuleReader} (hopen : s.schedule = false) {rules : List Rule} {rule : Rule}
    (hrules : s.rules = rules ++ [rule]) (hrule : s.rule = some rules.length) :
    Accepts (ruleLine devices) (conditionLine devices condition ++ ['\n']) s
      { s with
        rules := rules ++ [{ rule with conditions := rule.conditions ++ [condition] }] } := by
  obtain ⟨name,hname,hchar⟩ := conditionType_roundtrip condition.type
  have hword := conditionTypeToChar_fileWord condition.type
  unfold Accepts conditionLine
  rw [ruleLine_text .and_ rfl ⟨by decide,by decide⟩ (by decide) (by decide)
    (deviceName_fileWord hnames hd) (by simpa using hword) (by simp)
    (by simp [lineMaxOptions]) hopen]
  simp only [ruleStatement]
  rw [lineLookup_name (deviceListFindByName_deviceName hnodup hd) rfl
    (by simpa [hname] using hchar)]
  simp only [ruleAddCondition,ruleUpdate,hrule,hrules,modify_last,RuleReader.setRules]

theorem actionLine_accepts {action : Action}
    (hd : ∃ d, devices[action.device]? = some d ∧ action.type ∈ deviceGetSupportedAction d)
    (hfits : 1 + action.options.length < lineMaxOptions)
    (hwords : ∀ w ∈ action.options, FileWord w) {s : RuleReader} (hopen : s.schedule = false)
    {rules : List Rule} {rule : Rule} (hrules : s.rules = rules ++ [rule])
    (hrule : s.rule = some rules.length) :
    Accepts (ruleLine devices) (actionLine devices action ++ ['\n']) s
      { s with rules := rules ++ [{ rule with actions := rule.actions ++ [action] }] } := by
  obtain ⟨d,hget,hsupported⟩ := hd
  have hlt := (List.getElem?_eq_some_iff.mp hget).1
  obtain ⟨name,hname,hchar⟩ := actionType_roundtrip action.type
  have hword := actionTypeToChar_fileWord action.type
  unfold Accepts actionLine
  rw [ruleLine_text .do_ rfl ⟨by decide,by decide⟩ (by decide) (by decide)
    (deviceName_fileWord hnames hlt)
    (fun w hw => by
      rcases List.mem_cons.mp hw with rfl | hw
      · exact hword
      · exact hwords w hw)
    (by simp) (by simp only [List.length_cons]; omega) hopen]
  simp only [ruleStatement]
  rw [lineLookup_name (deviceListFindByName_deviceName hnodup hlt) rfl
    (by simpa [hname] using hchar)]
  have hroom : action.options.length + 1 < lineMaxOptions := by omega
  simp [actionCreate,hget,hsupported,hroom,ruleAddAction,ruleUpdate,hrule,hrules,modify_last,
    RuleReader.setRules]

theorem conditionLines_accepted (conditions : List Condition)
    (hd : ∀ condition ∈ conditions, condition.device < devices.length)
    {s : RuleReader} (hopen : s.schedule = false) (rules : List Rule) {rule : Rule}
    (hrules : s.rules = rules ++ [rule]) (hrule : s.rule = some rules.length) :
    AcceptsAll (ruleLine devices)
      ((conditions.map (conditionLine devices)).map (fun line => line ++ ['\n'])) s
      { s with rules := rules ++ [{ rule with conditions := rule.conditions ++ conditions }] } := by
  induction conditions generalizing s rule with
  | nil =>
    rw [List.map_nil,List.map_nil,acceptsAll_nil,List.append_nil,← hrules]
  | cons condition conditions ih =>
    have hfirst := conditionLine_accepts hnodup hnames (hd condition (by simp)) hopen hrules hrule
    refine acceptsAll_cons.mpr ⟨_,hfirst,?_⟩
    have hrest := ih (fun c hc => hd c (by simp [hc]))
      (s := { s with
        rules := rules ++ [{ rule with conditions := rule.conditions ++ [condition] }] })
      hopen rfl hrule
    simpa using hrest

theorem actionLines_accepted (actions : List Action)
    (ha : ∀ action ∈ actions,
      (∃ d, devices[action.device]? = some d ∧ action.type ∈ deviceGetSupportedAction d) ∧
      1 + action.options.length < lineMaxOptions ∧ ∀ w ∈ action.options, FileWord w)
    {s : RuleReader} (hopen : s.schedule = false) (rules : List Rule) {rule : Rule}
    (hrules : s.rules = rules ++ [rule]) (hrule : s.rule = some rules.length) :
    AcceptsAll (ruleLine devices)
      ((actions.map (actionLine devices)).map (fun line => line ++ ['\n'])) s
      { s with rules := rules ++ [{ rule with actions := rule.actions ++ actions }] } := by
  induction actions generalizing s rule with
  | nil =>
    rw [List.map_nil,List.map_nil,acceptsAll_nil,List.append_nil,← hrules]
  | cons action actions ih =>
    obtain ⟨hd,hfits,hwords⟩ := ha action (by simp)
    have hfirst := actionLine_accepts hnodup hnames hd hfits hwords hopen hrules hrule
    refine acceptsAll_cons.mpr ⟨_,hfirst,?_⟩
    have hrest := ih (fun a h => ha a (by simp [h]))
      (s := { s with rules := rules ++ [{ rule with actions := rule.actions ++ [action] }] })
      hopen rfl hrule
    simpa using hrest

theorem ruleLines_accepted {rule : Rule} (hw : Writable devices rule) {s : RuleReader}
    (hopen : s.schedule = false) :
    AcceptsAll (ruleLine devices) ((ruleLines devices rule).map (fun line => line ++ ['\n'])) s
      { rules := s.rules ++ [rule], rule := none, schedule := false } := by
  let s₁ : RuleReader :=
    { s with rules := s.rules ++ [⟨rule.event,[],[]⟩], rule := some s.rules.length }
  let s₂ : RuleReader := { s₁ with rules := s.rules ++ [⟨rule.event,rule.conditions,[]⟩] }
  have hevent := eventLine_accepts hnodup hnames hw.eventDevice hw.eventType hopen
  have hconditions := conditionLines_accepted hnodup hnames rule.conditions hw.conditions
    (s := s₁) hopen s.rules rfl rfl
  have hactions := actionLines_accepted hnodup hnames rule.actions hw.actions
    (s := s₂) hopen s.rules rfl rfl
  -- The empty line closes the rule.
  have hclose : Accepts (ruleLine devices) ['\n'] { s₂ with rules := s.rules ++ [rule] }
      { rules := s.rules ++ [rule], rule := none, schedule := false } := rfl
  unfold ruleLines
  rw [List.map_cons,List.map_append,List.map_append]
  exact acceptsAll_cons.mpr ⟨_,hevent,acceptsAll_append.mpr ⟨_,
    acceptsAll_append.mpr ⟨_,hconditions,hactions⟩,acceptsAll_cons.mpr ⟨_,hclose,rfl⟩⟩⟩

theorem rulesLines_accepted (rules : List Rule) (hw : ∀ rule ∈ rules, Writable devices rule)
    {s : RuleReader} (hopen : s.schedule = false) :
    ∃ s', AcceptsAll (ruleLine devices)
        ((rules.flatMap (ruleLines devices)).map (fun line => line ++ ['\n'])) s s' ∧
      s'.rules = s.rules ++ rules := by
  induction rules generalizing s with
  | nil => exact ⟨s,by simp,by simp⟩
  | cons rule rules ih =>
    have hfirst := ruleLines_accepted hnodup hnames (hw rule (by simp)) hopen
    obtain ⟨s',hs',hrules⟩ := ih (fun r hr => hw r (by simp [hr]))
      (s := { rules := s.rules ++ [rule], rule := none, schedule := false }) rfl
    refine ⟨s',?_,by simp [hrules]⟩
    rw [List.flatMap_cons,List.map_append]
    exact acceptsAll_append.mpr ⟨_,hfirst,hs'⟩

omit hnodup in
/-- The lines of a rule that can be written survive `fgets`. -/
theorem ruleLines_plain {rule : Rule} (hw : Writable devices rule) :
    ∀ line ∈ ruleLines devices rule,
      line.length ≤ 254 ∧ (∀ c ∈ line, c ≠ '\n') ∧ nul ∉ line := by
  intro line hline
  refine ⟨hw.lines line hline,?_⟩
  simp only [ruleLines,List.mem_cons,List.mem_append,List.mem_map,List.not_mem_nil,
    or_false] at hline
  rcases hline with rfl | (⟨condition,hc,rfl⟩ | ⟨action,ha,rfl⟩) | rfl
  · refine lineText_plain ⟨by decide,by decide⟩ (deviceName_fileWord hnames hw.eventDevice) ?_
    intro w hword
    rw [List.mem_singleton.mp hword]
    exact eventGetName_fileWord hw.eventType
  · refine lineText_plain ⟨by decide,by decide⟩
      (deviceName_fileWord hnames (hw.conditions condition hc)) ?_
    intro w hword
    rw [List.mem_singleton.mp hword]
    exact conditionTypeToChar_fileWord condition.type
  · obtain ⟨⟨d,hget,-⟩,-,hwords⟩ := hw.actions action ha
    refine lineText_plain ⟨by decide,by decide⟩
      (deviceName_fileWord hnames (List.getElem?_eq_some_iff.mp hget).1) ?_
    intro w hword
    rcases List.mem_cons.mp hword with rfl | hword
    · exact actionTypeToChar_fileWord action.type
    · exact hwords w hword
  · simp

end Reading

/-- Rules that are written to a file and read from it come back, in their order and with
their conditions, actions and options. -/
theorem rulesText_roundtrip (devices : List Device)
    (hnodup : (devices.map Device.name).Nodup)
    (hnames : ∀ device ∈ devices, FileWord device.name) (rules : List Rule)
    (hw : ∀ rule ∈ rules, Writable devices rule) (s : RuleReader) (hopen : s.schedule = false) :
    ∃ s', rulesReadFileRules devices (rulesText devices rules) s = .ok (0,s') ∧
      s'.rules = s.rules ++ rules ∧
      ∀ rule ∈ rules, ∀ action ∈ rule.actions, ∀ k,
        actionGetOption action (k+1) = action.options[k]? := by
  have hplain : ∀ line ∈ rules.flatMap (ruleLines devices),
      line.length ≤ 254 ∧ (∀ c ∈ line, c ≠ '\n') ∧ nul ∉ line := by
    intro line hline
    obtain ⟨rule,hrule,hline⟩ := List.mem_flatMap.mp hline
    exact ruleLines_plain hnames (hw rule hrule) line hline
  obtain ⟨s',hs',hrules⟩ := rulesLines_accepted hnodup hnames rules hw hopen
  refine ⟨s',?_,hrules,fun _ _ _ _ _ => rfl⟩
  unfold rulesReadFileRules rulesText
  rw [fileLines_lines _ hplain]
  exact hs'

def lampDevices : List Device :=
  [⟨"switch".toList,.bool ⟨0⟩⟩, ⟨"lamp".toList,.fud14 ⟨0,0,1,0,100,3⟩⟩]

def lampRule : Rule := ⟨⟨0,.set⟩,[⟨.unset,1⟩],[⟨.set,1,["50".toList]⟩]⟩

theorem lampRule_writable : Writable lampDevices lampRule := by
  refine ⟨by decide,by decide,by decide,?_,by decide⟩
  intro action haction
  rw [List.mem_singleton.mp haction]
  refine ⟨⟨_,rfl,by decide⟩,by decide,?_⟩
  intro w hw
  rw [List.mem_singleton.mp hw]
  exact ⟨by decide,by decide⟩

theorem rulesText_roundtrip_lamp :
    ∃ s', rulesReadFileRules lampDevices (rulesText lampDevices [lampRule]) RuleReader.start =
        .ok (0,s') ∧ s'.rules = [lampRule] := by
  have hnames : ∀ device ∈ lampDevices, FileWord device.name := by
    intro device hdevice
    simp only [lampDevices,List.mem_cons,List.not_mem_nil,or_false] at hdevice
    rcases hdevice with rfl | rfl <;> exact ⟨by decide,by decide⟩
  obtain ⟨s',hread,hrules,-⟩ := rulesText_roundtrip lampDevices (by decide) hnames [lampRule]
    (by simpa using lampRule_writable) RuleReader.start rfl
  exact ⟨s',hread,hrules⟩

end DomoticaEngine
