import DomoticaEngine.DeviceParser
import DomoticaEngine.Library.Pieces
import DomoticaEngine.Library.Reads

set_option autoImplicit false

namespace DomoticaEngine
open Reads

def isNewline (c : Char) : Bool := c = '\n'

/-- `char line[256]`, of which `fgets` keeps one byte for the NUL. -/
def lineBuffer : Nat := 256

/-- The strings that the calls of `fgets` leave in the buffer. -/
def fileLines (content : List Char) : List CString :=
  (Pieces.pieces isNewline (lineBuffer-1) content).map cString

/-- What `rules_read_file_declarations` keeps from line to line and from file to file.
The open schedule is told by the position of its device. -/
structure DeclarationReader where
  devices : List Device
  schedule : Option DeviceId
  deriving DecidableEq, Repr

def DeclarationReader.start : DeclarationReader := { devices := [], schedule := none }

def Device.parseScheduleLine (line : CString) (device : Device) : Option Device :=
  match device.userdata with
  | .schedule schedule => (scheduleParseLine schedule line).map (fun schedule =>
      { device with userdata := .schedule schedule })
  | _ => none

def Device.scheduleParsingFinished (now : Tm) (device : Device) : Device :=
  match device.userdata with
  | .schedule schedule =>
    { device with userdata := .schedule (DomoticaEngine.scheduleParsingFinished now schedule) }
  | _ => device

/-- An unknown type name also makes `device_create` fail. -/
def declareDevice (outside : Surroundings) (ln : Line) (s : DeclarationReader) :
    Except Fault (Int × DeclarationReader) :=
  match declaredType ln with
  | none => .error .nullPointer
  | some devtype =>
    match deviceCreate outside ln.name devtype ln.options with
    | .error e => .error e
    | .ok none => .ok (-1,s)
    | .ok (some device) =>
      .ok (0,{ devices := s.devices ++ [device],
               schedule := if ln.statement = .schedule then some s.devices.length
                           else s.schedule })

def declarationStatement (outside : Surroundings) (ln : Line) (s : DeclarationReader) :
    Except Fault (Int × DeclarationReader) :=
  match ln.statement with
  | .input | .output | .sunriset | .soltracker | .timer | .bool | .schedule =>
    declareDevice outside ln s
  | .if_ | .and_ | .do_ => .ok (0,s)
  | .state | .logs | .invalid => .ok (-1,s)

/-- One turn of the loop of `rules_read_file_declarations`. -/
def declarationLine (outside : Surroundings) (strline : CString) (s : DeclarationReader) :
    Except Fault (Int × DeclarationReader) :=
  match lineParse strline with
  | .error e => .error e
  | .ok none =>
    match s.schedule with
    | none => .ok (0,s)
    | some k =>
      .ok (0,{ devices := s.devices.modify k (Device.scheduleParsingFinished outside.now),
               schedule := none })
  | .ok (some ln) =>
    match s.schedule with
    | none => declarationStatement outside ln s
    | some k =>
      match (s.devices[k]?).bind (Device.parseScheduleLine ln.raw) with
      | none => .ok (-1,s)
      | some device => .ok (0,{ s with devices := s.devices.set k device })

def rulesReadFileDeclarations (outside : Surroundings) (content : List Char)
    (s : DeclarationReader) : Except Fault (Int × DeclarationReader) :=
  readAll (declarationLine outside) (fileLines content) s

/-- What `rules_read_file_rules` keeps from line to line and from file to file. -/
structure RuleReader where
  rules : List Rule
  rule : Option Nat
  schedule : Bool
  deriving DecidableEq, Repr

def RuleReader.setRules (s : RuleReader) (rules : List Rule) : RuleReader :=
  { s with rules := rules }

def RuleReader.start : RuleReader := { rules := [], rule := none, schedule := false }

section Lookup
variable {α : Type}

def lineLookup (typeFromChar : CString → Option α) (devices : List Device) (ln : Line) :
    Option (DeviceId × α) := do
  let device ← deviceListFindByName devices ln.name
  let option ← ln.options[0]?
  let type ← typeFromChar option
  return (device,type)

theorem lineLookup_device {typeFromChar : CString → Option α} {devices : List Device} {ln : Line}
    {device : DeviceId} {type : α} (h : lineLookup typeFromChar devices ln = some (device,type)) :
    ∃ d, devices[device]? = some d := by
  unfold lineLookup at h
  cases hfind : deviceListFindByName devices ln.name with
  | none => simp [hfind] at h
  | some found =>
    have hsame : found = device := by
      cases hopt : ln.options[0]? with
      | none => simp [hfind,hopt] at h
      | some option =>
        cases htype : typeFromChar option with
        | none => simp [hfind,hopt,htype] at h
        | some _ =>
          simp [hfind,hopt,htype] at h
          exact h.1
    have hlt := (List.findIdx?_eq_some_iff_getElem.mp hfind).1
    exact ⟨_,List.getElem?_eq_getElem (hsame ▸ hlt)⟩

end Lookup

/-- The loop over the options stops at a null pointer, which a full array does not have. -/
def actionCreate (devices : List Device) (device : DeviceId) (type : ActionType)
    (options : List CString) : Except Fault (Option Action) :=
  match devices[device]? with
  | none => .error .nullPointer
  | some d =>
    if type ∈ deviceGetSupportedAction d then
      if options.length < lineMaxOptions then .ok (some ⟨type,device,options.drop 1⟩)
      else .error .outOfBounds
    else .ok none

theorem modify_append {α : Type} (f : α → α) (l l' : List α) (i : Nat) :
    (l ++ l').modify (l.length+i) f = l ++ l'.modify i f :=
  List.modifyTailIdx_add _ i l l'

theorem modify_last {α : Type} (f : α → α) (l : List α) (a : α) :
    (l ++ [a]).modify l.length f = l ++ [f a] :=
  modify_append f l [a] 0

def ruleUpdate (rule : Option Nat) (f : Rule → Rule) (rules : List Rule) : List Rule :=
  match rule with
  | none => rules
  | some i => rules.modify i f

def ruleAddCondition (rule : Option Nat) (condition : Condition) (rules : List Rule) :
    List Rule :=
  ruleUpdate rule (fun rule => { rule with conditions := rule.conditions ++ [condition] }) rules

def ruleAddAction (rule : Option Nat) (action : Option Action) (rules : List Rule) : List Rule :=
  match action with
  | none => rules
  | some action =>
    ruleUpdate rule (fun rule => { rule with actions := rule.actions ++ [action] }) rules

def ruleStatement (devices : List Device) (ln : Line) (s : RuleReader) :
    Except Fault (Int × RuleReader) :=
  match ln.statement with
  | .input | .output | .sunriset | .soltracker | .timer | .bool => .ok (0,s)
  | .schedule => .ok (0,{ s with schedule := true })
  | .if_ =>
    -- The position after the list stands for a rule that is not in the list.
    match lineLookup eventTypeFromChar devices ln with
    | none => .ok (-1,{ s with rule := some s.rules.length })
    | some (device,type) =>
      .ok (0,{ s with rules := s.rules ++ [⟨⟨device,type⟩,[],[]⟩], rule := some s.rules.length })
  | .and_ =>
    match lineLookup conditionTypeFromChar devices ln with
    | none => .ok (-1,s)
    | some (device,type) =>
      .ok (0,s.setRules (ruleAddCondition s.rule ⟨type,device⟩ s.rules))
  | .do_ =>
    match lineLookup actionTypeFromChar devices ln with
    | none => .ok (-1,s)
    | some (device,type) => do
      let action ← actionCreate devices device type ln.options
      return (0,s.setRules (ruleAddAction s.rule action s.rules))
  | .state | .logs | .invalid => .ok (-1,s)

/-- One turn of the loop of `rules_read_file_rules`. -/
def ruleLine (devices : List Device) (strline : CString) (s : RuleReader) :
    Except Fault (Int × RuleReader) :=
  match lineParse strline with
  | .error e => .error e
  | .ok none => .ok (0,{ s with rule := none, schedule := false })
  | .ok (some ln) => if s.schedule then .ok (0,s) else ruleStatement devices ln s

def rulesReadFileRules (devices : List Device) (content : List Char) (s : RuleReader) :
    Except Fault (Int × RuleReader) :=
  readAll (ruleLine devices) (fileLines content) s

/-- `rules_read_dir`, for the contents of the rule files in the order of the directory. A
directory without rule files is an error. -/
def rulesReadDir {σ : Type} (rulesReadFile : List Char → σ → Except Fault (Int × σ))
    (files : List (List Char)) (s : σ) : Except Fault (Int × σ) :=
  match files with
  | [] => .ok (-1,s)
  | files => readAll rulesReadFile files s

theorem rulesReadDir_accepts {σ : Type} {rulesReadFile : List Char → σ → Except Fault (Int × σ)}
    {files : List (List Char)} {s s' : σ} :
    rulesReadDir rulesReadFile files s = .ok (0,s') ↔
      files ≠ [] ∧ AcceptsAll rulesReadFile files s s' := by
  cases files with
  | nil => simp [rulesReadDir]
  | cons file files => simp [rulesReadDir,AcceptsAll]

end DomoticaEngine
