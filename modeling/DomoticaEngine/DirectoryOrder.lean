import DomoticaEngine.FileBoundaries
import DomoticaEngine.Library.Blocks

/-!
The rule files in one order and in another: `readdir` promises none.
-/

set_option autoImplicit false

namespace DomoticaEngine
open Reads

def EndsEmpty (file : List Char) : Prop :=
  file = [] ∨ file = ['\n'] ∨ ∃ front, file = front ++ ['\n','\n']

def declaredDevices (outside : Surroundings) (file : List Char) : List Device :=
  match rulesReadFileDeclarations outside file .start with
  | .ok (_,t) => t.devices
  | .error _ => []

def readRules (devices : List Device) (file : List Char) : List Rule :=
  match rulesReadFileRules devices file .start with
  | .ok (_,t) => t.rules
  | .error _ => []

def DistinctNames (outside : Surroundings) (files : List (List Char)) : Prop :=
  files.Pairwise (fun file file' => ∀ device ∈ declaredDevices outside file,
    ∀ device' ∈ declaredDevices outside file', device.name ≠ device'.name)

def declarations (outside : Surroundings) (files : List (List Char)) : List (List Char × Nat) :=
  Blocks.labels (declaredDevices outside) files

def Event.rename (π : DeviceId → DeviceId) (event : Event) : Event :=
  { event with device := π event.device }

def Condition.rename (π : DeviceId → DeviceId) (condition : Condition) : Condition :=
  { condition with device := π condition.device }

def Action.rename (π : DeviceId → DeviceId) (action : Action) : Action :=
  { action with device := π action.device }

def Rule.rename (π : DeviceId → DeviceId) (rule : Rule) : Rule :=
  { event := rule.event.rename π, conditions := rule.conditions.map (Condition.rename π),
    actions := rule.actions.map (Action.rename π) }

/-- The two passes over `files'` have done what they did over `files`: the devices and the
rules stand in the order of the files, and a reference to a device is one to the device of the
same declaration. -/
structure Reordered (outside : Surroundings) (files files' : List (List Char))
    (d d' : DeclarationReader) (r r' : RuleReader) (π : DeviceId → DeviceId) : Prop where
  devices : d.devices = files.flatMap (declaredDevices outside)
  devices' : d'.devices = files'.flatMap (declaredDevices outside)
  declaration : ∀ i declaration, (declarations outside files)[i]? = some declaration →
    (declarations outside files')[π i]? = some declaration
  device : ∀ i device, d.devices[i]? = some device → d'.devices[π i]? = some device
  rules : r.rules = files.flatMap (readRules d.devices)
  rules' : r'.rules = files'.flatMap (fun file => (readRules d.devices file).map (Rule.rename π))

theorem endsEmpty_lines {file : List Char} (h : EndsEmpty file) :
    fileLines file = [] ∨ ∃ lines, fileLines file = lines ++ [['\n']] := by
  rcases h with rfl | rfl | ⟨front,rfl⟩
  · exact .inl rfl
  · exact .inr ⟨[],rfl⟩
  · refine .inr ⟨fileLines (front ++ ['\n']),?_⟩
    unfold fileLines
    rw [Pieces.pieces_stop isNewline (s := '\n') (by decide) front ['\n'],List.map_append]
    rfl

theorem lineParse_empty : lineParse ['\n'] = .ok none := rfl

section FirstPass
variable {outside : Surroundings} {file : List Char}

theorem declarations_closed (h : EndsEmpty file) {t : DeclarationReader}
    (ht : DeclaredAlone outside file t) : t.schedule = none := by
  have hlines : AcceptsAll (declarationLine outside) (fileLines file) .start t := ht
  rcases endsEmpty_lines h with hnil | ⟨lines,hlast⟩
  · rw [hnil,acceptsAll_nil] at hlines
    rw [← hlines]
    rfl
  · rw [hlast,acceptsAll_append] at hlines
    obtain ⟨s,-,hlines⟩ := hlines
    obtain ⟨s',hs',hnil⟩ := acceptsAll_cons.mp hlines
    rw [acceptsAll_nil] at hnil
    subst hnil
    cases declarationLine_step hs' with
    | blank _ hfinish => rw [hfinish,finish_closed]
    | entry _ _ _ _ _ hparse => cases lineParse_empty.symm.trans hparse
    | rule _ hparse => cases lineParse_empty.symm.trans hparse
    | declaration _ _ hparse => cases lineParse_empty.symm.trans hparse

theorem declarations_add (h : EndsEmpty file) (D : List Device) (s' : DeclarationReader) :
    Accepts (rulesReadFileDeclarations outside) file { devices := D, schedule := none } s' ↔
      (∃ t, DeclaredAlone outside file t) ∧
        s' = { devices := D ++ declaredDevices outside file, schedule := none } := by
  have halone : ∀ t, DeclaredAlone outside file t →
      t.shift D = { devices := D ++ declaredDevices outside file, schedule := none } := by
    intro t ht
    have hdevices : declaredDevices outside file = t.devices := by
      unfold declaredDevices
      rw [ht]
    rw [DeclarationReader.shift,declarations_closed h ht,hdevices]
    rfl
  have hshift : Accepts (rulesReadFileDeclarations outside) file
      { devices := D, schedule := none } s' ↔
        ∃ t, DeclaredAlone outside file t ∧ t.shift D = s' := declarations_shift
  rw [hshift]
  constructor
  · rintro ⟨t,ht,rfl⟩
    exact ⟨⟨t,ht⟩,halone t ht⟩
  · rintro ⟨⟨t,ht⟩,rfl⟩
    exact ⟨t,ht,halone t ht⟩

theorem firstPass_iff {files : List (List Char)} (hends : ∀ file ∈ files, EndsEmpty file)
    {d : DeclarationReader} :
    AcceptsAll (rulesReadFileDeclarations outside) files .start d ↔
      (∀ file ∈ files, ∃ t, DeclaredAlone outside file t) ∧
        d = { devices := files.flatMap (declaredDevices outside), schedule := none } :=
  acceptsAll_blocks (fun D => { devices := D, schedule := none })
    (fun file hfile D s' => declarations_add (hends file hfile) D s') (P := [])

end FirstPass

section SecondPass
variable {devices : List Device} {file : List Char}

theorem rules_closed (h : EndsEmpty file) {t : RuleReader} (ht : ReadAlone devices file t) :
    t.rule = none ∧ t.schedule = false := by
  have hlines : AcceptsAll (ruleLine devices) (fileLines file) .start t := ht
  rcases endsEmpty_lines h with hnil | ⟨lines,hlast⟩
  · rw [hnil,acceptsAll_nil] at hlines
    rw [← hlines]
    exact ⟨rfl,rfl⟩
  · rw [hlast,acceptsAll_append] at hlines
    obtain ⟨s,-,hlines⟩ := hlines
    obtain ⟨s',hs',hnil⟩ := acceptsAll_cons.mp hlines
    rw [acceptsAll_nil] at hnil
    subst hnil
    unfold Accepts ruleLine at hs'
    rw [lineParse_empty] at hs'
    cases hs'
    exact ⟨rfl,rfl⟩

theorem rules_add (h : EndsEmpty file) (P : List Rule) (s' : RuleReader) :
    Accepts (rulesReadFileRules devices) file { rules := P, rule := none, schedule := false } s' ↔
      (∃ t, ReadAlone devices file t) ∧
        s' = { rules := P ++ readRules devices file, rule := none, schedule := false } := by
  have halone : ∀ t, ReadAlone devices file t →
      t.shift P = { rules := P ++ readRules devices file, rule := none, schedule := false } := by
    intro t ht
    have hrules : readRules devices file = t.rules := by
      unfold readRules
      rw [ht]
    obtain ⟨hrule,hschedule⟩ := rules_closed h ht
    rw [RuleReader.shift,hrule,hschedule,hrules]
    rfl
  have hstart : ({ rules := P, rule := none, schedule := false } : RuleReader) =
      RuleReader.start.shift P := by simp [RuleReader.shift,RuleReader.start]
  have hshift : Accepts (rulesReadFileRules devices) file (RuleReader.start.shift P) s' ↔
      ∃ t, ReadAlone devices file t ∧ t.shift P = s' := rules_shift
  rw [hstart,hshift]
  constructor
  · rintro ⟨t,ht,rfl⟩
    exact ⟨⟨t,ht⟩,halone t ht⟩
  · rintro ⟨⟨t,ht⟩,rfl⟩
    exact ⟨t,ht,halone t ht⟩

theorem secondPass_iff {files : List (List Char)} (hends : ∀ file ∈ files, EndsEmpty file)
    {r : RuleReader} :
    AcceptsAll (rulesReadFileRules devices) files .start r ↔
      (∀ file ∈ files, ∃ t, ReadAlone devices file t) ∧
        r = { rules := files.flatMap (readRules devices), rule := none, schedule := false } :=
  acceptsAll_blocks (fun P => { rules := P, rule := none, schedule := false })
    (fun file hfile P s' => rules_add (hends file hfile) P s') (P := [])

end SecondPass

structure Renames (devices devices' : List Device) (π : DeviceId → DeviceId) : Prop where
  found : ∀ name, deviceListFindByName devices' name =
    (deviceListFindByName devices name).map π
  same : ∀ i device, devices[i]? = some device → devices'[π i]? = some device

def RuleReader.rename (π : DeviceId → DeviceId) (s : RuleReader) : RuleReader :=
  s.setRules (s.rules.map (Rule.rename π))

section Renaming
variable {devices devices' : List Device} {π : DeviceId → DeviceId}

theorem lineLookup_rename {α : Type} (h : Renames devices devices' π)
    (typeFromChar : CString → Option α) (ln : Line) :
    lineLookup typeFromChar devices' ln =
      (lineLookup typeFromChar devices ln).map (fun found => (π found.1,found.2)) := by
  unfold lineLookup
  rw [h.found]
  cases deviceListFindByName devices ln.name with
  | none => rfl
  | some device =>
    cases ln.options[0]? with
    | none => rfl
    | some option =>
      simp only [Option.map_some,Option.bind_eq_bind,Option.bind_some]
      cases typeFromChar option <;> rfl

theorem actionCreate_rename (h : Renames devices devices' π) {device : DeviceId} {d : Device}
    (hd : devices[device]? = some d) (type : ActionType) (options : List CString) :
    actionCreate devices' (π device) type options =
      (actionCreate devices device type options).map (Option.map (Action.rename π)) := by
  unfold actionCreate
  rw [hd,h.same device d hd]
  simp only
  by_cases hsupported : type ∈ deviceGetSupportedAction d
  · rw [if_pos hsupported,if_pos hsupported]
    by_cases hfits : options.length < lineMaxOptions
    · rw [if_pos hfits,if_pos hfits]
      rfl
    · rw [if_neg hfits,if_neg hfits]
      rfl
  · rw [if_neg hsupported,if_neg hsupported]
    rfl

theorem ruleUpdate_map (ρ f g : Rule → Rule) (hfg : ∀ rule, ρ (f rule) = g (ρ rule))
    (rule : Option Nat) (rules : List Rule) :
    ruleUpdate rule g (rules.map ρ) = (ruleUpdate rule f rules).map ρ := by
  cases rule with
  | none => rfl
  | some i =>
    apply List.ext_getElem?
    intro j
    simp only [ruleUpdate,List.getElem?_modify,List.getElem?_map]
    cases rules[j]? with
    | none => rfl
    | some old => by_cases hij : i = j <;> simp [hij,hfg]

theorem ruleAddCondition_rename (rule : Option Nat) (condition : Condition) (rules : List Rule) :
    ruleAddCondition rule (condition.rename π) (rules.map (Rule.rename π)) =
      (ruleAddCondition rule condition rules).map (Rule.rename π) :=
  ruleUpdate_map _ _ _ (fun rule => by simp [Rule.rename]) rule rules

theorem ruleAddAction_rename (rule : Option Nat) (action : Option Action) (rules : List Rule) :
    ruleAddAction rule (action.map (Action.rename π)) (rules.map (Rule.rename π)) =
      (ruleAddAction rule action rules).map (Rule.rename π) := by
  cases action with
  | none => rfl
  | some action =>
    exact ruleUpdate_map _ _ _ (fun rule => by simp [Rule.rename]) rule rules

section Statements
variable (h : Renames devices devices' π) (ln : Line) (s : RuleReader)
include h

theorem if_rename (hst : ln.statement = .if_) : ruleStatement devices' ln (s.rename π) =
    (ruleStatement devices ln s).map (fun result => (result.1,result.2.rename π)) := by
  simp only [ruleStatement,hst,lineLookup_rename h]
  cases lineLookup eventTypeFromChar devices ln with
  | none => simp [Except.map,RuleReader.rename,RuleReader.setRules]
  | some found =>
    simp [Except.map,RuleReader.rename,RuleReader.setRules,Rule.rename,Event.rename]

theorem and_rename (hst : ln.statement = .and_) : ruleStatement devices' ln (s.rename π) =
    (ruleStatement devices ln s).map (fun result => (result.1,result.2.rename π)) := by
  simp only [ruleStatement,hst,lineLookup_rename h]
  cases lineLookup conditionTypeFromChar devices ln with
  | none => rfl
  | some found =>
    have hadd := ruleAddCondition_rename (π := π) s.rule ⟨found.2,found.1⟩ s.rules
    simp only [Option.map_some,Except.map,RuleReader.rename,RuleReader.setRules,← hadd]
    rfl

theorem do_rename (hst : ln.statement = .do_) : ruleStatement devices' ln (s.rename π) =
    (ruleStatement devices ln s).map (fun result => (result.1,result.2.rename π)) := by
  simp only [ruleStatement,hst,lineLookup_rename h]
  cases hlookup : lineLookup actionTypeFromChar devices ln with
  | none => rfl
  | some found =>
    obtain ⟨device,type⟩ := found
    obtain ⟨d,hd⟩ := lineLookup_device hlookup
    simp only [Option.map_some,actionCreate_rename h hd]
    cases actionCreate devices device type ln.options with
    | error e => rfl
    | ok action =>
      have hadd := ruleAddAction_rename (π := π) s.rule action s.rules
      simp only [Except.map,ok_bind,RuleReader.rename,RuleReader.setRules,hadd]
      rfl

theorem ruleStatement_rename : ruleStatement devices' ln (s.rename π) =
    (ruleStatement devices ln s).map (fun result => (result.1,result.2.rename π)) := by
  cases hst : ln.statement with
  | if_ => exact if_rename h ln s hst
  | and_ => exact and_rename h ln s hst
  | do_ => exact do_rename h ln s hst
  | _ =>
    simp only [ruleStatement,hst]
    rfl

end Statements

/-- A line does under the second list what it does under the first, with the references
renamed. -/
theorem ruleLine_rename (h : Renames devices devices' π) (line : CString) (s : RuleReader) :
    ruleLine devices' line (s.rename π) =
      (ruleLine devices line s).map (fun result => (result.1,result.2.rename π)) :=
  ruleLine_map (φ := RuleReader.rename π) (fun _ => rfl) (fun _ => rfl) (ruleStatement_rename h)
    line s

theorem readAlone_rename (h : Renames devices devices' π) (file : List Char) :
    ((∃ t, ReadAlone devices' file t) ↔ ∃ t, ReadAlone devices file t) ∧
      readRules devices' file = (readRules devices file).map (Rule.rename π) := by
  have hread : rulesReadFileRules devices' file .start =
      (rulesReadFileRules devices file .start).map
        (fun result => (result.1,result.2.rename π)) :=
    readAll_map (RuleReader.rename π) (ruleLine_rename h) (fileLines file) .start
  constructor
  · unfold ReadAlone
    rw [hread]
    cases rulesReadFileRules devices file .start with
    | error e => simp [Except.map]
    | ok result =>
      obtain ⟨status,t⟩ := result
      simp [Except.map]
  · unfold readRules
    rw [hread]
    cases rulesReadFileRules devices file .start with
    | error e => rfl
    | ok result => rfl

end Renaming

section Order
variable {outside : Surroundings} {files files' : List (List Char)}

theorem directory_renames (hperm : files.Perm files') (hnames : DistinctNames outside files) :
    Renames (files.flatMap (declaredDevices outside)) (files'.flatMap (declaredDevices outside))
      (Blocks.renumber (declarations outside files) (declarations outside files')) := by
  constructor
  · intro name
    refine Blocks.findIdx?_flatMap hperm (hnames.imp ?_)
    intro file file' hdistinct device hdevice device' hdevice' hname hname'
    have heq : device.name = device'.name :=
      (beq_iff_eq.mp hname).trans (beq_iff_eq.mp hname').symm
    exact hdistinct device hdevice device' hdevice' heq
  · intro i device hdevice
    obtain ⟨declaration,hdeclaration,hblock⟩ := Blocks.labels_getElem? hdevice
    have hmoved := Blocks.renumber_getElem? (Blocks.labels_perm hperm) hdeclaration
    exact Blocks.getElem?_labels hmoved hblock

end Order

/-- Whatever order `readdir` gives, the passes accept the same files, and every reference
finds the same declaration. -/
theorem directory_order (outside : Surroundings) (files files' : List (List Char))
    (hperm : files.Perm files') (hends : ∀ file ∈ files, EndsEmpty file)
    (hnames : DistinctNames outside files) (d : DeclarationReader) (r : RuleReader)
    (hd : rulesReadDir (rulesReadFileDeclarations outside) files .start = .ok (0,d))
    (hr : rulesReadDir (rulesReadFileRules d.devices) files .start = .ok (0,r)) :
    ∃ d' r' π, rulesReadDir (rulesReadFileDeclarations outside) files' .start = .ok (0,d') ∧
      rulesReadDir (rulesReadFileRules d'.devices) files' .start = .ok (0,r') ∧
      Reordered outside files files' d d' r r' π := by
  obtain ⟨hne,hd⟩ := rulesReadDir_accepts.mp hd
  obtain ⟨-,hr⟩ := rulesReadDir_accepts.mp hr
  have hne' : files' ≠ [] := by
    rintro rfl
    exact hne hperm.eq_nil
  have hends' : ∀ file ∈ files', EndsEmpty file :=
    fun file hfile => hends file (hperm.mem_iff.mpr hfile)
  obtain ⟨hdeclared,rfl⟩ := (firstPass_iff hends).mp hd
  obtain ⟨hread,rfl⟩ := (secondPass_iff hends).mp hr
  have hrenames := directory_renames hperm hnames
  refine ⟨_,_,_,rulesReadDir_accepts.mpr ⟨hne',(firstPass_iff hends').mpr ⟨?_,rfl⟩⟩,
    rulesReadDir_accepts.mpr ⟨hne',(secondPass_iff hends').mpr ⟨?_,rfl⟩⟩,
    rfl,rfl,?_,hrenames.same,rfl,?_⟩
  · exact fun file hfile => hdeclared file (hperm.mem_iff.mpr hfile)
  · intro file hfile
    exact (readAlone_rename hrenames file).1.mpr (hread file (hperm.mem_iff.mpr hfile))
  · intro i declaration hdeclaration
    exact Blocks.renumber_getElem? (Blocks.labels_perm hperm) hdeclaration
  · refine List.flatMap_congr (fun file _ => ?_)
    exact (readAlone_rename hrenames file).2

def hallFile : List Char := "BOOL a 0\n\nIF a SET\nDO b SET\n\n".toList

def lampFile : List Char := "BOOL b 0\n\n".toList

theorem directory_order_forward :
    ∃ d r d' r' π,
      rulesReadDir (rulesReadFileRules d.devices) [hallFile,lampFile] .start = .ok (0,r) ∧
      rulesReadDir (rulesReadFileDeclarations quietHouse) [lampFile,hallFile] .start =
        .ok (0,d') ∧
      rulesReadDir (rulesReadFileRules d'.devices) [lampFile,hallFile] .start = .ok (0,r') ∧
      Reordered quietHouse [hallFile,lampFile] [lampFile,hallFile] d d' r r' π := by
  have hends : ∀ file ∈ [hallFile,lampFile], EndsEmpty file := by
    intro file hfile
    rcases List.mem_pair.mp hfile with rfl | rfl
    · exact .inr (.inr ⟨"BOOL a 0\n\nIF a SET\nDO b SET".toList,rfl⟩)
    · exact .inr (.inr ⟨"BOOL b 0".toList,rfl⟩)
  have hnames : DistinctNames quietHouse [hallFile,lampFile] := by
    unfold DistinctNames
    decide +kernel
  have hd : rulesReadDir (rulesReadFileDeclarations quietHouse) [hallFile,lampFile] .start =
      .ok (0,⟨[⟨"a".toList,.bool ⟨0⟩⟩,⟨"b".toList,.bool ⟨0⟩⟩],none⟩) := rfl
  have hr : rulesReadDir (rulesReadFileRules
        [⟨"a".toList,.bool ⟨0⟩⟩,⟨"b".toList,.bool ⟨0⟩⟩])
      [hallFile,lampFile] .start = .ok (0,⟨[⟨⟨0,.set⟩,[],[⟨.set,1,[]⟩]⟩],none,false⟩) := rfl
  obtain ⟨d',r',π,hd',hr',horder⟩ :=
    directory_order quietHouse _ _ (.swap _ _ _) hends hnames _ _ hd hr
  exact ⟨_,_,d',r',π,hr,hd',hr',horder⟩

end DomoticaEngine
