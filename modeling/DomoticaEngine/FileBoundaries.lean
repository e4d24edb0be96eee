import Mathlib.Data.List.Forall2
import DomoticaEngine.DeclarationPass
import DomoticaEngine.RulePass

/-!
Rule files one after the other, and each of them alone.
-/

set_option autoImplicit false

namespace DomoticaEngine
open Reads

def allFiles (p : List CString → Context → Bool) : List (List Char) → Context → Bool
  | [], _ => true
  | file :: files, c => p (fileLines file) c &&
      allFiles p files (contextAfter (fileLines file) c)

def startsOwnBlock (lines : List CString) (c : Context) : Bool :=
  !c.schedule || startsWithBreak lines

section Declarations
variable {outside : Surroundings} {files : List (List Char)} {s s' : DeclarationReader}

abbrev DeclaredAlone (outside : Surroundings) : List Char → DeclarationReader → Prop :=
  fun file t => rulesReadFileDeclarations outside file .start = .ok (0,t)

/-- Files that start with blocks of their own declare what each of them declares alone. -/
theorem declarations_separate {c : Context} (hc : c.schedule = s.schedule.isSome)
    (h : AcceptsAll (rulesReadFileDeclarations outside) files s s')
    (hstarts : allFiles startsOwnBlock files c = true) :
    ∃ alone, List.Forall₂ (DeclaredAlone outside) files alone ∧
      finishedDevices outside.now s'.devices = finishedDevices outside.now s.devices ++
        finishedDevices outside.now (alone.flatMap DeclarationReader.devices) := by
  induction files generalizing s c with
  | nil =>
    rw [acceptsAll_nil] at h
    exact ⟨[],.nil,by simp [h,finishedDevices]⟩
  | cons file files ih =>
    obtain ⟨s₁,h₁,hrest⟩ := acceptsAll_cons.mp h
    simp only [allFiles,Bool.and_eq_true,startsOwnBlock,Bool.or_eq_true,
      Bool.not_eq_true'] at hstarts
    have hstart : s.schedule = none ∨ startsWithBreak (fileLines file) = true := by
      rw [hc] at hstarts
      simpa using hstarts.1
    obtain ⟨t,ht,hdevices⟩ := declarations_alone h₁ hstart
    obtain ⟨alone,halone,hall⟩ := ih (declarations_context hc h₁) hrest hstarts.2
    refine ⟨t :: alone,.cons ht halone,?_⟩
    rw [hall,hdevices]
    simp [finishedDevices]

theorem declarations_own {c : Context} (hc : c.schedule = s.schedule.isSome)
    (h : AcceptsAll (rulesReadFileDeclarations outside) files s s')
    {alone : List DeclarationReader} (halone : List.Forall₂ (DeclaredAlone outside) files alone) :
    allFiles startsOwnBlock files c = true := by
  induction files generalizing s c alone with
  | nil => rfl
  | cons file files ih =>
    obtain ⟨s₁,h₁,hrest⟩ := acceptsAll_cons.mp h
    cases halone with
    | cons ht halone =>
      simp only [allFiles,Bool.and_eq_true]
      refine ⟨?_,ih (declarations_context hc h₁) hrest halone⟩
      cases hstart : startsWithBreak (fileLines file) with
      | true => simp [startsOwnBlock,hstart]
      | false =>
        cases hopen : s.schedule.isSome with
        | false => simp [startsOwnBlock,hc,hopen]
        | true => exact absurd ht (declarations_refused h₁ hopen hstart _)

def scheduleLeftOpen (files : List (List Char)) : Option Schedule :=
  scheduleAfter (files.flatMap fileLines) none

/-- A block that the last file leaves open is not finished: its schedule keeps the condition
it was created with. -/
def leftOpenSettled (now : Tm) (files : List (List Char)) : Bool :=
  (scheduleLeftOpen files).all (fun schedule =>
    scheduleGetCurrentCondition schedule now = schedule.condition)

theorem finishedDevices_self (now : Tm) (devices : List Device) :
    finishedDevices now devices = devices ↔ ∀ device ∈ devices, device.Settled now := by
  have hmap := List.map_inj_left (l := devices) (f := Device.scheduleParsingFinished now) (g := id)
  rw [List.map_id] at hmap
  exact hmap

theorem finished_iff {now : Tm} {s : DeclarationReader} (hs : s.Sound now) :
    finishedDevices now s.devices = s.devices ↔
      s.openSchedule.all (fun schedule =>
        scheduleGetCurrentCondition schedule now = schedule.condition) = true := by
  rw [finishedDevices_self]
  cases hopen : s.schedule with
  | none =>
    rw [openSchedule_none hopen]
    refine ⟨fun _ => rfl,fun _ device hdevice => ?_⟩
    obtain ⟨k,hk⟩ := List.getElem?_of_mem hdevice
    exact hs.settled k device hk (by simp [hopen])
  | some k =>
    obtain ⟨⟨name,data⟩,schedule,hdevice,hdata⟩ := hs.points k hopen
    have hschedule : Device.Settled now ⟨name,data⟩ ↔
        scheduleGetCurrentCondition schedule now = schedule.condition := settled_iff hdata
    simp only at hdata
    subst hdata
    rw [openSchedule_of hopen hdevice]
    simp only [Option.all_some,decide_eq_true_eq]
    rw [← hschedule]
    constructor
    · intro hall
      exact hall _ (List.mem_of_getElem? hdevice)
    · intro hsettled device hmem
      obtain ⟨j,hj⟩ := List.getElem?_of_mem hmem
      by_cases hkj : k = j
      · subst hkj
        rw [hdevice] at hj
        cases hj
        exact hsettled
      · exact hs.settled j device hj (by simp [hopen,hkj])

/-- What the first pass declares is what the files declare alone, with the condition of
every schedule computed. -/
theorem declarations_iff {d : DeclarationReader}
    (h : AcceptsAll (rulesReadFileDeclarations outside) files .start d) :
    (∃ alone, List.Forall₂ (DeclaredAlone outside) files alone ∧
      d.devices = finishedDevices outside.now (alone.flatMap DeclarationReader.devices)) ↔
      allFiles startsOwnBlock files ⟨false,false⟩ = true ∧
        leftOpenSettled outside.now files = true := by
  have hlines : AcceptsAll (declarationLine outside) (files.flatMap fileLines) .start d :=
    acceptsAll_flatMap.mp h
  have hsound := declarations_sound (start_sound _) hlines
  have hleft : d.openSchedule = scheduleLeftOpen files := declarations_schedule hlines
  have hsettled := finished_iff hsound
  rw [hleft] at hsettled
  have hseparate : allFiles startsOwnBlock files ⟨false,false⟩ = true →
      ∃ alone, List.Forall₂ (DeclaredAlone outside) files alone ∧
        finishedDevices outside.now d.devices =
          finishedDevices outside.now (alone.flatMap DeclarationReader.devices) := by
    intro hstarts
    simpa [DeclarationReader.start,finishedDevices] using declarations_separate rfl h hstarts
  constructor
  · rintro ⟨alone,halone,hdevices⟩
    refine ⟨declarations_own rfl h halone,hsettled.mp ?_⟩
    rw [finishedDevices_self,hdevices]
    intro device hdevice
    obtain ⟨device',-,rfl⟩ := List.mem_map.mp hdevice
    exact finished_settled _ device'
  · rintro ⟨hstarts,hopen⟩
    obtain ⟨alone,halone,hall⟩ := hseparate hstarts
    exact ⟨alone,halone,by rw [← hall,hsettled.mpr hopen]⟩

end Declarations

section Rules
variable {devices : List Device} {files : List (List Char)} {s s' : RuleReader}

abbrev ReadAlone (devices : List Device) : List Char → RuleReader → Prop :=
  fun file t => rulesReadFileRules devices file .start = .ok (0,t)

theorem rules_alone {lines : List CString} {t : RuleReader}
    (hstart : s.schedule = false ∨ startsWithBreak lines = true)
    (h : AcceptsAll (ruleLine devices) lines s.forget t) :
    ∃ t', AcceptsAll (ruleLine devices) lines .start t' ∧ t'.rules = t.rules := by
  rcases hstart with hopen | hstart
  · exact ⟨t,by simpa [RuleReader.forget,RuleReader.start,hopen] using h,rfl⟩
  · cases lines with
    | nil =>
      rw [acceptsAll_nil] at h
      exact ⟨.start,acceptsAll_nil.mpr rfl,by rw [← h]; rfl⟩
    | cons line lines =>
      have hparse : lineParse line = .ok none := by
        simp only [startsWithBreak,List.head?_cons,Option.all_some,isBreak] at hstart
        split at hstart
        · assumption
        · cases hstart
      have hbreak : ∀ s : RuleReader, s.rules = [] →
          Accepts (ruleLine devices) line s .start := by
        rintro ⟨rules,rule,schedule⟩ hs
        simp only at hs
        simp [Accepts,ruleLine,hparse,hs,RuleReader.start]
      obtain ⟨s₁,h₁,hrest⟩ := acceptsAll_cons.mp h
      rw [h₁.unique (hbreak _ rfl)] at hrest
      exact ⟨t,acceptsAll_cons.mpr ⟨_,hbreak _ rfl,hrest⟩,rfl⟩

def ownRules (devices : List Device) (lines : List CString) (c : Context) : Bool :=
  !takesOver devices lines c

theorem rules_separate (hs : s.Current)
    (h : AcceptsAll (rulesReadFileRules devices) files s s')
    (hstarts : allFiles startsOwnBlock files s.context = true) :
    ∃ alone, List.Forall₂ (ReadAlone devices) files alone ∧
      if allFiles (ownRules devices) files s.context
      then s'.rules = s.rules ++ alone.flatMap RuleReader.rules
      else parts s.rules + parts (alone.flatMap RuleReader.rules) < parts s'.rules := by
  induction files generalizing s with
  | nil =>
    rw [acceptsAll_nil] at h
    exact ⟨[],.nil,by simp [allFiles,h]⟩
  | cons file files ih =>
    obtain ⟨s₁,h₁,hrest⟩ := acceptsAll_cons.mp h
    obtain ⟨hs₁,hcontext⟩ := acceptsAll_context hs h₁
    simp only [allFiles,Bool.and_eq_true,startsOwnBlock,Bool.or_eq_true,
      Bool.not_eq_true'] at hstarts
    obtain ⟨t₁,ht₁,hfile⟩ := rules_forget hs h₁
    obtain ⟨t,ht,hrules⟩ := rules_alone hstarts.1 ht₁
    rw [← hrules] at hfile
    rw [← hcontext] at hstarts
    obtain ⟨alone,halone,hall⟩ := ih hs₁ hrest hstarts.2
    refine ⟨t :: alone,.cons ht halone,?_⟩
    rw [hcontext] at hall
    simp only [allFiles,ownRules,List.flatMap_cons,parts_append]
    cases htakes : takesOver devices (fileLines file) s.context with
    | true =>
      rw [htakes,if_pos rfl] at hfile
      simp only [Bool.not_true,Bool.false_and,Bool.false_eq_true,if_false]
      split at hall
      · rw [hall,parts_append]
        omega
      · omega
    | false =>
      rw [htakes,if_neg (by simp)] at hfile
      simp only [Bool.not_false,Bool.true_and]
      rw [hfile] at hall
      cases hown : allFiles (ownRules devices) files (contextAfter (fileLines file) s.context) with
      | true =>
        rw [hown,if_pos rfl] at hall
        simpa using hall
      | false =>
        rw [hown,if_neg (by simp),parts_append] at hall
        simp only [Bool.false_eq_true,if_false]
        omega

theorem readAlone_unique : Relator.RightUnique (ReadAlone devices) :=
  fun _ _ _ ht ht' => AcceptsAll.unique ht ht'

/-- The rules are what the files yield alone exactly when no file takes a rule over. -/
theorem rules_iff (h : AcceptsAll (rulesReadFileRules devices) files .start s')
    (hstarts : allFiles startsOwnBlock files ⟨false,false⟩ = true) :
    (∃ alone, List.Forall₂ (ReadAlone devices) files alone ∧
      s'.rules = alone.flatMap RuleReader.rules) ↔
      allFiles (ownRules devices) files ⟨false,false⟩ = true := by
  obtain ⟨alone,halone,hall⟩ := rules_separate start_current h hstarts
  change if allFiles (ownRules devices) files ⟨false,false⟩ = true then _ else _ at hall
  constructor
  · rintro ⟨alone',halone',hrules⟩
    cases hown : allFiles (ownRules devices) files ⟨false,false⟩ with
    | true => rfl
    | false =>
      have hsame := List.right_unique_forall₂' readAlone_unique halone halone'
      rw [hown,if_neg (by simp),hsame,hrules] at hall
      omega
  · intro hown
    rw [hown,if_pos rfl] at hall
    exact ⟨alone,halone,by simpa [RuleReader.start] using hall⟩

end Rules

/-- What the two passes leave is what the files yield one by one, each read alone: their
devices, every schedule with its start-up condition, and their rules. -/
def NoLeak (outside : Surroundings) (files : List (List Char)) (d : DeclarationReader)
    (r : RuleReader) : Prop :=
  (∃ alone, List.Forall₂ (DeclaredAlone outside) files alone ∧
    d.devices = finishedDevices outside.now (alone.flatMap DeclarationReader.devices)) ∧
  (∃ alone, List.Forall₂ (ReadAlone d.devices) files alone ∧
    r.rules = alone.flatMap RuleReader.rules)

/-- The files keep to themselves, seen without reading: none starts with lines for a block
that is open, none adds to a rule that is open, and the last block of a schedule is closed
or makes no difference. -/
def filesSeparate (now : Tm) (devices : List Device) (files : List (List Char)) : Bool :=
  allFiles startsOwnBlock files ⟨false,false⟩ &&
    allFiles (ownRules devices) files ⟨false,false⟩ && leftOpenSettled now files

/-- On files that both passes accept, file boundaries do not leak exactly when the files
keep to themselves. -/
theorem files_noLeak_iff (outside : Surroundings) (files : List (List Char))
    (d : DeclarationReader) (r : RuleReader)
    (hd : rulesReadDir (rulesReadFileDeclarations outside) files .start = .ok (0,d))
    (hr : rulesReadDir (rulesReadFileRules d.devices) files .start = .ok (0,r)) :
    NoLeak outside files d r ↔ filesSeparate outside.now d.devices files = true := by
  have hdeclarations := declarations_iff (rulesReadDir_accepts.mp hd).2
  have hrules := rules_iff (rulesReadDir_accepts.mp hr).2
  unfold NoLeak filesSeparate
  rw [hdeclarations]
  simp only [Bool.and_eq_true]
  constructor
  · rintro ⟨⟨hstarts,hopen⟩,halone⟩
    exact ⟨⟨hstarts,(hrules hstarts).mp halone⟩,hopen⟩
  · rintro ⟨⟨hstarts,hown⟩,hopen⟩
    exact ⟨⟨hstarts,hopen⟩,(hrules hstarts).mpr hown⟩

def switchFile : List Char := "BOOL s 0\n\nIF s SET\n".toList

def switchBool : List Device := [⟨"s".toList,.bool ⟨0⟩⟩]

theorem files_noLeak_switch :
    ∃ d r, rulesReadDir (rulesReadFileDeclarations quietHouse)
        [switchFile,"\nIF s UNSET\nDO s SET\n".toList] .start = .ok (0,d) ∧
      rulesReadDir (rulesReadFileRules d.devices)
        [switchFile,"\nIF s UNSET\nDO s SET\n".toList] .start = .ok (0,r) ∧
      NoLeak quietHouse [switchFile,"\nIF s UNSET\nDO s SET\n".toList] d r :=
  ⟨⟨switchBool,none⟩,
    ⟨[⟨⟨0,.set⟩,[],[]⟩,⟨⟨0,.unset⟩,[],[⟨.set,0,[]⟩]⟩],some 1,false⟩,rfl,rfl,
    (files_noLeak_iff _ _ _ _ rfl rfl).mpr (by decide)⟩

/-- The second file starts with an action: the rule that ends the first file gets it. -/
theorem rule_leaks :
    ∃ d r, rulesReadDir (rulesReadFileDeclarations quietHouse) [switchFile,"DO s UNSET\n".toList]
        .start = .ok (0,d) ∧
      rulesReadDir (rulesReadFileRules d.devices) [switchFile,"DO s UNSET\n".toList] .start =
        .ok (0,r) ∧
      ¬ NoLeak quietHouse [switchFile,"DO s UNSET\n".toList] d r := by
  have hr : rulesReadDir (rulesReadFileRules switchBool) [switchFile,"DO s UNSET\n".toList]
      .start = .ok (0,⟨[⟨⟨0,.set⟩,[],[⟨.unset,0,[]⟩]⟩],some 0,false⟩) := rfl
  refine ⟨⟨switchBool,none⟩,_,rfl,hr,?_⟩
  rintro ⟨-,halone⟩
  have hown := (rules_iff (rulesReadDir_accepts.mp hr).2 (by decide)).mp halone
  revert hown
  decide

end DomoticaEngine
