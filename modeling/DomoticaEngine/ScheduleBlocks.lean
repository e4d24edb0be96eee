import DomoticaEngine.DeclarationPass

/-!
The schedule blocks as the two passes see them.
-/

set_option autoImplicit false

namespace DomoticaEngine
open Reads

def isStatementLine (strline : CString) : Bool :=
  match lineParse strline with
  | .ok (some _) => true
  | _ => false

/-- A turn of `rules_read_file_declarations`, with the call of `schedule_parse_line` that it
makes, if any. -/
def declarationTurn (outside : Surroundings) (strline : CString) (s : DeclarationReader) :
    Except Fault (Int × DeclarationReader) × Option (Schedule × CString) :=
  match lineParse strline with
  | .error e => (.error e,none)
  | .ok none => (.ok (0,s.finish outside.now),none)
  | .ok (some ln) =>
    match s.schedule with
    | none => (declarationStatement outside ln s,none)
    | some k =>
      match s.devices[k]? with
      | some ⟨name,.schedule schedule⟩ =>
        (match scheduleParseLine schedule ln.raw with
         | none => .ok (-1,s)
         | some schedule' =>
           .ok (0,{ s with devices := s.devices.set k ⟨name,.schedule schedule'⟩ }),
         some (schedule,ln.raw))
      | _ => (.ok (-1,s),none)

/-- A turn of `rules_read_file_rules`, and whether it skips its line as an entry. -/
def ruleTurn (devices : List Device) (strline : CString) (s : RuleReader) :
    Except Fault (Int × RuleReader) × Bool :=
  match lineParse strline with
  | .error e => (.error e,false)
  | .ok none => (.ok (0,{ s with rule := none, schedule := false }),false)
  | .ok (some ln) => if s.schedule then (.ok (0,s),true) else (ruleStatement devices ln s,false)

theorem declarationTurn_reads (outside : Surroundings) (strline : CString)
    (s : DeclarationReader) :
    (declarationTurn outside strline s).1 = declarationLine outside strline s := by
  unfold declarationTurn declarationLine
  cases lineParse strline with
  | error e => rfl
  | ok found =>
    cases found with
    | none => cases hopen : s.schedule <;> simp [DeclarationReader.finish,hopen]
    | some ln =>
      cases s.schedule with
      | none => rfl
      | some k =>
        cases hdevice : s.devices[k]? with
        | none => simp [hdevice]
        | some device =>
          obtain ⟨name,data⟩ := device
          cases data with
          | schedule schedule =>
            cases hentry : scheduleParseLine schedule ln.raw <;>
              simp [hdevice,Device.parseScheduleLine,hentry]
          | _ => simp [hdevice,Device.parseScheduleLine]

theorem ruleTurn_reads (devices : List Device) (strline : CString) (s : RuleReader) :
    (ruleTurn devices strline s).1 = ruleLine devices strline s := by
  unfold ruleTurn ruleLine
  cases lineParse strline with
  | error e => rfl
  | ok found =>
    cases found with
    | none => rfl
    | some ln => cases s.schedule <;> rfl

/-- The turn of the first pass hands its line to `schedule_parse_line`. -/
def handsOver (outside : Surroundings) (strline : CString) (s : DeclarationReader) : Bool :=
  (declarationTurn outside strline s).2.isSome

def skips (devices : List Device) (strline : CString) (s : RuleReader) : Bool :=
  (ruleTurn devices strline s).2

/-- The lines that `rules_read_file_declarations` reads in these files, with the entries
marked that it hands over. -/
def handedOver (outside : Surroundings) (files : List (List Char)) : List (CString × Bool) :=
  (visits (declarationLine outside) (files.flatMap fileLines) .start).map
    (fun v => (v.1,handsOver outside v.1 v.2))

/-- The lines that `rules_read_file_rules` reads, with the ones marked that it skips. -/
def skipped (devices : List Device) (files : List (List Char)) : List (CString × Bool) :=
  (visits (ruleLine devices) (files.flatMap fileLines) .start).map
    (fun v => (v.1,skips devices v.1 v.2))

/-- A line that `schedule_parse_line` was called for became an entry of the open schedule; a
statement for which it was not called was read as a declaration or as part of a rule. -/
def ReadAsMarked (outside : Surroundings) (strline : CString) (s : DeclarationReader) : Prop :=
  match (declarationTurn outside strline s).2 with
  | some (schedule,raw) =>
    s.openSchedule = some schedule ∧
      ∃ schedule' s', scheduleParseLine schedule raw = some schedule' ∧
        Accepts (declarationLine outside) strline s s' ∧ s'.openSchedule = some schedule'
  | none => ∀ ln, lineParse strline = .ok (some ln) →
    declarationLine outside strline s = declarationStatement outside ln s

/-- A line that was skipped changed nothing; another statement was read as part of a rule or
as a declaration. -/
def SkippedAsMarked (devices : List Device) (strline : CString) (s : RuleReader) : Prop :=
  if skips devices strline s then Accepts (ruleLine devices) strline s s
  else ∀ ln, lineParse strline = .ok (some ln) →
    ruleLine devices strline s = ruleStatement devices ln s

section Marks
variable {outside : Surroundings} {strline : CString} {s s' : DeclarationReader}

theorem handsOver_eq (h : Accepts (declarationLine outside) strline s s') :
    handsOver outside strline s = (s.schedule.isSome && isStatementLine strline) := by
  unfold handsOver declarationTurn isStatementLine
  cases declarationLine_step h with
  | blank hparse _ => simp [hparse]
  | entry ln k name schedule schedule' hparse hopen hdevice _ _ =>
    simp [hparse,hopen,hdevice]
  | rule ln hparse hopen _ _ => simp [hparse,hopen]
  | declaration ln device hparse hopen _ _ _ _ => simp [hparse,hopen]

theorem skips_eq (devices : List Device) (strline : CString) (r : RuleReader) :
    skips devices strline r = (r.schedule && isStatementLine strline) := by
  unfold skips ruleTurn isStatementLine
  cases lineParse strline with
  | error e => simp
  | ok found =>
    cases found with
    | none => simp
    | some ln => cases r.schedule <;> simp

theorem readAsMarked_of (h : Accepts (declarationLine outside) strline s s') :
    ReadAsMarked outside strline s := by
  unfold ReadAsMarked
  have hreads := declarationTurn_reads outside strline s
  unfold declarationTurn at hreads ⊢
  cases declarationLine_step h with
  | blank hparse _ => simp [hparse]
  | entry ln k name schedule schedule' hparse hopen hdevice hentry hs' =>
    have hlt : k < s.devices.length := (List.getElem?_eq_some_iff.mp hdevice).1
    simp only [hparse,hopen,hdevice]
    exact ⟨openSchedule_of hopen hdevice,schedule',s',hentry,h,
      @openSchedule_of s' k name schedule' (by rw [hs']; exact hopen)
        (by rw [hs']; simp [hlt])⟩
  | rule ln hparse hopen _ _ =>
    simp only [hparse,hopen] at hreads ⊢
    intro ln' hln'
    cases hln'
    exact hreads.symm
  | declaration ln device hparse hopen _ _ _ _ =>
    simp only [hparse,hopen] at hreads ⊢
    intro ln' hln'
    cases hln'
    exact hreads.symm

theorem skippedAsMarked (devices : List Device) (strline : CString) (r : RuleReader) :
    SkippedAsMarked devices strline r := by
  unfold SkippedAsMarked skips Accepts
  rw [← ruleTurn_reads]
  unfold ruleTurn
  cases lineParse strline with
  | error e => simp
  | ok found =>
    cases found with
    | none => simp
    | some ln =>
      cases r.schedule with
      | true => simp
      | false =>
        simp only [Bool.false_eq_true,if_false]
        intro ln' hln'
        cases hln'
        rfl

end Marks

theorem ruleStatement_schedule {devices : List Device} {ln : Line} {s s' : RuleReader}
    (h : ruleStatement devices ln s = .ok (0,s')) :
    s'.schedule = (ln.statement = .schedule || s.schedule) := by
  unfold ruleStatement at h
  cases hst : ln.statement with
  | if_ =>
    simp only [hst] at h
    cases hlookup : lineLookup eventTypeFromChar devices ln with
    | none => simp [hlookup] at h
    | some found =>
      simp only [hlookup,Except.ok.injEq,Prod.mk.injEq,true_and] at h
      simp [← h]
  | and_ =>
    simp only [hst] at h
    cases hlookup : lineLookup conditionTypeFromChar devices ln with
    | none => simp [hlookup] at h
    | some found =>
      simp only [hlookup,Except.ok.injEq,Prod.mk.injEq,true_and] at h
      simp [← h,RuleReader.setRules]
  | do_ =>
    simp only [hst] at h
    cases hlookup : lineLookup actionTypeFromChar devices ln with
    | none => simp [hlookup] at h
    | some found =>
      simp only [hlookup] at h
      obtain ⟨action,-,hs'⟩ := bind_eq_ok.mp h
      cases hs'
      simp [RuleReader.setRules]
  | state | logs | invalid => simp [hst] at h
  | _ =>
    simp only [hst] at h
    cases h
    simp

/-- A line that both passes accept opens and closes the same block in both. -/
theorem line_blocks {outside : Surroundings} {devices : List Device} {line : CString}
    {s s' : DeclarationReader} {r r' : RuleReader} (hsame : s.schedule.isSome = r.schedule)
    (hs : Accepts (declarationLine outside) line s s') (hr : Accepts (ruleLine devices) line r r') :
    s'.schedule.isSome = r'.schedule := by
  unfold Accepts ruleLine at hr
  cases declarationLine_step hs with
  | blank hparse hs' =>
    simp only [hparse,Except.ok.injEq,Prod.mk.injEq,true_and] at hr
    rw [hs',finish_closed,← hr]
    rfl
  | entry ln k name schedule schedule' hparse hopen _ _ hs' =>
    have hskip : r.schedule = true := by rw [← hsame,hopen]; rfl
    simp only [hparse,hskip,if_true,Except.ok.injEq,Prod.mk.injEq,true_and] at hr
    rw [hs',← hr,hskip,hopen]
    rfl
  | rule ln hparse hopen hst hs' =>
    have hread : r.schedule = false := by rw [← hsame,hopen]; rfl
    simp only [hparse,hread,Bool.false_eq_true,if_false] at hr
    rw [ruleStatement_schedule hr,hs',hopen,hread]
    simp [hst]
  | declaration ln device hparse hopen _ _ hother hschedule =>
    have hread : r.schedule = false := by rw [← hsame,hopen]; rfl
    simp only [hparse,hread,Bool.false_eq_true,if_false] at hr
    rw [ruleStatement_schedule hr,hread]
    by_cases hst : ln.statement = .schedule
    · simp [hst,(hschedule hst).1]
    · simp [hst,(hother hst).1]

/-- When the first pass accepts the files, it reads all their lines, and among those that the
second pass reads, the lines that it skips are the ones that the first pass has handed to
`schedule_parse_line`: every handed line became an entry of its schedule, every skipped one
changed nothing, and every other statement was read as what it says. -/
theorem schedule_blocks_agree (outside : Surroundings) (files : List (List Char))
    (d : DeclarationReader)
    (hd : AcceptsAll (rulesReadFileDeclarations outside) files .start d) :
    (handedOver outside files).map Prod.fst = files.flatMap fileLines ∧
      skipped d.devices files <+: handedOver outside files ∧
      (∀ strline s, (declarationTurn outside strline s).1 = declarationLine outside strline s) ∧
      (∀ strline r, (ruleTurn d.devices strline r).1 = ruleLine d.devices strline r) ∧
      (∀ v ∈ visits (declarationLine outside) (files.flatMap fileLines) .start,
        ReadAsMarked outside v.1 v.2) ∧
      readAll (rulesReadFileRules d.devices) files .start =
        readAll (ruleLine d.devices) (files.flatMap fileLines) .start ∧
      ∀ v ∈ visits (ruleLine d.devices) (files.flatMap fileLines) .start,
        SkippedAsMarked d.devices v.1 v.2 := by
  have hlines : AcceptsAll (declarationLine outside) (files.flatMap fileLines) .start d :=
    acceptsAll_flatMap.mp hd
  refine ⟨?_,?_,declarationTurn_reads outside,ruleTurn_reads d.devices,?_,
    readAll_flatMap _ _ files _,fun v _ => skippedAsMarked d.devices v.1 v.2⟩
  · rw [handedOver,List.map_map]
    exact hlines.visits_items
  · refine hlines.visits_agree
      (R := fun (s : DeclarationReader) (r : RuleReader) => s.schedule.isSome = r.schedule)
      ?_ ?_ rfl
    · intro line s s' r hsame hs
      rw [handsOver_eq hs,skips_eq,hsame]
    · exact fun _ _ _ _ _ hsame hs hr => line_blocks hsame hs hr
  · intro v hv
    obtain ⟨s',hs'⟩ := hlines.visits_accepted hv
    exact readAsMarked_of hs'

/-- The block of `h` is still open where the second file begins. -/
def heatingFile : List Char := "BOOL boiler 0\nSCHEDULE h DAYLY\n7 0 SET\n".toList

def heatingRules : List Char := "22 0 UNSET\n\nIF h SET\nDO boiler SET\n".toList

theorem schedule_blocks_heating :
    ∃ d, AcceptsAll (rulesReadFileDeclarations quietHouse) [heatingFile,heatingRules] .start d ∧
      (handedOver quietHouse [heatingFile,heatingRules]).map Prod.fst =
        [heatingFile,heatingRules].flatMap fileLines ∧
      skipped d.devices [heatingFile,heatingRules] <+:
        handedOver quietHouse [heatingFile,heatingRules] := by
  have hd : AcceptsAll (rulesReadFileDeclarations quietHouse) [heatingFile,heatingRules] .start
      { devices := [⟨"boiler".toList,.bool ⟨0⟩⟩,⟨"h".toList,.schedule ⟨.day,
          [⟨1,7,0,.set⟩,⟨1,22,0,.unset⟩],"h".toList,.set⟩⟩],
        schedule := none } := by
    unfold AcceptsAll
    decide +kernel
  obtain ⟨hread,hagree,-⟩ := schedule_blocks_agree _ _ _ hd
  exact ⟨_,hd,hread,hagree⟩

end DomoticaEngine
