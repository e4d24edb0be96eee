import DomoticaEngine.DeclarationPass
import DomoticaEngine.Numerals
import DomoticaEngine.RuleText

/-!
Schedules written as text: a `SCHEDULE` line, a line for each entry and an empty line.
-/

set_option autoImplicit false

namespace DomoticaEngine
open Reads

def scheduleTypeName (type : ScheduleType) : CString :=
  (typeToChar scheduleTypesTable type).getD []

def headerLine (name : CString) (type : ScheduleType) : CString :=
  lineText "SCHEDULE".toList name [scheduleTypeName type]

def entryLine (type : ScheduleType) (entry : ScheduleEntry) : CString :=
  match type with
  | .day => lineText (intText entry.hour) (intText entry.min) [(eventGetName entry.event).getD []]
  | .week => lineText (intText entry.day) (intText entry.hour)
      [intText entry.min,(eventGetName entry.event).getD []]

def scheduleLines (name : CString) (type : ScheduleType) (entries : List ScheduleEntry) :
    List CString :=
  headerLine name type :: (entries.map (entryLine type) ++ [[]])

def scheduleText (name : CString) (type : ScheduleType) (entries : List ScheduleEntry) :
    List Char :=
  (scheduleLines name type entries).flatMap (fun line => line ++ ['\n'])

/-- The fields are of type `int`, and the event has a name. -/
structure EntryWritable (entry : ScheduleEntry) : Prop where
  day : Fits32 entry.day
  hour : Fits32 entry.hour
  min : Fits32 entry.min
  event : entry.event ≠ .invalid

/-- The entry as it is stored: a daily schedule has no days, and day 7 is the Sunday. -/
def storedEntry (type : ScheduleType) (entry : ScheduleEntry) : ScheduleEntry :=
  match type with
  | .day => { entry with day := 1 }
  | .week => { entry with day := if entry.day = 7 then 0 else entry.day }

section Texts
variable {type : ScheduleType} {entry : ScheduleEntry}

theorem isDigit_word {c : Char} (h : c.isDigit = true) : isBlank c = false ∧ c ≠ nul := by
  constructor
  · unfold isBlank
    rw [Bool.or_eq_false_iff,Bool.or_eq_false_iff]
    refine ⟨⟨?_,?_⟩,?_⟩
    · exact decide_eq_false (by rintro rfl; exact absurd h (by decide))
    · exact decide_eq_false (by rintro rfl; exact absurd h (by decide))
    · exact decide_eq_false (by rintro rfl; exact absurd h (by decide))
  · rintro rfl
    exact absurd h (by decide)

theorem intText_fileWord (v : Int) : FileWord (intText v) := by
  have hdecimal := decimal_numeral v.natAbs
  have hword : FileWord (decimal v.natAbs) :=
    ⟨⟨hdecimal.ne_nil,fun c hc => (isDigit_word (hdecimal.digit c hc)).1⟩,
      fun hmem => (isDigit_word (hdecimal.digit _ hmem)).2 rfl⟩
  unfold intText
  split
  · refine ⟨⟨by simp,?_⟩,?_⟩
    · intro c hc
      rcases List.mem_cons.mp hc with rfl | hc
      · decide
      · exact hword.1.2 c hc
    · intro hmem
      rcases List.mem_cons.mp hmem with hminus | hmem
      · exact absurd hminus (by decide)
      · exact hword.2 hmem
  · exact hword

theorem intText_head (v : Int) : (intText v).head? ≠ some '#' := by
  unfold intText
  split
  · simp
  · intro hhead
    have hmem : '#' ∈ decimal v.natAbs := List.mem_of_mem_head? hhead
    exact absurd ((decimal_numeral _).digit _ hmem) (by decide)

theorem intText_length {v : Int} (h : Fits32 v) : (intText v).length ≤ 11 := by
  have hbit : signBit 32 = 2147483648 := by decide
  unfold Fits32 at h
  rw [hbit] at h
  have hdecimal : (decimal v.natAbs).length ≤ 10 := by
    unfold decimal
    rw [Nat.length_toDigits_le_iff (by decide) (by decide)]
    omega
  unfold intText
  split
  · rw [List.length_cons]
    omega
  · omega

theorem eventName_length (event : EventType) : ((eventGetName event).getD []).length ≤ 20 := by
  cases event <;> decide

theorem scheduleTypeName_fileWord (type : ScheduleType) : FileWord (scheduleTypeName type) := by
  cases type <;> exact ⟨by decide,by decide⟩

theorem entryLine_length (h : EntryWritable entry) : (entryLine type entry).length ≤ 254 := by
  have hday := intText_length h.day
  have hhour := intText_length h.hour
  have hmin := intText_length h.min
  have hevent := eventName_length entry.event
  cases type <;> simp only [entryLine,lineText,Words.spaced_cons,Words.spaced_nil,
    List.length_append,List.length_cons,List.length_nil] <;> omega

theorem entryLine_plain (h : EntryWritable entry) :
    (∀ c ∈ entryLine type entry, c ≠ '\n') ∧ nul ∉ entryLine type entry := by
  have hevent := eventGetName_fileWord h.event
  cases type with
  | day =>
    refine lineText_plain (intText_fileWord _) (intText_fileWord _) ?_
    intro w hw
    rw [List.mem_singleton.mp hw]
    exact hevent
  | week =>
    refine lineText_plain (intText_fileWord _) (intText_fileWord _) ?_
    intro w hw
    rcases List.mem_cons.mp hw with rfl | hw
    · exact intText_fileWord _
    · rw [List.mem_singleton.mp hw]
      exact hevent

theorem headerLine_length (name : CString) (type : ScheduleType) :
    (headerLine name type).length = 10+name.length+(scheduleTypeName type).length := by
  simp only [headerLine,lineText,Words.spaced_cons,Words.spaced_nil,List.length_append,
    List.length_cons,List.length_nil]
  have hword : "SCHEDULE".toList.length = 8 := rfl
  omega

theorem headerLine_plain {name : CString} (type : ScheduleType) (hname : FileWord name) :
    (∀ c ∈ headerLine name type, c ≠ '\n') ∧ nul ∉ headerLine name type := by
  refine lineText_plain ⟨by decide,by decide⟩ hname ?_
  intro w hw
  rw [List.mem_singleton.mp hw]
  exact scheduleTypeName_fileWord type

theorem scanfInt_blank {v : Int} (hv : Fits32 v) {rest : CString}
    (hrest : ∀ c ∈ rest.head?, isDigit 10 c = false) :
    scanfInt (' ' :: (intText v ++ rest)) = some (v,rest) := by
  rw [scanfInt,scanInt_space (by decide),← scanfInt]
  exact scanfInt_text hv hrest

theorem scanfWord_event (event : EventType) (h : event ≠ .invalid) :
    scanfWord 49 (' ' :: (eventGetName event).getD []) =
      some ((eventGetName event).getD [],[]) := by
  cases event <;> first | contradiction | decide

theorem scheduleParseLine_text {schedule : Schedule} (h : EntryWritable entry) :
    scheduleParseLine schedule (entryLine schedule.type entry) =
      some (scheduleAddEntry schedule (storedEntry schedule.type entry)) := by
  have hblank : ∀ s : CString, ∀ c ∈ (' ' :: s).head?, isDigit 10 c = false := by
    intro s c hc
    cases hc
    decide
  obtain ⟨name,hname,hchar⟩ := eventType_roundtrip h.event
  have hword := scanfWord_event entry.event h.event
  simp only [hname,Option.getD_some] at hword
  unfold scheduleParseLine scheduleScan entryLine lineText
  cases htype : schedule.type with
  | day =>
    simp only [Words.spaced_cons,Words.spaced_nil,List.append_nil,hname,Option.getD_some]
    simp only [Option.bind_eq_bind,Option.bind_some,scanfInt_text h.hour (hblank _),
      scanfInt_blank h.min (hblank _),hword]
    simp [scheduleEntryCreate,storedEntry,hchar]
  | week =>
    simp only [Words.spaced_cons,Words.spaced_nil,List.append_nil,hname,Option.getD_some]
    simp only [Option.bind_eq_bind,Option.bind_some,scanfInt_text h.day (hblank _),
      scanfInt_blank h.hour (hblank _),scanfInt_blank h.min (hblank _),hword]
    simp [scheduleEntryCreate,storedEntry,hchar]

end Texts

section Reading
variable {outside : Surroundings} {name : CString} {type : ScheduleType} {devices : List Device}

def newSchedule (name : CString) (type : ScheduleType) : Schedule := ⟨type,[],name,.unset⟩

theorem headerLine_parse (type : ScheduleType) (hname : FileWord name) :
    ∃ fits, lineParse (headerLine name type ++ ['\n']) = .ok (some
      ⟨.schedule,headerLine name type,name,[scheduleTypeName type],fits⟩) := by
  refine ⟨_,lineParse_text (by decide) (by decide) hname.1 ?_ (by simp [lineMaxOptions])
    (Nat.le_refl 1)⟩
  intro w hw
  rw [List.mem_singleton.mp hw]
  exact (scheduleTypeName_fileWord type).1

theorem headerLine_accepts (outside : Surroundings) (hname : FileWord name) {line : CString}
    (hline : lineParse line = lineParse (headerLine name type ++ ['\n'])) (D : List Device) :
    Accepts (declarationLine outside) line ⟨D,none⟩
      ⟨D ++ [⟨name,.schedule (newSchedule name type)⟩],some D.length⟩ := by
  obtain ⟨fits,hparse⟩ := headerLine_parse type hname
  unfold Accepts declarationLine
  rw [hline,hparse]
  simp only [declarationStatement,declareDevice,declaredType]
  cases type <;> rfl

theorem entryLine_parse (type : ScheduleType) {entry : ScheduleEntry} (h : EntryWritable entry) :
    ∃ ln, lineParse (entryLine type entry ++ ['\n']) = .ok (some ln) ∧
      ln.raw = entryLine type entry := by
  have hevent := eventGetName_fileWord h.event
  have hmin : ∀ statement, minOptions statement ≤ 1 := by
    intro statement
    unfold minOptions
    split <;> simp
  cases type with
  | day =>
    refine ⟨_,lineParse_text (intText_fileWord _).1 (intText_head _) (intText_fileWord _).1 ?_
      (by simp [lineMaxOptions]) (hmin _),rfl⟩
    intro w hw
    rw [List.mem_singleton.mp hw]
    exact hevent.1
  | week =>
    refine ⟨_,lineParse_text (intText_fileWord _).1 (intText_head _) (intText_fileWord _).1 ?_
      (by simp [lineMaxOptions]) (Nat.le_trans (hmin _) (by simp)),rfl⟩
    intro w hw
    rcases List.mem_cons.mp hw with rfl | hw
    · exact (intText_fileWord _).1
    · rw [List.mem_singleton.mp hw]
      exact hevent.1

theorem entryLine_accepts (outside : Surroundings) (name : CString) {entry : ScheduleEntry}
    (h : EntryWritable entry) (D : List Device) (schedule : Schedule) :
    Accepts (declarationLine outside) (entryLine schedule.type entry ++ ['\n'])
      ⟨D ++ [⟨name,.schedule schedule⟩],some D.length⟩
      ⟨D ++ [⟨name,.schedule (scheduleAddEntry schedule (storedEntry schedule.type entry))⟩],
        some D.length⟩ := by
  obtain ⟨ln,hparse,hraw⟩ := entryLine_parse schedule.type h
  unfold Accepts declarationLine
  simp [hparse,hraw,Device.parseScheduleLine,scheduleParseLine_text h]

theorem entryLines_accepted (outside : Surroundings) (name : CString)
    (entries : List ScheduleEntry) (hentries : ∀ entry ∈ entries, EntryWritable entry)
    (D : List Device) (schedule : Schedule) :
    AcceptsAll (declarationLine outside)
      ((entries.map (entryLine schedule.type)).map (fun line => line ++ ['\n']))
      ⟨D ++ [⟨name,.schedule schedule⟩],some D.length⟩
      ⟨D ++ [⟨name,.schedule { schedule with
        entries := schedule.entries ++ entries.map (storedEntry schedule.type) }⟩],
        some D.length⟩ := by
  induction entries generalizing schedule with
  | nil => simp
  | cons entry entries ih =>
    have hfirst := entryLine_accepts outside name (hentries entry (by simp)) D schedule
    have hrest := ih (fun e he => hentries e (by simp [he]))
      (scheduleAddEntry schedule (storedEntry schedule.type entry))
    refine acceptsAll_cons.mpr ⟨_,hfirst,?_⟩
    simpa [scheduleAddEntry] using hrest

theorem entryLines_plain {entries : List ScheduleEntry}
    (hentries : ∀ entry ∈ entries, EntryWritable entry) :
    ∀ line ∈ entries.map (entryLine type) ++ [[]],
      line.length ≤ 254 ∧ (∀ c ∈ line, c ≠ '\n') ∧ nul ∉ line := by
  intro line hline
  rcases List.mem_append.mp hline with hline | hline
  · obtain ⟨entry,hentry,rfl⟩ := List.mem_map.mp hline
    exact ⟨entryLine_length (hentries entry hentry),entryLine_plain (hentries entry hentry)⟩
  · rw [List.mem_singleton.mp hline]
    simp

theorem fileLines_short {entries : List ScheduleEntry} (hname : FileWord name)
    (hentries : ∀ entry ∈ entries, EntryWritable entry)
    (hlength : (headerLine name type).length ≤ 254) :
    fileLines (scheduleText name type entries) =
      (headerLine name type ++ ['\n']) ::
        ((entries.map (entryLine type)).map (fun line => line ++ ['\n']) ++ [['\n']]) := by
  unfold scheduleText
  rw [fileLines_lines]
  · simp [scheduleLines]
  · intro line hline
    rcases List.mem_cons.mp hline with rfl | hline
    · exact ⟨hlength,headerLine_plain _ hname⟩
    · exact entryLines_plain hentries line hline

theorem fileLines_full {entries : List ScheduleEntry} (hname : FileWord name)
    (hentries : ∀ entry ∈ entries, EntryWritable entry)
    (hlength : (headerLine name type).length = 255) :
    fileLines (scheduleText name type entries) =
      headerLine name type :: ['\n'] ::
        ((entries.map (entryLine type)).map (fun line => line ++ ['\n']) ++ [['\n']]) := by
  obtain ⟨hnewline,hnul⟩ := headerLine_plain type hname
  have hrest : fileLines ('\n' :: (entries.map (entryLine type) ++ [[]]).flatMap
      (fun line => line ++ ['\n'])) =
      ['\n'] :: ((entries.map (entryLine type)).map (fun line => line ++ ['\n']) ++ [['\n']]) := by
    have hlines := fileLines_lines ([] :: (entries.map (entryLine type) ++ [[]])) (by
      intro line hline
      rcases List.mem_cons.mp hline with rfl | hline
      · simp
      · exact entryLines_plain hentries line hline)
    simpa using hlines
  have hcut := Pieces.cut_full isNewline (n := 255) (headerLine name type)
    ('\n' :: (entries.map (entryLine type) ++ [[]]).flatMap (fun line => line ++ ['\n']))
    (fun c hc => by simpa [isNewline] using hnewline c hc) 255 hlength (by decide)
  have hstring : cString (headerLine name type) = headerLine name type := by
    apply List.takeWhile_eq_self_iff.mpr
    intro c hc
    simp only [ne_eq,decide_eq_true_eq]
    rintro rfl
    exact hnul hc
  have htext : scheduleText name type entries = headerLine name type ++
      '\n' :: (entries.map (entryLine type) ++ [[]]).flatMap (fun line => line ++ ['\n']) := by
    simp [scheduleText,scheduleLines]
  rw [← hrest,htext]
  unfold fileLines Pieces.pieces
  change (Pieces.cut isNewline 255 255 _).map cString = _
  rw [hcut,List.map_cons,hstring]
  rfl

structure ScheduleRoundtrip (outside : Surroundings) (name : CString) (type : ScheduleType)
    (entries : List ScheduleEntry) (devices : List Device) : Prop where
  declared : ∃ schedule : Schedule, schedule.name = name ∧ schedule.type = type ∧
    schedule.entries = entries.map (storedEntry type) ∧
    rulesReadFileDeclarations outside (scheduleText name type entries) ⟨devices,none⟩ =
      .ok (0,⟨devices ++ [⟨name,.schedule schedule⟩],none⟩)
  ruleless : ∀ (known : List Device) (r : RuleReader), r.schedule = false →
    ∃ r', rulesReadFileRules known (scheduleText name type entries) r = .ok (0,r') ∧
      r'.rules = r.rules ∧ r'.rule = none ∧ r'.schedule = false

theorem declared_of {header : CString} {entries : List ScheduleEntry} {ends : List CString}
    (hname : FileWord name) (hentries : ∀ entry ∈ entries, EntryWritable entry)
    (hheader : lineParse header = lineParse (headerLine name type ++ ['\n']))
    (hends : ∀ line ∈ ends, line = ['\n'])
    (hlines : fileLines (scheduleText name type entries) =
      header :: ((entries.map (entryLine type)).map (fun line => line ++ ['\n']) ++
        ['\n'] :: ends)) :
    ∃ schedule : Schedule, schedule.name = name ∧ schedule.type = type ∧
      schedule.entries = entries.map (storedEntry type) ∧
      rulesReadFileDeclarations outside (scheduleText name type entries) ⟨devices,none⟩ =
        .ok (0,⟨devices ++ [⟨name,.schedule schedule⟩],none⟩) := by
  refine ⟨scheduleParsingFinished outside.now { newSchedule name type with
    entries := entries.map (storedEntry type) },rfl,rfl,rfl,?_⟩
  have hfirst := headerLine_accepts outside hname hheader devices
  have hmiddle := entryLines_accepted outside name entries hentries devices
    (newSchedule name type)
  have hlast : Accepts (declarationLine outside) ['\n']
      ⟨devices ++ [⟨name,.schedule { newSchedule name type with
        entries := entries.map (storedEntry type) }⟩],some devices.length⟩
      ⟨devices ++ [⟨name,.schedule (scheduleParsingFinished outside.now
        { newSchedule name type with entries := entries.map (storedEntry type) })⟩],none⟩ := by
    have hparse : lineParse ['\n'] = .ok none := rfl
    simp [Accepts,declarationLine,hparse,modify_last,Device.scheduleParsingFinished]
  have hclosed : ∀ s : DeclarationReader, s.schedule = none →
      AcceptsAll (declarationLine outside) ends s s := by
    intro s hs
    have hparse : lineParse ['\n'] = .ok none := rfl
    clear hlines
    induction ends with
    | nil => exact acceptsAll_nil.mpr rfl
    | cons line ends ih =>
      refine acceptsAll_cons.mpr ⟨s,?_,ih (fun l hl => hends l (by simp [hl]))⟩
      rw [hends line (by simp)]
      simp [Accepts,declarationLine,hparse,hs]
  unfold rulesReadFileDeclarations
  rw [hlines]
  refine acceptsAll_cons.mpr ⟨_,hfirst,acceptsAll_append.mpr ⟨_,hmiddle,acceptsAll_cons.mpr
    ⟨_,?_,hclosed _ rfl⟩⟩⟩
  simpa [newSchedule] using hlast

theorem ruleless_of {header : CString} {entries : List ScheduleEntry} {ends : List CString}
    (hname : FileWord name) (hentries : ∀ entry ∈ entries, EntryWritable entry)
    (hheader : lineParse header = lineParse (headerLine name type ++ ['\n']))
    (hends : ∀ line ∈ ends, line = ['\n'])
    (hlines : fileLines (scheduleText name type entries) =
      header :: ((entries.map (entryLine type)).map (fun line => line ++ ['\n']) ++
        ['\n'] :: ends))
    (known : List Device) (r : RuleReader) (hr : r.schedule = false) :
    ∃ r', rulesReadFileRules known (scheduleText name type entries) r = .ok (0,r') ∧
      r'.rules = r.rules ∧ r'.rule = none ∧ r'.schedule = false := by
  have hfirst : Accepts (ruleLine known) header r { r with schedule := true } := by
    obtain ⟨fits,hparse⟩ := headerLine_parse type hname
    unfold Accepts ruleLine
    rw [hheader,hparse]
    simp [hr,ruleStatement]
  have hmiddle : AcceptsAll (ruleLine known)
      ((entries.map (entryLine type)).map (fun line => line ++ ['\n']))
      { r with schedule := true } { r with schedule := true } := by
    clear hlines
    induction entries with
    | nil => simp
    | cons entry entries ih =>
      obtain ⟨ln,hparse,-⟩ := entryLine_parse type (hentries entry (by simp))
      refine acceptsAll_cons.mpr ⟨_,?_,ih (fun e he => hentries e (by simp [he]))⟩
      simp [Accepts,ruleLine,hparse]
  have hclosed : ∀ r : RuleReader, r.rule = none → r.schedule = false →
      AcceptsAll (ruleLine known) ends r r := by
    intro r hrule hschedule
    have hparse : lineParse ['\n'] = .ok none := rfl
    clear hlines
    induction ends with
    | nil => exact acceptsAll_nil.mpr rfl
    | cons line ends ih =>
      refine acceptsAll_cons.mpr ⟨r,?_,ih (fun l hl => hends l (by simp [hl]))⟩
      rw [hends line (by simp)]
      obtain ⟨rules,rule,schedule⟩ := r
      simp only at hrule hschedule
      simp [Accepts,ruleLine,hparse,hrule,hschedule]
  have hlast : Accepts (ruleLine known) ['\n'] { r with schedule := true }
      { r with rule := none, schedule := false } := rfl
  refine ⟨{ r with rule := none, schedule := false },?_,rfl,rfl,rfl⟩
  unfold rulesReadFileRules
  rw [hlines]
  exact acceptsAll_cons.mpr ⟨_,hfirst,acceptsAll_append.mpr ⟨_,hmiddle,acceptsAll_cons.mpr
    ⟨_,hlast,hclosed _ rfl rfl⟩⟩⟩

end Reading

def HeaderFits (name : CString) (type : ScheduleType) (entries : List ScheduleEntry) : Prop :=
  (headerLine name type).length ≤ 254 ∨
    ((headerLine name type).length = 255 ∧ entries = [])

section Long
variable {outside : Surroundings} {name : CString} {type : ScheduleType} {devices : List Device}
  {s s' : DeclarationReader}

theorem lineGetStatement_schedule {line : CString} (h : lineGetStatement line = .schedule) :
    ∃ rest, line = "SCHEDULE".toList ++ rest := by
  unfold lineGetStatement at h
  cases hfind : statementTable.find? (fun entry => entry.2.isPrefixOf line) with
  | none => simp [hfind] at h
  | some entry =>
    have hnames : statementTable.all (fun entry =>
      entry.1 != .schedule || entry.2 == "SCHEDULE".toList) = true := rfl
    have hentry := List.all_eq_true.mp hnames entry (List.mem_of_find?_eq_some hfind)
    have hbegins := List.find?_some hfind
    have hschedule : entry.1 = .schedule := by simpa [hfind] using h
    have hname : entry.2 = "SCHEDULE".toList := by simpa [hschedule] using hentry
    simp only [hname] at hbegins
    obtain ⟨rest,hrest⟩ := List.isPrefixOf_iff_prefix.mp hbegins
    exact ⟨rest,hrest.symm⟩

theorem scheduleParser_options {name : CString} {options : List CString} {schedule : Schedule}
    (h : scheduleParser name options = some schedule) : schedule.name = name ∧
      ∃ rest, options = scheduleTypeName schedule.type :: rest := by
  cases options with
  | nil => cases h
  | cons option rest =>
    have hnames : scheduleTypesTable.all (fun entry =>
      entry.2 == scheduleTypeName entry.1) = true := rfl
    obtain ⟨type,htype,rfl⟩ := Option.map_eq_some_iff.mp h
    obtain ⟨entry,hfind,rfl⟩ := Option.map_eq_some_iff.mp htype
    have hentry := List.all_eq_true.mp hnames entry (List.mem_of_find?_eq_some hfind)
    have hoption : entry.2 = option := by simpa using List.find?_some hfind
    have hname : entry.2 = scheduleTypeName entry.1 := by simpa using hentry
    exact ⟨rfl,rest,by rw [← hoption,hname]⟩

theorem declaration_length {strline : CString} {ln : Line} {schedule : Schedule}
    (hparse : lineParse strline = .ok (some ln)) (hst : ln.statement = .schedule)
    (hschedule : scheduleParser ln.name ln.options = some schedule) :
    (headerLine schedule.name schedule.type).length ≤ strline.length := by
  obtain ⟨hclean,hstatement,hwords,-⟩ := lineParse_some hparse
  obtain ⟨hname,options,hoptions⟩ := scheduleParser_options hschedule
  obtain ⟨rest,hraw⟩ := lineGetStatement_schedule (hstatement.symm.trans hst)
  have hfront : 8 ≤ (Words.front isBlank ln.raw).length := by
    have hplain : ∀ c ∈ "SCHEDULE".toList, (!isBlank c) = true :=
      List.all_eq_true.mp (by decide)
    rw [hraw,Words.front,List.takeWhile_append_of_pos hplain,List.length_append]
    exact Nat.le_add_right 8 _
  have hlength := Words.following_length isBlank ln.raw
  rw [hwords,hoptions,← hname] at hlength
  simp only [List.flatten_cons,List.length_append,List.length_cons] at hlength
  have hcleaned := lineCleanup_length hclean
  rw [headerLine_length]
  omega

theorem declared_length {content : List Char}
    (h : rulesReadFileDeclarations outside content .start = .ok (0,s')) :
    ∀ device ∈ s'.devices, ∀ schedule, device.userdata = .schedule schedule →
      (headerLine schedule.name schedule.type).length ≤ 255 := by
  have hlines : AcceptsAll (declarationLine outside) (fileLines content) .start s' := h
  refine hlines.holds (I := fun s => ∀ device ∈ s.devices, ∀ schedule,
    device.userdata = .schedule schedule →
      (headerLine schedule.name schedule.type).length ≤ 255) ?_ (by simp [DeclarationReader.start])
  intro line hline s s' haccepts hs
  have hshort : line.length ≤ 255 := by
    obtain ⟨piece,hpiece,rfl⟩ := List.mem_map.mp hline
    exact Nat.le_trans (List.takeWhile_sublist _).length_le
      (Pieces.pieces_length isNewline (by decide) hpiece)
  refine declarationLine_holds (I := fun data => ∀ schedule, data = .schedule schedule →
    (headerLine schedule.name schedule.type).length ≤ 255) haccepts ?_ ?_ ?_ hs
  · intro ln device hparse _ hschedule schedule hdata
    obtain ⟨hst,hparser⟩ := hschedule schedule hdata
    exact Nat.le_trans (declaration_length hparse hst hparser) hshort
  · intro schedule schedule' line hentry hheld schedule'' hdata
    cases hdata
    obtain ⟨_,-,rfl⟩ := Option.map_eq_some_iff.mp hentry
    exact hheld schedule rfl
  · intro device hheld schedule hdata
    obtain ⟨name,data⟩ := device
    cases data with
    | schedule schedule' =>
      cases hdata
      exact hheld schedule' rfl
    | _ => cases hdata

theorem headerLine_full {entries : List ScheduleEntry} (hname : FileWord name)
    (hentries : ∀ entry ∈ entries, EntryWritable entry)
    (hlength : (headerLine name type).length = 255)
    (h : rulesReadFileDeclarations outside (scheduleText name type entries) ⟨devices,none⟩ =
      .ok (0,s')) : entries = [] := by
  cases entries with
  | nil => rfl
  | cons entry entries =>
    have hlines : AcceptsAll (declarationLine outside) (fileLines (scheduleText name type
      (entry :: entries))) ⟨devices,none⟩ s' := h
    rw [fileLines_full hname hentries hlength,List.map_cons,List.map_cons,
      List.cons_append] at hlines
    obtain ⟨s₁,h₁,hlines⟩ := acceptsAll_cons.mp hlines
    obtain ⟨s₂,h₂,hlines⟩ := acceptsAll_cons.mp hlines
    obtain ⟨s₃,h₃,-⟩ := acceptsAll_cons.mp hlines
    have hclosed : s₂.schedule = none := by
      have hparse : lineParse ['\n'] = .ok none := rfl
      cases declarationLine_step h₂ with
      | blank _ hs' => exact hs' ▸ finish_closed s₁ _
      | entry _ _ _ _ _ hparse' => simp [hparse] at hparse'
      | rule _ hparse' => simp [hparse] at hparse'
      | declaration _ _ hparse' => simp [hparse] at hparse'
    have hentry := hentries entry (by simp)
    obtain ⟨ln,hparse,hraw⟩ := entryLine_parse type hentry
    have hst : ln.statement = .invalid := by
      rw [lineParse_statement hparse,hraw]
      exact scheduleParseLine_statement (@scheduleParseLine_text entry
        (newSchedule name type) hentry)
    simp [Accepts,declarationLine,hparse,hclosed,declarationStatement,hst] at h₃

theorem roundtrip_fits {entries : List ScheduleEntry} (hname : FileWord name)
    (hentries : ∀ entry ∈ entries, EntryWritable entry)
    (h : ScheduleRoundtrip outside name type entries devices) : HeaderFits name type entries := by
  obtain ⟨⟨schedule,rfl,rfl,-,hread⟩,-⟩ := h
  have hlines : AcceptsAll (declarationLine outside) (fileLines (scheduleText schedule.name
    schedule.type entries)) ⟨devices,none⟩
      ⟨devices ++ [⟨schedule.name,.schedule schedule⟩],none⟩ := hread
  obtain ⟨t,ht,hshift⟩ := declarations_shift.mp hlines
  have hdevices : t.devices = [⟨schedule.name,.schedule schedule⟩] :=
    List.append_cancel_left (congrArg DeclarationReader.devices hshift)
  have hmem : ⟨schedule.name,.schedule schedule⟩ ∈ t.devices := by simp [hdevices]
  have hlength := declared_length ht _ hmem schedule rfl
  by_cases hfull : (headerLine schedule.name schedule.type).length = 255
  · exact .inr ⟨hfull,headerLine_full hname hentries hfull hread⟩
  · exact .inl (by omega)

theorem roundtrip_of_fits {entries : List ScheduleEntry} (hname : FileWord name)
    (hentries : ∀ entry ∈ entries, EntryWritable entry) (h : HeaderFits name type entries) :
    ScheduleRoundtrip outside name type entries devices := by
  rcases h with hshort | ⟨hfull,rfl⟩
  · have hlines := fileLines_short hname hentries hshort
    exact ⟨declared_of hname hentries rfl (by simp) hlines,
      ruleless_of hname hentries rfl (by simp) hlines⟩
  · have hlines := @fileLines_full name type [] hname hentries hfull
    have hparse : lineParse (headerLine name type) =
        lineParse (headerLine name type ++ ['\n']) :=
      lineParse_unended (by simp [headerLine,lineText]) (headerLine_plain _ hname).1
    have hends : ∀ line ∈ [['\n']], line = ['\n'] := by simp
    exact ⟨declared_of hname hentries hparse hends hlines,
      ruleless_of hname hentries hparse hends hlines⟩

end Long

/-- A schedule that is written to a file and read from it comes back in the first pass, and
leaves nothing behind in the second, exactly when its header fits into the buffer. -/
theorem schedule_roundtrip_iff (outside : Surroundings) (name : CString) (type : ScheduleType)
    (entries : List ScheduleEntry) (devices : List Device) (hname : FileWord name)
    (hentries : ∀ entry ∈ entries, EntryWritable entry) :
    ScheduleRoundtrip outside name type entries devices ↔ HeaderFits name type entries :=
  ⟨roundtrip_fits hname hentries,roundtrip_of_fits hname hentries⟩

def bellEntries : List ScheduleEntry := [⟨7,6,30,.set⟩,⟨1,22,0,.unset⟩]

theorem bellEntries_writable : ∀ entry ∈ bellEntries, EntryWritable entry := by
  intro entry hentry
  simp only [bellEntries,List.mem_cons,List.not_mem_nil,or_false] at hentry
  rcases hentry with rfl | rfl <;>
    exact ⟨⟨by decide,by decide⟩,⟨by decide,by decide⟩,⟨by decide,by decide⟩,by decide⟩

theorem schedule_roundtrip_bell :
    ScheduleRoundtrip quietHouse "bell".toList .week bellEntries [] :=
  (schedule_roundtrip_iff quietHouse "bell".toList .week bellEntries []
    ⟨by decide,by decide⟩ bellEntries_writable).mpr (.inl (by decide))

/-- A name of 300 letters does not fit. -/
theorem schedule_truncated :
    ¬ ScheduleRoundtrip quietHouse (List.replicate 300 'b') .week bellEntries [] := by
  have hname : FileWord (List.replicate 300 'b') := by
    refine ⟨⟨List.cons_ne_nil 'b' (List.replicate 299 'b'),?_⟩,?_⟩
    · intro c hc
      rw [List.eq_of_mem_replicate hc]
      decide
    · intro hmem
      exact absurd (List.eq_of_mem_replicate hmem) (by decide)
  intro hroundtrip
  have hlength := headerLine_length (List.replicate 300 'b') .week
  rw [List.length_replicate] at hlength
  rcases roundtrip_fits hname bellEntries_writable hroundtrip with hshort | ⟨hfull,-⟩
  · omega
  · omega

end DomoticaEngine
