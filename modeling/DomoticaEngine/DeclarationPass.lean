import DomoticaEngine.RuleAcceptance

/-!
The first pass over the rule files, and what an open schedule block carries from one file
to the next.
-/

set_option autoImplicit false

namespace DomoticaEngine
open Reads

theorem deviceTypeLookup_name {devtype : CString} {type : DeviceType}
    (h : deviceTypeLookup devtype = some type) : (deviceTypeInfo type).name = devtype := by
  simpa using List.find?_some h

theorem map_some_type {α : Type} {f : α → Userdata} {type : DeviceType} {data : Userdata}
    {x : Except Fault (Option α)} (hf : ∀ a, x = .ok (some a) → (f a).deviceType = type)
    (h : x.map (fun a => a.map f) = .ok (some data)) : data.deviceType = type := by
  cases x with
  | error e => cases h
  | ok found =>
    cases found with
    | none => cases h
    | some a =>
      cases h
      exact hf a rfl

theorem parseCb_type {outside : Surroundings} {type : DeviceType} {name : CString}
    {options : List CString} {data : Userdata}
    (h : parseCb outside type name options = .ok (some data)) : data.deviceType = type := by
  cases type with
  | soltracker | musiccast | gpi | sunriset => exact outside.typed _ _ _ _ h
  | fsb14 | veluxKlf200 => exact map_some_type (fun _ _ => rfl) h
  | dht22 =>
    refine map_some_type (fun a ha => ?_) h
    unfold dht22Parser at ha
    obtain ⟨gpio,-,hplain⟩ := bind_eq_ok.mp ha
    split at hplain <;> cases hplain
    rfl
  | fts14em =>
    unfold parseCb fts14emDeviceParser at h
    cases haddress : options[1]? <;> rw [haddress] at h <;> cases h
    rfl
  | bool =>
    cases h
    rfl
  | _ =>
    simp only [parseCb,Except.ok.injEq,Option.map_eq_some_iff] at h
    obtain ⟨_,-,rfl⟩ := h
    rfl

theorem parseCb_schedule {outside : Surroundings} {type : DeviceType} {name : CString}
    {options : List CString} {schedule : Schedule}
    (h : parseCb outside type name options = .ok (some (.schedule schedule))) :
    type = .schedule ∧ scheduleParser name options = some schedule := by
  have htype : DeviceType.schedule = type := parseCb_type h
  subst htype
  refine ⟨rfl,?_⟩
  simp only [parseCb,Except.ok.injEq,Option.map_eq_some_iff,Userdata.schedule.injEq] at h
  obtain ⟨_,hschedule,rfl⟩ := h
  exact hschedule

theorem declaredType_schedule {ln : Line} (h : declaredType ln = some "SCHEDULE".toList) :
    ln.statement = .schedule ∨ ln.options[0]? = some "SCHEDULE".toList := by
  unfold declaredType at h
  split at h
  · exact absurd h (by decide)
  · exact absurd h (by decide)
  · exact absurd h (by decide)
  · rename_i hst
    exact .inl hst
  · exact absurd h (by decide)
  · exact .inr h

theorem scheduleParser_schedule {name : CString} {options : List CString}
    (h : options[0]? = some "SCHEDULE".toList) : scheduleParser name options = none := by
  cases options with
  | nil => rfl
  | cons option rest =>
    have hoption : option = "SCHEDULE".toList := by simpa using h
    rw [hoption]
    rfl

theorem declareDevice_created {outside : Surroundings} {ln : Line} {s s' : DeclarationReader}
    (h : declareDevice outside ln s = .ok (0,s')) :
    ∃ devtype type data, declaredType ln = some devtype ∧ deviceTypeLookup devtype = some type ∧
      parseCb outside type ln.name ln.options = .ok (some data) ∧
      s' = { devices := s.devices ++ [⟨ln.name,data⟩],
             schedule := if ln.statement = .schedule then some s.devices.length
                         else s.schedule } := by
  unfold declareDevice at h
  cases hdeclared : declaredType ln with
  | none => simp [hdeclared] at h
  | some devtype =>
    simp only [hdeclared] at h
    unfold deviceCreate at h
    cases hlookup : deviceTypeLookup devtype with
    | none => simp [hlookup] at h
    | some type =>
      simp only [hlookup] at h
      by_cases hoptions : ln.options = []
      · simp [hoptions] at h
      · simp only [if_neg hoptions] at h
        cases hparse : parseCb outside type ln.name ln.options with
        | error e => simp [hparse,Except.map] at h
        | ok found =>
          cases found with
          | none => simp [hparse,Except.map] at h
          | some data =>
            simp only [hparse,Except.map,Option.map_some,Except.ok.injEq,Prod.mk.injEq,
              true_and] at h
            exact ⟨devtype,type,data,rfl,hlookup,hparse,h.symm⟩

theorem declareDevice_accepts {outside : Surroundings} {ln : Line} {s s' : DeclarationReader}
    (h : declareDevice outside ln s = .ok (0,s')) :
    ∃ device : Device, s'.devices = s.devices ++ [device] ∧
      (∃ type options, parseCb outside type device.name options = .ok (some device.userdata)) ∧
      (s'.schedule = if ln.statement = .schedule then some s.devices.length else s.schedule) ∧
      (ln.statement = .schedule → ∃ schedule, scheduleParser ln.name ln.options = some schedule ∧
        device.userdata = .schedule schedule) ∧
      (ln.statement ≠ .schedule → ∀ schedule, device.userdata ≠ .schedule schedule) := by
  obtain ⟨devtype,type,data,hdeclared,hlookup,hparse,rfl⟩ := declareDevice_created h
  refine ⟨⟨ln.name,data⟩,rfl,⟨type,ln.options,hparse⟩,rfl,?_,?_⟩
  · intro hst
    have hdevtype : devtype = "SCHEDULE".toList := by
      simpa [declaredType,hst] using hdeclared.symm
    have htype : type = .schedule := by
      have hsome : some type = some .schedule := by
        rw [← hlookup,hdevtype]
        rfl
      exact Option.some.inj hsome
    subst htype
    simp only [parseCb,Except.ok.injEq,Option.map_eq_some_iff] at hparse
    obtain ⟨schedule,hs,rfl⟩ := hparse
    exact ⟨schedule,hs,rfl⟩
  · intro hst schedule hdata
    simp only at hdata
    subst hdata
    obtain ⟨rfl,hs⟩ := parseCb_schedule hparse
    have hname : devtype = "SCHEDULE".toList := (deviceTypeLookup_name hlookup).symm
    rw [hname] at hdeclared
    rcases declaredType_schedule hdeclared with hschedule | hoption
    · exact hst hschedule
    · rw [scheduleParser_schedule hoption] at hs
      cases hs

def DeclarationReader.openSchedule (s : DeclarationReader) : Option Schedule :=
  s.schedule.bind (fun k => s.devices[k]?.bind (fun device =>
    match device.userdata with
    | .schedule schedule => some schedule
    | _ => none))

def Device.Settled (now : Tm) (device : Device) : Prop :=
  device.scheduleParsingFinished now = device

/-- What holds between lines: the pointer to the open schedule is good, and all other
schedules have their start-up condition. -/
structure DeclarationReader.Sound (now : Tm) (s : DeclarationReader) : Prop where
  points : ∀ k : Nat, s.schedule = some k → ∃ device schedule, s.devices[k]? = some device ∧
    device.userdata = .schedule schedule
  settled : ∀ (k : Nat) device, s.devices[k]? = some device → s.schedule ≠ some k →
    device.Settled now

theorem start_sound (now : Tm) : DeclarationReader.start.Sound now :=
  ⟨fun k hk => by simp [DeclarationReader.start] at hk,
    fun k device hk => by simp [DeclarationReader.start] at hk⟩

theorem settled_of_other {now : Tm} {device : Device}
    (h : ∀ schedule, device.userdata ≠ .schedule schedule) : device.Settled now := by
  unfold Device.Settled Device.scheduleParsingFinished
  split
  · rename_i schedule hs
    exact absurd hs (h schedule)
  · rfl

theorem Device.Settled.eq {now : Tm} {device : Device} (h : device.Settled now) :
    device.scheduleParsingFinished now = device := h

theorem finished_settled (now : Tm) (device : Device) :
    (device.scheduleParsingFinished now).Settled now := by
  obtain ⟨name,data⟩ := device
  cases data <;> rfl

theorem settled_iff {now : Tm} {device : Device} {schedule : Schedule}
    (h : device.userdata = .schedule schedule) :
    device.Settled now ↔ scheduleGetCurrentCondition schedule now = schedule.condition := by
  obtain ⟨name,data⟩ := device
  simp only at h
  subst h
  obtain ⟨type,entries,sname,condition⟩ := schedule
  simp [Device.Settled,Device.scheduleParsingFinished,scheduleParsingFinished,
    Schedule.setCondition]

theorem scheduleParseLine_statement {schedule schedule' : Schedule} {line : CString}
    (h : scheduleParseLine schedule line = some schedule') :
    lineGetStatement line = .invalid := by
  unfold lineGetStatement
  cases hfind : statementTable.find? (fun entry => entry.2.isPrefixOf line) with
  | none => rfl
  | some entry =>
    have hnames : statementTable.all (fun entry =>
      entry.2.head?.any (fun c => !isSpace c && !isDigit 10 c && c ≠ '-' && c ≠ '+')) = true := rfl
    have hentry := List.all_eq_true.mp hnames entry (List.mem_of_find?_eq_some hfind)
    have hbegins := List.find?_some hfind
    obtain ⟨statement,name⟩ := entry
    cases name with
    | nil => simp at hentry
    | cons c name =>
      cases line with
      | nil => simp [List.isPrefixOf] at hbegins
      | cons d line =>
        simp only [List.isPrefixOf,Bool.and_eq_true,beq_iff_eq] at hbegins
        obtain ⟨rfl,-⟩ := hbegins
        simp at hentry
        have hscan : scanfInt (c :: line) = none := by
          have hskip : skipPrefix 10 (c :: line) = c :: line := by
            unfold skipPrefix
            split
            · simp
            · rfl
          simp [scanfInt,scanInt,hentry,hskip]
        unfold scheduleParseLine scheduleScan at h
        cases htype : schedule.type with
        | day => simp [htype,hscan] at h
        | week => simp [htype,hscan] at h

def DeclarationReader.finish (now : Tm) (s : DeclarationReader) : DeclarationReader :=
  match s.schedule with
  | none => s
  | some k => { devices := s.devices.modify k (Device.scheduleParsingFinished now),
                schedule := none }

inductive DeclarationStep (outside : Surroundings) (strline : CString)
    (s s' : DeclarationReader) : Prop where
  | blank (hparse : lineParse strline = .ok none) (hs' : s' = s.finish outside.now)
  | entry (ln : Line) (k : Nat) (name : CString) (schedule schedule' : Schedule)
      (hparse : lineParse strline = .ok (some ln)) (hopen : s.schedule = some k)
      (hdevice : s.devices[k]? = some ⟨name,.schedule schedule⟩)
      (hentry : scheduleParseLine schedule ln.raw = some schedule')
      (hs' : s' = { s with devices := s.devices.set k ⟨name,.schedule schedule'⟩ })
  | rule (ln : Line) (hparse : lineParse strline = .ok (some ln)) (hopen : s.schedule = none)
      (hstatement : ln.statement ≠ .schedule) (hs' : s' = s)
  | declaration (ln : Line) (device : Device) (hparse : lineParse strline = .ok (some ln))
      (hopen : s.schedule = none) (hdevices : s'.devices = s.devices ++ [device])
      (hparsed : ∃ type options, parseCb outside type device.name options =
        .ok (some device.userdata))
      (hother : ln.statement ≠ .schedule → s'.schedule = none ∧
        ∀ schedule, device.userdata ≠ .schedule schedule)
      (hschedule : ln.statement = .schedule → s'.schedule = some s.devices.length ∧
        ∃ schedule, scheduleParser ln.name ln.options = some schedule ∧
          device.userdata = .schedule schedule)

theorem parseScheduleLine_some {line : CString} {device device' : Device}
    (h : device.parseScheduleLine line = some device') :
    ∃ schedule schedule', device = ⟨device.name,.schedule schedule⟩ ∧
      scheduleParseLine schedule line = some schedule' ∧
      device' = ⟨device.name,.schedule schedule'⟩ := by
  obtain ⟨name,data⟩ := device
  unfold Device.parseScheduleLine at h
  cases data with
  | schedule schedule =>
    simp only [Option.map_eq_some_iff] at h
    obtain ⟨schedule',hentry,rfl⟩ := h
    exact ⟨schedule,schedule',rfl,hentry,rfl⟩
  | _ => cases h

theorem declarationLine_step {outside : Surroundings} {strline : CString}
    {s s' : DeclarationReader} (h : Accepts (declarationLine outside) strline s s') :
    DeclarationStep outside strline s s' := by
  unfold Accepts declarationLine at h
  cases hparse : lineParse strline with
  | error e => simp [hparse] at h
  | ok found =>
    cases found with
    | none =>
      refine .blank hparse ?_
      cases hopen : s.schedule with
      | none =>
        simp only [hparse,hopen,Except.ok.injEq,Prod.mk.injEq,true_and] at h
        simp [DeclarationReader.finish,hopen,← h]
      | some k =>
        simp only [hparse,hopen,Except.ok.injEq,Prod.mk.injEq,true_and] at h
        simp [DeclarationReader.finish,hopen,← h]
    | some ln =>
      cases hopen : s.schedule with
      | some k =>
        simp only [hparse,hopen] at h
        cases hdevice : s.devices[k]? with
        | none => simp [hdevice] at h
        | some device =>
          simp only [hdevice,Option.bind_some] at h
          cases hentry : device.parseScheduleLine ln.raw with
          | none => simp [hentry] at h
          | some device' =>
            simp only [hentry,Except.ok.injEq,Prod.mk.injEq,true_and] at h
            obtain ⟨schedule,schedule',hname,hline,rfl⟩ := parseScheduleLine_some hentry
            exact .entry ln k device.name schedule schedule' hparse hopen (hname ▸ hdevice) hline
              (by rw [← h,hopen])
      | none =>
        simp only [hparse,hopen] at h
        have hdeclared : declareDevice outside ln s = .ok (0,s') →
            DeclarationStep outside strline s s' := by
          intro hdeclare
          obtain ⟨device,hdevices,hparsed,hschedule,hopens,hother⟩ := declareDevice_accepts hdeclare
          refine .declaration ln device hparse hopen hdevices hparsed ?_ ?_
          · intro hst
            rw [if_neg hst,hopen] at hschedule
            exact ⟨hschedule,hother hst⟩
          · intro hst
            rw [if_pos hst] at hschedule
            exact ⟨hschedule,hopens hst⟩
        unfold declarationStatement at h
        split at h
        case h_8 hst => exact .rule ln hparse hopen (by simp [hst]) (by simpa using h.symm)
        case h_9 hst => exact .rule ln hparse hopen (by simp [hst]) (by simpa using h.symm)
        case h_10 hst => exact .rule ln hparse hopen (by simp [hst]) (by simpa using h.symm)
        all_goals first | exact hdeclared h | cases h

def lineSchedule (strline : CString) (block : Option Schedule) : Option Schedule :=
  match lineParse strline with
  | .ok (some ln) =>
    match block with
    | some schedule => scheduleParseLine schedule ln.raw
    | none => if ln.statement = .schedule then scheduleParser ln.name ln.options else none
  | _ => none

def scheduleAfter (lines : List CString) (block : Option Schedule) : Option Schedule :=
  lines.foldl (fun block line => lineSchedule line block) block

section Step
variable {outside : Surroundings} {strline : CString} {s s' : DeclarationReader}

theorem openSchedule_of {k : Nat} {name : CString} {schedule : Schedule}
    (hopen : s.schedule = some k) (hdevice : s.devices[k]? = some ⟨name,.schedule schedule⟩) :
    s.openSchedule = some schedule := by
  simp [DeclarationReader.openSchedule,hopen,hdevice]

theorem openSchedule_none (hopen : s.schedule = none) : s.openSchedule = none := by
  simp [DeclarationReader.openSchedule,hopen]

theorem finish_sound {now : Tm} (hs : s.Sound now) : (s.finish now).Sound now := by
  cases hopen : s.schedule with
  | none =>
    rw [DeclarationReader.finish,hopen]
    exact hs
  | some k =>
    rw [DeclarationReader.finish,hopen]
    refine ⟨fun j hj => by simp at hj,fun j device hj _ => ?_⟩
    rw [List.getElem?_modify] at hj
    obtain ⟨device',hdevice',rfl⟩ := Option.map_eq_some_iff.mp hj
    by_cases hkj : k = j
    · simp only [hkj,if_true]
      exact finished_settled now device'
    · simp only [hkj,if_false]
      exact hs.settled j device' hdevice' (by simp [hopen,hkj])

theorem finish_closed (s : DeclarationReader) (now : Tm) : (s.finish now).schedule = none := by
  unfold DeclarationReader.finish
  split
  · assumption
  · rfl

theorem declarationLine_sound (hs : s.Sound outside.now)
    (h : Accepts (declarationLine outside) strline s s') : s'.Sound outside.now := by
  cases declarationLine_step h with
  | blank _ hs' => exact hs' ▸ finish_sound hs
  | rule _ _ _ _ hs' => exact hs' ▸ hs
  | entry ln k name schedule schedule' hparse hopen hdevice hentry hs' =>
    subst hs'
    have hlt := (List.getElem?_eq_some_iff.mp hdevice).1
    refine ⟨fun j hj => ?_,fun j device hj hne => ?_⟩
    · have hkj : k = j := by simpa [hopen] using hj
      subst hkj
      exact ⟨⟨name,.schedule schedule'⟩,schedule',by simp [hlt],rfl⟩
    · have hkj : k ≠ j := by
        rintro rfl
        exact hne hopen
      rw [List.getElem?_set_ne hkj] at hj
      exact hs.settled j device hj hne
  | declaration ln device hparse hopen hdevices _ hother hschedule =>
    have hold : ∀ (j : Nat) (device : Device), s.devices[j]? = some device →
        device.Settled outside.now :=
      fun j device hj => hs.settled j device hj (by simp [hopen])
    by_cases hst : ln.statement = .schedule
    · obtain ⟨hs',schedule,-,hdata⟩ := hschedule hst
      refine ⟨fun j hj => ?_,fun j device' hj hne => ?_⟩
      · rw [hs'] at hj
        cases hj
        exact ⟨device,schedule,by simp [hdevices],hdata⟩
      · rw [hdevices] at hj
        by_cases hjlt : j < s.devices.length
        · rw [List.getElem?_append_left hjlt] at hj
          exact hold j device' hj
        · have hjle := (List.getElem?_eq_some_iff.mp hj).1
          rw [List.length_append,List.length_singleton] at hjle
          have hjeq : j = s.devices.length := by omega
          exact absurd (hjeq ▸ hs') hne
    · obtain ⟨hs',hdata⟩ := hother hst
      refine ⟨fun j hj => by simp [hs'] at hj,fun j device' hj _ => ?_⟩
      rw [hdevices] at hj
      by_cases hjlt : j < s.devices.length
      · rw [List.getElem?_append_left hjlt] at hj
        exact hold j device' hj
      · rw [List.getElem?_append_right (by omega),List.getElem?_singleton] at hj
        split at hj
        · cases hj
          exact settled_of_other hdata
        · cases hj

theorem declarationLine_schedule (h : Accepts (declarationLine outside) strline s s') :
    s'.openSchedule = lineSchedule strline s.openSchedule := by
  cases declarationLine_step h with
  | blank hparse hs' =>
    subst hs'
    rw [openSchedule_none (finish_closed s _),lineSchedule,hparse]
  | rule ln hparse hopen hst hs' =>
    subst hs'
    simp [openSchedule_none hopen,lineSchedule,hparse,hst]
  | entry ln k name schedule schedule' hparse hopen hdevice hentry hs' =>
    have hlt := (List.getElem?_eq_some_iff.mp hdevice).1
    have hdevice' : s'.devices[k]? = some ⟨name,.schedule schedule'⟩ := by simp [hs',hlt]
    rw [openSchedule_of hopen hdevice,openSchedule_of (by rw [hs']; exact hopen) hdevice']
    simp [lineSchedule,hparse,hentry]
  | declaration ln device hparse hopen hdevices _ hother hschedule =>
    rw [openSchedule_none hopen]
    by_cases hst : ln.statement = .schedule
    · obtain ⟨hs',schedule,hparser,hdata⟩ := hschedule hst
      have hdevice' : s'.devices[s.devices.length]? = some ⟨device.name,.schedule schedule⟩ := by
        rw [hdevices,← hdata]
        simp
      rw [openSchedule_of hs' hdevice']
      simp [lineSchedule,hparse,hst,hparser]
    · rw [openSchedule_none (hother hst).1]
      simp [lineSchedule,hparse,hst]

theorem declarationLine_context {c : Context} (hc : c.schedule = s.schedule.isSome)
    (h : Accepts (declarationLine outside) strline s s') :
    (lineContext strline c).schedule = s'.schedule.isSome := by
  cases declarationLine_step h with
  | blank hparse hs' => simp [lineContext,hparse,hs',finish_closed]
  | entry ln k name schedule schedule' hparse hopen hdevice hentry hs' =>
    simp [lineContext,hparse,hs',hc,hopen]
  | rule ln hparse hopen hst hs' =>
    rw [hopen] at hc
    simp only [lineContext,hparse,hc,hs',hopen]
    cases hstatement : ln.statement <;> simp_all [statementContext]
  | declaration ln device hparse hopen hdevices _ hother hschedule =>
    rw [hopen] at hc
    by_cases hst : ln.statement = .schedule
    · simp [lineContext,hparse,hc,statementContext,hst,(hschedule hst).1]
    · simp only [lineContext,hparse,hc,(hother hst).1]
      cases hstatement : ln.statement <;> simp_all [statementContext]

end Step

/-- What a line establishes for the device that it declares, and the lines and the end of a
schedule keep, holds of all devices behind it. -/
theorem declarationLine_holds {I : Userdata → Prop} {outside : Surroundings} {strline : CString}
    {s s' : DeclarationReader} (h : Accepts (declarationLine outside) strline s s')
    (hdeclared : ∀ (ln : Line) (device : Device), lineParse strline = .ok (some ln) →
      (∃ type options, parseCb outside type device.name options = .ok (some device.userdata)) →
      (∀ schedule, device.userdata = .schedule schedule →
        ln.statement = .schedule ∧ scheduleParser ln.name ln.options = some schedule) →
      I device.userdata)
    (hentry : ∀ {schedule schedule' line}, scheduleParseLine schedule line = some schedule' →
      I (.schedule schedule) → I (.schedule schedule'))
    (hfinish : ∀ {device : Device}, I device.userdata →
      I (device.scheduleParsingFinished outside.now).userdata)
    (hs : ∀ device ∈ s.devices, I device.userdata) : ∀ device ∈ s'.devices, I device.userdata := by
  cases declarationLine_step h with
  | rule _ _ _ _ hs' => exact hs' ▸ hs
  | blank _ hs' =>
    subst hs'
    unfold DeclarationReader.finish
    split
    · exact hs
    · intro device hdevice
      obtain ⟨j,hj⟩ := List.getElem?_of_mem hdevice
      rw [List.getElem?_modify] at hj
      obtain ⟨old,hold,rfl⟩ := Option.map_eq_some_iff.mp hj
      have hheld := hs old (List.mem_of_getElem? hold)
      split
      · exact hfinish hheld
      · exact hheld
  | entry ln k name schedule schedule' _ _ hdevice hparsed hs' =>
    subst hs'
    have hheld : I (.schedule schedule) := hs _ (List.mem_of_getElem? hdevice)
    intro device hmem
    rcases List.mem_or_eq_of_mem_set hmem with hold | rfl
    · exact hs device hold
    · exact hentry hparsed hheld
  | declaration ln device hparse _ hdevices hparsed hother hschedule =>
    intro device' hdevice'
    rw [hdevices] at hdevice'
    rcases List.mem_append.mp hdevice' with hold | hnew
    · exact hs device' hold
    · rw [List.mem_singleton.mp hnew]
      refine hdeclared ln device hparse hparsed (fun schedule hdata => ?_)
      by_cases hst : ln.statement = .schedule
      · obtain ⟨-,schedule',hparser,hdata'⟩ := hschedule hst
        cases hdata.symm.trans hdata'
        exact ⟨hst,hparser⟩
      · exact absurd hdata ((hother hst).2 schedule)

/-- The reader when the devices `D` were declared before it started. -/
def DeclarationReader.shift (D : List Device) (s : DeclarationReader) : DeclarationReader :=
  { devices := D ++ s.devices, schedule := s.schedule.map (D.length + ·) }

theorem shift_start (D : List Device) :
    DeclarationReader.start.shift D = { devices := D, schedule := none } := by
  simp [DeclarationReader.shift,DeclarationReader.start]

theorem declarationLine_shift (outside : Surroundings) (D : List Device) (strline : CString)
    (s : DeclarationReader) :
    declarationLine outside strline (s.shift D) =
      (declarationLine outside strline s).map (fun r => (r.1,r.2.shift D)) := by
  obtain ⟨devices,schedule⟩ := s
  unfold declarationLine
  cases lineParse strline with
  | error e => rfl
  | ok found =>
    cases found with
    | none =>
      cases schedule with
      | none => rfl
      | some k => simp [DeclarationReader.shift,Except.map,modify_append]
    | some ln =>
      cases schedule with
      | some k =>
        simp only [DeclarationReader.shift,Option.map_some]
        have hget : (D ++ devices)[D.length+k]? = devices[k]? := by
          rw [List.getElem?_append_right (by omega),Nat.add_sub_cancel_left]
        rw [hget]
        cases devices[k]?.bind (Device.parseScheduleLine ln.raw) with
        | none => rfl
        | some device => simp [Except.map]
      | none =>
        have hdeclare : declareDevice outside ln (DeclarationReader.shift D ⟨devices,none⟩) =
            (declareDevice outside ln ⟨devices,none⟩).map (fun r => (r.1,r.2.shift D)) := by
          unfold declareDevice
          cases declaredType ln with
          | none => rfl
          | some devtype =>
            cases hcreate : deviceCreate outside ln.name devtype ln.options with
            | error e => simp [hcreate,Except.map]
            | ok created =>
              cases created with
              | none => simp [hcreate,Except.map]
              | some device =>
                by_cases hst : ln.statement = .schedule
                · simp [hcreate,Except.map,DeclarationReader.shift,hst]
                · simp [hcreate,Except.map,DeclarationReader.shift,hst]
        simp only [DeclarationReader.shift,Option.map_none] at hdeclare ⊢
        unfold declarationStatement
        cases ln.statement <;> first | exact hdeclare | rfl

def isBreak (strline : CString) : Bool :=
  match lineParse strline with
  | .ok none => true
  | _ => false

def startsWithBreak (lines : List CString) : Bool := lines.head?.all isBreak

section Files
variable {outside : Surroundings} {lines : List CString} {s s' : DeclarationReader}

theorem declarations_sound (hs : s.Sound outside.now)
    (h : AcceptsAll (declarationLine outside) lines s s') : s'.Sound outside.now :=
  h.holds (fun _ _ _ _ h₁ hs₁ => declarationLine_sound hs₁ h₁) hs

theorem declarations_schedule (h : AcceptsAll (declarationLine outside) lines s s') :
    s'.openSchedule = scheduleAfter lines s.openSchedule :=
  h.follows (R := fun s block => s.openSchedule = block)
    (fun _ _ _ _ h₁ hs₁ => hs₁ ▸ declarationLine_schedule h₁) rfl

theorem declarations_context {c : Context} (hc : c.schedule = s.schedule.isSome)
    (h : AcceptsAll (declarationLine outside) lines s s') :
    (contextAfter lines c).schedule = s'.schedule.isSome := by
  refine AcceptsAll.follows (R := fun s (c : Context) => c.schedule = s.schedule.isSome) ?_ h hc
  intro _ _ _ _ h₁ hs₁
  exact declarationLine_context hs₁ h₁

theorem declarations_shift {D : List Device} :
    AcceptsAll (declarationLine outside) lines { devices := D, schedule := none } s' ↔
      ∃ t, AcceptsAll (declarationLine outside) lines .start t ∧ t.shift D = s' := by
  rw [← shift_start]
  exact acceptsAll_map _ (declarationLine_shift outside D)

def finishedDevices (now : Tm) (devices : List Device) : List Device :=
  devices.map (Device.scheduleParsingFinished now)

theorem finishedDevices_modify (now : Tm) (devices : List Device) (k : Nat) :
    finishedDevices now (devices.modify k (Device.scheduleParsingFinished now)) =
      finishedDevices now devices := by
  apply List.ext_getElem?
  intro j
  simp only [finishedDevices,List.getElem?_map,List.getElem?_modify]
  cases devices[j]? with
  | none => rfl
  | some device =>
    by_cases hkj : k = j
    · simp [hkj,(finished_settled now device).eq]
    · simp [hkj]

theorem finish_devices (s : DeclarationReader) (now : Tm) :
    finishedDevices now (s.finish now).devices = finishedDevices now s.devices := by
  unfold DeclarationReader.finish
  split
  · rfl
  · exact finishedDevices_modify now _ _

/-- A file that does not start inside a block adds what it yields alone. -/
theorem declarations_alone (h : AcceptsAll (declarationLine outside) lines s s')
    (hstart : s.schedule = none ∨ startsWithBreak lines = true) :
    ∃ t, AcceptsAll (declarationLine outside) lines .start t ∧
      finishedDevices outside.now s'.devices =
        finishedDevices outside.now s.devices ++ finishedDevices outside.now t.devices := by
  have hfresh : ∀ (lines : List CString) (s : DeclarationReader), s.schedule = none →
      AcceptsAll (declarationLine outside) lines s s' →
      ∃ t, AcceptsAll (declarationLine outside) lines .start t ∧
        finishedDevices outside.now s'.devices =
          finishedDevices outside.now s.devices ++ finishedDevices outside.now t.devices := by
    intro lines s hopen h
    obtain ⟨devices,schedule⟩ := s
    simp only at hopen
    subst hopen
    obtain ⟨t,ht,rfl⟩ := declarations_shift.mp h
    exact ⟨t,ht,by simp [DeclarationReader.shift,finishedDevices]⟩
  rcases hstart with hopen | hstart
  · exact hfresh lines s hopen h
  · cases lines with
    | nil =>
      rw [acceptsAll_nil] at h
      exact ⟨.start,acceptsAll_nil.mpr rfl,by simp [h,DeclarationReader.start,finishedDevices]⟩
    | cons line lines =>
      obtain ⟨s₁,h₁,hrest⟩ := acceptsAll_cons.mp h
      have hparse : lineParse line = .ok none := by
        simp only [startsWithBreak,List.head?_cons,Option.all_some,isBreak] at hstart
        split at hstart
        · assumption
        · cases hstart
      have hs₁ : s₁ = s.finish outside.now := by
        cases declarationLine_step h₁ with
        | blank _ hs₁ => exact hs₁
        | entry _ _ _ _ _ hparse' => simp [hparse] at hparse'
        | rule _ hparse' => simp [hparse] at hparse'
        | declaration _ _ hparse' => simp [hparse] at hparse'
      obtain ⟨t,ht,hdevices⟩ := hfresh lines s₁ (hs₁ ▸ finish_closed s _) hrest
      refine ⟨t,acceptsAll_cons.mpr ⟨.start,?_,ht⟩,?_⟩
      · simp [Accepts,declarationLine,hparse,DeclarationReader.start]
      · rw [hdevices,hs₁,finish_devices]

theorem declarations_refused (h : AcceptsAll (declarationLine outside) lines s s')
    (hopen : s.schedule.isSome = true) (hstart : startsWithBreak lines = false)
    (t : DeclarationReader) : ¬ AcceptsAll (declarationLine outside) lines .start t := by
  intro ht
  cases lines with
  | nil => simp [startsWithBreak] at hstart
  | cons line lines =>
    obtain ⟨s₁,h₁,-⟩ := acceptsAll_cons.mp h
    obtain ⟨t₁,ht₁,-⟩ := acceptsAll_cons.mp ht
    cases declarationLine_step h₁ with
    | blank hparse => simp [startsWithBreak,isBreak,hparse] at hstart
    | rule _ _ hclosed => simp [hclosed] at hopen
    | declaration _ _ _ hclosed => simp [hclosed] at hopen
    | entry ln k name schedule schedule' hparse _ _ hentry =>
      have hst : ln.statement = .invalid := by
        rw [lineParse_statement hparse]
        exact scheduleParseLine_statement hentry
      simp [Accepts,declarationLine,hparse,DeclarationReader.start,declarationStatement,hst] at ht₁

end Files

end DomoticaEngine
