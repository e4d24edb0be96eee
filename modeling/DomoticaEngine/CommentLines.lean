import DomoticaEngine.FileBoundaries
import DomoticaEngine.ScheduleBlocks

/-!
A comment between two lines of a rule file.
-/

set_option autoImplicit false

namespace DomoticaEngine
open Reads

section Declarations
variable {outside : Surroundings} {line : CString} {lines : List CString}
variable {s s' : DeclarationReader} {status : Int}

def entryCount (s : DeclarationReader) (k : Nat) : Nat :=
  match s.devices[k]? with
  | some ⟨_,.schedule schedule⟩ => schedule.entries.length
  | _ => 0

theorem entryCount_of {k : Nat} {name : CString} {schedule : Schedule}
    (h : s.devices[k]? = some ⟨name,.schedule schedule⟩) :
    entryCount s k = schedule.entries.length := by
  rw [entryCount,h]

structure Grows (s s' : DeclarationReader) : Prop where
  devices : s.devices.length ≤ s'.devices.length
  entries : ∀ k, entryCount s k ≤ entryCount s' k

theorem Grows.refl (s : DeclarationReader) : Grows s s := ⟨Nat.le_refl _,fun _ => Nat.le_refl _⟩

theorem Grows.trans {s₁ s₂ s₃ : DeclarationReader} (h : Grows s₁ s₂) (h' : Grows s₂ s₃) :
    Grows s₁ s₃ :=
  ⟨Nat.le_trans h.devices h'.devices,fun k => Nat.le_trans (h.entries k) (h'.entries k)⟩

theorem declareDevice_refused {ln : Line} (h : declareDevice outside ln s = .ok (status,s'))
    (hstatus : status ≠ 0) : status = -1 ∧ s' = s := by
  unfold declareDevice at h
  split at h
  · cases h
  · split at h
    · cases h
    · cases h
      exact ⟨rfl,rfl⟩
    · cases h
      exact absurd rfl hstatus

theorem declarationLine_refused (h : declarationLine outside line s = .ok (status,s'))
    (hstatus : status ≠ 0) : status = -1 ∧ s' = s := by
  unfold declarationLine at h
  split at h
  · cases h
  · split at h <;> cases h <;> exact absurd rfl hstatus
  · split at h
    · unfold declarationStatement at h
      split at h
      case h_8 | h_9 | h_10 =>
        cases h
        exact absurd rfl hstatus
      case h_11 | h_12 | h_13 =>
        cases h
        exact ⟨rfl,rfl⟩
      all_goals exact declareDevice_refused h hstatus
    · split at h
      · cases h
        exact ⟨rfl,rfl⟩
      · cases h
        exact absurd rfl hstatus

theorem finish_grows (s : DeclarationReader) (now : Tm) :
    (s.finish now).devices.length = s.devices.length ∧
      ∀ k, entryCount (s.finish now) k = entryCount s k := by
  unfold DeclarationReader.finish
  split
  · exact ⟨rfl,fun _ => rfl⟩
  · rename_i j _
    refine ⟨List.length_modify _ _ _,fun k => ?_⟩
    unfold entryCount
    rw [List.getElem?_modify]
    cases s.devices[k]? with
    | none => rfl
    | some device =>
      obtain ⟨name,data⟩ := device
      by_cases hjk : j = k
      · cases data <;> simp [hjk,Device.scheduleParsingFinished,scheduleParsingFinished,
          Schedule.setCondition]
      · simp [hjk]

theorem entry_grows {k : Nat} {name : CString} {schedule schedule' : Schedule} {text : CString}
    (hdevice : s.devices[k]? = some ⟨name,.schedule schedule⟩)
    (hentry : scheduleParseLine schedule text = some schedule') :
    Grows s { s with devices := s.devices.set k ⟨name,.schedule schedule'⟩ } ∧
      entryCount s k <
        entryCount { s with devices := s.devices.set k ⟨name,.schedule schedule'⟩ } k := by
  have hlonger : schedule'.entries.length = schedule.entries.length+1 := by
    unfold scheduleParseLine at hentry
    obtain ⟨_,-,rfl⟩ := Option.map_eq_some_iff.mp hentry
    simp [scheduleAddEntry]
  have hk := (List.getElem?_eq_some_iff.mp hdevice).1
  have hcount : entryCount s k <
      entryCount { s with devices := s.devices.set k ⟨name,.schedule schedule'⟩ } k := by
    rw [entryCount_of hdevice,@entryCount_of _ _ name schedule' (by simp [hk])]
    omega
  refine ⟨⟨by simp,fun j => ?_⟩,hcount⟩
  by_cases hkj : k = j
  · exact hkj ▸ Nat.le_of_lt hcount
  · simp [entryCount,List.getElem?_set_ne hkj]

theorem declared_grows {device : Device} (h : s'.devices = s.devices ++ [device]) :
    Grows s s' := by
  refine ⟨by simp [h],fun k => ?_⟩
  unfold entryCount
  rw [h]
  cases hk : s.devices[k]? with
  | none => simp
  | some old =>
    have hlt := (List.getElem?_eq_some_iff.mp hk).1
    rw [List.getElem?_append_left hlt,hk]

theorem declarationLine_grows (h : declarationLine outside line s = .ok (status,s')) :
    Grows s s' := by
  by_cases hstatus : status = 0
  · subst hstatus
    cases declarationLine_step h with
    | blank _ hs' =>
      obtain ⟨hlength,hentries⟩ := finish_grows s outside.now
      exact hs' ▸ ⟨Nat.le_of_eq hlength.symm,fun k => Nat.le_of_eq (hentries k).symm⟩
    | entry _ _ _ _ _ _ _ hdevice hentry hs' => exact hs' ▸ (entry_grows hdevice hentry).1
    | rule _ _ _ _ hs' => exact hs' ▸ .refl s
    | declaration _ _ _ _ hdevices => exact declared_grows hdevices
  · obtain ⟨-,rfl⟩ := declarationLine_refused h hstatus
    exact .refl _

theorem declarations_grow (h : readAll (declarationLine outside) lines s = .ok (status,s')) :
    Grows s s' :=
  readAll_keeps Grows.refl Grows.trans (fun _ _ _ _ => declarationLine_grows) h

def refusedOutside (outside : Surroundings) : List CString → Bool
  | [] => false
  | line :: lines =>
    match declarationLine outside line .start with
    | .error _ => false
    | .ok (status,t) => status ≠ 0 || t = .start && refusedOutside outside lines

theorem start_of_sound {t : DeclarationReader} (ht : t.Sound outside.now) (h : t.devices = []) :
    t = .start := by
  obtain ⟨devices,schedule⟩ := t
  simp only at h
  subst h
  cases schedule with
  | none => rfl
  | some k =>
    obtain ⟨device,-,hdevice,-⟩ := ht.points k rfl
    simp at hdevice

theorem refusedOutside_iff : refusedOutside outside lines = true ↔
    ∃ t, readAll (declarationLine outside) lines .start = .ok (-1,t) ∧ t.devices = [] := by
  induction lines with
  | nil => simp [refusedOutside,readAll]
  | cons line lines ih =>
    rw [refusedOutside,readAll]
    cases hline : declarationLine outside line .start with
    | error e => simp
    | ok r =>
      obtain ⟨status,t⟩ := r
      by_cases hstatus : status = 0
      · subst hstatus
        simp only [ne_eq,not_true_eq_false,decide_false,Bool.false_or,if_true,Bool.and_eq_true,
          decide_eq_true_eq]
        constructor
        · rintro ⟨rfl,hrest⟩
          exact ih.mp hrest
        · rintro ⟨t',ht',hnone⟩
          have hgrows := (declarations_grow ht').devices
          rw [hnone] at hgrows
          have hstart : t = .start := start_of_sound (declarationLine_sound (start_sound _) hline)
            (List.eq_nil_of_length_eq_zero (Nat.le_zero.mp hgrows))
          subst hstart
          exact ⟨rfl,ih.mpr ⟨t',ht',hnone⟩⟩
      · obtain ⟨rfl,rfl⟩ := declarationLine_refused hline hstatus
        simp [DeclarationReader.start]

/-- A comment in front of these lines goes unnoticed in the first pass: no block is open, the
next line ends the block anyway or is not read, or the next line is refused in the block and the
lines are refused as well behind it, with nothing changed. -/
def PassesComment (outside : Surroundings) (lines : List CString) (s : DeclarationReader) : Prop :=
  s.schedule = none ∨ lines.head?.any isStatementLine = false ∨
    ((∀ line ∈ lines.head?, ∀ s', ¬ Accepts (declarationLine outside) line s s') ∧
      (s.finish outside.now).devices = s.devices ∧ refusedOutside outside lines = true)

theorem declarationLine_blank (hparse : lineParse line = .ok none) (s : DeclarationReader) :
    declarationLine outside line s = .ok (0,s.finish outside.now) := by
  unfold declarationLine DeclarationReader.finish
  rw [hparse]
  cases s.schedule <;> rfl

theorem finish_finish (s : DeclarationReader) (now : Tm) :
    (s.finish now).finish now = s.finish now := by
  rw [DeclarationReader.finish,finish_closed]

theorem readAll_noStatement (h : isStatementLine line = false) :
    readAll (declarationLine outside) (line :: lines) (s.finish outside.now) =
      readAll (declarationLine outside) (line :: lines) s := by
  unfold isStatementLine at h
  rw [readAll,readAll]
  cases hparse : lineParse line with
  | error e => simp [declarationLine,hparse]
  | ok found =>
    cases found with
    | none => simp only [declarationLine_blank hparse,finish_finish]
    | some ln => simp [hparse] at h

theorem readAll_finish (s : DeclarationReader) :
    readAll (declarationLine outside) lines (s.finish outside.now) =
      (readAll (declarationLine outside) lines .start).map
        (fun r => (r.1,r.2.shift (s.finish outside.now).devices)) := by
  have hshift : s.finish outside.now =
      DeclarationReader.start.shift (s.finish outside.now).devices := by
    have hclosed := finish_closed s outside.now
    rw [shift_start]
    generalize s.finish outside.now = t at hclosed ⊢
    obtain ⟨devices,schedule⟩ := t
    simp only at hclosed
    rw [hclosed]
  rw [← readAll_map (DeclarationReader.shift (s.finish outside.now).devices)
    (declarationLine_shift outside _),← hshift]

theorem comment_entry {ln : Line} {k : Nat} {name : CString} {schedule schedule' : Schedule}
    (hparse : lineParse line = .ok (some ln)) (hopen : s.schedule = some k)
    (hdevice : s.devices[k]? = some ⟨name,.schedule schedule⟩)
    (hentry : scheduleParseLine schedule ln.raw = some schedule') :
    seen DeclarationReader.devices
        (readAll (declarationLine outside) (line :: lines) (s.finish outside.now)) ≠
      seen DeclarationReader.devices (readAll (declarationLine outside) (line :: lines) s) := by
  have hst : ln.statement = .invalid := by
    rw [lineParse_statement hparse]
    exact scheduleParseLine_statement hentry
  have hbehind : declarationLine outside line (s.finish outside.now) =
      .ok (-1,s.finish outside.now) := by
    simp [declarationLine,hparse,finish_closed,declarationStatement,hst]
  have hinside : declarationLine outside line s =
      .ok (0,{ s with devices := s.devices.set k ⟨name,.schedule schedule'⟩ }) := by
    simp [declarationLine,hparse,hopen,hdevice,Device.parseScheduleLine,hentry]
  have hone : (-1 : Int) ≠ 0 := by decide
  intro hsame
  simp only [readAll,hbehind,hinside,if_true,if_neg hone] at hsame
  cases hrest : readAll (declarationLine outside) lines
      { s with devices := s.devices.set k ⟨name,.schedule schedule'⟩ } with
  | error e => simp [hrest,seen,Except.map] at hsame
  | ok r =>
    obtain ⟨status,s'⟩ := r
    simp only [hrest,seen,Except.map,Except.ok.injEq,Prod.mk.injEq] at hsame
    have hgrows := (declarations_grow hrest).entries k
    have hmore := (entry_grows hdevice hentry).2
    have hfinish := (finish_grows s outside.now).2 k
    have hcount : entryCount (s.finish outside.now) k = entryCount s' k := by
      unfold entryCount
      rw [hsame.2]
    omega

theorem comment_refused (hrefused : declarationLine outside line s = .ok (-1,s)) :
    seen DeclarationReader.devices
        (readAll (declarationLine outside) (line :: lines) (s.finish outside.now)) =
      seen DeclarationReader.devices (readAll (declarationLine outside) (line :: lines) s) ↔
    (s.finish outside.now).devices = s.devices ∧ refusedOutside outside (line :: lines) = true := by
  have hinside : readAll (declarationLine outside) (line :: lines) s = .ok (-1,s) := by
    rw [readAll,hrefused]
    rfl
  have hlength := (finish_grows s outside.now).1
  rw [hinside,readAll_finish,refusedOutside_iff]
  cases readAll (declarationLine outside) (line :: lines) .start with
  | error e => simp [seen,Except.map]
  | ok r =>
    obtain ⟨status,t⟩ := r
    simp only [seen,Except.map,DeclarationReader.shift,Except.ok.injEq,Prod.mk.injEq]
    constructor
    · rintro ⟨rfl,hdevices⟩
      have hnone : t.devices = [] := by
        have hlengths := congrArg List.length hdevices
        rw [List.length_append] at hlengths
        exact List.eq_nil_of_length_eq_zero (by omega)
      rw [hnone,List.append_nil] at hdevices
      exact ⟨hdevices,t,⟨rfl,rfl⟩,hnone⟩
    · rintro ⟨hdevices,t',⟨rfl,rfl⟩,hnone⟩
      rw [hnone,List.append_nil]
      exact ⟨rfl,hdevices⟩

theorem comment_declarations (line : CString) (lines : List CString)
    (hs : s.Sound outside.now) :
    seen DeclarationReader.devices
        (readAll (declarationLine outside) (line :: lines) (s.finish outside.now)) =
      seen DeclarationReader.devices (readAll (declarationLine outside) (line :: lines) s) ↔
    PassesComment outside (line :: lines) s := by
  cases hopen : s.schedule with
  | none =>
    have hsame : s.finish outside.now = s := by rw [DeclarationReader.finish,hopen]
    rw [hsame]
    exact iff_of_true rfl (.inl hopen)
  | some k =>
    cases hstatement : isStatementLine line with
    | false =>
      rw [readAll_noStatement hstatement]
      exact iff_of_true rfl (.inr (.inl (by simpa using hstatement)))
    | true =>
      obtain ⟨ln,hparse⟩ : ∃ ln, lineParse line = .ok (some ln) := by
        unfold isStatementLine at hstatement
        split at hstatement
        · exact ⟨_,by assumption⟩
        · cases hstatement
      obtain ⟨⟨name,data⟩,schedule,hdevice,rfl⟩ := hs.points k hopen
      cases hentry : scheduleParseLine schedule ln.raw with
      | some schedule' =>
        refine iff_of_false (comment_entry hparse hopen hdevice hentry) ?_
        rintro (hnone | hno | ⟨hrefused,-,-⟩)
        · simp [hopen] at hnone
        · simp [hstatement] at hno
        · refine hrefused line rfl
            { s with devices := s.devices.set k ⟨name,.schedule schedule'⟩ } ?_
          simp [Accepts,declarationLine,hparse,hopen,hdevice,Device.parseScheduleLine,hentry]
      | none =>
        have hrefused : declarationLine outside line s = .ok (-1,s) := by
          simp [declarationLine,hparse,hopen,hdevice,Device.parseScheduleLine,hentry]
        rw [comment_refused hrefused]
        constructor
        · intro h
          refine .inr (.inr ⟨?_,h⟩)
          intro line' hline' s' haccepts
          cases hline'
          rw [Accepts,hrefused] at haccepts
          cases haccepts
        · rintro (hnone | hno | ⟨-,h⟩)
          · simp [hopen] at hnone
          · simp [hstatement] at hno
          · exact h

end Declarations

/-- A line of these, before the pass stops, adds to the rule that was open in front of them. -/
def joinsRule (devices : List Device) : List CString → Context → Bool
  | [], _ => false
  | line :: lines, c => c.rule && !stops devices c line && !adds devices .if_ c line &&
      (adds devices .and_ c line || adds devices .do_ c line ||
        joinsRule devices lines (lineContext line c))

/-- Two runs of the second pass over the same lines: from rules `P`, the last of which may be
open, and from no rules. -/
def FollowsRules (P : List Rule) (joined : Bool) :
    Except Fault (Int × RuleReader) → Except Fault (Int × RuleReader) → Prop
  | .error e, .error e' => e = e'
  | .ok (status,s), .ok (status',t) => status = status' ∧
      if joined then parts P + parts t.rules < parts s.rules else s.rules = P ++ t.rules
  | _, _ => False

section Rules
variable {devices : List Device} {line : CString} {lines : List CString} {s t : RuleReader}

theorem ruleLine_refused (hrefused : ∀ s', ¬ Accepts (ruleLine devices) line s s')
    (hsame : t.schedule = s.schedule) :
    (∃ e, ruleLine devices line s = .error e ∧ ruleLine devices line t = .error e) ∨
      ∃ s' t', ruleLine devices line s = .ok (-1,s') ∧ ruleLine devices line t = .ok (-1,t') ∧
        s'.rules = s.rules ∧ t'.rules = t.rules := by
  unfold Accepts ruleLine at hrefused
  unfold ruleLine
  rw [hsame]
  cases hparse : lineParse line with
  | error e => exact .inl ⟨e,rfl,rfl⟩
  | ok found =>
    cases found with
    | none => simp [hparse] at hrefused
    | some ln =>
      cases hopen : s.schedule with
      | true => simp [hparse,hopen] at hrefused
      | false =>
        simp only [hparse,hopen,Bool.false_eq_true,if_false] at hrefused ⊢
        unfold ruleStatement at hrefused ⊢
        cases hst : ln.statement with
        | if_ =>
          cases hlookup : lineLookup eventTypeFromChar devices ln with
          | none => exact .inr ⟨_,_,rfl,rfl,rfl,rfl⟩
          | some found => simp [hst,hlookup] at hrefused
        | and_ =>
          cases hlookup : lineLookup conditionTypeFromChar devices ln with
          | none => exact .inr ⟨_,_,rfl,rfl,rfl,rfl⟩
          | some found => simp [hst,hlookup] at hrefused
        | do_ =>
          cases hlookup : lineLookup actionTypeFromChar devices ln with
          | none => exact .inr ⟨_,_,rfl,rfl,rfl,rfl⟩
          | some found =>
            obtain ⟨device,type⟩ := found
            simp only [hst,hlookup] at hrefused ⊢
            cases haction : actionCreate devices device type ln.options with
            | error e => exact .inl ⟨e,rfl,rfl⟩
            | ok action =>
              simp only [haction,ok_bind] at hrefused
              exact absurd rfl (hrefused _)
        | state | logs | invalid => exact .inr ⟨_,_,rfl,rfl,rfl,rfl⟩
        | _ => simp [hst] at hrefused

theorem followsRules_shift (P : List Rule) (t : RuleReader) :
    FollowsRules P false (readAll (ruleLine devices) lines (t.shift P))
      (readAll (ruleLine devices) lines t) := by
  rw [readAll_map (RuleReader.shift P) (ruleLine_shift devices P)]
  cases readAll (ruleLine devices) lines t with
  | error e => exact rfl
  | ok r => exact ⟨rfl,rfl⟩

theorem FollowsRules.added {P P' : List Rule} {joined : Bool}
    {result result' : Except Fault (Int × RuleReader)} (h : FollowsRules P' joined result result')
    (hparts : parts P < parts P') : FollowsRules P true result result' := by
  cases result with
  | error e =>
    cases result' with
    | error e' => exact h
    | ok r' => exact h.elim
  | ok r =>
    cases result' with
    | error e' => exact h.elim
    | ok r' =>
      obtain ⟨hstatus,hrules⟩ := h
      refine ⟨hstatus,?_⟩
      rw [if_pos rfl]
      split at hrules
      · omega
      · rw [hrules,parts_append]
        omega

theorem FollowsRules.seen_iff {P : List Rule} {joined : Bool}
    {result result' : Except Fault (Int × RuleReader)} (h : FollowsRules P joined result result') :
    seen RuleReader.rules (result'.map (fun r => (r.1,r.2.shift P))) =
      seen RuleReader.rules result ↔ ((∃ r, result = .ok r) → joined = false) := by
  cases result with
  | error e =>
    cases result' with
    | error e' =>
      have hsame : e = e' := h
      refine iff_of_true (by rw [hsame]; rfl) (fun haccepted => ?_)
      obtain ⟨r,hr⟩ := haccepted
      cases hr
    | ok r' => exact h.elim
  | ok r =>
    cases result' with
    | error e' => exact h.elim
    | ok r' =>
      obtain ⟨hstatus,hrules⟩ := h
      simp only [seen,Except.map,RuleReader.shift,hstatus,Except.ok.injEq,Prod.mk.injEq,true_and,
        exists_eq',forall_const]
      cases joined with
      | true =>
        rw [if_pos rfl] at hrules
        refine iff_of_false (fun hsame => ?_) (by simp)
        rw [← hsame,parts_append] at hrules
        exact Nat.lt_irrefl _ hrules
      | false =>
        rw [if_neg (by simp)] at hrules
        exact iff_of_true hrules.symm rfl

/-- Induction on the lines: they end in the same way with and without an open rule, and yield
the same but for what joins the rule. -/
theorem rules_follow (devices : List Device) (lines : List CString) (hs : s.Current) :
    FollowsRules s.rules (joinsRule devices lines s.context) (readAll (ruleLine devices) lines s)
      (readAll (ruleLine devices) lines s.forget) := by
  induction lines generalizing s with
  | nil => exact ⟨rfl,by simp [joinsRule,RuleReader.forget]⟩
  | cons line lines ih =>
    cases hrule : s.rule with
    | none =>
      have hjoins : joinsRule devices (line :: lines) s.context = false := by
        simp [joinsRule,RuleReader.context,hrule]
      have hclosed : FollowsRules s.rules false
          (readAll (ruleLine devices) (line :: lines) (s.forget.shift s.rules)) _ :=
        followsRules_shift s.rules s.forget
      rw [hjoins]
      rwa [forget_shift hrule] at hclosed
    | some i =>
      have hopen : s.context.rule = true := by simp [RuleReader.context,hrule]
      cases ruleLine_outcome devices line hs with
      | refuses hstops hrefused =>
        have hjoins : joinsRule devices (line :: lines) s.context = false := by
          simp [joinsRule,hstops]
        rw [hjoins,readAll,readAll]
        rcases ruleLine_refused hrefused (t := s.forget) rfl with ⟨e,he,he'⟩ |
          ⟨s',t',hs',ht',hrules,hrules'⟩
        · rw [he,he']
          exact rfl
        · rw [hs',ht']
          refine ⟨rfl,?_⟩
          rw [hrules,hrules']
          simp [RuleReader.forget]
      | leaves s₁ haccepts hstops hrules hadds hcontext hrule₁ =>
        obtain ⟨t₁,ht₁,hforget⟩ := ruleLine_forget haccepts
        rw [hadds .if_,if_neg (by simp)] at hforget
        subst hforget
        have hs₁ : s₁.Current := (acceptsAll_context hs
          (acceptsAll_cons.mpr ⟨s₁,haccepts,acceptsAll_nil.mpr rfl⟩)).1
        have hrest := ih hs₁
        rw [hrules,hcontext] at hrest
        rw [readAll_accepts haccepts,readAll_accepts ht₁]
        simpa [joinsRule,hopen,hstops,hadds] using hrest
      | adds k s₁ haccepts hstops hadded hadds hcontext hcurrent =>
        obtain ⟨t₁,ht₁,hforget⟩ := ruleLine_forget haccepts
        rw [readAll_accepts haccepts,readAll_accepts ht₁]
        cases hif : adds devices .if_ s.context line with
        | true =>
          rw [hif,if_pos rfl] at hforget
          subst hforget
          have hjoins : joinsRule devices (line :: lines) s.context = false := by
            simp [joinsRule,hif]
          rw [hjoins]
          exact followsRules_shift s.rules t₁
        | false =>
          rw [hif,if_neg (by simp)] at hforget
          subst hforget
          have hk : k ≠ .if_ := by
            rintro rfl
            simp [hif] at hadds
          have hjoins : joinsRule devices (line :: lines) s.context = true := by
            rcases hadded.counts with ⟨rfl,-⟩ | ⟨rfl,-⟩ | ⟨rfl,-⟩
            · exact absurd rfl hk
            · simp [joinsRule,hopen,hstops,hif,hadds]
            · simp [joinsRule,hopen,hstops,hif,hadds]
          have hone := hadded.parts hk
          rw [hjoins]
          exact (ih hcurrent).added (by omega)

/-- The second pass behind a comment, which closes the rule, in a file that the first pass
accepts: there an open block ends in the next line. -/
theorem comment_rules (devices : List Device) (hs : s.Current)
    (hskip : s.schedule = false ∨ ∀ line ∈ lines.head?, lineParse line = .ok none)
    (hlines : lines ≠ []) :
    seen RuleReader.rules
        (readAll (ruleLine devices) lines { s with rule := none, schedule := false }) =
      seen RuleReader.rules (readAll (ruleLine devices) lines s) ↔
    ((∃ result, readAll (ruleLine devices) lines s = .ok result) →
      joinsRule devices lines s.context = false) := by
  rcases hskip with hclosed | hbreak
  · have hshift : { s with rule := none, schedule := false } = s.forget.shift s.rules := by
      simp [RuleReader.forget,RuleReader.shift,hclosed]
    rw [hshift,readAll_map (RuleReader.shift s.rules) (ruleLine_shift devices s.rules)]
    exact (rules_follow devices lines hs).seen_iff
  · obtain ⟨line,lines,rfl⟩ := List.exists_cons_of_ne_nil hlines
    have hparse := hbreak line rfl
    refine iff_of_true ?_ (fun _ => ?_)
    · simp [readAll,ruleLine,hparse]
    · have hnone : ∀ lines, joinsRule devices lines ⟨false,false⟩ = false := by
        intro lines
        cases lines <;> simp [joinsRule]
      simp [joinsRule,adds,hparse,lineContext,hnone]

end Rules

/-- The two passes do with the second file what they do with the first: the results and the devices
and rules there are behind it. The second pass starts when the first one has accepted the file.
Files read afterwards are not compared. -/
structure ReadsSame (outside : Surroundings) (devices : List Device) (file file' : List Char)
    (d : DeclarationReader) (r : RuleReader) : Prop where
  declarations : seen DeclarationReader.devices (rulesReadFileDeclarations outside file' d) =
    seen DeclarationReader.devices (rulesReadFileDeclarations outside file d)
  rules : (∃ d', rulesReadFileDeclarations outside file d = .ok (0,d')) →
    seen RuleReader.rules (rulesReadFileRules devices file' r) =
      seen RuleReader.rules (rulesReadFileRules devices file r)

section Files
variable {front rest text : List Char}

theorem fileLines_stop (front rest : List Char) :
    fileLines (front ++ '\n' :: rest) = fileLines (front ++ ['\n']) ++ fileLines rest := by
  unfold fileLines
  rw [Pieces.pieces_stop isNewline (by decide),List.map_append]

theorem fileLines_comment (front rest : List Char) (htext : ∀ c ∈ text, isNewline c = false)
    (hlength : ('#' :: text).length ≤ 254) :
    ∃ note, fileLines (front ++ '\n' :: ('#' :: text ++ '\n' :: rest)) =
      fileLines (front ++ ['\n']) ++ ('#' :: note) :: fileLines rest := by
  have hline : ∀ c ∈ '#' :: text, isNewline c = false := by
    intro c hc
    rcases List.mem_cons.mp hc with rfl | hc
    · decide
    · exact htext c hc
  have hpieces := Pieces.pieces_line isNewline (n := lineBuffer-1) (s := '\n') (by decide)
    ('#' :: text) rest hline (by unfold lineBuffer; omega)
  refine ⟨cString (text ++ ['\n']),?_⟩
  rw [fileLines_stop]
  congr 1
  unfold fileLines
  rw [hpieces]
  rfl

theorem fileLines_cons (h : rest ≠ []) : ∃ line lines, fileLines rest = line :: lines := by
  obtain ⟨c,rest,rfl⟩ := List.exists_cons_of_ne_nil h
  refine List.exists_cons_of_ne_nil (fun hnil => ?_)
  exact Pieces.cut_ne_nil isNewline (List.map_eq_nil_iff.mp hnil)

/-- In a file that the first pass accepts, a block that the second pass skips at some place is
open for the first pass as well; when a comment changes nothing there, the block ends anyway. -/
theorem passesComment_skip {outside : Surroundings} {devices : List Device}
    {lines lines' : List CString} {d d' s₁ : DeclarationReader} {r s : RuleReader}
    (hr : r.Current) (hschedule : r.context.schedule = d.schedule.isSome)
    (hfirst : AcceptsAll (declarationLine outside) lines d s₁)
    (hrest : AcceptsAll (declarationLine outside) lines' s₁ d')
    (hsecond : AcceptsAll (ruleLine devices) lines r s)
    (hpasses : PassesComment outside lines' s₁) :
    s.schedule = false ∨ ∀ line ∈ lines'.head?, lineParse line = .ok none := by
  have hsame : s.schedule = s₁.schedule.isSome := by
    have hcontext := (acceptsAll_context hr hsecond).2
    have hschedule₁ := declarations_context hschedule hfirst
    rw [← hcontext] at hschedule₁
    exact hschedule₁
  rcases hpasses with hclosed | hno | ⟨hrefused,-,-⟩
  · exact .inl (by simp [hsame,hclosed])
  · refine .inr (fun line hline => ?_)
    cases lines' with
    | nil => cases hline
    | cons line' lines' =>
      cases hline
      obtain ⟨s₂,h₂,-⟩ := acceptsAll_cons.mp hrest
      cases hparse : lineParse line with
      | error e => simp [Accepts,declarationLine,hparse] at h₂
      | ok found =>
        cases found with
        | none => rfl
        | some ln => simp [isStatementLine,hparse] at hno
  · refine .inr (fun line hline => ?_)
    cases lines' with
    | nil => cases hline
    | cons line' lines' =>
      obtain ⟨s₂,h₂,-⟩ := acceptsAll_cons.mp hrest
      exact absurd h₂ (hrefused line' rfl s₂)

theorem comment_firstPass {outside : Surroundings} {d : DeclarationReader} {note : CString}
    (hd : d.Sound outside.now) (hrest : rest ≠ [])
    (hnote : fileLines (front ++ '\n' :: ('#' :: text ++ '\n' :: rest)) =
      fileLines (front ++ ['\n']) ++ ('#' :: note) :: fileLines rest) :
    seen DeclarationReader.devices (rulesReadFileDeclarations outside
        (front ++ '\n' :: ('#' :: text ++ '\n' :: rest)) d) =
      seen DeclarationReader.devices (rulesReadFileDeclarations outside (front ++ '\n' :: rest) d) ↔
    ∀ s, AcceptsAll (declarationLine outside) (fileLines (front ++ ['\n'])) d s →
      PassesComment outside (fileLines rest) s := by
  obtain ⟨line,lines,hlines⟩ := fileLines_cons hrest
  rw [rulesReadFileDeclarations,rulesReadFileDeclarations,hnote,fileLines_stop front rest,
    seen_insert_iff]
  refine forall_congr' (fun s => imp_congr_right (fun hs => ?_))
  have hsame := comment_declarations line lines (declarations_sound hd hs)
  rw [hlines,← hsame,readAll_accepts (declarationLine_blank (lineParse_comment note) s)]

theorem comment_secondPass {outside : Surroundings} {devices : List Device}
    {d d' : DeclarationReader} {r : RuleReader} {note : CString} (hr : r.Current)
    (hschedule : r.context.schedule = d.schedule.isSome) (hrest : rest ≠ [])
    (hnote : fileLines (front ++ '\n' :: ('#' :: text ++ '\n' :: rest)) =
      fileLines (front ++ ['\n']) ++ ('#' :: note) :: fileLines rest)
    (haccepted : rulesReadFileDeclarations outside (front ++ '\n' :: rest) d = .ok (0,d'))
    (hpasses : ∀ s, AcceptsAll (declarationLine outside) (fileLines (front ++ ['\n'])) d s →
      PassesComment outside (fileLines rest) s) :
    seen RuleReader.rules (rulesReadFileRules devices
        (front ++ '\n' :: ('#' :: text ++ '\n' :: rest)) r) =
      seen RuleReader.rules (rulesReadFileRules devices (front ++ '\n' :: rest) r) ↔
    ((∃ result, rulesReadFileRules devices (front ++ '\n' :: rest) r = .ok result) →
      ∀ s, AcceptsAll (ruleLine devices) (fileLines (front ++ ['\n'])) r s →
        joinsRule devices (fileLines rest) s.context = false) := by
  have hwhole : AcceptsAll (declarationLine outside)
      (fileLines (front ++ ['\n']) ++ fileLines rest) d d' := by
    rw [← fileLines_stop]
    exact haccepted
  obtain ⟨s₁,hbefore,hbehind⟩ := acceptsAll_append.mp hwhole
  obtain ⟨line,lines,hlines⟩ := fileLines_cons hrest
  rw [rulesReadFileRules,rulesReadFileRules,hnote,fileLines_stop front rest,seen_insert_iff,
    forall_comm]
  refine forall_congr' (fun s => ?_)
  rw [forall_comm]
  refine imp_congr_right (fun hs => ?_)
  have hskip := passesComment_skip hr hschedule hbefore hbehind hs (hpasses s₁ hbefore)
  have hsame := comment_rules devices (acceptsAll_context hr hs).1 hskip (by simp [hlines])
  have hresult : (∃ result, readAll (ruleLine devices)
      (fileLines (front ++ ['\n']) ++ fileLines rest) r = .ok result) ↔
      ∃ result, readAll (ruleLine devices) (fileLines rest) s = .ok result := by
    rw [readAll_append,show readAll _ _ r = _ from hs]
    rfl
  have hclose : Accepts (ruleLine devices) ('#' :: note) s
      { s with rule := none, schedule := false } := by
    simp [Accepts,ruleLine,lineParse_comment]
  rw [hresult,← hsame,readAll_accepts hclose]

/-- Where a file reads the same with a comment. -/
theorem comment_transparent_iff (outside : Surroundings) (devices : List Device)
    (before : List (List Char)) (front rest text : List Char) (d : DeclarationReader)
    (r : RuleReader) (hd : AcceptsAll (rulesReadFileDeclarations outside) before .start d)
    (hr : AcceptsAll (rulesReadFileRules devices) before .start r) (hrest : rest ≠ [])
    (htext : ∀ c ∈ text, isNewline c = false) (hlength : ('#' :: text).length ≤ 254) :
    ReadsSame outside devices (front ++ '\n' :: rest)
        (front ++ '\n' :: ('#' :: text ++ '\n' :: rest)) d r ↔
      (∀ s, AcceptsAll (declarationLine outside) (fileLines (front ++ ['\n'])) d s →
        PassesComment outside (fileLines rest) s) ∧
      ((∃ d', rulesReadFileDeclarations outside (front ++ '\n' :: rest) d = .ok (0,d')) →
        (∃ result, rulesReadFileRules devices (front ++ '\n' :: rest) r = .ok result) →
        ∀ s, AcceptsAll (ruleLine devices) (fileLines (front ++ ['\n'])) r s →
          joinsRule devices (fileLines rest) s.context = false) := by
  have hdlines : AcceptsAll (declarationLine outside) (before.flatMap fileLines) .start d :=
    acceptsAll_flatMap.mp hd
  have hrlines : AcceptsAll (ruleLine devices) (before.flatMap fileLines) .start r :=
    acceptsAll_flatMap.mp hr
  have hsound := declarations_sound (start_sound _) hdlines
  obtain ⟨hcurrent,hcontext⟩ := acceptsAll_context start_current hrlines
  have hschedule : r.context.schedule = d.schedule.isSome := by
    rw [hcontext]
    exact declarations_context rfl hdlines
  obtain ⟨note,hnote⟩ := fileLines_comment front rest htext hlength
  have hfirst := comment_firstPass hsound hrest hnote
  constructor
  · rintro ⟨hdeclarations,hrules⟩
    have hpasses := hfirst.mp hdeclarations
    refine ⟨hpasses,?_⟩
    rintro ⟨d',haccepted⟩
    exact (comment_secondPass hcurrent hschedule hrest hnote haccepted hpasses).mp
      (hrules ⟨d',haccepted⟩)
  · rintro ⟨hpasses,hjoins⟩
    refine ⟨hfirst.mpr hpasses,?_⟩
    rintro ⟨d',haccepted⟩
    exact (comment_secondPass hcurrent hschedule hrest hnote haccepted hpasses).mpr
      (hjoins ⟨d',haccepted⟩)

/-- Behind the entries of a block, with an empty line next, and between two rules. -/
theorem comment_transparent_lamp :
    ReadsSame quietHouse
        [⟨"lamp".toList,.bool ⟨0⟩⟩,⟨"bell".toList,.schedule ⟨.day,[],"bell".toList,.set⟩⟩]
        "IF lamp SET\nDO lamp UNSET\nSCHEDULE bell DAYLY\n7 30 SET\n\nIF bell SET\n".toList
        ("IF lamp SET\nDO lamp UNSET\nSCHEDULE bell DAYLY\n7 30 SET\n# at night\n\n" ++
          "IF bell SET\n").toList
        ⟨[⟨"lamp".toList,.bool ⟨0⟩⟩],none⟩ .start ∧
      ReadsSame quietHouse [⟨"lamp".toList,.bool ⟨0⟩⟩]
        "IF lamp SET\nDO lamp UNSET\nIF lamp UNSET\nAND lamp UNSET\nDO lamp SET\n".toList
        "IF lamp SET\nDO lamp UNSET\n# back\nIF lamp UNSET\nAND lamp UNSET\nDO lamp SET\n".toList
        ⟨[⟨"lamp".toList,.bool ⟨0⟩⟩],none⟩ .start := by
  have hplain : ((" at night".toList ++ " back".toList).all fun c => !isNewline c) = true := by
    decide
  have htext : ∀ c ∈ " at night".toList ++ " back".toList, isNewline c = false := by
    intro c hc
    simpa using List.all_eq_true.mp hplain c hc
  constructor
  · refine (comment_transparent_iff quietHouse _ ["BOOL lamp 0\n".toList]
      "IF lamp SET\nDO lamp UNSET\nSCHEDULE bell DAYLY\n7 30 SET".toList
      "\nIF bell SET\n".toList " at night".toList _ _ (by rfl) (by rfl) (by decide)
      (fun c hc => htext c (List.mem_append_left _ hc)) (by decide)).mpr ⟨?_,?_⟩
    · exact fun s _ => .inr (.inl (by decide))
    · intro _ _ s hs
      cases hs
      rfl
  · refine (comment_transparent_iff quietHouse _ ["BOOL lamp 0\n".toList]
      "IF lamp SET\nDO lamp UNSET".toList
      "IF lamp UNSET\nAND lamp UNSET\nDO lamp SET\n".toList " back".toList _ _ (by rfl) (by rfl)
      (by decide) (fun c hc => htext c (List.mem_append_right _ hc)) (by decide)).mpr ⟨?_,?_⟩
    · intro s hs
      cases hs
      exact .inl rfl
    · intro _ _ s hs
      cases hs
      rfl

/-- The comment takes the action from the rule, and the entry from the schedule. -/
theorem comment_closes :
    ¬ ReadsSame quietHouse [⟨"lamp".toList,.bool ⟨0⟩⟩]
        "BOOL lamp 0\nIF lamp SET\nDO lamp UNSET\n".toList
        "BOOL lamp 0\nIF lamp SET\n# off\nDO lamp UNSET\n".toList .start .start ∧
      ¬ ReadsSame quietHouse [] "SCHEDULE bell DAYLY\n7 30 SET\n".toList
        "SCHEDULE bell DAYLY\n# early\n7 30 SET\n".toList .start .start := by
  constructor
  · intro h
    have hrules : (Except.ok (0,[⟨⟨0,.set⟩,[],[]⟩]) : Except Fault (Int × List Rule)) =
        .ok (0,[⟨⟨0,.set⟩,[],[⟨.unset,0,[]⟩]⟩]) := h.rules ⟨_,rfl⟩
    cases hrules
  · intro h
    have hstatus := congrArg (fun result => result.map Prod.fst) h.declarations
    have hdiffer : (Except.ok (-1) : Except Fault Int) = .ok 0 := hstatus
    cases hdiffer

end Files

end DomoticaEngine
