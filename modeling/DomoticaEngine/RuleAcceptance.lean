import DomoticaEngine.RuleParser

/-!
What a rule file that is read without complaint has left behind: which of its lines made
it into the rule list.
-/

set_option autoImplicit false

namespace DomoticaEngine
open Reads

/-- What decides about a line apart from the line itself: whether a rule is open, and
whether a schedule block is. -/
structure Context where
  rule : Bool
  schedule : Bool
  deriving DecidableEq, Repr

def RuleReader.context (s : RuleReader) : Context :=
  { rule := s.rule.isSome, schedule := s.schedule }

def statementContext (statement : Statement) (c : Context) : Context :=
  match statement with
  | .if_ => { c with rule := true }
  | .schedule => { c with schedule := true }
  | _ => c

/-- Empty lines, comments and lines with too few words close what is open. -/
def lineContext (strline : CString) (c : Context) : Context :=
  match lineParse strline with
  | .error _ => c
  | .ok none => { rule := false, schedule := false }
  | .ok (some ln) => if c.schedule then c else statementContext ln.statement c

def contextAfter (lines : List CString) (c : Context) : Context :=
  lines.foldl (fun c line => lineContext line c) c

def lineSupported (devices : List Device) (ln : Line) : Bool :=
  match lineLookup actionTypeFromChar devices ln with
  | none => false
  | some (device,type) =>
    match devices[device]? with
    | none => false
    | some d => type ∈ deviceGetSupportedAction d

/-- The statement is refused: it is no statement of a rule file, it names an unknown
device or type, or its action has more options than the parser can copy. -/
def refused (devices : List Device) (ln : Line) : Bool :=
  match ln.statement with
  | .if_ => (lineLookup eventTypeFromChar devices ln).isNone
  | .and_ => (lineLookup conditionTypeFromChar devices ln).isNone
  | .do_ => (lineLookup actionTypeFromChar devices ln).isNone ||
      (lineSupported devices ln && ln.options.length = lineMaxOptions)
  | .state | .logs | .invalid => true
  | _ => false

def stops (devices : List Device) (c : Context) (strline : CString) : Bool :=
  match lineParse strline with
  | .error _ => true
  | .ok none => false
  | .ok (some ln) => !c.schedule && refused devices ln

/-- The line adds to the rules: `IF` a rule, `AND` a condition, `DO` an action. -/
def adds (devices : List Device) (k : Statement) (c : Context) (strline : CString) : Bool :=
  match lineParse strline with
  | .ok (some ln) => !c.schedule && ln.statement = k &&
    match k with
    | .if_ => (lineLookup eventTypeFromChar devices ln).isSome
    | .and_ => c.rule && (lineLookup conditionTypeFromChar devices ln).isSome
    | .do_ => c.rule && lineSupported devices ln
    | _ => false
  | _ => false

def anyLine (p : Context → CString → Bool) : List CString → Context → Bool
  | [], _ => false
  | line :: lines, c => p c line || anyLine p lines (lineContext line c)

def RuleReader.Current (s : RuleReader) : Prop := ∀ i, s.rule = some i → i+1 = s.rules.length

def conditionCount (rules : List Rule) : Nat := (rules.flatMap Rule.conditions).length

def actionCount (rules : List Rule) : Nat := (rules.flatMap Rule.actions).length

/-- What a line did to the rules: `IF` created a rule, `AND` and `DO` appended to the
last one, which the nearest `IF` before them has opened. -/
def AddedTo (k : Statement) (rules rules' : List Rule) : Prop :=
  match k with
  | .if_ => ∃ event, rules' = rules ++ [⟨event,[],[]⟩]
  | .and_ => ∃ before rule condition, rules = before ++ [rule] ∧
      rules' = before ++ [{ rule with conditions := rule.conditions ++ [condition] }]
  | .do_ => ∃ before rule action, rules = before ++ [rule] ∧
      rules' = before ++ [{ rule with actions := rule.actions ++ [action] }]
  | _ => False

section AddedTo
variable {k k' : Statement} {rules rules' : List Rule}

theorem AddedTo.counts (h : AddedTo k rules rules') :
    (k = .if_ ∧ rules'.length = rules.length+1 ∧ conditionCount rules' = conditionCount rules ∧
      actionCount rules' = actionCount rules) ∨
    (k = .and_ ∧ rules'.length = rules.length ∧ conditionCount rules' = conditionCount rules+1 ∧
      actionCount rules' = actionCount rules) ∨
    (k = .do_ ∧ rules'.length = rules.length ∧ conditionCount rules' = conditionCount rules ∧
      actionCount rules' = actionCount rules+1) := by
  cases k with
  | if_ =>
    obtain ⟨event,rfl⟩ := h
    left
    simp [conditionCount,actionCount]
  | and_ =>
    obtain ⟨before,rule,condition,rfl,rfl⟩ := h
    right
    left
    simp [conditionCount,actionCount]
    omega
  | do_ =>
    obtain ⟨before,rule,action,rfl,rfl⟩ := h
    right
    right
    simp [conditionCount,actionCount]
    omega
  | _ => exact absurd h id

theorem AddedTo.ne (h : AddedTo k rules rules') : rules' ≠ rules := by
  rintro rfl
  have hcounts := h.counts
  omega

theorem AddedTo.unique (h : AddedTo k rules rules') (h' : AddedTo k' rules rules') : k = k' := by
  have hcounts := h.counts
  have hcounts' := h'.counts
  rcases hcounts with ⟨rfl,h⟩ | ⟨rfl,h⟩ | ⟨rfl,h⟩ <;>
    rcases hcounts' with ⟨rfl,h'⟩ | ⟨rfl,h'⟩ | ⟨rfl,h'⟩ <;> first | rfl | omega

end AddedTo

theorem modify_current {s : RuleReader} (hs : s.Current) {i : Nat} (hi : s.rule = some i)
    (f : Rule → Rule) :
    ∃ before rule, s.rules = before ++ [rule] ∧ s.rules.modify i f = before ++ [f rule] := by
  have hlength := hs i hi
  have hne : s.rules ≠ [] := by
    intro hnil
    simp [hnil] at hlength
  obtain ⟨before,rule,hrules⟩ : ∃ before rule, s.rules = before ++ [rule] :=
    ⟨_,_,(List.dropLast_append_getLast hne).symm⟩
  refine ⟨before,rule,hrules,?_⟩
  rw [hrules,List.length_append,List.length_singleton] at hlength
  have hbefore : i = before.length := by omega
  rw [hrules,hbefore,modify_last]

inductive Outcome (devices : List Device) (strline : CString) (s : RuleReader) : Prop where
  | refuses (hstops : stops devices s.context strline = true)
      (hrefused : ∀ s', ¬ Accepts (ruleLine devices) strline s s')
  | leaves (s' : RuleReader) (haccepts : Accepts (ruleLine devices) strline s s')
      (hstops : stops devices s.context strline = false) (hrules : s'.rules = s.rules)
      (hadds : ∀ k, adds devices k s.context strline = false)
      (hcontext : s'.context = lineContext strline s.context)
      (hrule : s'.rule = s.rule ∨ s'.rule = none)
  | adds (k : Statement) (s' : RuleReader) (haccepts : Accepts (ruleLine devices) strline s s')
      (hstops : stops devices s.context strline = false)
      (hadded : AddedTo k s.rules s'.rules)
      (hadds : adds devices k s.context strline = true)
      (hcontext : s'.context = lineContext strline s.context) (hcurrent : s'.Current)

theorem append_outcome {devices : List Device} {strline : CString} {s : RuleReader}
    (hs : s.Current) {k : Statement} {f : Rule → Rule}
    (hf : ∀ before rule, AddedTo k (before ++ [rule]) (before ++ [f rule]))
    (haccepts : Accepts (ruleLine devices) strline s (s.setRules (ruleUpdate s.rule f s.rules)))
    (hstops : stops devices s.context strline = false)
    (hcontext : s.context = lineContext strline s.context)
    (hadds : adds devices k s.context strline = s.rule.isSome)
    (hother : ∀ k', k' ≠ k → adds devices k' s.context strline = false) :
    Outcome devices strline s := by
  cases hrule : s.rule with
  | none =>
    have hsame : s.setRules (ruleUpdate s.rule f s.rules) = s := by
      rw [hrule]
      rfl
    rw [hsame] at haccepts
    refine .leaves s haccepts hstops rfl (fun k' => ?_) hcontext (.inl rfl)
    by_cases hk : k' = k
    · rw [hk,hadds,hrule]
      rfl
    · exact hother k' hk
  | some i =>
    obtain ⟨before,rule,hrules,hmodify⟩ := modify_current hs hrule f
    have hupdate : ruleUpdate s.rule f s.rules = before ++ [f rule] := by
      rw [hrule]
      exact hmodify
    rw [hupdate] at haccepts
    refine .adds k _ haccepts hstops ?_ (by rw [hadds,hrule]; rfl) hcontext ?_
    · rw [hrules]
      exact hf before rule
    · intro j hj
      have hlength := hs j hj
      rw [hrules] at hlength
      simpa [RuleReader.setRules] using hlength

section Statement
variable {devices : List Device} {strline : CString} {ln : Line} {s : RuleReader}

theorem statement_accepts (hparse : lineParse strline = .ok (some ln))
    (hopen : s.schedule = false) (s' : RuleReader) :
    Accepts (ruleLine devices) strline s s' ↔ ruleStatement devices ln s = .ok (0,s') := by
  simp [Accepts,ruleLine,hparse,hopen]

theorem statement_stops (hparse : lineParse strline = .ok (some ln))
    (hopen : s.schedule = false) : stops devices s.context strline = refused devices ln := by
  simp [stops,hparse,RuleReader.context,hopen]

theorem statement_context (hparse : lineParse strline = .ok (some ln))
    (hopen : s.schedule = false) :
    lineContext strline s.context = statementContext ln.statement s.context := by
  simp [lineContext,hparse,RuleReader.context,hopen]

theorem if_outcome (hparse : lineParse strline = .ok (some ln)) (hopen : s.schedule = false)
    (hst : ln.statement = .if_) : Outcome devices strline s := by
  have hline : ∀ s', Accepts (ruleLine devices) strline s s' ↔
      ruleStatement devices ln s = .ok (0,s') := statement_accepts hparse hopen
  have hstops : stops devices s.context strline = refused devices ln :=
    statement_stops hparse hopen
  cases hlookup : lineLookup eventTypeFromChar devices ln with
  | none =>
    refine .refuses (by simp [hstops,refused,hst,hlookup]) (fun s' => ?_)
    simp [hline,ruleStatement,hst,hlookup]
  | some found =>
    obtain ⟨device,type⟩ := found
    refine .adds .if_
      { s with rules := s.rules ++ [⟨⟨device,type⟩,[],[]⟩], rule := some s.rules.length }
      ?_ ?_ ⟨_,rfl⟩ ?_ ?_ ?_
    · simp [hline,ruleStatement,hst,hlookup]
    · simp [hstops,refused,hst,hlookup]
    · simp [adds,hparse,RuleReader.context,hopen,hst,hlookup]
    · rw [statement_context hparse hopen,hst]
      rfl
    · intro i hi
      simp only [Option.some.injEq] at hi
      simp [hi]

theorem and_outcome (hs : s.Current) (hparse : lineParse strline = .ok (some ln))
    (hopen : s.schedule = false) (hst : ln.statement = .and_) : Outcome devices strline s := by
  have hline : ∀ s', Accepts (ruleLine devices) strline s s' ↔
      ruleStatement devices ln s = .ok (0,s') := statement_accepts hparse hopen
  have hstops : stops devices s.context strline = refused devices ln :=
    statement_stops hparse hopen
  cases hlookup : lineLookup conditionTypeFromChar devices ln with
  | none =>
    refine .refuses (by simp [hstops,refused,hst,hlookup]) (fun s' => ?_)
    simp [hline,ruleStatement,hst,hlookup]
  | some found =>
    obtain ⟨device,type⟩ := found
    have haccepts : Accepts (ruleLine devices) strline s
        (s.setRules (ruleAddCondition s.rule ⟨type,device⟩ s.rules)) := by
      simp [hline,ruleStatement,hst,hlookup]
    refine append_outcome hs (k := .and_) (fun before rule => ⟨before,rule,_,rfl,rfl⟩) haccepts
      ?_ ?_ ?_ (fun k' hk' => ?_)
    · simp [hstops,refused,hst,hlookup]
    · rw [statement_context hparse hopen,hst]
      rfl
    · simp [adds,hparse,RuleReader.context,hopen,hst,hlookup]
    · simp [adds,hparse,hst,Ne.symm hk']

/-- An action outside the mask of the device is a null pointer, which `rule_add_action` passes
over: the line is read and adds nothing. -/
theorem unsupported_outcome (hparse : lineParse strline = .ok (some ln))
    (hopen : s.schedule = false) (hst : ln.statement = .do_) {device : DeviceId}
    {type : ActionType} (hlookup : lineLookup actionTypeFromChar devices ln = some (device,type))
    {d : Device} (hd : devices[device]? = some d) (hsupported : type ∉ deviceGetSupportedAction d) :
    Outcome devices strline s := by
  have haccepts : Accepts (ruleLine devices) strline s s := by
    simp [statement_accepts hparse hopen,ruleStatement,hst,hlookup,actionCreate,hd,hsupported,
      ruleAddAction,RuleReader.setRules]
  refine .leaves s haccepts ?_ rfl (fun k => ?_) ?_ (.inl rfl)
  · simp [statement_stops hparse hopen,refused,hst,hlookup,lineSupported,hd,hsupported]
  · cases k <;> simp [adds,hparse,RuleReader.context,hst,hlookup,lineSupported,hd,hsupported]
  · rw [statement_context hparse hopen,hst]
    rfl

theorem do_outcome (hs : s.Current) (hparse : lineParse strline = .ok (some ln))
    (hopen : s.schedule = false) (hst : ln.statement = .do_) : Outcome devices strline s := by
  have hline : ∀ s', Accepts (ruleLine devices) strline s s' ↔
      ruleStatement devices ln s = .ok (0,s') := statement_accepts hparse hopen
  have hstops : stops devices s.context strline = refused devices ln :=
    statement_stops hparse hopen
  cases hlookup : lineLookup actionTypeFromChar devices ln with
  | none =>
    refine .refuses (by simp [hstops,refused,hst,hlookup]) (fun s' => ?_)
    simp [hline,ruleStatement,hst,hlookup]
  | some found =>
    obtain ⟨device,type⟩ := found
    obtain ⟨d,hd⟩ := lineLookup_device hlookup
    by_cases hsupported : type ∈ deviceGetSupportedAction d
    · by_cases hroom : ln.options.length < lineMaxOptions
      · have haccepts : Accepts (ruleLine devices) strline s
            (s.setRules (ruleAddAction s.rule (some ⟨type,device,ln.options.drop 1⟩)
              s.rules)) := by
          simp [hline,ruleStatement,hst,hlookup,actionCreate,hd,hsupported,hroom]
        refine append_outcome hs (k := .do_) (fun before rule => ⟨before,rule,_,rfl,rfl⟩)
          haccepts ?_ ?_ ?_ (fun k' hk' => ?_)
        · have hne : ln.options.length ≠ lineMaxOptions := by omega
          simp [hstops,refused,hst,hlookup,hne]
        · rw [statement_context hparse hopen,hst]
          rfl
        · simp [adds,hparse,RuleReader.context,hopen,hst,hlookup,lineSupported,hd,hsupported]
        · simp [adds,hparse,hst,Ne.symm hk']
      · have hfull : ln.options.length = lineMaxOptions := by
          have hfits := ln.fits
          omega
        refine .refuses ?_ (fun s' => ?_)
        · simp [hstops,refused,hst,lineSupported,hlookup,hd,hsupported,hfull]
        · simp [hline,ruleStatement,hst,hlookup,actionCreate,hd,hsupported,hroom]
    · exact unsupported_outcome hparse hopen hst hlookup hd hsupported

theorem statement_outcome (hs : s.Current) (hparse : lineParse strline = .ok (some ln))
    (hopen : s.schedule = false) : Outcome devices strline s := by
  have hline : ∀ s', Accepts (ruleLine devices) strline s s' ↔
      ruleStatement devices ln s = .ok (0,s') := statement_accepts hparse hopen
  have hstops : stops devices s.context strline = refused devices ln :=
    statement_stops hparse hopen
  have hcontext := statement_context hparse hopen
  cases hst : ln.statement with
  | if_ => exact if_outcome hparse hopen hst
  | and_ => exact and_outcome hs hparse hopen hst
  | do_ => exact do_outcome hs hparse hopen hst
  | state | logs | invalid =>
    exact .refuses (by simp [hstops,refused,hst]) (fun s' => by simp [hline,ruleStatement,hst])
  | schedule =>
    refine .leaves { s with schedule := true } ?_ ?_ rfl (fun k => ?_) ?_ (.inl rfl)
    · simp [hline,ruleStatement,hst]
    · simp [hstops,refused,hst]
    · cases k <;> simp [adds,hparse,hst]
    · rw [hcontext,hst]
      rfl
  | _ =>
    -- The other declarations do nothing in the second pass.
    refine .leaves s ?_ ?_ rfl (fun k => ?_) ?_ (.inl rfl)
    · simp [hline,ruleStatement,hst]
    · simp [hstops,refused,hst]
    · cases k <;> simp [adds,hparse,hst]
    · rw [hcontext,hst]
      rfl

end Statement

theorem ruleLine_outcome (devices : List Device) (strline : CString) {s : RuleReader}
    (hs : s.Current) : Outcome devices strline s := by
  cases hparse : lineParse strline with
  | error e =>
    refine .refuses (by simp [stops,hparse]) (fun s' => ?_)
    simp [Accepts,ruleLine,hparse]
  | ok found =>
    cases found with
    | none =>
      refine .leaves { s with rule := none, schedule := false } ?_ ?_ rfl (fun k => ?_) ?_
        (.inr rfl)
      · simp [Accepts,ruleLine,hparse]
      · simp [stops,hparse]
      · simp [adds,hparse]
      · simp [lineContext,hparse,RuleReader.context]
    | some ln =>
      cases hopen : s.schedule with
      | false => exact statement_outcome hs hparse hopen
      | true =>
        refine .leaves s ?_ ?_ rfl (fun k => ?_) ?_ (.inl rfl)
        · simp [Accepts,ruleLine,hparse,hopen]
        · simp [stops,hparse,RuleReader.context,hopen]
        · simp [adds,hparse,RuleReader.context,hopen]
        · simp [lineContext,hparse,RuleReader.context,hopen]

def keyword (line : List Char) : Option Statement :=
  match (Words.words isBlank line).head? with
  | none => none
  | some word =>
    if word = "IF".toList then some .if_
    else if word = "AND".toList then some .and_
    else if word = "DO".toList then some .do_
    else none

def SomeAdds (devices : List Device) (k : Statement) : List CString → RuleReader → Prop
  | [], _ => False
  | line :: lines, s => ∃ s', Accepts (ruleLine devices) line s s' ∧
      (AddedTo k s.rules s'.rules ∨ SomeAdds devices k lines s')

/-- Outside schedule blocks every line of the file that starts with `IF`, `AND` or `DO`
adds to the rules what it says. -/
def Kept (devices : List Device) : List (List Char) → RuleReader → Prop
  | [], _ => True
  | line :: lines, s =>
    (∀ k, keyword line = some k → s.schedule = false →
      SomeAdds devices k (fileLines line) s) ∧
    ∀ s', AcceptsAll (ruleLine devices) (fileLines line) s s' → Kept devices lines s'

/-- No line is lost, seen without reading: each line outside a schedule block that starts
with `IF`, `AND` or `DO` is delivered as a string that the parser can use in its place. -/
def nothingLost (devices : List Device) : List (List Char) → Context → Bool
  | [], _ => true
  | line :: lines, c =>
    (match keyword line with
    | some k => c.schedule || anyLine (adds devices k) (fileLines line) c
    | none => true) && nothingLost devices lines (contextAfter (fileLines line) c)

theorem anyLine_append (p : Context → CString → Bool) (lines lines' : List CString) (c : Context) :
    anyLine p (lines ++ lines') c =
      (anyLine p lines c || anyLine p lines' (contextAfter lines c)) := by
  induction lines generalizing c with
  | nil => rfl
  | cons line lines ih => simp [anyLine,ih,contextAfter,Bool.or_assoc]

section Lines
variable {devices : List Device}

theorem adds_unique {k k' : Statement} {c : Context} {line : CString}
    (h : adds devices k c line = true) (h' : adds devices k' c line = true) : k = k' := by
  have hstatement : ∀ k, adds devices k c line = true →
      ∃ ln, lineParse line = .ok (some ln) ∧ ln.statement = k := by
    intro k hk
    unfold adds at hk
    split at hk
    · rename_i ln hparse
      simp only [Bool.and_eq_true,decide_eq_true_eq] at hk
      exact ⟨ln,hparse,hk.1.2⟩
    · simp at hk
  obtain ⟨ln,hparse,hln⟩ := hstatement k h
  obtain ⟨ln',hparse',hln'⟩ := hstatement k' h'
  rw [hparse] at hparse'
  cases hparse'
  exact hln.symm.trans hln'

theorem ruleLine_step {line : CString} {s : RuleReader} (hs : s.Current)
    (h : stops devices s.context line = false) :
    ∃ s', Accepts (ruleLine devices) line s s' ∧ s'.Current ∧
      s'.context = lineContext line s.context ∧
      ∀ k, AddedTo k s.rules s'.rules ↔ adds devices k s.context line = true := by
  cases ruleLine_outcome devices line hs with
  | refuses hstops => simp [hstops] at h
  | leaves s' haccepts _ hrules hadds hcontext hrule =>
    refine ⟨s',haccepts,fun i hi => ?_,hcontext,fun k => ?_⟩
    · rw [hrules]
      rcases hrule with hrule | hrule
      · exact hs i (hrule ▸ hi)
      · simp [hrule] at hi
    · constructor
      · intro ha
        exact absurd hrules ha.ne
      · simp [hadds k]
  | adds k s' haccepts _ hadded hadds hcontext hcurrent =>
    refine ⟨s',haccepts,hcurrent,hcontext,fun k' => ?_⟩
    constructor
    · intro ha
      rw [ha.unique hadded]
      exact hadds
    · intro ha
      rw [adds_unique ha hadds]
      exact hadded

theorem ruleLine_stops {line : CString} {s s' : RuleReader} (hs : s.Current)
    (h : Accepts (ruleLine devices) line s s') : stops devices s.context line = false := by
  cases ruleLine_outcome devices line hs with
  | refuses _ hrefused => exact absurd h (hrefused s')
  | leaves _ _ hstops => exact hstops
  | adds _ _ _ hstops => exact hstops

/-- A file is read to its end exactly when none of its lines stops the reader. -/
theorem acceptsAll_iff {lines : List CString} {s : RuleReader} (hs : s.Current) :
    (∃ s', AcceptsAll (ruleLine devices) lines s s') ↔
      anyLine (stops devices) lines s.context = false := by
  induction lines generalizing s with
  | nil => simp [anyLine]
  | cons line lines ih =>
    simp only [anyLine,Bool.or_eq_false_iff,acceptsAll_cons]
    constructor
    · rintro ⟨s',s₁,h₁,hrest⟩
      have hstops := ruleLine_stops hs h₁
      obtain ⟨s₂,h₂,hs₂,hcontext,-⟩ := ruleLine_step hs hstops
      rw [← hcontext,h₂.unique h₁]
      rw [h₂.unique h₁] at hs₂
      exact ⟨hstops,(ih hs₂).mp ⟨s',hrest⟩⟩
    · rintro ⟨hstops,hrest⟩
      obtain ⟨s₁,h₁,hs₁,hcontext,-⟩ := ruleLine_step hs hstops
      rw [← hcontext] at hrest
      obtain ⟨s',hs'⟩ := (ih hs₁).mpr hrest
      exact ⟨s',s₁,h₁,hs'⟩

theorem acceptsAll_context {lines : List CString} {s s' : RuleReader} (hs : s.Current)
    (h : AcceptsAll (ruleLine devices) lines s s') :
    s'.Current ∧ s'.context = contextAfter lines s.context := by
  refine h.follows (R := fun s c => s.Current ∧ s.context = c) ?_ ⟨hs,rfl⟩
  rintro line s₁ s₂ c h₁ ⟨hs₁,rfl⟩
  obtain ⟨s₃,h₃,hs₃,hcontext,-⟩ := ruleLine_step hs₁ (ruleLine_stops hs₁ h₁)
  exact h₃.unique h₁ ▸ ⟨hs₃,hcontext⟩

theorem someAdds_iff {k : Statement} {lines : List CString} {s : RuleReader} (hs : s.Current)
    (h : anyLine (stops devices) lines s.context = false) :
    SomeAdds devices k lines s ↔ anyLine (adds devices k) lines s.context = true := by
  induction lines generalizing s with
  | nil => simp [SomeAdds,anyLine]
  | cons line lines ih =>
    simp only [anyLine,Bool.or_eq_false_iff] at h
    obtain ⟨s₁,h₁,hs₁,hcontext,hadds⟩ := ruleLine_step hs h.1
    rw [← hcontext] at h
    simp only [SomeAdds,anyLine,Bool.or_eq_true]
    rw [← hcontext,← ih hs₁ h.2,← hadds k]
    constructor
    · rintro ⟨s₂,h₂,hor⟩
      rw [h₁.unique h₂]
      exact hor
    · intro hor
      exact ⟨s₁,h₁,hor⟩

/-- In a file that is read to its end, what is kept is known beforehand. -/
theorem kept_iff {lines : List (List Char)} {s : RuleReader} (hs : s.Current)
    (h : anyLine (stops devices) (lines.flatMap fileLines) s.context = false) :
    Kept devices lines s ↔ nothingLost devices lines s.context = true := by
  induction lines generalizing s with
  | nil => simp [Kept,nothingLost]
  | cons line lines ih =>
    rw [List.flatMap_cons,anyLine_append,Bool.or_eq_false_iff] at h
    obtain ⟨s₁,h₁⟩ := (acceptsAll_iff hs).mpr h.1
    obtain ⟨hs₁,hcontext⟩ := acceptsAll_context hs h₁
    rw [← hcontext] at h
    have hrest : (∀ s', AcceptsAll (ruleLine devices) (fileLines line) s s' →
        Kept devices lines s') ↔ Kept devices lines s₁ := by
      constructor
      · intro hall
        exact hall s₁ h₁
      · intro hkept s' hs'
        exact h₁.unique hs' ▸ hkept
    rw [Kept,nothingLost,Bool.and_eq_true,hrest,ih hs₁ h.2,hcontext]
    apply and_congr_left
    intro _
    cases keyword line with
    | none => simp
    | some k =>
      have hadds := someAdds_iff (k := k) hs h.1
      simp only [Option.some.injEq,forall_eq',Bool.or_eq_true,hadds]
      have hschedule : s.context.schedule = s.schedule := rfl
      rw [hschedule]
      cases s.schedule <;> simp

end Lines

/-- A rule file that is read without complaint has lost nothing exactly when it has no
line that is lost; or there is no such reading, because a line stops it. -/
theorem rules_accepted_iff (devices : List Device) (content : List Char) (s : RuleReader)
    (hs : s.Current) :
    ((∃ s', rulesReadFileRules devices content s = .ok (0,s')) →
        Kept devices (Pieces.lines isNewline content) s) ↔
      (anyLine (stops devices) (fileLines content) s.context = true ∨
        nothingLost devices (Pieces.lines isNewline content) s.context = true) := by
  have hlines : fileLines content = (Pieces.lines isNewline content).flatMap fileLines := by
    unfold fileLines
    rw [Pieces.pieces_lines,List.map_flatMap]
  have hread : (∃ s', rulesReadFileRules devices content s = .ok (0,s')) ↔
      anyLine (stops devices) (fileLines content) s.context = false := acceptsAll_iff hs
  rw [hread]
  cases hstop : anyLine (stops devices) (fileLines content) s.context with
  | true => simp
  | false =>
    rw [hlines] at hstop
    simpa using kept_iff hs hstop

theorem start_current : RuleReader.start.Current := by
  intro i hi
  simp [RuleReader.start] at hi

def switchDevice : List Device := [⟨"s".toList,.bool ⟨0⟩⟩]

theorem rules_accepted_switch :
    Kept switchDevice (Pieces.lines isNewline "IF s SET\nAND s UNSET\nDO s TOGGLE\n".toList)
      RuleReader.start := by
  have hread : ∃ s', rulesReadFileRules switchDevice "IF s SET\nAND s UNSET\nDO s TOGGLE\n".toList
      RuleReader.start = .ok (0,s') := (acceptsAll_iff start_current).mpr (by decide)
  exact (rules_accepted_iff _ _ _ start_current).mpr (.inr (by decide)) hread

/-- A BOOL cannot be dimmed: the file is accepted and its action is gone. -/
theorem action_discarded :
    (∃ s', rulesReadFileRules switchDevice "IF s SET\nDO s DIM\n".toList RuleReader.start =
      .ok (0,s')) ∧
    ¬ Kept switchDevice (Pieces.lines isNewline "IF s SET\nDO s DIM\n".toList)
      RuleReader.start := by
  refine ⟨(acceptsAll_iff start_current).mpr (by decide),?_⟩
  rw [kept_iff start_current (by decide)]
  decide

end DomoticaEngine
