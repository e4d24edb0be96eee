import DomoticaEngine.RuleAcceptance

/-!
The second pass over the rule files, and what an open rule carries from one file to the
next.
-/

set_option autoImplicit false

namespace DomoticaEngine
open Reads

/-- The reader when the rules `P` were read before it started. -/
def RuleReader.shift (P : List Rule) (s : RuleReader) : RuleReader :=
  { rules := P ++ s.rules, rule := s.rule.map (P.length + ·), schedule := s.schedule }

def RuleReader.forget (s : RuleReader) : RuleReader :=
  { rules := [], rule := none, schedule := s.schedule }

theorem forget_shift {s : RuleReader} (h : s.rule = none) : s.forget.shift s.rules = s := by
  obtain ⟨rules,rule,schedule⟩ := s
  simp only at h
  subst h
  simp [RuleReader.forget,RuleReader.shift]

theorem ruleUpdate_shift (P rules : List Rule) (rule : Option Nat) (f : Rule → Rule) :
    ruleUpdate (rule.map (P.length + ·)) f (P ++ rules) = P ++ ruleUpdate rule f rules := by
  cases rule with
  | none => rfl
  | some i => exact modify_append f P rules i

theorem ruleAddAction_shift (P rules : List Rule) (rule : Option Nat) (action : Option Action) :
    ruleAddAction (rule.map (P.length + ·)) action (P ++ rules) =
      P ++ ruleAddAction rule action rules := by
  cases action with
  | none => rfl
  | some action => exact ruleUpdate_shift P rules rule _

theorem ruleLine_map {devices devices' : List Device} {φ : RuleReader → RuleReader}
    (hschedule : ∀ s, (φ s).schedule = s.schedule)
    (hempty : ∀ s, φ { s with rule := none, schedule := false } =
      { φ s with rule := none, schedule := false })
    (hstatement : ∀ ln s, ruleStatement devices' ln (φ s) =
      (ruleStatement devices ln s).map (fun r => (r.1,φ r.2))) (line : CString) (s : RuleReader) :
    ruleLine devices' line (φ s) = (ruleLine devices line s).map (fun r => (r.1,φ r.2)) := by
  unfold ruleLine
  cases lineParse line with
  | error e => rfl
  | ok found =>
    cases found with
    | none => simp only [Except.map,hempty]
    | some ln =>
      simp only [hschedule]
      cases s.schedule with
      | true => rfl
      | false => exact hstatement ln s

section Line
variable {devices : List Device} {line : CString} {s s' : RuleReader}

theorem ruleStatement_shift (devices : List Device) (P : List Rule) (ln : Line) (s : RuleReader) :
    ruleStatement devices ln (s.shift P) =
      (ruleStatement devices ln s).map (fun r => (r.1,r.2.shift P)) := by
  obtain ⟨rules,rule,schedule⟩ := s
  simp only [RuleReader.shift]
  unfold ruleStatement
  cases ln.statement with
  | if_ =>
    cases lineLookup eventTypeFromChar devices ln with
    | none => simp [Except.map]
    | some found => simp [Except.map]
  | and_ =>
    cases lineLookup conditionTypeFromChar devices ln with
    | none => rfl
    | some found => simp [Except.map,RuleReader.setRules,ruleAddCondition,ruleUpdate_shift]
  | do_ =>
    cases lineLookup actionTypeFromChar devices ln with
    | none => rfl
    | some found =>
      obtain ⟨device,type⟩ := found
      simp only
      cases actionCreate devices device type ln.options with
      | error e => rfl
      | ok action =>
        simp only [ok_bind,RuleReader.setRules,ruleAddAction_shift]
        rfl
  | _ => rfl

/-- Rules that are there already change nothing for the ones that follow. -/
theorem ruleLine_shift (devices : List Device) (P : List Rule) (line : CString)
    (s : RuleReader) :
    ruleLine devices line (s.shift P) =
      (ruleLine devices line s).map (fun r => (r.1,r.2.shift P)) :=
  ruleLine_map (φ := RuleReader.shift P) (fun _ => rfl) (fun _ => rfl)
    (ruleStatement_shift devices P) line s

theorem rules_shift {lines : List CString} {P : List Rule} :
    AcceptsAll (ruleLine devices) lines (s.shift P) s' ↔
      ∃ t, AcceptsAll (ruleLine devices) lines s t ∧ t.shift P = s' :=
  acceptsAll_map _ (ruleLine_shift devices P)

theorem ruleStatement_forget {ln : Line} (h : ruleStatement devices ln s = .ok (0,s')) :
    ∃ t, ruleStatement devices ln s.forget = .ok (0,t) ∧
      if ln.statement = .if_ ∧ (lineLookup eventTypeFromChar devices ln).isSome then
        s' = t.shift s.rules
      else t = s'.forget := by
  obtain ⟨rules,rule,schedule⟩ := s
  simp only [RuleReader.forget]
  unfold ruleStatement at h ⊢
  cases hst : ln.statement with
  | if_ =>
    simp only [hst] at h ⊢
    cases hlookup : lineLookup eventTypeFromChar devices ln with
    | none => simp [hlookup] at h
    | some found =>
      simp only [hlookup,Except.ok.injEq,Prod.mk.injEq,true_and] at h
      subst h
      exact ⟨_,rfl,by simp [RuleReader.shift]⟩
  | and_ =>
    simp only [hst] at h ⊢
    cases hlookup : lineLookup conditionTypeFromChar devices ln with
    | none => simp [hlookup] at h
    | some found =>
      simp only [hlookup,Except.ok.injEq,Prod.mk.injEq,true_and] at h
      subst h
      exact ⟨_,rfl,by simp [RuleReader.setRules,ruleAddCondition,ruleUpdate]⟩
  | do_ =>
    simp only [hst] at h ⊢
    cases hlookup : lineLookup actionTypeFromChar devices ln with
    | none => simp [hlookup] at h
    | some found =>
      obtain ⟨device,type⟩ := found
      simp only [hlookup] at h
      cases haction : actionCreate devices device type ln.options with
      | error e => simp [haction] at h
      | ok action =>
        simp only [haction,ok_bind] at h
        cases h
        refine ⟨⟨[],none,schedule⟩,?_,by simp [RuleReader.setRules]⟩
        cases action with
        | none => simp [haction,RuleReader.setRules,ruleAddAction]
        | some action => simp [haction,RuleReader.setRules,ruleAddAction,ruleUpdate]
  | state | logs | invalid => simp [hst] at h
  | _ =>
    simp only [hst] at h ⊢
    cases h
    exact ⟨_,rfl,by simp⟩

/-- The same for lines, which do nothing inside a block of a schedule. -/
theorem ruleLine_forget (h : Accepts (ruleLine devices) line s s') :
    ∃ t, Accepts (ruleLine devices) line s.forget t ∧
      if adds devices .if_ s.context line then s' = t.shift s.rules else t = s'.forget := by
  unfold Accepts ruleLine at h ⊢
  cases hparse : lineParse line with
  | error e => simp [hparse] at h
  | ok found =>
    cases found with
    | none =>
      simp only [hparse,Except.ok.injEq,Prod.mk.injEq,true_and] at h
      subst h
      exact ⟨_,rfl,by simp [adds,hparse,RuleReader.forget]⟩
    | some ln =>
      have hblock : s.forget.schedule = s.schedule := rfl
      simp only [hparse,hblock] at h ⊢
      cases hschedule : s.schedule with
      | true =>
        simp only [hschedule,if_true,Except.ok.injEq,Prod.mk.injEq,true_and] at h
        subst h
        exact ⟨_,rfl,by simp [adds,hparse,hschedule,RuleReader.context]⟩
      | false =>
        rw [hschedule,if_neg Bool.false_ne_true] at h
        obtain ⟨t,ht,hrules⟩ := ruleStatement_forget h
        refine ⟨t,ht,?_⟩
        simpa [adds,hparse,RuleReader.context,hschedule] using hrules

end Line

def takesOver (devices : List Device) : List CString → Context → Bool
  | [], _ => false
  | line :: lines, c => c.rule && !adds devices .if_ c line &&
      (adds devices .and_ c line || adds devices .do_ c line ||
        takesOver devices lines (lineContext line c))

def parts (rules : List Rule) : Nat := conditionCount rules + actionCount rules

theorem parts_append (rules rules' : List Rule) :
    parts (rules ++ rules') = parts rules + parts rules' := by
  simp [parts,conditionCount,actionCount]
  omega

theorem AddedTo.parts {k : Statement} {rules rules' : List Rule} (h : AddedTo k rules rules')
    (hk : k ≠ .if_) : parts rules' = parts rules+1 := by
  unfold DomoticaEngine.parts
  rcases h.counts with ⟨rfl,-⟩ | hcounts | hcounts
  · exact absurd rfl hk
  · omega
  · omega

section Files
variable {devices : List Device} {lines : List CString} {s s' : RuleReader}

theorem rules_fresh (hrule : s.rule = none) (h : AcceptsAll (ruleLine devices) lines s s') :
    ∃ t, AcceptsAll (ruleLine devices) lines s.forget t ∧ s' = t.shift s.rules := by
  rw [← forget_shift hrule] at h
  obtain ⟨t,ht,rfl⟩ := rules_shift.mp h
  exact ⟨t,ht,rfl⟩

theorem takesOver_adds {c : Context} {line : CString} (hopen : c.rule = true)
    (hif : adds devices .if_ c line = false) {k : Statement} {rules rules' : List Rule}
    (hadded : AddedTo k rules rules') (hadds : adds devices k c line = true) :
    takesOver devices (line :: lines) c = true := by
  rcases hadded.counts with ⟨rfl,-⟩ | ⟨rfl,-⟩ | ⟨rfl,-⟩
  · simp [hif] at hadds
  · simp [takesOver,hopen,hif,hadds]
  · simp [takesOver,hopen,hif,hadds]

/-- A file adds what it yields when no rule is open in front of it, unless it takes the open
rule over: then there is more in the rules than that. -/
theorem rules_forget (hs : s.Current) (h : AcceptsAll (ruleLine devices) lines s s') :
    ∃ t, AcceptsAll (ruleLine devices) lines s.forget t ∧
      if takesOver devices lines s.context then parts s.rules + parts t.rules < parts s'.rules
      else s'.rules = s.rules ++ t.rules := by
  induction lines generalizing s with
  | nil =>
    rw [acceptsAll_nil] at h
    exact ⟨s.forget,acceptsAll_nil.mpr rfl,by simp [takesOver,← h,RuleReader.forget]⟩
  | cons line lines ih =>
    cases hrule : s.rule with
    | none =>
      obtain ⟨t,ht,rfl⟩ := rules_fresh hrule h
      exact ⟨t,ht,by simp [takesOver,RuleReader.context,hrule,RuleReader.shift]⟩
    | some i =>
      have hopen : s.context.rule = true := by simp [RuleReader.context,hrule]
      obtain ⟨s₁,h₁,hrest⟩ := acceptsAll_cons.mp h
      obtain ⟨t₁,ht₁,hforget⟩ := ruleLine_forget h₁
      cases hif : adds devices .if_ s.context line with
      | true =>
        rw [hif,if_pos rfl] at hforget
        subst hforget
        obtain ⟨t,ht,rfl⟩ := rules_shift.mp hrest
        refine ⟨t,acceptsAll_cons.mpr ⟨t₁,ht₁,ht⟩,?_⟩
        simp [takesOver,hif,RuleReader.shift]
      | false =>
        rw [hif,if_neg (by simp)] at hforget
        subst hforget
        cases ruleLine_outcome devices line hs with
        | refuses _ hrefused => exact absurd h₁ (hrefused s₁)
        | leaves s₂ haccepts _ hrules hadds hcontext hcurrent =>
          cases haccepts.unique h₁
          have hs₁ : s₁.Current := (acceptsAll_context hs
            (acceptsAll_cons.mpr ⟨s₁,h₁,acceptsAll_nil.mpr rfl⟩)).1
          obtain ⟨t,ht,hsplit⟩ := ih hs₁ hrest
          refine ⟨t,acceptsAll_cons.mpr ⟨_,ht₁,ht⟩,?_⟩
          rw [hcontext,hrules] at hsplit
          simpa [takesOver,hopen,hadds] using hsplit
        | adds k s₂ haccepts _ hadded hadds hcontext hcurrent =>
          cases haccepts.unique h₁
          obtain ⟨t,ht,hsplit⟩ := ih hcurrent hrest
          refine ⟨t,acceptsAll_cons.mpr ⟨_,ht₁,ht⟩,?_⟩
          have hk : k ≠ .if_ := by
            rintro rfl
            simp [hif] at hadds
          rw [takesOver_adds hopen hif hadded hadds,if_pos rfl]
          have hone := hadded.parts hk
          split at hsplit
          · omega
          · rw [hsplit,parts_append]
            omega

end Files

end DomoticaEngine
