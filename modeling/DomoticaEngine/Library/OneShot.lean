import Mathlib.Data.Set.Insert

/-!
A one-shot timer that can be set again and taken back. Each setting has a name of its own.
-/

set_option autoImplicit false

namespace OneShot

variable {ι : Type}

/-- `fire` names the setting whose timer has expired, if it is one. -/
inductive Act (ι : Type) where
  | set (t : ι)
  | unset
  | fire (t : Option ι)
  deriving DecidableEq, Repr

structure State (ι : Type) where
  armed : Option ι
  used : Set ι

inductive Step : State ι → Act ι → State ι → Prop where
  | set {s : State ι} {t : ι} (hfresh : t ∉ s.used) :
      Step s (.set t) ⟨some t,insert t s.used⟩
  | unset {s : State ι} : Step s .unset ⟨none,s.used⟩
  | fire {s : State ι} {t : ι} (harmed : s.armed = some t) : Step s (.fire (some t)) ⟨none,s.used⟩

inductive Run : State ι → List (Act ι) → State ι → Prop where
  | nil {s : State ι} : Run s [] s
  | cons {s s₁ s' : State ι} {act : Act ι} {acts : List (Act ι)} (hstep : Step s act s₁)
      (hrest : Run s₁ acts s') : Run s (act :: acts) s'

def State.Used (s : State ι) : Prop := ∀ t, s.armed = some t → t ∈ s.used

/-- What follows the setting `t`: it fires once, unless it is replaced or taken back first, or
it is still armed at the end. -/
def Exact (t : ι) (after : List (Act ι)) (armed : Option ι) : Prop :=
  match after with
  | [] => armed = some t
  | .fire t' :: rest => t' = some t ∧ .fire (some t) ∉ rest
  | .set _ :: rest | .unset :: rest => .fire (some t) ∉ rest

section Runs
variable {s s₁ s' : State ι} {act : Act ι} {acts acts' : List (Act ι)} {t : ι}

theorem Run.append (h : Run s acts s₁) (h' : Run s₁ acts' s') : Run s (acts ++ acts') s' := by
  induction h with
  | nil => exact h'
  | cons hstep _ ih => exact .cons hstep (ih h')

theorem Run.split (h : Run s (acts ++ acts') s') : ∃ s₁, Run s acts s₁ ∧ Run s₁ acts' s' := by
  induction acts generalizing s with
  | nil => exact ⟨s,.nil,h⟩
  | cons act acts ih =>
    cases h with
    | cons hstep hrest =>
      obtain ⟨s₁,h₁,h₂⟩ := ih hrest
      exact ⟨s₁,.cons hstep h₁,h₂⟩

theorem Step.used (h : Step s act s') : s'.Used ∧ s.used ⊆ s'.used := by
  cases h with
  | set _ =>
    refine ⟨fun u hu => ?_,Set.subset_insert _ _⟩
    cases hu
    exact Set.mem_insert _ _
  | unset | fire => exact ⟨fun u hu => (by cases hu),subset_rfl⟩

theorem Run.used (h : Run s acts s') (hs : s.Used) : s'.Used ∧ s.used ⊆ s'.used := by
  induction h with
  | nil => exact ⟨hs,subset_rfl⟩
  | cons hstep _ ih =>
    obtain ⟨hused,hsub⟩ := hstep.used
    obtain ⟨hused',hsub'⟩ := ih hused
    exact ⟨hused',hsub.trans hsub'⟩

theorem Run.silent (h : Run s acts s') (hs : s.Used) (ht : t ∈ s.used) (harmed : s.armed ≠ some t) :
    .fire (some t) ∉ acts := by
  induction h with
  | nil => simp
  | @cons s s₁ s' act acts hstep _ ih =>
    obtain ⟨hused,hsub⟩ := hstep.used
    have hneither : act ≠ .fire (some t) ∧ s₁.armed ≠ some t := by
      cases hstep with
      | set hfresh =>
        refine ⟨by simp,fun heq => ?_⟩
        cases heq
        exact hfresh ht
      | unset => simp
      | fire hfired =>
        refine ⟨fun heq => ?_,by simp⟩
        cases heq
        exact harmed hfired
    rw [List.mem_cons,not_or]
    exact ⟨hneither.1.symm,ih hused (hsub ht) hneither.2⟩

theorem Run.fresh (h : Run s acts s') (hs : s.Used) (ht : t ∉ s'.used) :
    .fire (some t) ∉ acts := by
  induction h with
  | nil => simp
  | cons hstep hrest ih =>
    obtain ⟨hused,hsub⟩ := hstep.used
    have hsub' := (hrest.used hused).2
    rw [List.mem_cons,not_or]
    refine ⟨fun heq => ?_,ih hused ht⟩
    subst heq
    cases hstep with
    | fire hfired => exact ht (hsub' (hsub (hs t hfired)))

theorem Run.fired (h : Run s acts s') {f : Option ι} (hf : .fire f ∈ acts) :
    ∃ t, f = some t ∧ (s.armed = some t ∨ .set t ∈ acts) := by
  induction h with
  | nil => cases hf
  | cons hstep _ ih =>
    rcases List.mem_cons.mp hf with rfl | hf
    · cases hstep with
      | fire harmed => exact ⟨_,rfl,.inl harmed⟩
    · obtain ⟨t,rfl,hset⟩ := ih hf
      refine ⟨t,rfl,?_⟩
      rcases hset with harmed | hset
      · cases hstep with
        | set _ =>
          cases harmed
          exact .inr (by simp)
        | unset | fire => cases harmed
      · exact .inr (List.mem_cons_of_mem _ hset)

theorem Run.exact (h : Run s (acts ++ .set t :: acts') s') (hs : s.Used) :
    .fire (some t) ∉ acts ∧ Exact t acts' s'.armed := by
  obtain ⟨s₁,hbefore,hset⟩ := h.split
  cases hset with
  | cons hstep hafter =>
    cases hstep with
    | set hfresh =>
      refine ⟨hbefore.fresh hs hfresh,?_⟩
      cases hafter with
      | nil => rfl
      | cons hnext hrest =>
        have hmem := hnext.used.2 (Set.mem_insert t _)
        have hrest' := hrest.silent hnext.used.1 hmem
        cases hnext with
        | set hfresh' =>
          refine hrest' (fun heq => ?_)
          cases heq
          exact hfresh' (Set.mem_insert _ _)
        | unset => exact hrest' (by simp)
        | fire harmed =>
          cases harmed
          exact ⟨rfl,hrest' (by simp)⟩

end Runs

end OneShot
