import Mathlib.Data.List.Basic

/-!
Runs of a system that takes one step for each input, and how to tell from the inputs alone
whether a run stays in an invariant.
-/

set_option autoImplicit false

namespace Runs

variable {α β σ : Type}

/-- The state at the end of a run. A step that is not enabled ends it without one. -/
def after (step : α → σ → Option σ) (inputs : List α) (s : σ) : Option σ :=
  inputs.foldlM (fun s a => step a s) s

def Always (step : α → σ → Option σ) (P : σ → Prop) : List α → σ → Prop
  | [], s => P s
  | a :: inputs, s => P s ∧ ∀ s', step a s = some s' → Always step P inputs s'

def scan (check : α → β → Bool) (next : α → β → β) : List α → β → Bool
  | [], _ => true
  | a :: inputs, b => check a b && scan check next inputs (next a b)

def Meets (step : α → σ → Option σ) (cond : α → σ → Prop) : List α → σ → Prop
  | [], _ => True
  | a :: inputs, s => ∀ s', step a s = some s' → cond a s ∧ Meets step cond inputs s'

/-- Every step of the run, also the one that does not return, satisfies `P` in the state before
it. -/
def During (step : α → σ → σ → Prop) (P : α → σ → Prop) : List α → σ → Prop
  | [], _ => True
  | a :: inputs, s => P a s ∧ ∀ s', step a s s' → During step P inputs s'

theorem during_iff {step : α → σ → σ → Prop} {P Q : α → σ → Prop} {I : σ → Prop}
    (hkeep : ∀ a s s', I s → step a s s' → I s') (h : ∀ a s, I s → (P a s ↔ Q a s))
    {inputs : List α} {s : σ} (hs : I s) : During step P inputs s ↔ During step Q inputs s := by
  induction inputs generalizing s with
  | nil => exact Iff.rfl
  | cons a inputs ih =>
    refine and_congr (h a s hs) ⟨fun hrest s' hs' => ?_,fun hrest s' hs' => ?_⟩
    · exact (ih (hkeep a s s' hs hs')).mp (hrest s' hs')
    · exact (ih (hkeep a s s' hs hs')).mpr (hrest s' hs')

section Rules
variable {step : α → σ → Option σ} {P : σ → Prop} {R : σ → β → Prop}
  {check : α → β → Bool} {next : α → β → β}

theorem after_cons {a : α} {inputs : List α} {s s' : σ} :
    after step (a :: inputs) s = some s' ↔
      ∃ s₁, step a s = some s₁ ∧ after step inputs s₁ = some s' := by
  simp [after,Option.bind_eq_some_iff]

theorem after_append {inputs inputs' : List α} {s s' : σ} :
    after step (inputs ++ inputs') s = some s' ↔
      ∃ s₁, after step inputs s = some s₁ ∧ after step inputs' s₁ = some s' := by
  simp [after,List.foldlM_append,Option.bind_eq_some_iff]

theorem after_one {a : α} {s s' : σ} : after step [a] s = some s' ↔ step a s = some s' := by
  simp [after]

theorem always_cons {a : α} {inputs : List α} {s s' : σ} (h : step a s = some s') :
    Always step P (a :: inputs) s ↔ P s ∧ Always step P inputs s' := by
  simp [Always,h]

theorem Always.head {inputs : List α} {s : σ} (h : Always step P inputs s) : P s := by
  cases inputs with
  | nil => exact h
  | cons a inputs => exact h.1

theorem Always.last {inputs : List α} {s s' : σ} (h : Always step P inputs s)
    (hrun : after step inputs s = some s') : P s' := by
  induction inputs generalizing s with
  | nil =>
    cases hrun
    exact h
  | cons a inputs ih =>
    obtain ⟨s₁,h₁,hrest⟩ := after_cons.mp hrun
    exact ih (h.2 s₁ h₁) hrest

/-- When the steps that keep `P` are the ones that pass the check, a run stays in `P` exactly
when the scan of its inputs passes. -/
theorem always_iff (hR : ∀ s b, R s b → P s)
    (hstep : ∀ a s s' b, R s b → step a s = some s' →
      (P s' ↔ check a b = true) ∧ (P s' → R s' (next a b)))
    {inputs : List α} {s s' : σ} {b : β} (hs : R s b) (hrun : after step inputs s = some s') :
    Always step P inputs s ↔ scan check next inputs b = true := by
  induction inputs generalizing s b with
  | nil => simp [Always,scan,hR s b hs]
  | cons a inputs ih =>
    obtain ⟨s₁,h₁,hrest⟩ := after_cons.mp hrun
    obtain ⟨hcheck,hnext⟩ := hstep a s s₁ b hs h₁
    rw [always_cons h₁,scan,Bool.and_eq_true,← hcheck]
    constructor
    · rintro ⟨-,hall⟩
      exact ⟨hall.head,(ih (hnext hall.head) hrest).mp hall⟩
    · rintro ⟨hkept,hscan⟩
      exact ⟨hR s b hs,(ih (hnext hkept) hrest).mpr hscan⟩

theorem always_iff_meets {I : σ → Prop} {cond : α → σ → Prop}
    (hstep : ∀ a s s', I s → P s → step a s = some s' → I s' ∧ (P s' ↔ cond a s))
    {inputs : List α} {s : σ} (hI : I s) (hs : P s) :
    Always step P inputs s ↔ Meets step cond inputs s := by
  induction inputs generalizing s with
  | nil => exact iff_of_true hs trivial
  | cons a inputs ih =>
    constructor
    · rintro ⟨-,hall⟩ s' h'
      obtain ⟨hI',hiff⟩ := hstep a s s' hI hs h'
      have hP' := (hall s' h').head
      exact ⟨hiff.mp hP',(ih hI' hP').mp (hall s' h')⟩
    · intro hmeets
      refine ⟨hs,fun s' h' => ?_⟩
      obtain ⟨hI',hiff⟩ := hstep a s s' hI hs h'
      obtain ⟨hcond,hrest⟩ := hmeets s' h'
      exact (ih hI' (hiff.mpr hcond)).mpr hrest

theorem meets_iff {I : σ → Prop} {cond cond' : α → σ → Prop}
    (hstep : ∀ a s s', I s → step a s = some s' →
      (cond a s ↔ cond' a s) ∧ (cond a s → I s'))
    {inputs : List α} {s : σ} (hs : I s) :
    Meets step cond inputs s ↔ Meets step cond' inputs s := by
  induction inputs generalizing s with
  | nil => exact Iff.rfl
  | cons a inputs ih =>
    constructor
    · intro hmeets s' h'
      obtain ⟨hcond,hrest⟩ := hmeets s' h'
      obtain ⟨hiff,hkeep⟩ := hstep a s s' hs h'
      exact ⟨hiff.mp hcond,(ih (hkeep hcond)).mp hrest⟩
    · intro hmeets s' h'
      obtain ⟨hcond,hrest⟩ := hmeets s' h'
      obtain ⟨hiff,hkeep⟩ := hstep a s s' hs h'
      exact ⟨hiff.mpr hcond,(ih (hkeep (hiff.mpr hcond))).mpr hrest⟩

theorem after_past (hpast : ∀ a s s', step a s = some s' → P s' → P s) {inputs : List α}
    {s s' : σ} (hrun : after step inputs s = some s') (hs' : P s') : P s := by
  induction inputs generalizing s with
  | nil =>
    cases hrun
    exact hs'
  | cons a inputs ih =>
    obtain ⟨s₁,h₁,hrest⟩ := after_cons.mp hrun
    exact hpast a s s₁ h₁ (ih hrest)

/-- What no step restores holds at the end of a run exactly when the steps of the run meet the
condition under which a step keeps it. -/
theorem after_iff_meets {I : σ → Prop} {cond : α → σ → Prop}
    (hpast : ∀ a s s', step a s = some s' → P s' → P s) (hI : ∀ s, I s → P s)
    (hstep : ∀ a s s', I s → step a s = some s' → (cond a s → I s') ∧ (P s' → cond a s))
    {inputs : List α} {s s' : σ} (hs : I s) (hrun : after step inputs s = some s') :
    P s' ↔ Meets step cond inputs s := by
  induction inputs generalizing s with
  | nil =>
    cases hrun
    exact iff_of_true (hI _ hs) trivial
  | cons a inputs ih =>
    obtain ⟨s₁,h₁,hrest⟩ := after_cons.mp hrun
    obtain ⟨hkeep,hneeds⟩ := hstep a s s₁ hs h₁
    constructor
    · intro hs' s₂ h₂
      cases h₁.symm.trans h₂
      have hcond := hneeds (after_past hpast hrest hs')
      exact ⟨hcond,(ih (hkeep hcond) hrest).mp hs'⟩
    · intro hmeets
      obtain ⟨hcond,hmeets⟩ := hmeets s₁ h₁
      exact (ih (hkeep hcond) hrest).mpr hmeets

theorem after_output {ε : Type} (out : σ → List ε) (words : β → List α → List ε)
    (hnil : ∀ b, words b [] = [])
    (hstep : ∀ a s s' b, R s b → step a s = some s' → ∃ events b', R s' b' ∧
      out s' = out s ++ events ∧ ∀ inputs, words b (a :: inputs) = events ++ words b' inputs)
    {inputs : List α} {s s' : σ} {b : β} (hs : R s b) (hrun : after step inputs s = some s') :
    out s' = out s ++ words b inputs := by
  induction inputs generalizing s b with
  | nil =>
    cases hrun
    rw [hnil,List.append_nil]
  | cons a inputs ih =>
    obtain ⟨s₁,h₁,hrest⟩ := after_cons.mp hrun
    obtain ⟨events,b',hb',hout,hwords⟩ := hstep a s s₁ b hs h₁
    rw [ih hb' hrest,hout,hwords,List.append_assoc]

end Rules

theorem countdown_iff {Good : σ → σ → Prop} {I : σ → Prop} {rank : σ → Nat} {s : Nat → σ} {n : Nat}
    (hstep : ∀ k, k < n → I (s k) → (Good (s k) (s (k+1)) ↔ 0 < rank (s k)) ∧
      (Good (s k) (s (k+1)) → I (s (k+1)) ∧ rank (s (k+1))+1 = rank (s k)))
    (hs : I (s 0)) : (∀ k, k < n → Good (s k) (s (k+1))) ↔ n ≤ rank (s 0) := by
  induction n generalizing s with
  | zero => simp
  | succ n ih =>
    obtain ⟨hgood,hnext⟩ := hstep 0 (by omega) hs
    have hrest : Good (s 0) (s 1) →
        ((∀ k, k < n → Good (s (k+1)) (s (k+1+1))) ↔ n ≤ rank (s 1)) := fun h =>
      ih (s := fun k => s (k+1)) (fun k hk => hstep (k+1) (by omega)) (hnext h).1
    constructor
    · intro h
      have hfirst := h 0 (by omega)
      have hleft := (hrest hfirst).mp (fun k hk => h (k+1) (by omega))
      have hrank : rank (s 1)+1 = rank (s 0) := (hnext hfirst).2
      omega
    · intro hle k hk
      have hfirst := hgood.mpr (by omega)
      have hrank : rank (s 1)+1 = rank (s 0) := (hnext hfirst).2
      cases k with
      | zero => exact hfirst
      | succ k => exact (hrest hfirst).mpr (by omega) k (by omega)

end Runs
