import Mathlib.Data.List.Basic

/-!
A value that sweeps between two limits: it goes on in steps of a bounded width and turns at the
limits and nowhere else.
-/

set_option autoImplicit false

namespace Sweep

structure Position where
  value : Nat
  rising : Bool
  deriving DecidableEq, Repr

section Limits
variable (low high width : Nat)

def Position.goal (p : Position) : Nat := if p.rising then high else low

def Position.ahead (p : Position) : Nat := if p.rising then high-p.value else p.value-low

structure Step (p q : Position) : Prop where
  low_le : low ≤ q.value
  le_high : q.value ≤ high
  forward : if p.rising then p.value ≤ q.value ∧ q.value ≤ p.value+width
    else q.value ≤ p.value ∧ p.value ≤ q.value+width
  goesOn : p.value ≠ p.goal low high → q.value ≠ p.value
  turns : q.rising ≠ p.rising ↔ q.value = p.goal low high

def TurnsAfter (s : Nat → Position) (k : Nat) : Prop :=
  ∃ j, k < j ∧ j ≤ k+(s k).ahead low high+1 ∧ (s j).value = (s k).goal low high ∧
    (s j).rising = !(s k).rising ∧ ∀ i, k ≤ i → i < j → (s i).rising = (s k).rising

/-- The first `n` steps are a sweep, which reaches every goal that they leave room for. -/
structure Swept (s : Nat → Position) (n : Nat) : Prop where
  steps : ∀ k, k < n → Step low high width (s k) (s (k+1))
  turns : ∀ k, k+(s k).ahead low high < n → TurnsAfter low high s k

end Limits

section Rules
variable {low high width : Nat}

theorem step_rising {v : Nat} {q : Position} : Step low high width ⟨v,true⟩ q ↔
    (low ≤ q.value ∧ q.value ≤ high ∧ v ≤ q.value ∧ q.value ≤ v+width) ∧
      (v = high ∨ v < q.value) ∧ (q.rising = false ↔ q.value = high) := by
  constructor
  · rintro ⟨hlow,hhigh,hforward,hgoesOn,hturns⟩
    simp only [Position.goal,if_true,ne_eq,Bool.not_eq_true] at hforward hgoesOn hturns
    exact ⟨⟨hlow,hhigh,hforward⟩,by omega,hturns⟩
  · rintro ⟨⟨hlow,hhigh,hforward⟩,hgoesOn,hturns⟩
    refine ⟨hlow,hhigh,?_,?_,?_⟩ <;> simp only [Position.goal,if_true,ne_eq,Bool.not_eq_true]
    · exact hforward
    · omega
    · exact hturns

theorem step_falling {v : Nat} {q : Position} : Step low high width ⟨v,false⟩ q ↔
    (low ≤ q.value ∧ q.value ≤ high ∧ q.value ≤ v ∧ v ≤ q.value+width) ∧
      (v = low ∨ q.value < v) ∧ (q.rising = true ↔ q.value = low) := by
  constructor
  · rintro ⟨hlow,hhigh,hforward,hgoesOn,hturns⟩
    simp only [Position.goal,Bool.false_eq_true,if_false,ne_eq,Bool.not_eq_false]
      at hforward hgoesOn hturns
    exact ⟨⟨hlow,hhigh,hforward⟩,by omega,hturns⟩
  · rintro ⟨⟨hlow,hhigh,hforward⟩,hgoesOn,hturns⟩
    refine ⟨hlow,hhigh,?_,?_,?_⟩ <;>
      simp only [Position.goal,Bool.false_eq_true,if_false,ne_eq,Bool.not_eq_false]
    · exact hforward
    · omega
    · exact hturns

theorem Step.ahead_lt {p q : Position} (h : Step low high width p q) (hsame : q.rising = p.rising) :
    q.ahead low high < p.ahead low high := by
  obtain ⟨value,rising⟩ := p
  obtain ⟨value',rising'⟩ := q
  simp only at hsame
  subst hsame
  cases rising' with
  | true =>
    have hstep := step_rising.mp h
    simp only [Bool.true_eq_false,false_iff] at hstep
    simp only [Position.ahead,if_true]
    omega
  | false =>
    have hstep := step_falling.mp h
    simp only [Bool.false_eq_true,false_iff] at hstep
    simp only [Position.ahead,Bool.false_eq_true,if_false]
    omega

/-- Induction on the number of steps: the next one turns, or the sweep goes on from there with
less ahead. -/
theorem turnsAfter_start {n : Nat} {s : Nat → Position}
    (h : ∀ k, k < n → Step low high width (s k) (s (k+1))) (hn : (s 0).ahead low high < n) :
    TurnsAfter low high s 0 := by
  induction n generalizing s with
  | zero => omega
  | succ n ih =>
    have hstep := h 0 (by omega)
    by_cases hturn : (s 1).rising = (s 0).rising
    · have hless := hstep.ahead_lt hturn
      obtain ⟨j,hj,hbound,hvalue,hrising,hbefore⟩ :=
        ih (s := fun k => s (k+1)) (fun k hk => h (k+1) (by omega))
          (Nat.lt_of_lt_of_le hless (by omega))
      simp only at hbound hvalue hrising hbefore
      have hgoal : (s (0+1)).goal low high = (s 0).goal low high := by
        simp [Position.goal,hturn]
      refine ⟨j+1,by omega,by omega,hvalue.trans hgoal,by rw [hrising,hturn],?_⟩
      intro i _ hi
      cases i with
      | zero => rfl
      | succ i => exact (hbefore i (by omega) (by omega)).trans hturn
    · refine ⟨1,by omega,by omega,hstep.turns.mp hturn,Bool.eq_not.mpr hturn,?_⟩
      intro i _ hi
      have hzero : i = 0 := by omega
      rw [hzero]

theorem swept_iff {s : Nat → Position} {n : Nat} :
    Swept low high width s n ↔ ∀ k, k < n → Step low high width (s k) (s (k+1)) := by
  refine ⟨Swept.steps,fun h => ⟨h,fun k hk => ?_⟩⟩
  obtain ⟨j,hj,hbound,hvalue,hrising,hbefore⟩ :=
    turnsAfter_start (n := n-k) (s := fun i => s (k+i)) (fun i hi => h (k+i) (by omega))
      (by simp only [Nat.add_zero]; omega)
  simp only [Nat.add_zero] at hbound hvalue hrising hbefore
  refine ⟨k+j,by omega,by omega,hvalue,hrising,fun i hki hi => ?_⟩
  have hshift := hbefore (i-k) (by omega) (by omega)
  rwa [Nat.add_sub_cancel' hki] at hshift

end Rules

end Sweep
