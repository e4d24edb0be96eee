import Mathlib.Data.List.Basic

/-!
Waiting for a signal to change, with a limit on the number of looks at it.
-/

set_option autoImplicit false

namespace Waits

/-- One wait after `count` looks that have found `level`. It may take `budget` more; the look that
finds the other level is the last one. -/
def wait (signal : Nat → Bool) (level : Bool) : Nat → Nat → Nat → Option (Nat × Nat)
  | 0, _, _ => none
  | budget+1, count, pos =>
    if signal pos = level then wait signal level budget (count+1) (pos+1)
    else some (count,pos+1)

def waits (signal : Nat → Bool) (limit : Nat) : List Bool → Nat → Option (List Nat × Nat)
  | [], pos => some ([],pos)
  | level :: levels, pos =>
    match wait signal level limit 0 pos with
    | none => none
    | some (count,pos) => (waits signal limit levels pos).map (fun r => (count :: r.1,r.2))

inductive Follows (signal : Nat → Bool) (limit : Nat) :
    List Bool → Nat → List Nat → Nat → Prop where
  | done (pos : Nat) : Follows signal limit [] pos [] pos
  | level {level : Bool} {levels : List Bool} {pos count pos' : Nat} {counts : List Nat}
      (hlimit : count < limit) (hstays : ∀ i < count, signal (pos+i) = level)
      (hturns : signal (pos+count) ≠ level)
      (hrest : Follows signal limit levels (pos+count+1) counts pos') :
      Follows signal limit (level :: levels) pos (count :: counts) pos'

section Wait
variable {signal : Nat → Bool} {level : Bool} {limit : Nat}

theorem wait_iff {budget before pos count pos' : Nat} :
    wait signal level budget before pos = some (count,pos') ↔
      ∃ n < budget, (∀ i < n, signal (pos+i) = level) ∧ signal (pos+n) ≠ level ∧
        count = before+n ∧ pos' = pos+n+1 := by
  induction budget generalizing before pos with
  | zero => simp [wait]
  | succ budget ih =>
    rw [wait]
    by_cases hsame : signal pos = level
    · rw [if_pos hsame,ih]
      constructor
      · rintro ⟨n,hn,hstays,hturns,rfl,rfl⟩
        refine ⟨n+1,by omega,fun i hi => ?_,?_,by omega,by omega⟩
        · cases i with
          | zero => exact hsame
          | succ i =>
            have hi' := hstays i (by omega)
            rwa [Nat.add_right_comm] at hi'
        · rwa [Nat.add_right_comm] at hturns
      · rintro ⟨n,hn,hstays,hturns,rfl,rfl⟩
        cases n with
        | zero => exact absurd hsame hturns
        | succ n =>
          refine ⟨n,by omega,fun i hi => ?_,?_,by omega,by omega⟩
          · have hi' := hstays (i+1) (by omega)
            rwa [Nat.add_right_comm pos 1 i]
          · rwa [Nat.add_right_comm pos 1 n]
    · rw [if_neg hsame]
      constructor
      · intro h
        cases h
        exact ⟨0,by omega,fun i hi => absurd hi (Nat.not_lt_zero i),hsame,rfl,rfl⟩
      · rintro ⟨n,-,hstays,-,rfl,rfl⟩
        cases n with
        | zero => rfl
        | succ n => exact absurd (hstays 0 (by omega)) hsame

theorem waits_iff {levels : List Bool} {pos pos' : Nat} {counts : List Nat} :
    waits signal limit levels pos = some (counts,pos') ↔
      Follows signal limit levels pos counts pos' := by
  induction levels generalizing pos counts with
  | nil =>
    constructor
    · intro h
      cases h
      exact .done _
    · intro h
      cases h
      rfl
  | cons level levels ih =>
    rw [waits]
    constructor
    · intro h
      cases hwait : wait signal level limit 0 pos with
      | none => simp [hwait] at h
      | some r =>
        obtain ⟨count,pos₁⟩ := r
        obtain ⟨n,hn,hstays,hturns,hcount,rfl⟩ := wait_iff.mp hwait
        simp only [hwait,Option.map_eq_some_iff] at h
        obtain ⟨⟨rest,pos₂⟩,hrest,heq⟩ := h
        cases heq
        rw [hcount,Nat.zero_add]
        exact .level hn hstays hturns (ih.mp hrest)
    · intro h
      cases h with
      | @level _ _ _ count _ rest hlimit hstays hturns hrest =>
        have hwait : wait signal level limit 0 pos = some (count,pos+count+1) :=
          wait_iff.mpr ⟨count,hlimit,hstays,hturns,(Nat.zero_add count).symm,rfl⟩
        simp [hwait,ih.mpr hrest]

theorem Follows.bounds {levels : List Bool} {pos pos' : Nat} {counts : List Nat}
    (h : Follows signal limit levels pos counts pos') :
    counts.length = levels.length ∧ ∀ count ∈ counts, count < limit := by
  induction h with
  | done pos => simp
  | level hlimit _ _ _ ih => simpa [ih.1,hlimit] using ih.2

def play : List Bool → List Nat → List Bool
  | level :: levels, count :: counts =>
    List.replicate count level ++ (!level) :: play levels counts
  | _, _ => []

theorem follows_play {levels : List Bool} {counts : List Nat}
    (hlength : counts.length = levels.length)
    (hcounts : ∀ count ∈ counts, count < limit) {pos : Nat}
    (hsignal : ∀ (i : Nat) (look : Bool), (play levels counts)[i]? = some look →
      signal (pos+i) = look) :
    ∃ pos', Follows signal limit levels pos counts pos' := by
  induction levels generalizing counts pos with
  | nil =>
    cases counts with
    | nil => exact ⟨pos,.done pos⟩
    | cons count counts => simp at hlength
  | cons level levels ih =>
    cases counts with
    | nil => simp at hlength
    | cons count counts =>
      simp only [play] at hsignal
      have hlater : ∀ (i : Nat) (look : Bool), (play levels counts)[i]? = some look →
          signal (pos+count+1+i) = look := by
        intro i look hlook
        have hlook' := hsignal (count+1+i) look (by
          rw [List.getElem?_append_right (by simp; omega)]
          have hindex : count+1+i-(List.replicate count level).length = i+1 := by simp; omega
          rw [hindex]
          exact hlook)
        rwa [← Nat.add_assoc,← Nat.add_assoc] at hlook'
      obtain ⟨pos',hrest⟩ := ih (by simpa using hlength) (fun c hc => hcounts c (by simp [hc]))
        hlater
      have hturn := hsignal count (!level) (by simp)
      refine ⟨pos',.level (hcounts count (by simp)) (fun i hi => ?_) ?_ hrest⟩
      · exact hsignal i level (by simp [List.getElem?_append_left,hi])
      · rw [hturn]
        cases level <;> decide

end Wait

end Waits
