import Mathlib.Algebra.Order.Group.Unbundled.Abs
import Mathlib.Tactic.NormNum
import DomoticaEngine.Dht22Worker

/-!
How many reads a measurement takes.
-/

set_option autoImplicit false

namespace DomoticaEngine

structure Measured where
  temperature : ℚ
  humidity : ℚ
  deriving DecidableEq

def DhtRead.measured (read : DhtRead) : Measured := ⟨read.temperature,read.humidity⟩

/-- `dht22_worker_measure_device_do` when `count` reads have had no response and `pos` reads are
over; it may read `fuel` times more. -/
def measureDeviceDo (reads : Nat → DhtRead) : Nat → Nat → Nat → Option (Option Measured × Nat)
  | 0, _, _ => none
  | fuel+1, count, pos =>
    let read := reads pos
    if read.status = .success then some (some read.measured,pos+1)
    else
      let count := if read.status = .sensorNotResponding then count+1 else count
      if count < 10 then measureDeviceDo reads fuel count (pos+1)
      else some (none,pos+1)

def measuredAgree (first second : Measured) : Prop :=
  |first.temperature-second.temperature| < 15/100 ∧ |first.humidity-second.humidity| < 15/100

instance (first second : Measured) : Decidable (measuredAgree first second) :=
  inferInstanceAs (Decidable (_ ∧ _))

/-- The loop of `dht22_worker_measure_device`, which never increments its counter. Its result is
the measurement, and the number of reads. -/
def measureDeviceLoop (reads : Nat → DhtRead) (limit : Nat) :
    Nat → Nat → Nat → Option (Option Measured × Nat)
  | 0, _, _ => none
  | turns+1, count, pos =>
    match measureDeviceDo reads (limit-pos) 0 pos with
    | none => none
    | some (none,pos) => some (none,pos)
    | some (some first,pos) =>
      match measureDeviceDo reads (limit-pos) 0 pos with
      | none => none
      | some (none,pos) => some (none,pos)
      | some (some second,pos) =>
        if measuredAgree first second then some (some second,pos)
        else if count < 3 then measureDeviceLoop reads limit turns count pos
        else some (none,pos)

/-- `dht22_worker_measure_device`. There is no result when it has not returned after `limit`
reads. -/
def measureDevice (reads : Nat → DhtRead) (limit : Nat) : Option (Option Measured × Nat) :=
  measureDeviceLoop reads limit (limit+1) 0 0

def unanswered (reads : Nat → DhtRead) : Nat → Nat
  | 0 => 0
  | n+1 =>
    match (reads n).status with
    | .success => 0
    | .sensorNotResponding => unanswered reads n+1
    | .timeout | .checksum => unanswered reads n

def successes (reads : Nat → DhtRead) : Nat → List Measured
  | 0 => []
  | n+1 =>
    if (reads n).status = .success then successes reads n ++ [(reads n).measured]
    else successes reads n

def PairAgrees (readings : List Measured) : Prop :=
  ∃ before first second, readings = before ++ [first,second] ∧ before.length % 2 = 0 ∧
    measuredAgree first second

/-- After `n` reads there have been ten without a response and no success between them, or a pair of
readings that agree. -/
def MeasureEnds (reads : Nat → DhtRead) (n : Nat) : Prop :=
  unanswered reads n = 10 ∨ PairAgrees (successes reads n)

section Do
variable {reads : Nat → DhtRead} {fuel pos pos' : Nat}

def StillReading (reads : Nat → DhtRead) (pos n : Nat) : Prop :=
  ∀ m, pos ≤ m → m ≤ n → unanswered reads m < 10 ∧ successes reads m = successes reads pos

theorem StillReading.step {n : Nat} (h : StillReading reads (pos+1) n)
    (hpos : unanswered reads pos < 10) (hsame : successes reads (pos+1) = successes reads pos) :
    StillReading reads pos n := by
  intro m hm hle
  rcases Nat.eq_or_lt_of_le hm with rfl | hlt
  · exact ⟨hpos,rfl⟩
  · obtain ⟨hfew,hsuccesses⟩ := h m hlt hle
    exact ⟨hfew,hsuccesses.trans hsame⟩

inductive DoOutcome (reads : Nat → DhtRead) (fuel pos : Nat) :
    Option (Option Measured × Nat) → Prop where
  | reading (measured : Measured) (pos' : Nat) (hafter : pos < pos') (hlimit : pos' ≤ pos+fuel)
      (hstill : StillReading reads pos (pos'-1)) (hzero : unanswered reads pos' = 0)
      (hsuccess : successes reads pos' = successes reads pos ++ [measured]) :
      DoOutcome reads fuel pos (some (some measured,pos'))
  | silence (pos' : Nat) (hafter : pos < pos') (hlimit : pos' ≤ pos+fuel)
      (hten : unanswered reads pos' = 10) : DoOutcome reads fuel pos (some (none,pos'))
  | open_ (hstill : StillReading reads pos (pos+fuel)) : DoOutcome reads fuel pos none

theorem measureDeviceDo_outcome (reads : Nat → DhtRead) (fuel : Nat)
    (hpos : unanswered reads pos < 10) :
    DoOutcome reads fuel pos (measureDeviceDo reads fuel (unanswered reads pos) pos) := by
  induction fuel generalizing pos with
  | zero =>
    refine .open_ (fun m hm hle => ?_)
    have hm' : m = pos := by omega
    rw [hm']
    exact ⟨hpos,rfl⟩
  | succ fuel ih =>
    rw [measureDeviceDo]
    by_cases hsuccess : (reads pos).status = .success
    · simp only [if_pos hsuccess]
      refine .reading _ _ (by omega) (by omega) (fun m hm hle => ?_) (by simp [unanswered,hsuccess])
        (by simp [successes,hsuccess])
      have hm' : m = pos := by omega
      rw [hm']
      exact ⟨hpos,rfl⟩
    · simp only [if_neg hsuccess]
      have hcount : (if (reads pos).status = .sensorNotResponding then unanswered reads pos+1
          else unanswered reads pos) = unanswered reads (pos+1) := by
        rw [unanswered]
        cases hstatus : (reads pos).status <;> simp_all
      have hsame : successes reads (pos+1) = successes reads pos := by simp [successes,hsuccess]
      rw [hcount]
      by_cases hfew : unanswered reads (pos+1) < 10
      · rw [if_pos hfew]
        have hfuel : pos+1+fuel = pos+(fuel+1) := by omega
        generalize hrest : measureDeviceDo reads fuel (unanswered reads (pos+1)) (pos+1) = rest
        have houtcome := ih hfew
        rw [hrest] at houtcome
        cases houtcome with
        | reading measured pos' hafter hlimit hstill hzero hsuccesses =>
          exact .reading measured pos' (by omega) (by omega) (hstill.step hpos hsame) hzero
            (hsame ▸ hsuccesses)
        | silence pos' hafter hlimit hten => exact .silence pos' (by omega) (by omega) hten
        | open_ hstill => exact .open_ (hfuel ▸ hstill.step hpos hsame)
      · rw [if_neg hfew]
        have hten : unanswered reads (pos+1) = 10 := by
          rw [← hcount] at hfew ⊢
          split at hfew <;> rename_i hstatus
          · rw [if_pos hstatus]
            omega
          · omega
        exact .silence _ (by omega) (by omega) hten

end Do

section Loop
variable {reads : Nat → DhtRead} {limit turns pos : Nat}

theorem StillReading.open_of {n m : Nat} (h : StillReading reads pos n) (hm : pos ≤ m) (hle : m ≤ n)
    (hapart : ¬ PairAgrees (successes reads pos)) : ¬ MeasureEnds reads m := by
  obtain ⟨hfew,hsame⟩ := h m hm hle
  rintro (hten | hagrees)
  · omega
  · exact hapart (hsame ▸ hagrees)

theorem odd_disagrees {readings : List Measured} (hodd : readings.length % 2 = 1) :
    ¬ PairAgrees readings := by
  rintro ⟨before,first,second,rfl,heven,-⟩
  simp only [List.length_append,List.length_cons,List.length_nil] at hodd
  omega

theorem pair_agrees {before : List Measured} {first second : Measured}
    (heven : before.length % 2 = 0) :
    PairAgrees (before ++ [first] ++ [second]) ↔ measuredAgree first second := by
  constructor
  · rintro ⟨before',first',second',heq,-,hagree⟩
    rw [List.append_assoc] at heq
    obtain ⟨-,hlast⟩ := List.append_inj' heq rfl
    cases hlast
    exact hagree
  · intro hagree
    exact ⟨before,first,second,by simp,heven,hagree⟩

structure AtPair (reads : Nat → DhtRead) (pos : Nat) : Prop where
  zero : unanswered reads pos = 0
  even : (successes reads pos).length % 2 = 0
  apart : ¬ PairAgrees (successes reads pos)

theorem start_atPair (reads : Nat → DhtRead) : AtPair reads 0 := by
  refine ⟨rfl,rfl,?_⟩
  rintro ⟨before,first,second,heq,-⟩
  simp [successes] at heq

theorem AtPair.not_ended {pos₁ m n : Nat} (hpair : AtPair reads pos)
    (hstill : StillReading reads pos (pos₁-1)) (hodd : (successes reads pos₁).length % 2 = 1)
    (hstill₁ : StillReading reads pos₁ m) (hn : pos ≤ n) (hle : n ≤ m) :
    ¬ MeasureEnds reads n := by
  by_cases hbefore : n < pos₁
  · exact hstill.open_of hn (by omega) hpair.apart
  · exact hstill₁.open_of (by omega) hle (odd_disagrees hodd)

theorem measureDeviceLoop_iff (hpair : AtPair reads pos) (hpos : pos ≤ limit)
    (hturns : limit < turns+pos) :
    (measureDeviceLoop reads limit turns 0 pos).isSome ↔
      ∃ n, pos ≤ n ∧ n ≤ limit ∧ MeasureEnds reads n := by
  induction turns generalizing pos with
  | zero => omega
  | succ turns ih =>
    have hnone : unanswered reads pos < 10 := by
      rw [hpair.zero]
      decide
    have hfirst := measureDeviceDo_outcome reads (limit-pos) hnone
    rw [hpair.zero] at hfirst
    rw [measureDeviceLoop]
    generalize measureDeviceDo reads (limit-pos) 0 pos = result at hfirst
    cases hfirst with
    | open_ hstill =>
      simp only [Option.isSome_none,Bool.false_eq_true,false_iff]
      rintro ⟨n,hn,hle,hends⟩
      exact hstill.open_of hn (by omega) hpair.apart hends
    | silence pos₁ hafter hlimit hten =>
      simp only [Option.isSome_some,true_iff]
      exact ⟨pos₁,by omega,by omega,.inl hten⟩
    | reading first pos₁ hafter hlimit hstill hzero hsuccesses =>
      have hodd : (successes reads pos₁).length % 2 = 1 := by
        have heven := hpair.even
        rw [hsuccesses,List.length_append,List.length_singleton]
        omega
      have hnone₁ : unanswered reads pos₁ < 10 := by
        rw [hzero]
        decide
      have hsecond := measureDeviceDo_outcome reads (limit-pos₁) hnone₁
      rw [hzero] at hsecond
      simp only
      generalize measureDeviceDo reads (limit-pos₁) 0 pos₁ = result₁ at hsecond
      cases hsecond with
      | open_ hstill₁ =>
        simp only [Option.isSome_none,Bool.false_eq_true,false_iff]
        rintro ⟨n,hn,hle,hends⟩
        exact hpair.not_ended hstill hodd hstill₁ hn (by omega) hends
      | silence pos₂ hafter₁ hlimit₁ hten =>
        simp only [Option.isSome_some,true_iff]
        exact ⟨pos₂,by omega,by omega,.inl hten⟩
      | reading second pos₂ hafter₁ hlimit₁ hstill₁ hzero₁ hsuccesses₁ =>
        have hagrees : PairAgrees (successes reads pos₂) ↔ measuredAgree first second := by
          rw [hsuccesses₁,hsuccesses]
          exact pair_agrees hpair.even
        by_cases hagree : measuredAgree first second
        · simp only [if_pos hagree,Option.isSome_some,true_iff]
          exact ⟨pos₂,by omega,by omega,.inr (hagrees.mpr hagree)⟩
        · simp only [if_neg hagree,Nat.zero_lt_succ,if_true]
          have heven : (successes reads pos₂).length % 2 = 0 := by
            rw [hsuccesses₁,List.length_append,List.length_singleton]
            omega
          rw [ih ⟨hzero₁,heven,fun h => hagree (hagrees.mp h)⟩ (by omega) (by omega)]
          constructor
          · rintro ⟨n,hn,hle,hends⟩
            exact ⟨n,by omega,hle,hends⟩
          · rintro ⟨n,hn,hle,hends⟩
            refine ⟨n,?_,hle,hends⟩
            by_contra hbefore
            exact hpair.not_ended hstill hodd hstill₁ hn (by omega) hends

end Loop

/-- Neither counter bounds the reads: only reads without a response are counted, and the pairs are
not. -/
theorem measuring_ends_iff (reads : Nat → DhtRead) (limit : Nat) :
    (measureDevice reads limit).isSome ↔ ∃ n ≤ limit, MeasureEnds reads n := by
  rw [measureDevice,measureDeviceLoop_iff (start_atPair reads) (Nat.zero_le limit) (by omega)]
  simp

/-- A checksum that fails for ever. -/
theorem measuring_endless :
    ¬ ∃ limit, ∀ reads : Nat → DhtRead, (measureDevice reads limit).isSome := by
  rintro ⟨limit,hall⟩
  have hzero : ∀ n, unanswered (fun _ => .failed .checksum) n = 0 ∧
      successes (fun _ => .failed .checksum) n = [] := by
    intro n
    induction n with
    | zero => exact ⟨rfl,rfl⟩
    | succ n ih => exact ⟨ih.1,ih.2⟩
  have hreads := hall (fun _ => .failed .checksum)
  rw [measureDevice,measureDeviceLoop_iff (start_atPair _) (Nat.zero_le limit) (by omega)] at hreads
  obtain ⟨n,-,-,hten | ⟨before,first,second,heq,-⟩⟩ := hreads
  · rw [(hzero n).1] at hten
    omega
  · rw [(hzero n).2] at heq
    simp at heq

end DomoticaEngine
