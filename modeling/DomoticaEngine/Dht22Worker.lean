import Mathlib.Algebra.Order.Field.Rat
import DomoticaEngine.Types
import DomoticaEngine.Library.Waits

/-!
The worker that reads the DHT22 sensors.
-/

set_option autoImplicit false

namespace DomoticaEngine
open Waits

/-- The values that `pi_2_dht_read` answers the worker with. The argument check is left out: the
worker always passes two addresses. -/
inductive DhtStatus where
  | success | sensorNotResponding | timeout | checksum
  deriving DecidableEq, Repr

/-- The scheduling of the calling thread. The process may raise it, as it also maps /dev/mem. -/
inductive Scheduling where
  | default | fifoMax
  deriving DecidableEq, Repr

def schedSetMaxPriority (_sched : Scheduling) : Scheduling := .fifoMax

def schedSetDefaultPriority (_sched : Scheduling) : Scheduling := .default

def dhtMaxcount : Nat := 3200000

def dhtPulses : Nat := 41

/-- The values are floats in the program, rounded from tenths. -/
structure DhtRead where
  status : DhtStatus
  humidity : ℚ
  temperature : ℚ
  deriving DecidableEq

def DhtRead.failed (status : DhtStatus) : DhtRead := ⟨status,0,0⟩

def pulseCount (pulseCounts : List Nat) (i : Nat) : Nat := pulseCounts.getD i 0

/-- The sum over `i = 2, 4, …`, a `uint32_t`. -/
def dhtThreshold (pulseCounts : List Nat) : Nat :=
  (List.range (dhtPulses-1)).foldl (fun threshold k =>
    (threshold+pulseCount pulseCounts (2*k+2)) % UInt32.size) 0 / (dhtPulses-1)

def dhtBit (pulseCounts : List Nat) (i : Nat) : UInt8 :=
  if pulseCount pulseCounts i ≥ dhtThreshold pulseCounts then 1 else 0

/-- The loop over `i = 3, 5, …`. -/
def dhtData (pulseCounts : List Nat) : List UInt8 :=
  (List.range (dhtPulses-1)).foldl (fun data k =>
    let i := 2*k+3
    data.modify ((i-3) / 16) (fun byte => byte <<< 1 ||| dhtBit pulseCounts i))
    (List.replicate 5 0)

def dhtByte (data : List UInt8) (i : Nat) : Nat := (data.getD i 0).toNat

/-- Temperatures have a sign in front of 15 bits. -/
def dhtTemperature (high low : Nat) : Int :=
  let magnitude : Int := (high % 128)*256+low
  if high / 128 % 2 = 1 then -magnitude else magnitude

/-- The part of `pi_2_dht_read` after the pulses are recorded. -/
def dhtDecode (pulseCounts : List Nat) : DhtRead :=
  let data := dhtData pulseCounts
  if dhtByte data 4 = (dhtByte data 0+dhtByte data 1+dhtByte data 2+dhtByte data 3) % 256 then
    { status := .success,
      humidity := ((dhtByte data 0*256+dhtByte data 1 : Nat) : ℚ) / 10,
      temperature := (dhtTemperature (dhtByte data 2) (dhtByte data 3) : ℚ) / 10 }
  else .failed .checksum

def pulseLevels : List Bool := (List.replicate dhtPulses [false,true]).flatten

/-- `pi_2_dht_read`, for the levels that its looks at the pin find. -/
def pi2DhtRead (levels : Nat → Bool) (sched : Scheduling) : DhtRead × Scheduling :=
  let sched := schedSetMaxPriority sched
  match wait levels true dhtMaxcount 0 0 with
  | none => (.failed .sensorNotResponding,sched)
  | some (_,pos) =>
    match waits levels dhtMaxcount pulseLevels pos with
    | none => (.failed .timeout,sched)
    | some (pulseCounts,_) =>
      let sched := schedSetDefaultPriority sched
      (dhtDecode pulseCounts,sched)

/-- What the pin does when a sensor answers in time: it is high, and then low and high in turns,
each for fewer looks than DHT_MAXCOUNT. -/
def SensorAnswers (levels : Nat → Bool) (pulseCounts : List Nat) : Prop :=
  ∃ count pos, Follows levels dhtMaxcount (true :: pulseLevels) 0 (count :: pulseCounts) pos

theorem pi2DhtRead_answered {levels : Nat → Bool} {pulseCounts : List Nat}
    (h : SensorAnswers levels pulseCounts) (sched : Scheduling) :
    pi2DhtRead levels sched = (dhtDecode pulseCounts,.default) := by
  obtain ⟨count,pos,hfollows⟩ := h
  have hwaits := waits_iff.mpr hfollows
  rw [waits] at hwaits
  unfold pi2DhtRead
  cases hwait : wait levels true dhtMaxcount 0 0 with
  | none => simp [hwait] at hwaits
  | some r =>
    simp only [hwait,Option.map_eq_some_iff] at hwaits
    obtain ⟨⟨counts,pos₁⟩,hrest,heq⟩ := hwaits
    cases heq
    simp [hrest,schedSetDefaultPriority]

theorem pi2DhtRead_unanswered {levels : Nat → Bool} (h : ∀ counts, ¬ SensorAnswers levels counts)
    (sched : Scheduling) : (pi2DhtRead levels sched).2 = .fifoMax := by
  unfold pi2DhtRead
  cases hwait : wait levels true dhtMaxcount 0 0 with
  | none => rfl
  | some r =>
    obtain ⟨count,pos⟩ := r
    cases hwaits : waits levels dhtMaxcount pulseLevels pos with
    | none => simp [hwaits,schedSetMaxPriority]
    | some r =>
      obtain ⟨counts,pos₁⟩ := r
      refine absurd ⟨count,pos₁,waits_iff.mp ?_⟩ (h counts)
      simp [waits,hwait,hwaits]

/-- The priority is lowered in one place, behind the loops that return early. -/
theorem priority_restored_iff (levels : Nat → Bool) (sched : Scheduling) :
    (pi2DhtRead levels sched).2 = .default ↔ ∃ pulseCounts, SensorAnswers levels pulseCounts := by
  constructor
  · intro hrestored
    by_contra hnone
    rw [pi2DhtRead_unanswered (not_exists.mp hnone)] at hrestored
    cases hrestored
  · rintro ⟨pulseCounts,hanswers⟩
    rw [pi2DhtRead_answered hanswers]

/-- Without a sensor the pin stays high. -/
theorem priority_kept :
    ¬ ∀ (levels : Nat → Bool) (sched : Scheduling), (pi2DhtRead levels sched).2 = .default := by
  intro h
  have hsilent : ∀ counts, ¬ SensorAnswers (fun _ => true) counts := by
    rintro counts ⟨count,pos,hfollows⟩
    cases hfollows with
    | level _ _ hturns _ => exact hturns rfl
  have hkept := pi2DhtRead_unanswered hsilent .default
  rw [h] at hkept
  cases hkept

end DomoticaEngine
