import DomoticaEngine.Library.Runs

/-!
The timer that calls the schedules at every minute, against the clock it is armed with.
-/

set_option autoImplicit false

namespace DomoticaEngine

/-- `struct timeval`, as gettimeofday fills it. -/
structure Timeval where
  sec : Nat
  usec : Nat
  valid : usec < 1000000
  deriving DecidableEq, Repr

def Timeval.micros (now : Timeval) : Nat := now.sec*1000000 + now.usec

/-- What `get_current_time_ms` gives at this time. -/
def timeMs (now : Timeval) : Nat := now.sec*1000 + now.usec/1000

/-- What `time` gives at this time. -/
def timeS (now : Timeval) : Nat := now.sec

def untilNext (now : Timeval) : Nat := 1000*60 - timeMs now % (1000*60)

/-- The time that `schedule_check_events` passes to `schedule_check_event`. -/
def checkedTime (t : Nat) : Nat :=
  let tOff := t % 60
  if tOff > 30 then t + (60-tOff)
  else if tOff > 0 then t - tOff
  else t

/-- `armed` is the millisecond for which the timer is set, `checked` are the times that were
passed to `schedule_check_event`. -/
structure MinuteTimer where
  armed : Nat
  checked : List Nat
  deriving DecidableEq, Repr

/-- A callback, with the time at which it calculates the next one and the time at which it
checks the schedules. -/
structure Firing where
  calculates : Timeval
  checks : Timeval
  deriving DecidableEq, Repr

/-- `calculate_next_timing_event`. Its first call has no argument and checks nothing. -/
def calculateNextTimingEvent (arg : Bool) (firing : Firing) (timer : MinuteTimer) : MinuteTimer :=
  let timer := { timer with armed := timeMs firing.calculates + untilNext firing.calculates }
  if arg then
    { timer with checked := timer.checked ++ [checkedTime (timeS firing.checks)] }
  else timer

def MinuteTimer.start (now : Timeval) : MinuteTimer :=
  calculateNextTimingEvent false ⟨now,now⟩ { armed := 0, checked := [] }

def Near (armed : Nat) (now : Timeval) : Prop :=
  armed*1000 < now.micros + 30*1000000 ∧ now.micros < armed*1000 + 30*1000000

instance (armed : Nat) (now : Timeval) : Decidable (Near armed now) :=
  inferInstanceAs (Decidable (_ ∧ _))

def fire (firing : Firing) (timer : MinuteTimer) : Option MinuteTimer :=
  if Near timer.armed firing.calculates ∧ Near timer.armed firing.checks ∧
      firing.calculates.micros ≤ firing.checks.micros then
    some (calculateNextTimingEvent true firing timer)
  else none

def minutesFrom (armed : Nat) : Nat → List Nat
  | 0 => []
  | n+1 => armed/1000 :: minutesFrom (armed+60000) n

def Punctual : List Firing → MinuteTimer → Prop
  | [], _ => True
  | [firing], timer => timer.armed/1000 < timeS firing.checks + 30
  | firing :: next :: firings, timer =>
    timer.armed ≤ timeMs firing.calculates ∧
      Punctual (next :: firings) (calculateNextTimingEvent true firing timer)

theorem checkedTime_cases (t : Nat) :
    (30 < t % 60 ∧ checkedTime t = t + (60 - t % 60)) ∨
      (t % 60 ≤ 30 ∧ checkedTime t = t - t % 60) := by
  unfold checkedTime
  by_cases hearly : t % 60 > 30
  · exact .inl ⟨hearly,if_pos hearly⟩
  · refine .inr ⟨by omega,(if_neg hearly).trans ?_⟩
    by_cases hpast : t % 60 > 0
    · exact if_pos hpast
    · rw [if_neg hpast]
      omega

def OnMinute (timer : MinuteTimer) : Prop := ∃ k, timer.armed = 60000*(k+1)

section Firing
variable {timer timer' : MinuteTimer} {firing : Firing}

theorem start_onMinute (now : Timeval) : OnMinute (MinuteTimer.start now) := by
  refine ⟨timeMs now / 60000,?_⟩
  have harmed : (MinuteTimer.start now).armed = timeMs now + untilNext now := rfl
  rw [harmed,untilNext]
  omega

theorem fire_some (h : fire firing timer = some timer') :
    Near timer.armed firing.calculates ∧ Near timer.armed firing.checks ∧
      firing.calculates.micros ≤ firing.checks.micros ∧
      timer' = calculateNextTimingEvent true firing timer := by
  unfold fire at h
  split at h
  · rename_i hnear
    exact ⟨hnear.1,hnear.2.1,hnear.2.2,(Option.some.inj h).symm⟩
  · cases h

theorem fire_checked (h : fire firing timer = some timer') :
    timer'.checked = timer.checked ++ [checkedTime (timeS firing.checks)] := by
  rw [(fire_some h).2.2.2]
  rfl

theorem fire_armed (hminute : OnMinute timer) (h : fire firing timer = some timer') :
    timer'.armed =
      if timer.armed ≤ timeMs firing.calculates then timer.armed+60000 else timer.armed := by
  obtain ⟨k,hk⟩ := hminute
  obtain ⟨⟨hafter,hbefore⟩,-,-,rfl⟩ := fire_some h
  have husec := firing.calculates.valid
  simp only [Timeval.micros] at hafter hbefore
  have harmed : (calculateNextTimingEvent true firing timer).armed =
      timeMs firing.calculates + untilNext firing.calculates := rfl
  rw [harmed,untilNext]
  by_cases hlate : timer.armed ≤ timeMs firing.calculates
  · rw [if_pos hlate]
    simp only [timeMs] at hlate ⊢
    omega
  · rw [if_neg hlate]
    simp only [timeMs] at hlate ⊢
    omega

theorem fire_onMinute (hminute : OnMinute timer) (h : fire firing timer = some timer') :
    OnMinute timer' := by
  have harmed := fire_armed hminute h
  obtain ⟨k,hk⟩ := hminute
  split at harmed
  · exact ⟨k+1,by omega⟩
  · exact ⟨k,by omega⟩

theorem fire_minute (hminute : OnMinute timer) (h : fire firing timer = some timer') :
    checkedTime (timeS firing.checks) =
      if timer.armed/1000 < timeS firing.checks + 30 then timer.armed/1000
      else timer.armed/1000 - 60 := by
  obtain ⟨k,hk⟩ := hminute
  obtain ⟨-,⟨hafter,hbefore⟩,-,-⟩ := fire_some h
  have husec := firing.checks.valid
  simp only [Timeval.micros] at hafter hbefore
  have hchecked := checkedTime_cases firing.checks.sec
  by_cases hreached : timer.armed/1000 < timeS firing.checks + 30
  · rw [if_pos hreached]
    simp only [timeS] at hreached ⊢
    omega
  · rw [if_neg hreached]
    simp only [timeS] at hreached ⊢
    omega

theorem fire_minute_iff (hminute : OnMinute timer) (h : fire firing timer = some timer') :
    checkedTime (timeS firing.checks) = timer.armed/1000 ↔
      timer.armed/1000 < timeS firing.checks + 30 := by
  rw [fire_minute hminute h]
  obtain ⟨k,hk⟩ := hminute
  by_cases hreached : timer.armed/1000 < timeS firing.checks + 30
  · exact iff_of_true (if_pos hreached) hreached
  · rw [if_neg hreached]
    omega

theorem late_checks (h : fire firing timer = some timer')
    (hlate : timer.armed ≤ timeMs firing.calculates) :
    timer.armed/1000 < timeS firing.checks + 30 := by
  obtain ⟨-,-,horder,-⟩ := fire_some h
  have hcalculates := firing.calculates.valid
  have hchecks := firing.checks.valid
  simp only [Timeval.micros] at horder
  simp only [timeMs] at hlate
  simp only [timeS]
  omega

end Firing

theorem run_checked {firings : List Firing} {timer timer' : MinuteTimer}
    (hrun : Runs.after fire firings timer = some timer') :
    timer'.checked =
      timer.checked ++ firings.map (fun firing => checkedTime (timeS firing.checks)) := by
  induction firings generalizing timer with
  | nil =>
    cases hrun
    simp
  | cons firing firings ih =>
    obtain ⟨timer₁,hfire,hrest⟩ := Runs.after_cons.mp hrun
    rw [ih hrest,fire_checked hfire]
    simp

theorem minutes_iff {firings : List Firing} {timer timer' : MinuteTimer}
    (hminute : OnMinute timer) (hrun : Runs.after fire firings timer = some timer') :
    firings.map (fun firing => checkedTime (timeS firing.checks)) =
      minutesFrom timer.armed firings.length ↔ Punctual firings timer := by
  induction firings generalizing timer with
  | nil => simp [minutesFrom,Punctual]
  | cons firing firings ih =>
    obtain ⟨timer₁,hfire,hrest⟩ := Runs.after_cons.mp hrun
    have hminute₁ := fire_onMinute hminute hfire
    have harmed₁ := fire_armed hminute hfire
    have hnext := ih hminute₁ hrest
    rw [List.map_cons,List.length_cons,minutesFrom,List.cons.injEq,fire_minute_iff hminute hfire]
    cases firings with
    | nil => simp [minutesFrom,Punctual]
    | cons next firings =>
      rw [Punctual,← (fire_some hfire).2.2.2,← hnext]
      by_cases hlate : timer.armed ≤ timeMs firing.calculates
      · rw [if_pos hlate] at harmed₁
        rw [harmed₁]
        simp [hlate,late_checks hfire hlate]
      · -- The same minute is next again, and is not the one that should follow.
        rw [if_neg hlate] at harmed₁
        obtain ⟨timer₂,hfire₂,-⟩ := Runs.after_cons.mp hrest
        have hagain := fire_minute hminute₁ hfire₂
        obtain ⟨k,hk⟩ := hminute
        simp only [hlate,false_and,iff_false,not_and]
        intro _ heq
        simp only [List.map_cons,List.length_cons,minutesFrom,List.cons.injEq] at heq
        rw [hagain,harmed₁] at heq
        split at heq <;> omega

/-- The minutes from the first one on are checked once each, and no others, exactly when the
callbacks are punctual. -/
theorem minuteTicks_iff (now : Timeval) (firings : List Firing) (timer : MinuteTimer)
    (hrun : Runs.after fire firings (MinuteTimer.start now) = some timer) :
    timer.checked = minutesFrom (MinuteTimer.start now).armed firings.length ↔
      Punctual firings (MinuteTimer.start now) := by
  rw [run_checked hrun]
  exact minutes_iff (start_onMinute now) hrun

def noon : Timeval := ⟨43200,5000,by decide⟩

def atMinute (k : Nat) : Firing :=
  ⟨⟨43200+60*k,2000,by decide⟩,⟨43200+60*k,3000,by decide⟩⟩

theorem minuteTicks_noon :
    ∃ timer, Runs.after fire [atMinute 1,atMinute 2] (MinuteTimer.start noon) = some timer ∧
      (timer.checked = minutesFrom (MinuteTimer.start noon).armed 2 ↔
        Punctual [atMinute 1,atMinute 2] (MinuteTimer.start noon)) := by
  obtain ⟨timer,hrun⟩ := Option.isSome_iff_exists.mp
    (by decide +kernel :
      (Runs.after fire [atMinute 1,atMinute 2] (MinuteTimer.start noon)).isSome = true)
  exact ⟨timer,hrun,minuteTicks_iff noon [atMinute 1,atMinute 2] timer hrun⟩

def earlyFiring : Firing :=
  ⟨⟨43259,999000,by decide⟩,⟨43259,999500,by decide⟩⟩

theorem minuteTicks_twice :
    Runs.after fire [earlyFiring,atMinute 1] (MinuteTimer.start noon) =
        some { armed := 43320000, checked := [43260,43260] } ∧
      [43260,43260] ≠ minutesFrom (MinuteTimer.start noon).armed 2 := by
  decide +kernel

end DomoticaEngine
