import DomoticaEngine.SunrisetOwnership

/-!
Whether the flags of a SUNRISET follow its events.
-/

set_option autoImplicit false

namespace DomoticaEngine

inductive SunPair where
  | plain | civ | naut | astr
  deriving DecidableEq, Repr

def SunPair.rise : SunPair → SunrisetEvent
  | .plain => .rise
  | .civ => .riseCiv
  | .naut => .riseNaut
  | .astr => .riseAstr

def SunPair.set : SunPair → SunrisetEvent
  | .plain => .set
  | .civ => .setCiv
  | .naut => .setNaut
  | .astr => .setAstr

def SunPair.flag : SunPair → Sunriset → Bool
  | .plain => Sunriset.rised
  | .civ => Sunriset.risedCiv
  | .naut => Sunriset.risedNaut
  | .astr => Sunriset.risedAstr

def lastEvent (pair : SunPair) (history : List SunMark) : Option SunrisetEvent :=
  history.foldl (fun last m =>
    match m with
    | .raise se => if se = pair.rise ∨ se = pair.set then some se else last
    | .calculate => last) none

structure FlagFollows (pair : SunPair) (s : SunState) : Prop where
  rise : lastEvent pair s.history = some pair.rise → pair.flag s.sr.flags = true
  set : lastEvent pair s.history = some pair.set → pair.flag s.sr.flags = false

def SunState.pending (s : SunState) (se : SunrisetEvent) : Bool := (s.sr.sunrisetTimers se).isSome

def UpAt (pair : SunPair) (clock : SunClock) (s : SunState) : Prop :=
  clock.pending pair.rise (s.pending pair.rise) = false ∧
    clock.pending pair.set (s.pending pair.set) = true

/-- A timer that expires in time: the one of the rise while that of the set is pending, and the one
of a calculation at a time of the day at which the sun is up if and only if it has risen. -/
def ExpiresInTime (pair : SunPair) (input : SunInput) (s : SunState) : Prop :=
  match s.loop.get input.t with
  | some ⟨_,.event sunevent⟩ =>
    s.heap.get sunevent = some pair.rise → s.pending pair.set = true
  | some ⟨_,.nextRun⟩ =>
    (lastEvent pair s.history = some pair.rise → UpAt pair input.clock s) ∧
      (lastEvent pair s.history = some pair.set → ¬UpAt pair input.clock s)
  | none => True

section Flags
variable {pair : SunPair} {s s' : SunState} {input : SunInput} {se : SunrisetEvent}
  {history : List SunMark}

theorem rise_ne_set (pair : SunPair) : pair.rise ≠ pair.set := by
  cases pair <;> decide

theorem flag_eq (pair : SunPair) (timers : SunrisetEvent → Bool) :
    pair.flag (sunrisetFlags timers) = (!timers pair.rise && timers pair.set) := by
  cases pair <;> rfl

theorem FlagsCurrent.flag (h : FlagsCurrent s) (pair : SunPair) :
    pair.flag s.sr.flags = (!s.pending pair.rise && s.pending pair.set) := by
  rw [h,flag_eq]
  rfl

theorem lastEvent_calculate :
    lastEvent pair (history ++ [.calculate]) = lastEvent pair history := by
  rw [lastEvent,List.foldl_append]
  rfl

theorem lastEvent_raise : lastEvent pair (history ++ [.raise se]) =
    if se = pair.rise ∨ se = pair.set then some se else lastEvent pair history := by
  rw [lastEvent,List.foldl_append]
  rfl

def SunState.afterEvent (s : SunState) (se : SunrisetEvent) (t sunevent : Nat) : SunState :=
  ((s.mark (.raise se)).dropped se t sunevent).sunrisetCurrentState

theorem afterEvent_pending {t sunevent : Nat} (se' : SunrisetEvent) :
    (s.afterEvent se t sunevent).pending se' = if se' = se then false else s.pending se' := by
  change Option.isSome (Function.update s.sr.sunrisetTimers se none se') = _
  split
  · rename_i heq
    rw [heq,Function.update_self]
    rfl
  · rename_i hne
    rw [Function.update_of_ne hne]
    rfl

theorem afterEvent_flag {t sunevent : Nat} (pair : SunPair) :
    pair.flag (s.afterEvent se t sunevent).sr.flags =
      (!(s.afterEvent se t sunevent).pending pair.rise &&
        (s.afterEvent se t sunevent).pending pair.set) := by
  have hcurrent : FlagsCurrent (s.afterEvent se t sunevent) := rfl
  exact hcurrent.flag pair

theorem afterEvent_last {t sunevent : Nat} :
    lastEvent pair (s.afterEvent se t sunevent).history =
      if se = pair.rise ∨ se = pair.set then some se else lastEvent pair s.history :=
  lastEvent_raise

theorem follows_event {sunevent : Nat} (hinv : SunInvariant s) (hs : FlagFollows pair s)
    (hheld : Held s se input.t sunevent) :
    FlagFollows pair (s.afterEvent se input.t sunevent) ↔ ExpiresInTime pair input s := by
  obtain ⟨delay,htimer⟩ := hheld.timer
  have hcond : ExpiresInTime pair input s ↔ (se = pair.rise → s.pending pair.set = true) := by
    simp only [ExpiresInTime,htimer,hheld.record,Option.some.injEq]
  have hne := rise_ne_set pair
  have hlast := @afterEvent_last pair s se input.t sunevent
  have hflag := @afterEvent_flag s se input.t sunevent pair
  rw [afterEvent_pending,afterEvent_pending] at hflag
  rw [hcond]
  by_cases hrise : se = pair.rise
  · rw [if_pos (.inl hrise)] at hlast
    rw [if_pos hrise.symm,if_neg (hrise ▸ hne.symm),Bool.not_false,Bool.true_and] at hflag
    constructor
    · intro hfollows _
      exact hflag.symm.trans (hfollows.rise (hlast.trans (congrArg some hrise)))
    · intro hpending
      refine ⟨fun _ => hflag.trans (hpending hrise),fun hset => ?_⟩
      exact (hne (hrise.symm.trans (Option.some.inj (hlast.symm.trans hset)))).elim
  · refine iff_of_true ?_ (fun heq => (hrise heq).elim)
    by_cases hset : se = pair.set
    · rw [if_pos (.inr hset)] at hlast
      rw [if_pos hset.symm,Bool.and_false] at hflag
      exact ⟨fun hup => (hrise (Option.some.inj (hlast.symm.trans hup))).elim,fun _ => hflag⟩
    · rw [if_neg (by tauto)] at hlast
      rw [if_neg (Ne.symm hrise),if_neg (Ne.symm hset),← hinv.flags.flag] at hflag
      exact ⟨fun hup => hflag.trans (hs.rise (hlast.symm.trans hup)),
        fun hdown => hflag.trans (hs.set (hlast.symm.trans hdown))⟩

theorem nextRun_pending {s₁ : SunState} (hcalculates : SunCalculates input.clock s s₁) :
    ((s₁.stopNextRun input.t).sunrisetCalculateNextRun input.clock).pending =
      fun se => input.clock.pending se (s.pending se) := by
  funext se
  rw [SunState.pending,(calculateNextRun_keeps input.clock (s₁.stopNextRun input.t)).1]
  exact hcalculates.pending se

theorem follows_nextRun {delay : Int} {s₁ : SunState} (hinv : SunInvariant s')
    (htimer : s.loop.get input.t = some ⟨delay,.nextRun⟩)
    (hcalculates : SunCalculates input.clock s s₁)
    (hs' : s' = (s₁.stopNextRun input.t).sunrisetCalculateNextRun input.clock) :
    FlagFollows pair s' ↔ ExpiresInTime pair input s := by
  have hcond : ExpiresInTime pair input s ↔
      (lastEvent pair s.history = some pair.rise → UpAt pair input.clock s) ∧
        (lastEvent pair s.history = some pair.set → ¬UpAt pair input.clock s) := by
    simp only [ExpiresInTime,htimer]
  have hpending : s'.pending = _ := hs' ▸ nextRun_pending hcalculates
  have hlast : lastEvent pair s'.history = lastEvent pair s.history := by
    rw [hs',(calculateNextRun_keeps input.clock (s₁.stopNextRun input.t)).2]
    change lastEvent pair s₁.history = _
    rw [hcalculates.history]
    split
    · exact lastEvent_calculate
    · rw [List.append_nil]
  have hup : pair.flag s'.sr.flags = true ↔ UpAt pair input.clock s := by
    rw [hinv.flags.flag,hpending,Bool.and_eq_true,Bool.not_eq_true']
    rfl
  rw [hcond,← hup,← hlast,Bool.not_eq_true]
  exact ⟨fun h => ⟨h.rise,h.set⟩,fun h => ⟨h.1,h.2⟩⟩

theorem follows_step (hinv : SunInvariant s) (hs : FlagFollows pair s)
    (hstep : sunStep input s = some s') :
    SunInvariant s' ∧ (FlagFollows pair s' ↔ ExpiresInTime pair input s) := by
  have hbranch := sunStep_branch hinv hstep
  have hinv' := hbranch.invariant hinv
  refine ⟨hinv',?_⟩
  cases hbranch with
  | event hheld => exact follows_event hinv hs hheld
  | nextRun htimer hcalculates => exact follows_nextRun hinv' htimer hcalculates rfl

/-- Before any timer has expired there is no last event. -/
theorem sunStart_follows {clock : SunClock} (hstart : sunStart clock = some s) :
    SunInvariant s ∧ FlagFollows pair s := by
  obtain ⟨s₀,hs₀,hinv,hhistory⟩ := sunStart_some clock
  cases hs₀.symm.trans hstart
  have hnone : lastEvent pair s.history = none := by
    rw [hhistory]
    split <;> rfl
  exact ⟨hinv,fun h => (by rw [hnone] at h; cases h),fun h => (by rw [hnone] at h; cases h)⟩

end Flags

/-- The flag of a pair follows its events in a run exactly when the timers expire in time. -/
theorem sun_follows_iff (pair : SunPair) {clock : SunClock} {inputs : List SunInput} {s : SunState}
    (hstart : sunStart clock = some s) :
    Runs.Always sunStep (FlagFollows pair) inputs s ↔
      Runs.Meets sunStep (ExpiresInTime pair) inputs s := by
  obtain ⟨hinv,hfollows⟩ := sunStart_follows hstart
  exact Runs.always_iff_meets (fun _ _ _ => follows_step) hinv hfollows

theorem sun_follows_day :
    ∃ s, sunStart (sunDay 18000) = some s ∧
      (Runs.Always sunStep (FlagFollows .plain) [⟨0,sunDay 21600⟩,⟨1,sunDay 73800⟩] s ↔
        Runs.Meets sunStep (ExpiresInTime .plain) [⟨0,sunDay 21600⟩,⟨1,sunDay 73800⟩] s) :=
  ⟨_,rfl,@sun_follows_iff .plain (sunDay 18000) _ _ rfl⟩

/-- A day in a summer of the north: the twilight ends at 00:30, which is hour 24 of the day before,
and begins at 02:00. -/
def summerDay (now : Int) : SunClock :=
  dayClock now (fun
    | .rise | .riseCiv | .riseNaut | .riseAstr => (2,0)
    | .set | .setCiv | .setNaut | .setAstr => (24,30))

/-- After the rise at 02:00 the timer of the set is gone already. -/
theorem summer_unfollowed :
    ∃ s, sunStart (summerDay 3600) = some s ∧
      ¬Runs.Always sunStep (FlagFollows .astr) [⟨3,summerDay 7200⟩] s := by
  refine ⟨_,rfl,fun h => ?_⟩
  have hfollows : FlagFollows .astr _ := h.2 _ rfl
  have hflag := hfollows.rise (by decide)
  revert hflag
  decide

end DomoticaEngine
