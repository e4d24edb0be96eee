import DomoticaEngine.SunrisetFlags
import DomoticaEngine.EventCoherence

/-!
The timers of a SUNRISET under the engine, whatever else happens between their callbacks.
-/

set_option autoImplicit false

namespace DomoticaEngine

/-- The SUNRISET `d` of the engine has the timers and the flags of the device. -/
structure Shows (d : DeviceId) (s : SunState) (house : House) : Prop where
  timers : house.sunrisetTimers d = s.pending
  flags : house.world.userdata d = .sunriset s.sr.flags

structure SunClock.Tells (clock : SunClock) (ct et : SunrisetEvent → Int) : Prop where
  calculate : clock.calculate = true
  event : ∀ se, clock.event se = some (ct se,et se)

inductive SunAsks (d : DeviceId) (input : SunInput) (s : SunState) : HouseInput → Prop where
  | event {se : SunrisetEvent} {delay : Int} {sunevent : Nat}
      (htimer : s.loop.get input.t = some ⟨delay,.event sunevent⟩)
      (hrecord : s.heap.get sunevent = some se) : SunAsks d input s (.sun d se)
  | nextRun {delay : Int} {ct et : SunrisetEvent → Int}
      (htimer : s.loop.get input.t = some ⟨delay,.nextRun⟩) (htells : input.clock.Tells ct et) :
      SunAsks d input s (.midnight d ct et)

def Apart (d : DeviceId) (input : HouseInput) : Prop :=
  (∀ se, input ≠ .sun d se) ∧ ∀ ct et, input ≠ .midnight d ct et

inductive SunRun (rules : List Rule) (d : DeviceId) :
    List SunInput → SunState → House → SunState → House → Prop where
  | nil {s : SunState} {house : House} : SunRun rules d [] s house s house
  | other {input : HouseInput} {inputs : List SunInput} {s s' : SunState}
      {house house₁ house' : House} (hapart : Apart d input)
      (hsteps : HouseSteps rules input house house₁)
      (hrest : SunRun rules d inputs s house₁ s' house') : SunRun rules d inputs s house s' house'
  | own {sunInput : SunInput} {input : HouseInput} {inputs : List SunInput} {s s₁ s' : SunState}
      {house house₁ house' : House} (hstep : sunStep sunInput s = some s₁)
      (hasks : SunAsks d sunInput s input) (hsteps : HouseSteps rules input house house₁)
      (hrest : SunRun rules d inputs s₁ house₁ s' house') :
      SunRun rules d (sunInput :: inputs) s house s' house'

section Showing
variable {rules : List Rule} {d : DeviceId} {s s₁ s' : SunState} {house house' : House}
  {inputs : List SunInput}

theorem shows_currentState (hcurrent : FlagsCurrent s) (house : House)
    {timers : SunrisetEvent → Bool} (htimers : s.pending = timers) :
    Shows d s (sunrisetCurrentState d (house.setTimers d timers)) := by
  have hown : (house.setTimers d timers).sunrisetTimers d = timers :=
    Function.update_self _ _ _
  refine ⟨hown.trans htimers.symm,?_⟩
  have hflags : s.sr.flags = sunrisetFlags ((house.setTimers d timers).sunrisetTimers d) := by
    rw [hown,← htimers]
    exact hcurrent
  rw [hflags]
  exact setUserdata_same _ _ _

theorem event_shows {se : SunrisetEvent} {t sunevent : Nat} (hheld : Held s se t sunevent)
    (hshows : Shows d s house) (hsteps : HouseSteps rules (.sun d se) house house') :
    Shows d (s.afterEvent se t sunevent) house' := by
  obtain ⟨fuel,hstep⟩ := hsteps
  have hpending : house.sunrisetTimers d se = true := by
    rw [hshows.timers,SunState.pending,hheld.pointer]
    rfl
  have hcurrent : FlagsCurrent (s.afterEvent se t sunevent) := rfl
  simp only [houseStep,hshows.flags,hpending,if_true] at hstep
  obtain ⟨w,-,rfl⟩ := Option.map_eq_some_iff.mp hstep
  refine shows_currentState hcurrent (house.setWorld w) (funext (fun se' => ?_))
  rw [hshows.timers,Function.update_apply]
  exact afterEvent_pending se'

theorem nextRun_shows {input : SunInput} {delay : Int} {ct et : SunrisetEvent → Int}
    (hinv : SunInvariant s) (htimer : s.loop.get input.t = some ⟨delay,.nextRun⟩)
    (hcalculates : SunCalculates input.clock s s₁) (htells : input.clock.Tells ct et)
    (hshows : Shows d s house) (hsteps : HouseSteps rules (.midnight d ct et) house house') :
    Shows d ((s₁.stopNextRun input.t).sunrisetCalculateNextRun input.clock) house' := by
  obtain ⟨fuel,hstep⟩ := hsteps
  have hcurrent := ((SunBranch.nextRun htimer hcalculates).invariant hinv).flags
  simp only [houseStep,hshows.flags] at hstep
  cases hstep
  refine shows_currentState hcurrent house ((nextRun_pending hcalculates).trans ?_)
  funext se
  rw [SunClock.pending,htells.calculate,if_pos rfl,htells.event]
  rfl

theorem own_shows {sunInput : SunInput} {input : HouseInput} (hinv : SunInvariant s)
    (hshows : Shows d s house) (hstep : sunStep sunInput s = some s₁)
    (hasks : SunAsks d sunInput s input) (hsteps : HouseSteps rules input house house') :
    Shows d s₁ house' := by
  cases sunStep_branch hinv hstep with
  | event hheld =>
    obtain ⟨delay,htimer⟩ := hheld.timer
    cases hasks with
    | event htimer' hrecord =>
      cases htimer.symm.trans htimer'
      cases hheld.record.symm.trans hrecord
      exact event_shows hheld hshows hsteps
    | nextRun htimer' => cases htimer.symm.trans htimer'
  | nextRun htimer hcalculates =>
    cases hasks with
    | event htimer' => cases htimer.symm.trans htimer'
    | nextRun _ htells => exact nextRun_shows hinv htimer hcalculates htells hshows hsteps

theorem Shows.setWorld (h : Shows d s house) {w : World}
    (hkeeps : ∀ sr, w.userdata d = .sunriset sr ↔ house.world.userdata d = .sunriset sr) :
    Shows d s (house.setWorld w) :=
  ⟨h.timers,(hkeeps _).mpr h.flags⟩

theorem Shows.otherSunriset (h : Shows d s house) {device : DeviceId} (hdevice : d ≠ device)
    (timers : SunrisetEvent → Bool) :
    Shows d s (sunrisetCurrentState device (house.setTimers device timers)) :=
  ⟨(Function.update_of_ne hdevice _ _).trans h.timers,
    (setUserdata_other hdevice _ _).trans h.flags⟩

theorem other_shows {input : HouseInput} (hshows : Shows d s house) (hapart : Apart d input)
    (hsteps : HouseSteps rules input house house') : Shows d s house' := by
  obtain ⟨fuel,hstep⟩ := hsteps
  obtain ⟨step,hbranch,hsame⟩ := houseStep_branch input house
  rw [hsame] at hstep
  cases hbranch with
  | command action =>
    obtain ⟨w,hw,rfl⟩ := Option.map_eq_some_iff.mp hstep
    exact hshows.setWorld (sunriset_rule.command hw d)
  | expire hpending =>
    obtain ⟨w,hw,rfl⟩ := Option.map_eq_some_iff.mp hstep
    exact hshows.setWorld (sunriset_rule.timer_callback hw d)
  | entry hdata hentry =>
    obtain ⟨w,hw,rfl⟩ := Option.map_eq_some_iff.mp hstep
    exact hshows.setWorld (sunriset_rule.after (sunriset_rule.trigger hw)
      (sunriset_rule.entry_condition _ _) d)
  | idle =>
    cases hstep
    exact hshows
  | @sun device se sr hdata hpending =>
    obtain ⟨w,hw,rfl⟩ := Option.map_eq_some_iff.mp hstep
    have hdevice : d ≠ device := fun heq => hapart.1 se (by rw [heq])
    exact (hshows.setWorld (sunriset_rule.trigger hw d)).otherSunriset hdevice _
  | @midnight device ct et sr hdata =>
    cases hstep
    have hdevice : d ≠ device := fun heq => hapart.2 ct et (by rw [heq])
    exact hshows.otherSunriset hdevice _
  | plain hdata =>
    obtain ⟨w,hw,rfl⟩ := Option.map_eq_some_iff.mp hstep
    exact hshows.setWorld (sunriset_rule.trigger hw d)
  | never => cases hstep

/-- Induction on the run: what the device keeps is what the engine shows. -/
theorem SunRun.shows (hrun : SunRun rules d inputs s house s' house') (hinv : SunInvariant s)
    (hshows : Shows d s house) : Shows d s' house' := by
  induction hrun with
  | nil => exact hshows
  | other hapart hsteps _ ih => exact ih hinv (other_shows hshows hapart hsteps)
  | own hstep hasks hsteps _ ih =>
    exact ih ((sunStep_branch hinv hstep).invariant hinv)
      (own_shows hinv hshows hstep hasks hsteps)

theorem SunRun.after (hrun : SunRun rules d inputs s house s' house') :
    Runs.after sunStep inputs s = some s' := by
  induction hrun with
  | nil => rfl
  | other _ _ _ ih => exact ih
  | own hstep _ _ _ ih => exact Runs.after_cons.mpr ⟨_,hstep,ih⟩

theorem start_shows {clock : SunClock} {w : World} {ct et : DeviceId → SunrisetEvent → Int}
    {sr : Sunriset} (hstart : sunStart clock = some s) (htells : clock.Tells (ct d) (et d))
    (hdata : w.userdata d = .sunriset sr) : Shows d s (House.start w ct et) := by
  obtain ⟨s₁,hs₁,hcalculates⟩ := sunrisetCalculate_some zeroed_invariant.owned clock
  obtain ⟨s₂,hs₂,hinv,-⟩ := sunStart_some clock
  cases hs₂.symm.trans hstart
  have hsame : s = s₁.sunrisetCalculateNextRun clock := by
    rw [sunStart,hs₁] at hstart
    exact (Option.some.inj hstart).symm
  have hpending : s.pending = sunrisetTimersAt (ct d) (et d) := by
    funext se
    rw [SunState.pending,hsame,(calculateNextRun_keeps clock s₁).1,hcalculates.pending,
      SunClock.pending,htells.calculate,if_pos rfl,htells.event]
    rfl
  refine ⟨hpending.symm,?_⟩
  have hflags : s.sr.flags = sunrisetFlags s.pending := hinv.flags
  rw [hflags,hpending]
  simp only [House.start,hdata]

theorem sunriset_check {w : World} {sr : Sunriset} (hdata : w.userdata d = .sunriset sr)
    (pair : SunPair) : deviceCheck d ⟨sunrisetCondition pair.rise,d⟩ w = pair.flag sr ∧
      deviceCheck d ⟨sunrisetCondition pair.set,d⟩ w = !pair.flag sr := by
  have htype : (w.userdata d).deviceType = .sunriset := by rw [hdata]; rfl
  unfold deviceCheck
  simp only [htype,sunriset_mask,decide_true,Bool.true_and]
  rw [hdata]
  cases pair <;> exact ⟨rfl,rfl⟩

end Showing

/-- Under any rules and with any callbacks in between: when the timers of a SUNRISET expire in time,
the engine answers SUNRISE and not SUNSET after the rise of a pair, and the other way round after
its set. -/
theorem sunriset_answers (rules : List Rule) (d : DeviceId) (pair : SunPair) {clock : SunClock}
    {w : World} {ct et : DeviceId → SunrisetEvent → Int} {sr : Sunriset} {inputs : List SunInput}
    {s s' : SunState} {house' : House} (hstart : sunStart clock = some s)
    (htells : clock.Tells (ct d) (et d)) (hdata : w.userdata d = .sunriset sr)
    (hrun : SunRun rules d inputs s (House.start w ct et) s' house')
    (hintime : Runs.Meets sunStep (ExpiresInTime pair) inputs s) :
    (lastEvent pair s'.history = some pair.rise →
        deviceCheck d ⟨sunrisetCondition pair.rise,d⟩ house'.world = true ∧
        deviceCheck d ⟨sunrisetCondition pair.set,d⟩ house'.world = false) ∧
      (lastEvent pair s'.history = some pair.set →
        deviceCheck d ⟨sunrisetCondition pair.rise,d⟩ house'.world = false ∧
        deviceCheck d ⟨sunrisetCondition pair.set,d⟩ house'.world = true) := by
  obtain ⟨hinv,hstarts⟩ := @sunStart_follows pair _ _ hstart
  have hshows := hrun.shows hinv (start_shows hstart htells hdata)
  have hall := (Runs.always_iff_meets (fun _ _ _ => follows_step) hinv hstarts).mpr hintime
  have hfollows := hall.last hrun.after
  obtain ⟨hrise,hset⟩ := sunriset_check hshows.flags pair
  rw [hrise,hset]
  refine ⟨fun hlast => ?_,fun hlast => ?_⟩
  · rw [hfollows.rise hlast]
    exact ⟨rfl,rfl⟩
  · rw [hfollows.set hlast]
    exact ⟨rfl,rfl⟩

def dawnTimes : SunrisetEvent → Int
  | .rise | .riseCiv | .riseNaut | .riseAstr => 21600
  | .set | .setCiv | .setNaut | .setAstr => 73800

theorem sunriset_answers_dawn :
    ∃ s s' house', sunStart (sunDay 18000) = some s ∧
      SunRun [⟨⟨1,.sunrise⟩,[],[⟨.unset,2,[]⟩]⟩] 1 [⟨0,sunDay 21600⟩] s
        (House.start morningWorld (fun _ _ => 18000) (fun _ => dawnTimes)) s' house' ∧
      house'.world.userdata 2 = .bool ⟨0⟩ ∧
      deviceCheck 1 ⟨.sunrise,1⟩ house'.world = true := by
  obtain ⟨s,s',house',hstart,hrun,hlamp,hintime,hlast⟩ : ∃ s s' house',
      sunStart (sunDay 18000) = some s ∧
      SunRun [⟨⟨1,.sunrise⟩,[],[⟨.unset,2,[]⟩]⟩] 1 [⟨0,sunDay 21600⟩] s
        (House.start morningWorld (fun _ _ => 18000) (fun _ => dawnTimes)) s' house' ∧
      house'.world.userdata 2 = .bool ⟨0⟩ ∧
      Runs.Meets sunStep (ExpiresInTime .plain) [⟨0,sunDay 21600⟩] s ∧
      lastEvent .plain s'.history = some .rise := by
    refine ⟨_,_,_,rfl,@SunRun.other _ _ (.command ⟨.set,2,[]⟩) _ _ _ _ _ _ ⟨nofun,nofun⟩ ⟨2,rfl⟩
      (.own rfl (.event rfl rfl) ⟨3,rfl⟩ .nil),rfl,?_,rfl⟩
    intro s' hs'
    exact ⟨fun _ => rfl,trivial⟩
  have htells : (sunDay 18000).Tells ((fun _ _ => 18000 : DeviceId → SunrisetEvent → Int) 1)
      ((fun _ => dawnTimes : DeviceId → SunrisetEvent → Int) 1) :=
    ⟨rfl,fun se => by cases se <;> rfl⟩
  have hanswers := (sunriset_answers _ 1 .plain hstart htells rfl hrun hintime).1 hlast
  exact ⟨s,s',house',hstart,hrun,hlamp,hanswers.1⟩

end DomoticaEngine
