import DomoticaEngine.HouseTraces
import DomoticaEngine.Library.OneShot

/-!
A TIMER between its actions and its timeouts.
-/

set_option autoImplicit false

namespace DomoticaEngine
open OneShot

def EventLoop.without (loop : EventLoop) : Option Nat → EventLoop
  | none => loop
  | some t => euEventTimerDestroy loop t

section Timeline
variable (d : DeviceId)

def OwnTimer (w : World) (t : Nat) : Prop :=
  ∃ delay, w.loop.pending t = some ⟨delay,.tmrTimeout,d⟩

def nextTimer (w : World) : Nat := (w.loop.without (timerHandle (w.userdata d))).calls.length

def timerAct (expired : Option Nat) : Occasion → Option (Act Nat)
  | .raise _ event => if event = ⟨d,.timeout⟩ then some (.fire expired) else none
  | .exec w action =>
    if action.device = d then
      match action.type with
      | .set => some (.set (nextTimer d w))
      | .unset => some .unset
      | _ => none
    else none

def HouseInput.expired : HouseInput → Option Nat
  | .expire t => some t
  | _ => none

/-- What happens to the device in a run. A TIMEOUT is one of the timer that has expired. -/
def timeline (served : List (HouseInput × List Occasion)) : List (Act Nat) :=
  served.flatMap (fun step => step.2.filterMap (timerAct d step.1.expired))

end Timeline

/-- The timer that a device remembers is its own as long as it is pending. -/
def HandlesOwned (w : World) : Prop :=
  ∀ e t, timerHandle (w.userdata e) = some t → t < w.loop.calls.length ∧
    ∀ timer, w.loop.pending t = some timer → timer.arg = e

structure LoopChange (e : DeviceId) (w w' : World) : Prop where
  calls : w.loop.calls.length ≤ w'.loop.calls.length
  fresh : ∀ t timer, w'.loop.pending t = some timer →
    w.loop.pending t = some timer ∨ (w.loop.calls.length ≤ t ∧ timer.arg = e)
  kept : ∀ t timer, w.loop.pending t = some timer →
    w'.loop.pending t = some timer ∨ timerHandle (w.userdata e) = some t
  handle : ∀ t, timerHandle (w'.userdata e) = some t →
    timerHandle (w.userdata e) = some t ∨
      (w.loop.calls.length ≤ t ∧ t < w'.loop.calls.length)

section Changes
variable {e : DeviceId} {w w' : World}

theorem LoopChange.refl (e : DeviceId) (w : World) : LoopChange e w w :=
  ⟨Nat.le_refl _,fun _ _ h => .inl h,fun _ _ h => .inl h,fun _ h => .inl h⟩

theorem LoopChange.still (hloop : w'.loop = w.loop)
    (hhandle : timerHandle (w'.userdata e) = timerHandle (w.userdata e)) : LoopChange e w w' := by
  refine ⟨by rw [hloop],fun _ _ h => .inl ?_,fun _ _ h => .inl ?_,fun _ h => .inl ?_⟩
  · rwa [← hloop]
  · rwa [hloop]
  · rwa [← hhandle]

theorem without_pending (loop : EventLoop) (handle : Option Nat) (t : Nat) :
    (loop.without handle).pending t = if handle = some t then none else loop.pending t := by
  cases handle with
  | none => simp [EventLoop.without]
  | some u =>
    simp only [EventLoop.without,destroy_pending,Option.some.injEq,eq_comm]

theorem without_calls (loop : EventLoop) (handle : Option Nat) :
    loop.calls.length ≤ (loop.without handle).calls.length := by
  cases handle with
  | none => exact Nat.le_refl _
  | some u => exact Nat.le_succ _

theorem LoopChange.cancel (hloop : w'.loop = w.loop.without (timerHandle (w.userdata e)))
    (hhandle : timerHandle (w'.userdata e) = none) : LoopChange e w w' := by
  refine ⟨?_,fun t timer h => .inl ?_,fun t timer h => ?_,fun t h => ?_⟩
  · rw [hloop]
    exact without_calls _ _
  · rw [hloop,without_pending] at h
    split at h
    · cases h
    · exact h
  · rw [hloop,without_pending]
    by_cases hown : timerHandle (w.userdata e) = some t
    · exact .inr hown
    · exact .inl (by rw [if_neg hown,h])
  · rw [hhandle] at h
    cases h

theorem LoopChange.create (timer : Timer) (harg : timer.arg = e)
    (hloop : w'.loop =
      (euEventTimerCreate (w.loop.without (timerHandle (w.userdata e))) timer).2)
    (hhandle : timerHandle (w'.userdata e) =
      some (w.loop.without (timerHandle (w.userdata e))).calls.length) : LoopChange e w w' := by
  have hcalls := without_calls w.loop (timerHandle (w.userdata e))
  refine ⟨?_,fun t timer h => ?_,fun t timer h => ?_,fun t h => .inr ?_⟩
  · rw [hloop]
    exact Nat.le_succ_of_le hcalls
  · rw [hloop,create_pending] at h
    by_cases ht : t = (w.loop.without (timerHandle (w.userdata e))).calls.length
    · rw [if_pos ht] at h
      cases h
      exact .inr ⟨ht ▸ hcalls,harg⟩
    · rw [if_neg ht,without_pending] at h
      split at h
      · cases h
      · exact .inl h
  · have hlt := w.loop.pending_lt h
    rw [hloop,create_pending,if_neg (by omega),without_pending]
    by_cases hown : timerHandle (w.userdata e) = some t
    · exact .inr hown
    · exact .inl (by rw [if_neg hown,h])
  · rw [hhandle] at h
    cases h
    rw [hloop]
    exact ⟨hcalls,Nat.lt_succ_self _⟩

theorem timerDeviceExec_change {tmr : Tmr} (hdata : w.userdata e = .timer tmr) (action : Action) :
    LoopChange e w (timerDeviceExec e tmr action w) := by
  have hhandle : timerHandle (w.userdata e) = tmr.timer := by rw [hdata]; rfl
  unfold timerDeviceExec
  cases action.type with
  | set =>
    refine .create ⟨tmr.timeoutMs.toNat,.tmrTimeout,e⟩ rfl ?_ ?_
    · rw [hhandle]
      cases tmr.timer <;> rfl
    · rw [hhandle,setUserdata_same]
      cases tmr.timer <;> rfl
  | unset =>
    refine .cancel ?_ ?_
    · rw [hhandle]
      cases tmr.timer <;> rfl
    · rw [setUserdata_same]
      rfl
  | _ => exact .refl e w

theorem LoopChange.send (h : LoopChange e w w') (msg : EltakoMessage) :
    LoopChange e w (w'.send msg) :=
  ⟨h.calls,h.fresh,h.kept,h.handle⟩

theorem fsb14CancelTimer_without (fsb14 : DeviceFsb14) (loop : EventLoop) :
    fsb14CancelTimer fsb14 loop = ({ fsb14 with timer := none },loop.without fsb14.timer) := by
  obtain ⟨address,duration,timer,condition,lastAction,locked⟩ := fsb14
  cases timer <;> rfl

theorem fsb14Exec_change {fsb14 : DeviceFsb14} (hdata : w.userdata e = .fsb14 fsb14)
    (data1 : UInt8) (action : Action) : LoopChange e w (fsb14Exec e fsb14 data1 action w) := by
  have hhandle : timerHandle (w.userdata e) = fsb14.timer := by rw [hdata]; rfl
  have hstill : ∀ fsb14' : DeviceFsb14, fsb14'.timer = none →
      LoopChange e w (w.setFsb14 e fsb14' (w.loop.without fsb14.timer)) := by
    intro fsb14' htimer
    refine .cancel (by rw [hhandle]; rfl) ?_
    rw [World.setFsb14,setUserdata_same]
    exact htimer
  have hmoves : ∀ (fsb14' : DeviceFsb14) (timer : Timer), timer.arg = e →
      fsb14'.timer = some (w.loop.without fsb14.timer).calls.length →
      LoopChange e w (w.setFsb14 e fsb14'
        (euEventTimerCreate (w.loop.without fsb14.timer) timer).2) := by
    intro fsb14' timer harg htimer
    refine .create timer harg (by rw [hhandle]; rfl) ?_
    rw [hhandle,World.setFsb14,setUserdata_same]
    exact htimer
  unfold fsb14Exec
  rw [fsb14CancelTimer_without]
  simp only
  split
  · exact hstill _ rfl
  · refine .send ?_ _
    unfold fsb14Move
    simp only
    split
    · exact hmoves _ _ rfl rfl
    · split
      · exact hmoves _ _ rfl rfl
      · exact hstill _ rfl

theorem fsb14DeviceExec_change {fsb14 : DeviceFsb14} (hdata : w.userdata e = .fsb14 fsb14)
    (action : Action) : LoopChange e w (fsb14DeviceExec e fsb14 action w) := by
  have hlock : ∀ locked, LoopChange e w
      (w.setFsb14 e { fsb14 with locked := locked } w.loop) := by
    intro locked
    refine .still rfl ?_
    rw [hdata,World.setFsb14,setUserdata_same]
    rfl
  unfold fsb14DeviceExec
  split
  · exact hlock true
  · exact hlock false
  · split
    · exact .refl e w
    · exact fsb14Exec_change hdata _ action

theorem deviceSet_change {action : Action} {event : Option Event} {raised : Option EventType}
    (hset : ∀ trigger, deviceSet trigger action.device action event w =
      resume trigger action.device w' raised) : LoopChange action.device w w' := by
  have hquiet := deviceSet_quiet hset
  have hstill : ∀ {v : World}, some v = some w' → v.loop = w.loop →
      timerHandle (v.userdata action.device) = timerHandle (w.userdata action.device) →
      LoopChange action.device w w' := by
    intro v hv hloop hhandle
    cases hv
    exact .still hloop hhandle
  unfold deviceSet at hquiet
  simp only at hquiet
  split at hquiet
  · cases hdata : w.userdata action.device with
    | bool b =>
      rw [hdata] at hquiet
      refine hstill (v := w.setUserdata action.device
        (.bool { b with val := boolCommand b action.type })) ?_ rfl
        (by rw [setUserdata_same,hdata]; rfl)
      simp only [boolExec,deviceTriggerEvent,ite_self] at hquiet
      exact hquiet
    | fsr14 fsr14 =>
      rw [hdata] at hquiet
      simp only [fsr14DeviceExec,deviceTriggerEvent] at hquiet
      split at hquiet
      · exact hstill hquiet rfl rfl
      · exact hstill hquiet rfl (by simp [hdata,timerHandle])
    | fud14 fud14 =>
      rw [hdata] at hquiet
      simp only [fud14DeviceExec,deviceTriggerEvent] at hquiet
      split at hquiet
      · exact hstill hquiet rfl rfl
      · exact hstill hquiet rfl (by simp [hdata,timerHandle])
    | fsb14 fsb14 =>
      rw [hdata] at hquiet
      cases hquiet
      exact fsb14DeviceExec_change hdata action
    | timer tmr =>
      rw [hdata] at hquiet
      cases hquiet
      exact timerDeviceExec_change hdata action
    | gpo gpio =>
      rw [hdata] at hquiet
      cases hquiet
      unfold gpioOutputExec
      cases action.type with
      | set | unset | toggle => exact .still rfl (by simp [hdata,timerHandle])
      | _ => exact .refl _ _
    | veluxKlf200 klf200 =>
      rw [hdata] at hquiet
      cases hquiet
      unfold veluxKlf200DeviceExec
      split <;> exact .still rfl (by simp [hdata,timerHandle])
    | _ =>
      rw [hdata] at hquiet
      exact hstill hquiet rfl rfl
  · exact hstill hquiet rfl rfl

end Changes

/-- The device is what the abstract timer says: it remembers the timer that is armed, which is the
only one pending, but for one that is firing. -/
structure TimerHolds (d : DeviceId) (firing : Option Nat) (w : World) (s : State Nat) : Prop where
  userdata : ∃ tmr, w.userdata d = .timer tmr ∧ tmr.timer = s.armed
  pending : ∀ t, s.armed = some t ↔ OwnTimer d w t ∧ firing ≠ some t
  used : ∀ t ∈ s.used, t < w.loop.calls.length
  firing : ∀ t ∈ firing, t < w.loop.calls.length
  owned : HandlesOwned w

structure TimerStretch (d : DeviceId) (firing expired : Option Nat) (w : World)
    (tr : List Occasion) (w' : World) (s s' : State Nat) : Prop where
  run : Run s (tr.filterMap (timerAct d expired)) s'
  holds : TimerHolds d firing w' s'
  calls : w.loop.calls.length ≤ w'.loop.calls.length
  old : ∀ t, t < w.loop.calls.length → OwnTimer d w' t → OwnTimer d w t

def TimerSeen (d : DeviceId) (firing expired : Option Nat) (w : World) (tr : List Occasion)
    (w' : World) : Prop :=
  ∀ s, TimerHolds d firing w s → ∃ s', TimerStretch d firing expired w tr w' s s'

section Stretches
variable {d : DeviceId} {firing expired : Option Nat} {w w₁ w' : World} {tr tr' : List Occasion}
  {s s₁ s' : State Nat}

theorem TimerStretch.refl (h : TimerHolds d firing w s) :
    TimerStretch d firing expired w [] w s s := ⟨.nil,h,Nat.le_refl _,fun _ _ => id⟩

theorem TimerStretch.append (h : TimerStretch d firing expired w tr w₁ s s₁)
    (h' : TimerStretch d firing expired w₁ tr' w' s₁ s') :
    TimerStretch d firing expired w (tr ++ tr') w' s s' where
  run := by
    rw [List.filterMap_append]
    exact h.run.append h'.run
  holds := h'.holds
  calls := Nat.le_trans h.calls h'.calls
  old := fun t ht hown => h.old t ht (h'.old t (Nat.lt_of_lt_of_le ht h.calls) hown)

theorem LoopChange.owned {e : DeviceId} (h : LoopChange e w w') (hw : HandlesOwned w)
    (hother : ∀ d, d ≠ e → w'.userdata d = w.userdata d) : HandlesOwned w' := by
  intro e' t ht
  have hold : timerHandle (w.userdata e') = some t →
      t < w'.loop.calls.length ∧ ∀ timer, w'.loop.pending t = some timer → timer.arg = e' := by
    intro hhandle
    obtain ⟨hlt,hpending⟩ := hw e' t hhandle
    refine ⟨Nat.lt_of_lt_of_le hlt h.calls,fun timer htimer => ?_⟩
    rcases h.fresh t timer htimer with htimer | ⟨hle,-⟩
    · exact hpending timer htimer
    · omega
  by_cases he : e' = e
  · subst he
    rcases h.handle t ht with hhandle | ⟨hle,hlt⟩
    · exact hold hhandle
    · refine ⟨hlt,fun timer htimer => ?_⟩
      rcases h.fresh t timer htimer with htimer | ⟨-,harg⟩
      · have hlt' := w.loop.pending_lt htimer
        omega
      · exact harg
  · rw [hother e' he] at ht
    exact hold ht

theorem LoopChange.ownTimer {e : DeviceId} (h : LoopChange e w w') (hw : HandlesOwned w)
    (hd : e ≠ d) (t : Nat) : OwnTimer d w' t ↔ OwnTimer d w t := by
  constructor
  · rintro ⟨delay,hpending⟩
    rcases h.fresh t _ hpending with hpending | ⟨-,harg⟩
    · exact ⟨delay,hpending⟩
    · exact absurd harg.symm hd
  · rintro ⟨delay,hpending⟩
    rcases h.kept t _ hpending with hpending | hhandle
    · exact ⟨delay,hpending⟩
    · exact absurd ((hw e t hhandle).2 _ hpending).symm hd

theorem TimerHolds.change {e : DeviceId} (h : TimerHolds d firing w s) (hd : e ≠ d)
    (hchange : LoopChange e w w') (hother : ∀ d, d ≠ e → w'.userdata d = w.userdata d) :
    TimerHolds d firing w' s where
  userdata := by
    rw [hother d (Ne.symm hd)]
    exact h.userdata
  pending := fun t => by
    rw [hchange.ownTimer h.owned hd]
    exact h.pending t
  used := fun t ht => Nat.lt_of_lt_of_le (h.used t ht) hchange.calls
  firing := fun t ht => Nat.lt_of_lt_of_le (h.firing t ht) hchange.calls
  owned := hchange.owned h.owned hother

theorem TimerHolds.stretch_other {e : DeviceId} (h : TimerHolds d firing w s) (hd : e ≠ d)
    (hchange : LoopChange e w w') (hother : ∀ d, d ≠ e → w'.userdata d = w.userdata d)
    (htr : tr.filterMap (timerAct d expired) = []) :
    TimerStretch d firing expired w tr w' s s where
  run := htr ▸ .nil
  holds := h.change hd hchange hother
  calls := hchange.calls
  old := fun t _ => (hchange.ownTimer h.owned hd t).mp

theorem timerDeviceExec_set {tmr : Tmr} (hdata : w.userdata d = .timer tmr) {action : Action}
    (htype : action.type = .set) :
    (timerDeviceExec d tmr action w).userdata d =
        .timer { tmr with timer := some (nextTimer d w) } ∧
      (timerDeviceExec d tmr action w).loop = (euEventTimerCreate (w.loop.without tmr.timer)
        ⟨tmr.timeoutMs.toNat,.tmrTimeout,d⟩).2 := by
  have hhandle : timerHandle (w.userdata d) = tmr.timer := by rw [hdata]; rfl
  unfold timerDeviceExec nextTimer
  rw [htype,hhandle]
  cases tmr.timer <;> simp [EventLoop.without]

theorem timerSet_stretch (h : TimerHolds d firing w s) {tmr : Tmr}
    (hdata : w.userdata d = .timer tmr) {action : Action} (hdevice : action.device = d)
    (htype : action.type = .set) :
    ∃ s', TimerStretch d firing expired w [.exec w action] (timerDeviceExec d tmr action w)
      s s' := by
  have hchange := timerDeviceExec_change hdata action
  obtain ⟨hafter,hloop⟩ := timerDeviceExec_set hdata htype
  have hhandle : timerHandle (w.userdata d) = tmr.timer := by rw [hdata]; rfl
  have hnext : nextTimer d w = (w.loop.without tmr.timer).calls.length := by
    rw [nextTimer,hhandle]
  have hcalls : w.loop.calls.length ≤ nextTimer d w := hnext ▸ without_calls w.loop tmr.timer
  have hact : timerAct d expired (.exec w action) = some (.set (nextTimer d w)) := by
    simp [timerAct,hdevice,htype]
  have harmed : s.armed = tmr.timer := by
    obtain ⟨tmr',hdata',htimer⟩ := h.userdata
    rw [hdata] at hdata'
    cases hdata'
    exact htimer.symm
  have hown : ∀ t, OwnTimer d (timerDeviceExec d tmr action w) t ↔
      t = nextTimer d w ∨ (OwnTimer d w t ∧ tmr.timer ≠ some t) := by
    intro t
    simp only [OwnTimer,hloop,create_pending,without_pending,hnext]
    by_cases ht : t = (w.loop.without tmr.timer).calls.length
    · simp [ht]
    · by_cases htimer : tmr.timer = some t <;> simp [ht,htimer]
  refine ⟨⟨some (nextTimer d w),insert (nextTimer d w) s.used⟩,?_,?_,hchange.calls,?_⟩
  · rw [List.filterMap_cons_some hact]
    refine .cons (.set (fun hmem => ?_)) .nil
    have hlt := h.used _ hmem
    omega
  · have hlt : nextTimer d w < (timerDeviceExec d tmr action w).loop.calls.length := by
      rw [hloop,hnext]
      exact Nat.lt_succ_self _
    refine ⟨⟨_,hafter,rfl⟩,fun t => ?_,fun t ht => ?_,
      fun t ht => Nat.lt_of_lt_of_le (h.firing t ht) hchange.calls,
      hchange.owned h.owned (fun e he => (timerDeviceExec_frame hdata action).other e he)⟩
    · rw [hown]
      constructor
      · rintro heq
        cases heq
        refine ⟨.inl rfl,fun hfiring => ?_⟩
        have hlt' := h.firing _ hfiring
        omega
      · rintro ⟨rfl | ⟨hold,htimer⟩,hfiring⟩
        · rfl
        · exact absurd (harmed.symm.trans ((h.pending t).mpr ⟨hold,hfiring⟩)) htimer
    · rcases Set.mem_insert_iff.mp ht with rfl | ht
      · exact hlt
      · exact Nat.lt_of_lt_of_le (h.used t ht) hchange.calls
  · intro t ht hown'
    rcases (hown t).mp hown' with rfl | ⟨hold,-⟩
    · omega
    · exact hold

theorem timerUnset_stretch (h : TimerHolds d firing w s) {tmr : Tmr}
    (hdata : w.userdata d = .timer tmr) {action : Action} (hdevice : action.device = d)
    (htype : action.type = .unset) :
    ∃ s', TimerStretch d firing expired w [.exec w action] (timerDeviceExec d tmr action w)
      s s' := by
  have hchange := timerDeviceExec_change hdata action
  have hloop : (timerDeviceExec d tmr action w).loop = w.loop.without tmr.timer := by
    unfold timerDeviceExec
    rw [htype]
    cases tmr.timer <;> rfl
  have hafter : (timerDeviceExec d tmr action w).userdata d =
      .timer { tmr with timer := none } := by
    unfold timerDeviceExec
    rw [htype]
    cases tmr.timer <;> simp
  have hact : timerAct d expired (.exec w action) = some .unset := by
    simp [timerAct,hdevice,htype]
  have harmed : s.armed = tmr.timer := by
    obtain ⟨tmr',hdata',htimer⟩ := h.userdata
    rw [hdata] at hdata'
    cases hdata'
    exact htimer.symm
  have hown : ∀ t, OwnTimer d (timerDeviceExec d tmr action w) t ↔
      OwnTimer d w t ∧ tmr.timer ≠ some t := by
    intro t
    simp only [OwnTimer,hloop,without_pending]
    by_cases htimer : tmr.timer = some t <;> simp [htimer]
  refine ⟨⟨none,s.used⟩,?_,⟨⟨_,hafter,rfl⟩,fun t => ?_,
    fun t ht => Nat.lt_of_lt_of_le (h.used t ht) hchange.calls,
    fun t ht => Nat.lt_of_lt_of_le (h.firing t ht) hchange.calls,
    hchange.owned h.owned (fun e he => (timerDeviceExec_frame hdata action).other e he)⟩,
    hchange.calls,fun t _ hown' => ((hown t).mp hown').1⟩
  · rw [List.filterMap_cons_some hact]
    exact .cons .unset .nil
  · refine iff_of_false (by simp) ?_
    rintro ⟨hown',hfiring⟩
    obtain ⟨hold,htimer⟩ := (hown t).mp hown'
    exact htimer (harmed.symm.trans ((h.pending t).mpr ⟨hold,hfiring⟩))

theorem deviceSet_timer {tmr : Tmr} (hdata : w.userdata d = .timer tmr) (trigger : Trigger)
    (action : Action) (event : Option Event) :
    deviceSet trigger d action event w = some
      (if action.type ∈ (deviceTypeInfo .timer).actions then timerDeviceExec d tmr action w
        else w) := by
  unfold deviceSet
  simp only [hdata]
  change (if action.type ∈ (deviceTypeInfo .timer).actions then _ else _) = _
  split <;> rfl

/-- What an action on the TIMER itself does is what it does to the abstract timer. -/
theorem timerAction_stretch {action : Action} (h : TimerHolds d firing w s)
    (hdevice : action.device = d) {tmr : Tmr} (hdata : w.userdata d = .timer tmr) :
    ∃ s', TimerStretch d firing expired w [.exec w action]
      (if action.type ∈ (deviceTypeInfo .timer).actions then timerDeviceExec d tmr action w
        else w) s s' := by
  by_cases hset : action.type = .set
  · have hmask : action.type ∈ (deviceTypeInfo .timer).actions := by rw [hset]; decide
    rw [if_pos hmask]
    exact timerSet_stretch h hdata hdevice hset
  · by_cases hunset : action.type = .unset
    · have hmask : action.type ∈ (deviceTypeInfo .timer).actions := by rw [hunset]; decide
      rw [if_pos hmask]
      exact timerUnset_stretch h hdata hdevice hunset
    · have hmask : action.type ∉ (deviceTypeInfo .timer).actions := by
        change action.type ∉ [ActionType.set,.unset]
        simp [hset,hunset]
      have hact : timerAct d expired (.exec w action) = none := by
        simp only [timerAct,if_pos hdevice]
      rw [if_neg hmask]
      refine ⟨s,?_,h,Nat.le_refl _,fun _ _ => id⟩
      rw [List.filterMap_cons_none hact]
      exact .nil

theorem timerSeen_rule (d : DeviceId) (firing expired : Option Nat) :
    TraceRule (TimerSeen d firing expired) where
  refl := fun w s h => ⟨s,.refl h⟩
  append := by
    intro w w₁ w' tr tr' h h' s hs
    obtain ⟨s₁,hstretch⟩ := h s hs
    obtain ⟨s',hstretch'⟩ := h' s₁ hstretch.holds
    exact ⟨s',hstretch.append hstretch'⟩
  record := fun w o s h => ⟨s,.nil,⟨h.userdata,h.pending,h.used,h.firing,h.owned⟩,Nat.le_refl _,
    fun _ _ => id⟩
  set := by
    intro w w₁ action event raised hset s h
    by_cases hdevice : action.device = d
    · obtain ⟨tmr,hdata,-⟩ := h.userdata
      have hresume : ∀ trigger, resume trigger d w₁ raised = resume trigger d
          (if action.type ∈ (deviceTypeInfo .timer).actions then timerDeviceExec d tmr action w
            else w) none := by
        intro trigger
        rw [← hdevice] at hdata ⊢
        rw [← hset,deviceSet_timer hdata]
        rfl
      obtain ⟨rfl,rfl⟩ := resume_unique hresume
      exact timerAction_stretch h hdevice hdata
    · refine ⟨s,h.stretch_other hdevice (deviceSet_change hset) (deviceSet_frame hset).other ?_⟩
      have hexec : timerAct d expired (.exec w action) = none := if_neg hdevice
      rw [List.filterMap_cons_none hexec]
      cases raised with
      | none => rfl
      | some type => simp [raisedAt,timerAct,hdevice]

theorem OwnChange.seen {own : DeviceId} (hchange : OwnChange own w w') (hown : own ≠ d) :
    TimerSeen d firing expired w [] w' := by
  intro s h
  refine ⟨s,h.stretch_other hown ⟨?_,fun t timer ht => .inl ?_,fun t timer ht => .inl ?_,
    fun t ht => .inl (hchange.handle t ht)⟩ hchange.other rfl⟩
  · rw [hchange.loop]
  · rwa [← hchange.loop]
  · rwa [hchange.loop]

theorem ownTimer_stop {t u : Nat} :
    OwnTimer d { w with loop := w.loop.stop t } u ↔ OwnTimer d w u ∧ u ≠ t := by
  simp only [OwnTimer,stop_pending]
  by_cases hu : u = t <;> simp [hu]

theorem timerHolds_stop {t : Nat} (h : TimerHolds d firing w s)
    (ht : firing = some t ∨ (firing = none ∧ ¬ OwnTimer d w t)) :
    TimerHolds d none { w with loop := w.loop.stop t } s where
  userdata := h.userdata
  pending := fun u => by
    rw [h.pending,ownTimer_stop]
    rcases ht with rfl | ⟨rfl,hother⟩
    · simp [eq_comm]
    · simp only [ne_eq,reduceCtorEq,not_false_eq_true,and_true,iff_self_and]
      rintro hown rfl
      exact hother hown
  used := fun u hu => Nat.lt_succ_of_lt (h.used u hu)
  firing := by simp
  owned := by
    intro e u hu
    obtain ⟨hlt,hpending⟩ := h.owned e u hu
    refine ⟨Nat.lt_succ_of_lt hlt,fun timer htimer => ?_⟩
    rw [stop_pending] at htimer
    split at htimer
    · cases htimer
    · exact hpending timer htimer

theorem stretch_stopped {stopped : Option Nat} (h : TimerHolds d none w s)
    (hother : ∀ t ∈ stopped, ¬ OwnTimer d w t) :
    TimerStretch d none expired w [] { w with loop := w.loop.stopped stopped } s s := by
  cases stopped with
  | none => exact .refl h
  | some t =>
    exact ⟨.nil,timerHolds_stop h (.inr ⟨rfl,hother t rfl⟩),Nat.le_succ _,
      fun u _ hu => (ownTimer_stop.mp hu).1⟩

theorem raised_seen {rules : List Rule} {own : DeviceId} {type : EventType} (hown : own ≠ d)
    (hrun : Executes rules (.trigger ⟨own,type⟩) w tr w') : TimerSeen d none expired w tr w' := by
  have hrule := timerSeen_rule d none expired
  obtain ⟨rest,rfl,hrest⟩ := hrule.executes hrun
  have hraise : TimerSeen d none expired w [.raise w ⟨own,type⟩] w := by
    intro s hs
    refine ⟨s,hs.stretch_other (e := own) hown (.refl _ _) (fun _ _ => rfl) ?_⟩
    simp [timerAct,hown]
  exact hrule.append hraise hrest

theorem timerHolds_fires {t : Nat} {tmr : Tmr} (h : TimerHolds d none w s)
    (harmed : s.armed = some t) (hpending : t < w.loop.calls.length) :
    TimerHolds d (some t) (w.setUserdata d (.timer { tmr with timer := none })) ⟨none,s.used⟩ := by
  have hchange : OwnChange d w (w.setUserdata d (.timer { tmr with timer := none })) :=
    .set (fun u hu => (by cases hu))
  refine ⟨⟨_,setUserdata_same _ _ _,rfl⟩,fun u => iff_of_false (by simp) ?_,h.used,?_,?_⟩
  · rintro ⟨hown,hfiring⟩
    have harmed' := (h.pending u).mpr ⟨hown,by simp⟩
    exact hfiring (harmed.symm.trans harmed')
  · rintro _ ⟨⟩
    exact hpending
  · intro e u hu
    by_cases he : e = d
    · subst he
      exact h.owned e u (hchange.handle u hu)
    · rw [hchange.other e he] at hu
      exact h.owned e u hu

/-- The device's own timer expires: the TIMER fires once, and then what its event sets off
follows. -/
theorem timerFires_stretch {rules : List Rule} {t : Nat} {tmr : Tmr} (hs : TimerHolds d none w s)
    (hown : OwnTimer d w t)
    (hrun : Executes rules (.trigger ⟨d,.timeout⟩)
      (w.setUserdata d (.timer { tmr with timer := none })) tr w') :
    ∃ s', TimerStretch d none (some t) w tr { w' with loop := w'.loop.stop t } s s' := by
  obtain ⟨delay,hpending⟩ := hown
  have htimer : s.armed = some t := (hs.pending t).mpr ⟨⟨delay,hpending⟩,by simp⟩
  obtain ⟨rest,rfl,hrest⟩ := (timerSeen_rule d (some t) (some t)).executes hrun
  obtain ⟨s',hstretch⟩ := hrest _ (timerHolds_fires hs htimer (w.loop.pending_lt hpending))
  refine ⟨s',?_,timerHolds_stop hstretch.holds (.inl rfl),?_,?_⟩
  · have hact : timerAct d (some t) (.raise (w.setUserdata d
        (.timer { tmr with timer := none })) ⟨d,.timeout⟩) = some (.fire (some t)) := if_pos rfl
    change Run s ((_ :: rest).filterMap (timerAct d (some t))) s'
    rw [List.filterMap_cons_some hact]
    exact .cons (.fire htimer) hstretch.run
  · exact Nat.le_succ_of_le hstretch.calls
  · exact fun u hu hu' => hstretch.old u hu (ownTimer_stop.mp hu').1

theorem timerSeen_input {rules : List Rule} {input : HouseInput} {house house' : House}
    (h : HouseTraced rules input house tr house') :
    TimerSeen d none input.expired house.world tr house'.world := by
  by_cases hcommand : ∃ action, input = .command action
  · obtain ⟨action,rfl⟩ := hcommand
    obtain ⟨w',hrun,rfl⟩ := h
    obtain ⟨rest,rfl,hrest⟩ := (timerSeen_rule d none none).executes hrun
    exact hrest
  have hinput : ∀ action, input ≠ .command action := fun action heq => hcommand ⟨action,heq⟩
  rw [houseTraced_callback hinput] at h
  intro s hs
  have htype : (house.world.userdata d).deviceType = .timer := by
    obtain ⟨tmr,hdata,-⟩ := hs.userdata
    rw [hdata]
    rfl
  have hrule := timerSeen_rule d none input.expired
  cases houseStep_call (d := d) input hinput (.inr htype) with
  | stuck hstuck =>
    simp only [hstuck] at h
    exact absurd h traced_none
  | other own hown w₁ raised stopped finish hcall hbefore hafter hstopped =>
    simp only [hcall] at h
    obtain ⟨w',rfl,hend⟩ := traced_resume h
    have hmiddle : TimerSeen d none input.expired w₁ tr w' := by
      cases raised with
      | none =>
        obtain ⟨rfl,rfl⟩ := hend
        exact hrule.refl _
      | some type => exact raised_seen hown hend
    obtain ⟨s₁,hstretch⟩ := hrule.append (hbefore.seen hown) hmiddle s hs
    have hnot : ∀ t ∈ stopped, ¬ OwnTimer d w' t := by
      intro t ht hown'
      obtain ⟨timer,hpending,hother⟩ := hstopped t ht
      obtain ⟨delay,htimer⟩ := hstretch.old t (house.world.loop.pending_lt hpending) hown'
      obtain ⟨tmr,hdata,-⟩ := hs.userdata
      rw [hpending] at htimer
      cases htimer
      exact hother tmr hdata rfl rfl
    have hstop : TimerStretch d none input.expired w' [] _ s₁ s₁ :=
      stretch_stopped hstretch.holds hnot
    obtain ⟨s',hlast⟩ := (hafter w').seen hown s₁ hstop.holds
    have hall := (hstretch.append hstop).append hlast
    simp only [List.append_nil,List.nil_append] at hall
    exact ⟨s',hall⟩
  | fires t delay tmr hexpired hdata hpending hcall =>
    subst hexpired
    simp only [hcall] at h
    obtain ⟨w',hrun,rfl⟩ := traced_raises h
    exact timerFires_stretch hs ⟨delay,hpending⟩ hrun

end Stretches

theorem timerRun_holds {d : DeviceId} {rules : List Rule} {house house' : House}
    {served : List (HouseInput × List Occasion)} {s : State Nat}
    (hrun : HouseRun rules house served house') (h : TimerHolds d none house.world s) :
    ∃ s', Run s (timeline d served) s' ∧ TimerHolds d none house'.world s' := by
  induction hrun generalizing s with
  | nil => exact ⟨s,.nil,h⟩
  | cons hinput _ ih =>
    obtain ⟨s₁,hstretch⟩ := timerSeen_input hinput s h
    obtain ⟨s',hrest,hholds⟩ := ih hstretch.holds
    exact ⟨s',hstretch.run.append hrest,hholds⟩

/-- What a TIMER is for: it remembers the one timer that is pending, each SET has one TIMEOUT of
its own unless another SET or an UNSET comes first, and there is no other TIMEOUT. -/
structure TimesOut (d : DeviceId) (served : List (HouseInput × List Occasion)) (w : World) :
    Prop where
  owns : ∃ tmr, w.userdata d = .timer tmr ∧ ∀ t, tmr.timer = some t ↔ OwnTimer d w t
  exact : ∀ before t after, timeline d served = before ++ .set t :: after →
    .fire (some t) ∉ before ∧ Exact t after (timerHandle (w.userdata d))
  fired : ∀ f, .fire f ∈ timeline d served → ∃ t, f = some t ∧ .set t ∈ timeline d served

/-- In every run of the engine, from the devices as they are declared. -/
theorem timer_one_shot (rules : List Rule) (d : DeviceId) (userdata : DeviceId → Userdata)
    (ct et : DeviceId → SunrisetEvent → Int) {timeoutMs : UInt64}
    (hdata : userdata d = .timer ⟨timeoutMs,none⟩) (hdevices : ∀ e, timerHandle (userdata e) = none)
    {served : List (HouseInput × List Occasion)} {house' : House}
    (hrun : HouseRun rules (House.start (World.start userdata) ct et) served house') :
    TimesOut d served house'.world := by
  have hhandles : ∀ e, timerHandle ((House.start (World.start userdata) ct et).world.userdata e) =
      none := by
    intro e
    have he := hdevices e
    simp only [House.start,World.start]
    cases hdata : userdata e with
    | sunriset sr => rfl
    | _ => rwa [hdata] at he
  have hstart : TimerHolds d none (House.start (World.start userdata) ct et).world ⟨none,∅⟩ := by
    refine ⟨⟨⟨timeoutMs,none⟩,by simp [House.start,World.start,hdata],rfl⟩,fun t => ?_,
      fun t ht => absurd ht (Set.notMem_empty t),by simp,fun e t ht => ?_⟩
    · refine iff_of_false (by simp) ?_
      rintro ⟨⟨delay,hpending⟩,-⟩
      cases hpending
    · rw [hhandles] at ht
      cases ht
  obtain ⟨s',hacts,hholds⟩ := timerRun_holds hrun hstart
  have hused : (⟨none,∅⟩ : State Nat).Used := fun t ht => by cases ht
  obtain ⟨tmr,htmr,htimer⟩ := hholds.userdata
  refine ⟨⟨tmr,htmr,fun t => ?_⟩,fun before t after htimeline => ?_,fun f hf => ?_⟩
  · rw [htimer,hholds.pending]
    simp
  · rw [htimeline] at hacts
    obtain ⟨hbefore,hexact⟩ := hacts.exact hused
    rw [htmr,timerHandle,htimer]
    exact ⟨hbefore,hexact⟩
  · obtain ⟨t,rfl,harmed | hset⟩ := hacts.fired hf
    · cases harmed
    · exact ⟨t,rfl,hset⟩

def eggUserdata : DeviceId → Userdata := fun d => if d = 0 then .timer ⟨5000,none⟩ else .bool ⟨0⟩

def eggRules : List Rule := [⟨⟨0,.timeout⟩,[],[⟨.set,0,[]⟩]⟩]

def eggHouse : House := House.start (World.start eggUserdata) (fun _ _ => 0) (fun _ _ => 0)

def eggStep (input : HouseInput) (house : House) : House :=
  (houseStep (engineTriggerEvent eggRules 1) input house).getD house

/-- A timer that is set again by its own timeout. -/
theorem timer_one_shot_egg : ∃ served house', HouseRun eggRules eggHouse served house' ∧
    served.map Prod.fst = [.command ⟨.set,0,[]⟩,.expire 0] ∧
    timerHandle (house'.world.userdata 0) = some 1 ∧ TimesOut 0 served house'.world := by
  have hset : HouseSteps eggRules (.command ⟨.set,0,[]⟩) eggHouse
      (eggStep (.command ⟨.set,0,[]⟩) eggHouse) := ⟨1,rfl⟩
  have hexpire : HouseSteps eggRules (.expire 0) (eggStep (.command ⟨.set,0,[]⟩) eggHouse)
      (eggStep (.expire 0) (eggStep (.command ⟨.set,0,[]⟩) eggHouse)) := ⟨1,rfl⟩
  obtain ⟨tr₁,h₁⟩ := houseSteps_iff_traced.mp hset
  obtain ⟨tr₂,h₂⟩ := houseSteps_iff_traced.mp hexpire
  have hrun := HouseRun.cons h₁ (.cons h₂ .nil)
  refine ⟨_,_,hrun,rfl,rfl,timer_one_shot eggRules 0 eggUserdata _ _ rfl (fun e => ?_) hrun⟩
  unfold eggUserdata
  split <;> rfl

end DomoticaEngine
