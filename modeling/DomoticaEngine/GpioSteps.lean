import DomoticaEngine.GpioInput

/-!
What the callbacks of a GPI device do, at the times that the clock tells.
-/

set_option autoImplicit false

namespace DomoticaEngine

/-- What comes to a device whose edges are accepted: an edge, or a timer that expires. The rules
spend some time on each event that it raises. -/
inductive GpioInput where
  | edge (time : Nat) (spent : EventType → Nat)
  | expire (t : Nat) (time : Nat) (spent : EventType → Nat)

/-- The value alternates from edge to edge. No timer expires before it is due. -/
def gpioStep (input : GpioInput) (s : GpioState (Moment EventType)) :
    Option (GpioState (Moment EventType)) :=
  match input with
  | .edge time spent => do
    let s ← s.wait time
    gpioInputHandleEdge (Moment.around id spent)
      (s.setInput { s.input with value := !s.input.value })
  | .expire t time spent => do
    let s ← s.wait time
    let timer ← s.timers.get t
    if timer.due ≤ time then
      match timer.callback with
      | .dimPressTimer => gpioInputDimPressTimerCb (Moment.around id spent) t timer.due s
      | .shortPressTimer => gpioInputShortPressTimerCb (Moment.around id spent) t s
    else none

def GpioState.moment (s : GpioState (Moment EventType)) (time : Nat) :
    GpioState (Moment EventType) :=
  { s with outside := { s.outside with now := time } }

def GpioState.edge (s : GpioState (Moment EventType)) (time : Nat) (level : Bool) :
    GpioState (Moment EventType) :=
  (s.moment time).setInput { s.input with value := level }

/-- What a press leads to: its time is stored before the rules see it, and the timer is created
after. -/
def GpioState.pressed (s : GpioState (Moment EventType)) (spent : EventType → Nat) :
    GpioState (Moment EventType) :=
  let later := s.outside.now+spent .press
  let (t,timers) := (s.timers.without s.input.timer).alloc
    ⟨(UInt64.ofNat later).toNat+600,.shortPressTimer⟩
  { input := { s.input with pressTime := UInt64.ofNat s.outside.now, timer := some t }
    timers := timers
    outside := ⟨later,s.outside.raised ++ [.press]⟩ }

def GpioState.pressType (s : GpioState (Moment EventType)) : EventType :=
  if UInt64.ofNat s.outside.now-s.input.pressTime ≤ 600 then .shortPress else .longPress

def GpioState.released (s : GpioState (Moment EventType)) (spent : EventType → Nat) :
    GpioState (Moment EventType) :=
  { input := { s.input with timer := none }
    timers := s.timers.without s.input.timer
    outside := ⟨s.outside.now+spent .release+spent s.pressType,
      s.outside.raised ++ [.release,s.pressType]⟩ }

def GpioState.dimmed (s : GpioState (Moment EventType)) (spent : EventType → Nat) (t : Nat) :
    GpioState (Moment EventType) :=
  let later := s.outside.now+spent .dim
  let (t',timers) := s.timers.alloc ⟨(UInt64.ofNat later).toNat+200,.dimPressTimer⟩
  { input := { s.input with timer := some t' }
    timers := timers.erase t
    outside := ⟨later,s.outside.raised ++ [.dim]⟩ }

def GpioState.dimmedAgain (s : GpioState (Moment EventType)) (spent : EventType → Nat)
    (t due : Nat) : GpioState (Moment EventType) :=
  { s with
    timers := s.timers.put t ⟨due+200,.dimPressTimer⟩
    outside := ⟨s.outside.now+spent .dim,s.outside.raised ++ [.dim]⟩ }

inductive GpioBranch (s : GpioState (Moment EventType)) :
    GpioInput → GpioState (Moment EventType) → Prop where
  | press {time : Nat} {spent : EventType → Nat} (hnow : s.outside.now ≤ time)
      (hfits : time+spent .press < UInt64.size) (hvalue : s.input.value = false) :
      GpioBranch s (.edge time spent) ((s.edge time true).pressed spent)
  | release {time : Nat} {spent : EventType → Nat} (hnow : s.outside.now ≤ time)
      (hfits : time < UInt64.size) (hvalue : s.input.value = true) :
      GpioBranch s (.edge time spent) ((s.edge time false).released spent)
  | dim {t time due : Nat} {spent : EventType → Nat} (hnow : s.outside.now ≤ time)
      (hfits : time+spent .dim < UInt64.size) (hdue : due ≤ time)
      (hpending : s.timers.get t = some ⟨due,.shortPressTimer⟩) :
      GpioBranch s (.expire t time spent) ((s.moment time).dimmed spent t)
  | dimAgain {t time due : Nat} {spent : EventType → Nat} (hnow : s.outside.now ≤ time)
      (hfits : time+spent .dim < UInt64.size) (hdue : due ≤ time)
      (hpending : s.timers.get t = some ⟨due,.dimPressTimer⟩) :
      GpioBranch s (.expire t time spent) ((s.moment time).dimmedAgain spent t due)

section Callbacks
variable {spent : EventType → Nat} {time t : Nat} {s s' : GpioState (Moment EventType)}
  {input : GpioInput}

theorem elapsed_le {time : Nat} {pressTime : UInt64} (htime : time < UInt64.size)
    (hpast : pressTime.toNat ≤ time) :
    UInt64.ofNat time-pressTime ≤ 600 ↔ time ≤ pressTime.toNat+600 := by
  have hnow : (UInt64.ofNat time).toNat = time := UInt64.toNat_ofNat_of_lt' htime
  have hle : pressTime ≤ UInt64.ofNat time := by
    rw [UInt64.le_iff_toNat_le,hnow]
    exact hpast
  have hlimit : (600 : UInt64).toNat = 600 := rfl
  rw [UInt64.le_iff_toNat_le,UInt64.toNat_sub_of_le _ _ hle,hnow,hlimit]
  omega

/-- The type of a press that has lasted from `pressTime` on. -/
theorem pressType_limit {time limit : Nat} {pressTime : UInt64} (htime : time < UInt64.size)
    (hpast : pressTime.toNat ≤ time) (hlimit : pressTime.toNat+600 = limit) :
    (if UInt64.ofNat time-pressTime ≤ 600 then EventType.shortPress else .longPress) =
      if time ≤ limit then .shortPress else .longPress := by
  have hiff := elapsed_le htime hpast
  rw [hlimit] at hiff
  simp only [hiff]

theorem Moment.wait_some {ε : Type} {m m' : Moment ε} :
    m.wait time = some m' ↔ m.now ≤ time ∧ time < UInt64.size ∧ m' = { m with now := time } := by
  unfold Moment.wait
  split
  · rename_i htime
    rw [Option.some.injEq]
    exact ⟨fun heq => ⟨htime.1,htime.2,heq.symm⟩,fun h => h.2.2.symm⟩
  · rename_i htime
    exact iff_of_false nofun (fun h => htime ⟨h.1,h.2.1⟩)

theorem GpioState.wait_some {ε : Type} {s s' : GpioState (Moment ε)} :
    s.wait time = some s' ↔ s.outside.now ≤ time ∧ time < UInt64.size ∧
      s' = { s with outside := { s.outside with now := time } } := by
  simp only [GpioState.wait,Option.map_eq_some_iff,Moment.wait_some]
  constructor
  · rintro ⟨outside,⟨hnow,hfits,rfl⟩,rfl⟩
    exact ⟨hnow,hfits,rfl⟩
  · rintro ⟨hnow,hfits,rfl⟩
    exact ⟨_,⟨hnow,hfits,rfl⟩,rfl⟩

theorem Moment.trigger_some {type : EventType} {m m' : Moment EventType} :
    (Moment.around id spent).trigger type m = some m' ↔
      m.now+spent type < UInt64.size ∧ m' = ⟨m.now+spent type,m.raised ++ [type]⟩ := by
  simp only [Moment.around,id_eq]
  split
  · rename_i htime
    rw [Option.some.injEq]
    exact ⟨fun heq => ⟨htime,heq.symm⟩,fun h => h.2.symm⟩
  · rename_i htime
    exact iff_of_false nofun (fun h => htime h.1)

theorem GpioState.trigger_some {type : EventType} :
    s.trigger (Moment.around id spent) type = some s' ↔
      s.outside.now+spent type < UInt64.size ∧
      s' = { s with outside := ⟨s.outside.now+spent type,s.outside.raised ++ [type]⟩ } := by
  simp only [GpioState.trigger,Option.map_eq_some_iff,Moment.trigger_some]
  constructor
  · rintro ⟨outside,⟨hfits,rfl⟩,rfl⟩
    exact ⟨hfits,rfl⟩
  · rintro ⟨hfits,rfl⟩
    exact ⟨_,⟨hfits,rfl⟩,rfl⟩

theorem gpioInputEdgeDetected_eq (level : Bool) :
    gpioInputEdgeDetected (Moment.around id spent) level s =
      if s.input.value ≠ level then
        if UInt64.ofNat s.outside.now-s.input.lastTimeMs > 50 then
          gpioInputHandleEdge (Moment.around id spent) (s.setInput
            { s.input with value := level, lastTimeMs := UInt64.ofNat s.outside.now })
        else some s
      else some s := rfl

theorem gpioInputHandleEdge_press (hvalue : s.input.value = true)
    (h : gpioInputHandleEdge (Moment.around id spent) s = some s') :
    s' = s.pressed spent ∧ s.outside.now+spent .press < UInt64.size := by
  unfold gpioInputHandleEdge at h
  rw [if_pos hvalue] at h
  simp only [Option.bind_eq_bind,Option.bind_eq_some_iff,GpioState.trigger_some] at h
  obtain ⟨s₁,⟨htime,rfl⟩,h⟩ := h
  cases h
  exact ⟨rfl,htime⟩

theorem gpioInputHandleEdge_release (hvalue : s.input.value = false)
    (h : gpioInputHandleEdge (Moment.around id spent) s = some s') : s' = s.released spent := by
  unfold gpioInputHandleEdge at h
  rw [if_neg (by simp [hvalue])] at h
  simp only [Option.bind_eq_bind,Option.bind_eq_some_iff,GpioState.trigger_some] at h
  obtain ⟨s₁,⟨htime,rfl⟩,h⟩ := h
  obtain ⟨-,rfl⟩ := h
  simp only [GpioState.released,GpioState.setInput,GpioState.destroyTimer,List.append_assoc]
  rfl

theorem gpioInputShortPressTimerCb_some
    (h : gpioInputShortPressTimerCb (Moment.around id spent) t s = some s') :
    s' = s.dimmed spent t ∧ s.outside.now+spent .dim < UInt64.size := by
  simp only [gpioInputShortPressTimerCb,Option.bind_eq_bind,Option.bind_eq_some_iff,
    GpioState.trigger_some] at h
  obtain ⟨s₁,⟨htime,rfl⟩,h⟩ := h
  cases h
  exact ⟨rfl,htime⟩

theorem gpioInputDimPressTimerCb_some {due : Nat}
    (h : gpioInputDimPressTimerCb (Moment.around id spent) t due s = some s') :
    s' = s.dimmedAgain spent t due ∧ s.outside.now+spent .dim < UInt64.size := by
  simp only [gpioInputDimPressTimerCb,Option.bind_eq_bind,Option.bind_eq_some_iff,
    GpioState.trigger_some] at h
  obtain ⟨s₁,⟨htime,rfl⟩,h⟩ := h
  cases h
  exact ⟨rfl,htime⟩

theorem gpioStep_branch (h : gpioStep input s = some s') : GpioBranch s input s' := by
  cases input with
  | edge time spent =>
    simp only [gpioStep,Option.bind_eq_bind,Option.bind_eq_some_iff,GpioState.wait_some] at h
    obtain ⟨s₁,⟨hnow,hfits,rfl⟩,h⟩ := h
    cases hvalue : s.input.value with
    | false =>
      rw [hvalue] at h
      obtain ⟨rfl,hfits⟩ := gpioInputHandleEdge_press rfl h
      exact .press hnow hfits hvalue
    | true =>
      rw [hvalue] at h
      obtain rfl := gpioInputHandleEdge_release rfl h
      exact .release hnow hfits hvalue
  | expire t time spent =>
    simp only [gpioStep,Option.bind_eq_bind,Option.bind_eq_some_iff,GpioState.wait_some] at h
    obtain ⟨s₁,⟨hnow,-,rfl⟩,⟨due,callback⟩,hpending,h⟩ := h
    split at h
    · rename_i hdue
      cases callback with
      | dimPressTimer =>
        obtain ⟨rfl,hfits⟩ := gpioInputDimPressTimerCb_some h
        exact .dimAgain hnow hfits hdue hpending
      | shortPressTimer =>
        obtain ⟨rfl,hfits⟩ := gpioInputShortPressTimerCb_some h
        exact .dim hnow hfits hdue hpending
    · cases h

end Callbacks

end DomoticaEngine
