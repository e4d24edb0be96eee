import DomoticaEngine.GpioSteps
import DomoticaEngine.Library.Runs

/-!
Whether the value that a GPI device stores settles on the level of the line.
-/

set_option autoImplicit false

namespace DomoticaEngine

/-- `gpio_input_edge_detected_cb` is called at `time` and reads `level`. The rules spend some time
on each event that it raises. -/
structure EdgeCallback where
  time : Nat
  level : Bool
  spent : EventType → Nat

def edgeCallback (c : EdgeCallback) (s : GpioState (Moment EventType)) :
    Option (GpioState (Moment EventType)) := do
  let s ← s.wait c.time
  gpioInputEdgeDetected (Moment.around id c.spent) c.level s

structure PinLevel where
  level : Bool
  since : Nat
  deriving DecidableEq, Repr

def PinLevel.next (line : PinLevel) (c : EdgeCallback) : PinLevel :=
  if c.level = line.level then line else ⟨c.level,c.time⟩

def PinLevel.after (line : PinLevel) (callbacks : List EdgeCallback) : PinLevel :=
  callbacks.foldl PinLevel.next line

/-- At every time of a run, up to the next callback: when the line has stayed unchanged for more
than 50 ms, the value is its level. -/
def Settles (line : PinLevel) (s₀ : GpioState (Moment EventType)) (callbacks : List EdgeCallback) :
    Prop :=
  ∀ before after s time, callbacks = before ++ after →
    Runs.after edgeCallback before s₀ = some s →
    (∀ c ∈ before.getLast?, c.time ≤ time) → (∀ c ∈ after.head?, time ≤ c.time) →
    (line.after before).since+50 < time → s.input.value = (line.after before).level

/-- The callback comes within 50 ms of the last accepted one, with another level. -/
def Discarded (c : EdgeCallback) (s : GpioState (Moment EventType)) : Prop :=
  c.level ≠ s.input.value ∧ UInt64.ofNat c.time-s.input.lastTimeMs ≤ 50

/-- After each callback that is discarded there is another one, 50 ms after the line took its
level at the latest. -/
def Followed (line : PinLevel) (s₀ : GpioState (Moment EventType)) (callbacks : List EdgeCallback) :
    Prop :=
  ∀ before c after s, callbacks = before ++ c :: after →
    Runs.after edgeCallback before s₀ = some s → Discarded c s →
    ∃ next ∈ after.head?, next.time ≤ (line.after (before ++ [c])).since+50

section Steps
variable {c : EdgeCallback} {line : PinLevel} {callbacks before after : List EdgeCallback}
  {s s' s₀ : GpioState (Moment EventType)}

theorem gpioInputHandleEdge_keeps {spent : EventType → Nat}
    (h : gpioInputHandleEdge (Moment.around id spent) s = some s') :
    s'.input.value = s.input.value ∧ s.outside.now ≤ s'.outside.now := by
  cases hvalue : s.input.value with
  | true =>
    obtain ⟨rfl,-⟩ := gpioInputHandleEdge_press hvalue h
    exact ⟨hvalue,Nat.le_add_right _ _⟩
  | false =>
    obtain rfl := gpioInputHandleEdge_release hvalue h
    exact ⟨hvalue,Nat.le_add_right_of_le (Nat.le_add_right _ _)⟩

theorem edgeCallback_some (h : edgeCallback c s = some s') :
    s.outside.now ≤ c.time ∧ c.time ≤ s'.outside.now ∧
      (Discarded c s → s'.input.value = s.input.value) ∧
      (¬Discarded c s → s'.input.value = c.level) := by
  simp only [edgeCallback,Option.bind_eq_bind,Option.bind_eq_some_iff,GpioState.wait_some] at h
  obtain ⟨s₁,⟨hnow,-,rfl⟩,h⟩ := h
  refine ⟨hnow,?_⟩
  rw [gpioInputEdgeDetected_eq] at h
  split at h
  · rename_i hvalue
    split at h
    · rename_i hlate
      obtain ⟨hlevel,htime⟩ := gpioInputHandleEdge_keeps h
      have hkept : ¬Discarded c s := fun hdiscarded => UInt64.not_lt.mpr hdiscarded.2 hlate
      exact ⟨htime,fun hdiscarded => (hkept hdiscarded).elim,fun _ => hlevel⟩
    · rename_i hearly
      cases h
      have hdiscarded : Discarded c s := ⟨Ne.symm hvalue,UInt64.not_lt.mp hearly⟩
      exact ⟨Nat.le_refl _,fun _ => rfl,fun hkept => (hkept hdiscarded).elim⟩
  · rename_i hvalue
    cases h
    have hlevel := not_not.mp hvalue
    exact ⟨Nat.le_refl _,fun _ => rfl,fun _ => hlevel⟩

theorem PinLevel.next_level (line : PinLevel) (c : EdgeCallback) :
    (line.next c).level = c.level := by
  unfold PinLevel.next
  split
  · rename_i heq
    exact heq.symm
  · rfl

theorem PinLevel.after_last (line : PinLevel) (before : List EdgeCallback) (c : EdgeCallback) :
    (line.after (before ++ [c])).level = c.level := by
  rw [PinLevel.after,List.foldl_append]
  exact PinLevel.next_level _ c

theorem quiet_until (hc : c.time ≤ s'.outside.now)
    (hafter : (Runs.after edgeCallback after s').isSome)
    (hquiet : ¬∃ next ∈ after.head?, next.time ≤ line.since+50) :
    ∃ time, c.time ≤ time ∧ (∀ next ∈ after.head?, time ≤ next.time) ∧ line.since+50 < time := by
  cases after with
  | nil => exact ⟨c.time+line.since+51,by omega,by simp,by omega⟩
  | cons next after =>
    obtain ⟨s'',hs''⟩ := Option.isSome_iff_exists.mp hafter
    obtain ⟨s₁,hnext,-⟩ := Runs.after_cons.mp hs''
    have htime : s'.outside.now ≤ next.time := (edgeCallback_some hnext).1
    have hlate : ¬next.time ≤ line.since+50 := fun hle => hquiet ⟨next,rfl,hle⟩
    refine ⟨next.time,by omega,?_,by omega⟩
    simp

/-- The value settles on the level of the line exactly when each discarded callback is followed by
another one in time. -/
theorem settles_iff {pin fd : Int} {level : Bool} {start : Nat} {callbacks : List EdgeCallback}
    (hrun : (Runs.after edgeCallback callbacks (gpioStart pin fd level start)).isSome) :
    Settles ⟨level,start⟩ (gpioStart pin fd level start) callbacks ↔
      Followed ⟨level,start⟩ (gpioStart pin fd level start) callbacks := by
  obtain ⟨s',hrun⟩ := Option.isSome_iff_exists.mp hrun
  constructor
  · intro hsettles before c after s hsplit hbefore hdiscarded
    subst hsplit
    obtain ⟨s₀,hs₀,hrest⟩ := Runs.after_append.mp hrun
    cases hbefore.symm.trans hs₀
    obtain ⟨s₁,hc,hafter⟩ := Runs.after_cons.mp hrest
    obtain ⟨-,htime,hvalue,-⟩ := edgeCallback_some hc
    by_contra hquiet
    obtain ⟨time,hlast,hnext,hlong⟩ := quiet_until htime (Option.isSome_of_eq_some hafter) hquiet
    have hlevel := hsettles (before ++ [c]) after s₁ time (by simp)
      (Runs.after_append.mpr ⟨s,hbefore,Runs.after_one.mpr hc⟩)
      (by simpa using hlast) hnext hlong
    rw [PinLevel.after_last,hvalue hdiscarded] at hlevel
    exact hdiscarded.1 hlevel.symm
  · intro hfollowed before after s time hsplit hbefore hlast hnext hlong
    subst hsplit
    rcases List.eq_nil_or_concat before with rfl | ⟨before,c,rfl⟩
    · cases hbefore
      rfl
    · rw [List.concat_eq_append] at *
      obtain ⟨s₀,hs₀,hc⟩ := Runs.after_append.mp hbefore
      obtain ⟨-,-,-,hstored⟩ := edgeCallback_some (Runs.after_one.mp hc)
      rw [PinLevel.after_last]
      refine hstored (fun hdiscarded => ?_)
      obtain ⟨next,hhead,hsoon⟩ := hfollowed before c after s₀ (by simp) hs₀ hdiscarded
      have := hnext next hhead
      omega

end Steps

def bouncing : List EdgeCallback :=
  [⟨1000,true,fun _ => 3⟩,⟨1020,false,fun _ => 3⟩,⟨1025,true,fun _ => 3⟩,⟨1400,false,fun _ => 3⟩]

theorem settles_bouncing :
    Settles ⟨false,0⟩ (gpioStart 17 5 false 0) bouncing ↔
      Followed ⟨false,0⟩ (gpioStart 17 5 false 0) bouncing :=
  settles_iff (by decide)

def tap : List EdgeCallback := [⟨1000,true,fun _ => 3⟩,⟨1030,false,fun _ => 3⟩]

theorem tap_unsettled :
    (Runs.after edgeCallback tap (gpioStart 17 5 false 0)).isSome ∧
      ¬Settles ⟨false,0⟩ (gpioStart 17 5 false 0) tap := by
  refine ⟨by decide,fun hsettles => ?_⟩
  have hlevel := hsettles tap [] _ 1081 rfl rfl (by decide) (by simp) (by decide)
  revert hlevel
  decide

end DomoticaEngine
