import DomoticaEngine.GpioSteps
import DomoticaEngine.Library.Runs

/-!
The presses of an FTS14EM and those of a GPI device.
-/

set_option autoImplicit false

namespace DomoticaEngine

structure Fts14emDevice where
  address : UInt32
  pressTime : UInt64
  deriving DecidableEq, Repr

structure Fts14emState (σ : Type) where
  device : Fts14emDevice
  outside : σ

/-- `status` is what `eltako_message_get_status` gives. -/
def eltakoFts14emIncomingData {σ : Type} (around : Around σ) (status : Nat) (s : Fts14emState σ) :
    Option (Fts14emState σ) :=
  if status = 0x30 then do
    let outside ← around.trigger .press s.outside
    let (now,outside) := around.getCurrentTimeMs outside
    return { device := { s.device with pressTime := now }, outside := outside }
  else if status = 0x20 then
    let pressTime := s.device.pressTime
    if pressTime > 0 then do
      let (releaseTime,outside) := around.getCurrentTimeMs s.outside
      let pressDuration := releaseTime-pressTime
      let outside ← around.trigger .release outside
      let device := { s.device with pressTime := 0 }
      let outside ← around.trigger
        (if pressDuration ≤ shortPressMaxTimeMs then .shortPress else .longPress) outside
      return { device := device, outside := outside }
    else some s
  else some s

structure ButtonEdge where
  time : Nat
  spent : EventType → Nat

def fts14emStep (edge : ButtonEdge) (s : Bool × Fts14emState (Moment EventType)) :
    Option (Bool × Fts14emState (Moment EventType)) := do
  let (held,state) := s
  let outside ← state.outside.wait edge.time
  let state ← eltakoFts14emIncomingData (Moment.around id edge.spent)
    (if held then 0x20 else 0x30) { state with outside := outside }
  return (!held,state)

/-- A device after `fts14em_device_parser`, at the time `now`, and a button that is not held. -/
def fts14emStart (address : UInt32) (now : Nat) : Bool × Fts14emState (Moment EventType) :=
  (false,⟨⟨address,0⟩,⟨now,[]⟩⟩)

def gpioEdges (inputs : List GpioInput) : List ButtonEdge :=
  inputs.filterMap (fun
    | .edge time spent => some ⟨time,spent⟩
    | .expire _ _ _ => none)

def pushes (raised : List EventType) : List EventType := raised.filter (· ≠ .dim)

/-- The events for the edges of a button, while it is held since `held`. -/
def pushWords (released : ButtonEdge → ButtonEdge → List EventType) :
    Option ButtonEdge → List ButtonEdge → List EventType
  | _, [] => []
  | none, press :: edges => .press :: pushWords released (some press) edges
  | some press, release :: edges => released press release ++ pushWords released none edges

def pressLength (limit : Nat) (release : ButtonEdge) : List EventType :=
  [.release,if release.time ≤ limit then .shortPress else .longPress]

def ButtonEdge.seen (press : ButtonEdge) : Nat := press.time+press.spent .press

/-- A GPI device measures from the press on. -/
def gpioReleased (press release : ButtonEdge) : List EventType :=
  pressLength (press.time+600) release

/-- An FTS14EM measures from the end of the rules on, and takes the time 0 for no press. -/
def fts14emReleased (press release : ButtonEdge) : List EventType :=
  if 0 < press.seen then pressLength (press.seen+600) release else []

/-- In each push, the rules end after the time 0, and the release is within 600 ms of the press as
soon as it is within 600 ms of the end of the rules. -/
def SameLength : Option ButtonEdge → List ButtonEdge → Prop
  | _, [] => True
  | none, press :: edges => SameLength (some press) edges
  | some press, release :: edges =>
    0 < press.seen ∧ (release.time ≤ press.seen+600 → release.time ≤ press.time+600) ∧
      SameLength none edges

section Words

theorem pushWords_nil (released : ButtonEdge → ButtonEdge → List EventType)
    (held : Option ButtonEdge) : pushWords released held [] = [] := by
  cases held <;> rfl

theorem pressLength_eq_iff {limit limit' : Nat} {release : ButtonEdge} {w w' : List EventType}
    (hle : limit ≤ limit') :
    pressLength limit release ++ w = pressLength limit' release ++ w' ↔
      (release.time ≤ limit' → release.time ≤ limit) ∧ w = w' := by
  simp only [pressLength,List.cons_append,List.nil_append,List.cons.injEq,true_and]
  refine and_congr_left (fun _ => ?_)
  split <;> split <;> simp <;> omega

theorem pushWords_head (released : ButtonEdge → ButtonEdge → List EventType)
    (edges : List ButtonEdge) (w : List EventType) :
    pushWords released none edges ≠ .release :: w := by
  cases edges <;> simp [pushWords]

theorem pushWords_eq_iff (held : Option ButtonEdge) (edges : List ButtonEdge) :
    pushWords gpioReleased held edges = pushWords fts14emReleased held edges ↔
      SameLength held edges := by
  induction edges generalizing held with
  | nil => cases held <;> exact iff_of_true rfl trivial
  | cons edge edges ih =>
    cases held with
    | none =>
      rw [pushWords,pushWords,List.cons.injEq,ih,SameLength]
      exact and_iff_right rfl
    | some press =>
      rw [pushWords,pushWords,SameLength,← ih,gpioReleased,fts14emReleased]
      split
      · rename_i hseen
        have hle : press.time+600 ≤ press.seen+600 :=
          Nat.add_le_add_right (Nat.le_add_right _ _) _
        rw [pressLength_eq_iff hle]
        exact (and_iff_right hseen).symm
      · rename_i hseen
        refine iff_of_false (fun heq => ?_) (fun hsame => hseen hsame.1)
        exact pushWords_head fts14emReleased edges _ heq.symm

end Words

def GpioHeld (s : GpioState (Moment EventType)) : Option ButtonEdge → Prop
  | none => s.input.value = false
  | some press => s.input.value = true ∧ s.input.pressTime.toNat = press.time ∧
    press.time ≤ s.outside.now

def Fts14emHeld (s : Bool × Fts14emState (Moment EventType)) : Option ButtonEdge → Prop
  | none => s.1 = false ∧ s.2.device.pressTime = 0
  | some press => s.1 = true ∧ s.2.device.pressTime.toNat = press.seen ∧
    press.seen ≤ s.2.outside.now

section Devices

theorem pushes_append (raised raised' : List EventType) :
    pushes (raised ++ raised') = pushes raised ++ pushes raised' := by
  rw [pushes,List.filter_append]
  rfl

theorem pushes_dim (raised : List EventType) : pushes (raised ++ [.dim]) = pushes raised ++ [] :=
  pushes_append raised [.dim]

theorem pushes_released (raised : List EventType) (limit : Nat) (release : ButtonEdge) :
    pushes (raised ++ pressLength limit release) = pushes raised ++ pressLength limit release := by
  rw [pushes_append]
  unfold pressLength
  split <;> rfl

theorem gpioStep_pushes (input : GpioInput) (s s' : GpioState (Moment EventType))
    (held : Option ButtonEdge) (hheld : GpioHeld s held) (h : gpioStep input s = some s') :
    ∃ events held', GpioHeld s' held' ∧
      pushes s'.outside.raised = pushes s.outside.raised ++ events ∧
      ∀ inputs, pushWords gpioReleased held (gpioEdges (input :: inputs)) =
        events ++ pushWords gpioReleased held' (gpioEdges inputs) := by
  cases gpioStep_branch h with
  | @press time spent hnow hfits hvalue =>
    cases held with
    | some press => exact Bool.noConfusion (hvalue.symm.trans hheld.1)
    | none =>
      refine ⟨[.press],some ⟨time,spent⟩,⟨rfl,?_,Nat.le_add_right _ _⟩,pushes_append _ _,
        fun inputs => rfl⟩
      exact UInt64.toNat_ofNat_of_lt' (Nat.lt_of_le_of_lt (Nat.le_add_right _ _) hfits)
  | @release time spent hnow hfits hvalue =>
    cases held with
    | none => exact Bool.noConfusion (hheld.symm.trans hvalue)
    | some press =>
      obtain ⟨-,hpress,hpast⟩ := hheld
      refine ⟨pressLength (press.time+600) ⟨time,spent⟩,none,rfl,?_,fun inputs => rfl⟩
      have htype : (s.edge time false).pressType =
          if time ≤ press.time+600 then .shortPress else .longPress :=
        pressType_limit hfits (show s.input.pressTime.toNat ≤ time by omega)
          (congrArg (·+600) hpress)
      rw [← pushes_released,pressLength,← htype]
      rfl
  | @dim t time due spent hnow =>
    refine ⟨[],held,?_,pushes_dim _,fun inputs => rfl⟩
    cases held with
    | none => exact hheld
    | some press =>
      exact ⟨hheld.1,hheld.2.1,Nat.le_add_right_of_le (Nat.le_trans hheld.2.2 hnow)⟩
  | @dimAgain t time due spent hnow =>
    refine ⟨[],held,?_,pushes_dim _,fun inputs => rfl⟩
    cases held with
    | none => exact hheld
    | some press =>
      exact ⟨hheld.1,hheld.2.1,Nat.le_add_right_of_le (Nat.le_trans hheld.2.2 hnow)⟩

theorem eltakoFts14emIncomingData_press {spent : EventType → Nat}
    {s s' : Fts14emState (Moment EventType)}
    (h : eltakoFts14emIncomingData (Moment.around id spent) 0x30 s = some s') :
    s.outside.now+spent .press < UInt64.size ∧ s' =
      { device := { s.device with pressTime := UInt64.ofNat (s.outside.now+spent .press) }
        outside := ⟨s.outside.now+spent .press,s.outside.raised ++ [.press]⟩ } := by
  unfold eltakoFts14emIncomingData at h
  rw [if_pos rfl] at h
  simp only [Option.bind_eq_bind,Option.bind_eq_some_iff,Moment.trigger_some] at h
  obtain ⟨outside,⟨hfits,rfl⟩,h⟩ := h
  cases h
  exact ⟨hfits,rfl⟩

theorem eltakoFts14emIncomingData_release {spent : EventType → Nat}
    {s s' : Fts14emState (Moment EventType)}
    (h : eltakoFts14emIncomingData (Moment.around id spent) 0x20 s = some s') :
    (s.device.pressTime = 0 ∧ s' = s) ∨ (0 < s.device.pressTime.toNat ∧
      s'.device.pressTime = 0 ∧ s'.outside.raised = s.outside.raised ++ [.release,
        if UInt64.ofNat s.outside.now-s.device.pressTime ≤ 600 then .shortPress
        else .longPress]) := by
  unfold eltakoFts14emIncomingData at h
  rw [if_neg (by decide),if_pos rfl] at h
  by_cases hpress : s.device.pressTime > 0
  · replace h := (if_pos hpress).symm.trans h
    simp only [Option.bind_eq_bind,Option.bind_eq_some_iff,Moment.trigger_some] at h
    obtain ⟨_,⟨-,rfl⟩,_,⟨-,rfl⟩,h⟩ := h
    cases h
    exact .inr ⟨UInt64.lt_iff_toNat_lt.mp hpress,rfl,List.append_assoc _ _ _⟩
  · cases (if_neg hpress).symm.trans h
    refine .inl ⟨UInt64.toNat_inj.mp ?_,rfl⟩
    rw [gt_iff_lt,UInt64.lt_iff_toNat_lt] at hpress
    exact Nat.eq_zero_of_not_pos hpress

theorem fts14emStep_pushes (edge : ButtonEdge) (s s' : Bool × Fts14emState (Moment EventType))
    (held : Option ButtonEdge) (hheld : Fts14emHeld s held) (h : fts14emStep edge s = some s') :
    ∃ events held', Fts14emHeld s' held' ∧
      pushes s'.2.outside.raised = pushes s.2.outside.raised ++ events ∧
      ∀ edges, pushWords fts14emReleased held (edge :: edges) =
        events ++ pushWords fts14emReleased held' edges := by
  obtain ⟨level,state⟩ := s
  simp only [fts14emStep,Option.bind_eq_bind,Option.bind_eq_some_iff,Moment.wait_some] at h
  obtain ⟨outside,⟨hnow,hfits,rfl⟩,state',hdata,heq⟩ := h
  cases heq
  cases held with
  | none =>
    obtain ⟨rfl,-⟩ := hheld
    obtain ⟨hseen,rfl⟩ := eltakoFts14emIncomingData_press hdata
    exact ⟨[.press],some edge,⟨rfl,UInt64.toNat_ofNat_of_lt' hseen,Nat.le_refl _⟩,
      pushes_append _ _,fun edges => rfl⟩
  | some press =>
    obtain ⟨rfl,hpress,hpast⟩ := hheld
    refine ⟨fts14emReleased press edge,none,?_⟩
    rcases eltakoFts14emIncomingData_release hdata with ⟨hzero,rfl⟩ | ⟨hpos,hzero,hraised⟩
    · have hnot : ¬0 < press.seen := by
        rw [hzero] at hpress
        exact Nat.not_lt.mpr (Nat.le_of_eq hpress.symm)
      have hnone : fts14emReleased press edge = [] := if_neg hnot
      rw [hnone]
      exact ⟨⟨rfl,hzero⟩,(List.append_nil _).symm,fun edges => congrArg (· ++ _) hnone⟩
    · have hseen : 0 < press.seen := hpress ▸ hpos
      have hlength : fts14emReleased press edge = pressLength (press.seen+600) edge := if_pos hseen
      rw [hlength]
      have hlasted : state.device.pressTime.toNat ≤ edge.time :=
        Nat.le_trans (Nat.le_of_eq hpress) (Nat.le_trans hpast hnow)
      refine ⟨⟨rfl,hzero⟩,?_,fun edges => congrArg (· ++ _) hlength⟩
      rw [hraised,← pushes_released,pressLength,
        pressType_limit hfits hlasted (congrArg (·+600) hpress)]

end Devices

/-- What the GPI device and the FTS14EM raise for the pushes of a button is the same exactly when
each release comes soon enough after its press, or late enough after the end of the rules. -/
theorem presses_agree_iff {pin fd : Int} {address : UInt32} {now : Nat} {edges : List ButtonEdge}
    {inputs : List GpioInput} {gpio : GpioState (Moment EventType)}
    {fts14em : Bool × Fts14emState (Moment EventType)} (hedges : gpioEdges inputs = edges)
    (hgpio : Runs.after gpioStep inputs (gpioStart pin fd false now) = some gpio)
    (hfts14em : Runs.after fts14emStep edges (fts14emStart address now) = some fts14em) :
    pushes gpio.outside.raised = pushes fts14em.2.outside.raised ↔ SameLength none edges := by
  subst hedges
  have hgpioStart : GpioHeld (gpioStart pin fd false now) none := rfl
  have hfts14emStart : Fts14emHeld (fts14emStart address now) none := ⟨rfl,rfl⟩
  have hraised := Runs.after_output (fun s => pushes s.outside.raised)
    (fun held inputs => pushWords gpioReleased held (gpioEdges inputs))
    (pushWords_nil gpioReleased) gpioStep_pushes hgpioStart hgpio
  have hraised' := Runs.after_output (fun s => pushes s.2.outside.raised)
    (pushWords fts14emReleased) (pushWords_nil fts14emReleased) fts14emStep_pushes
    hfts14emStart hfts14em
  rw [hraised,hraised']
  exact pushWords_eq_iff none (gpioEdges inputs)

def longPress : List ButtonEdge := [⟨1000,fun _ => 3⟩,⟨1700,fun _ => 3⟩]

def longPressInputs : List GpioInput :=
  [.edge 1000 (fun _ => 3),.expire 0 1610 (fun _ => 3),.edge 1700 (fun _ => 3)]

theorem presses_agree_long :
    ∃ gpio fts14em,
      Runs.after gpioStep longPressInputs (gpioStart 17 5 false 0) = some gpio ∧
      Runs.after fts14emStep longPress (fts14emStart 0x1234 0) = some fts14em ∧
      (pushes gpio.outside.raised = pushes fts14em.2.outside.raised ↔ SameLength none longPress) :=
  ⟨_,_,rfl,rfl,@presses_agree_iff 17 5 0x1234 0 longPress longPressInputs _ _ rfl rfl rfl⟩

/-- A press of 700 ms that the rules take 500 ms for is a long one and a short one. -/
theorem presses_disagree :
    ∃ gpio fts14em,
      Runs.after gpioStep [.edge 1000 (fun _ => 500),.edge 1700 (fun _ => 3)]
        (gpioStart 17 5 false 0) = some gpio ∧
      Runs.after fts14emStep [⟨1000,fun _ => 500⟩,⟨1700,fun _ => 3⟩] (fts14emStart 0x1234 0) =
        some fts14em ∧
      pushes gpio.outside.raised ≠ pushes fts14em.2.outside.raised :=
  ⟨_,_,rfl,rfl,by decide⟩

end DomoticaEngine
