import DomoticaEngine.GpioSteps
import DomoticaEngine.Library.Acceptor

/-!
The order in which a GPI device raises its events.
-/

set_option autoImplicit false

namespace DomoticaEngine
open Acceptor

/-- `(PRESS RELEASE SHORT_PRESS | PRESS DIM* RELEASE LONG_PRESS)*` -/
inductive PressWord : List EventType → Prop where
  | nil : PressWord []
  | short {w : List EventType} (h : PressWord w) :
      PressWord (.press :: .release :: .shortPress :: w)
  | long {n : Nat} {w : List EventType} (h : PressWord w) :
      PressWord (.press :: (List.replicate n .dim ++ .release :: .longPress :: w))

inductive PressState where
  | idle | pressed | dimming | released | releasedLong
  deriving DecidableEq, Repr

def PressState.next : EventType → PressState → Option PressState
  | .press, .idle => some .pressed
  | .dim, .pressed | .dim, .dimming => some .dimming
  | .release, .pressed => some .released
  | .release, .dimming => some .releasedLong
  | .shortPress, .released | .longPress, .released | .longPress, .releasedLong => some .idle
  | _, _ => none

def PressState.history : PressState → List EventType
  | .idle => []
  | .pressed => [.press]
  | .dimming => [.press,.dim]
  | .released => [.press,.release]
  | .releasedLong => [.press,.dim,.release]

section Grammar
variable {w : List EventType} {n : Nat}

theorem PressWord.dim (h : PressWord (.press :: .dim :: w)) :
    PressWord (.press :: .dim :: .dim :: w) := by
  generalize hv : EventType.press :: .dim :: w = v at h
  cases h with
  | nil | short => cases hv
  | @long n rest hrest =>
    rw [List.cons.injEq] at hv
    rw [hv.2]
    exact .long (n := n+1) hrest

theorem after_dims (n : Nat) (w : List EventType) :
    Runs.after PressState.next (List.replicate n .dim ++ w) .dimming =
      Runs.after PressState.next w .dimming := by
  induction n with
  | zero => rfl
  | succ n ih => exact ih

theorem after_word (h : PressWord w) : Runs.after PressState.next w .idle = some .idle := by
  induction h with
  | nil => rfl
  | short _ ih => exact ih
  | @long n w _ ih =>
    cases n with
    | zero => exact ih
    | succ n => exact (after_dims n _).trans ih

theorem pressState_accepts : Accepts PressState.next PressState.history PressWord .idle where
  nil := rfl
  step e q q' w hnext h := by
    cases q <;> cases e <;> cases hnext
    case idle.press | pressed.dim | pressed.release | dimming.release => exact h
    case dimming.dim => exact h.dim
    case released.shortPress => exact .short h
    case released.longPress => exact .long (n := 0) h
    case releasedLong.longPress => exact .long (n := 1) h
  live q := by
    cases q with
    | idle => exact ⟨_,.nil⟩
    | pressed => exact ⟨_,.short .nil⟩
    | dimming => exact ⟨_,.long (n := 1) .nil⟩
    | released => exact ⟨_,.short .nil⟩
    | releasedLong => exact ⟨_,.long (n := 1) .nil⟩
  word w h := Option.isSome_of_eq_some (after_word h)

end Grammar

def OnlyTimer (s : GpioState (Moment EventType)) (timer : GpioTimer) : Prop :=
  ∃ t, s.input.timer = some t ∧ s.timers.get t = some timer ∧
    ∀ u, u ≠ t → s.timers.get u = none

def PressPhase (s : GpioState (Moment EventType)) : PressState → Prop
  | .idle => s.input.value = false ∧ s.input.timer = none ∧ ∀ t, s.timers.get t = none
  | .pressed => s.input.value = true ∧
    ∃ due, s.input.pressTime.toNat+600 ≤ due ∧ OnlyTimer s ⟨due,.shortPressTimer⟩
  | .dimming => s.input.value = true ∧ s.input.pressTime.toNat+600 ≤ s.outside.now ∧
    ∃ due, OnlyTimer s ⟨due,.dimPressTimer⟩
  | .released | .releasedLong => False

/-- A release comes while the dim timer of the press is pending, just as long after the press as a
short one may last. -/
def LateShort (input : GpioInput) (s : GpioState (Moment EventType)) : Prop :=
  match input with
  | .edge time _ => s.input.value = true ∧
      (s.input.timer.bind s.timers.get).map GpioTimer.callback = some .dimPressTimer ∧
      time = s.input.pressTime.toNat+600
  | .expire _ _ _ => False

section Phases
variable {s s' : GpioState (Moment EventType)} {input : GpioInput} {timer : GpioTimer}

theorem OnlyTimer.get {t : Nat} {timer' : GpioTimer} (h : OnlyTimer s timer)
    (hget : s.timers.get t = some timer') : s.input.timer = some t ∧ timer' = timer := by
  obtain ⟨u,htimer,hu,honly⟩ := h
  by_cases heq : t = u
  · subst heq
    rw [hu] at hget
    cases hget
    exact ⟨htimer,rfl⟩
  · rw [honly t heq] at hget
    cases hget

theorem OnlyTimer.callback (h : OnlyTimer s timer) :
    (s.input.timer.bind s.timers.get).map GpioTimer.callback = some timer.callback := by
  obtain ⟨u,htimer,hu,-⟩ := h
  rw [htimer,Option.bind_some,hu,Option.map_some]

theorem OnlyTimer.without (h : OnlyTimer s timer) (t : Nat) :
    (s.timers.without s.input.timer).get t = none := by
  obtain ⟨u,htimer,-,honly⟩ := h
  rw [htimer,Slots.without,Slots.erase_get]
  split
  · rfl
  · rename_i hne
    exact honly t hne

theorem onlyTimer_alloc (slots : Slots GpioTimer) (hnone : ∀ t, slots.get t = none)
    (htimer : s.input.timer = some slots.next) (htimers : s.timers = (slots.alloc timer).2) :
    OnlyTimer s timer := by
  refine ⟨slots.next,htimer,?_,fun u hu => ?_⟩
  · rw [htimers,Slots.alloc_get_self]
  · rw [htimers,Slots.alloc_get,if_neg hu,hnone u]

theorem phase_press {time : Nat} {spent : EventType → Nat} (hphase : PressPhase s .idle)
    (hfits : time+spent .press < UInt64.size) :
    PressPhase ((s.edge time true).pressed spent) .pressed := by
  obtain ⟨-,htimer,hnone⟩ := hphase
  refine ⟨rfl,(UInt64.ofNat (time+spent .press)).toNat+600,?_,?_⟩
  · change (UInt64.ofNat time).toNat+600 ≤ _
    rw [UInt64.toNat_ofNat_of_lt' (Nat.lt_of_le_of_lt (Nat.le_add_right _ _) hfits),
      UInt64.toNat_ofNat_of_lt' hfits]
    omega
  · refine onlyTimer_alloc (s.timers.without s.input.timer) ?_ rfl rfl
    rw [htimer]
    exact hnone

theorem phase_release {time : Nat} {spent : EventType → Nat} (h : OnlyTimer s timer) :
    PressPhase ((s.edge time false).released spent) .idle :=
  ⟨rfl,rfl,h.without⟩

theorem onlyTimer_dimmed {t time : Nat} {timer' : GpioTimer} {spent : EventType → Nat}
    (h : OnlyTimer s timer) (hpending : s.timers.get t = some timer') :
    OnlyTimer ((s.moment time).dimmed spent t)
      ⟨(UInt64.ofNat (time+spent .dim)).toNat+200,.dimPressTimer⟩ := by
  have hold : s.input.timer = some t := (h.get hpending).1
  have hlt : t < s.timers.next := Slots.lt_of_get hpending
  refine ⟨s.timers.next,rfl,?_,fun u hu => ?_⟩
  · change ((s.timers.alloc _).2.erase t).get s.timers.next = _
    rw [Slots.erase_get,if_neg (by omega),Slots.alloc_get_self]
    rfl
  · change ((s.timers.alloc _).2.erase t).get u = none
    rw [Slots.erase_get,Slots.alloc_get,if_neg hu]
    split
    · rfl
    · rename_i hne
      have hnone := h.without u
      rwa [hold,Slots.without,Slots.erase_get,if_neg hne] at hnone

theorem onlyTimer_dimmedAgain {t time due : Nat} {timer' : GpioTimer} {spent : EventType → Nat}
    (h : OnlyTimer s timer) (hpending : s.timers.get t = some timer') :
    OnlyTimer ((s.moment time).dimmedAgain spent t due) ⟨due+200,.dimPressTimer⟩ := by
  have hold : s.input.timer = some t := (h.get hpending).1
  refine ⟨t,hold,?_,fun u hu => ?_⟩
  · change (s.timers.put t _).get t = _
    rw [Slots.put_get,if_pos rfl,hpending]
    rfl
  · change (s.timers.put t _).get u = none
    have hnone := h.without u
    rw [hold,Slots.without,Slots.erase_get,if_neg hu] at hnone
    rw [Slots.put_get,if_neg hu,hnone]

theorem phase_dim {t time due : Nat} {spent : EventType → Nat} {q : PressState}
    (hphase : PressPhase s q) (hpending : s.timers.get t = some ⟨due,.shortPressTimer⟩)
    (hdue : due ≤ time) : q = .pressed ∧ PressPhase ((s.moment time).dimmed spent t) .dimming := by
  cases q with
  | idle =>
    rw [hphase.2.2 t] at hpending
    cases hpending
  | pressed =>
    obtain ⟨hvalue,due',hpress,honly⟩ := hphase
    cases (honly.get hpending).2
    have hlong : s.input.pressTime.toNat+600 ≤ time+spent .dim := by omega
    exact ⟨rfl,hvalue,hlong,_,onlyTimer_dimmed honly hpending⟩
  | dimming =>
    obtain ⟨-,-,due',honly⟩ := hphase
    cases (honly.get hpending).2
  | released | releasedLong => exact hphase.elim

theorem phase_dimAgain {t time due : Nat} {spent : EventType → Nat} {q : PressState}
    (hphase : PressPhase s q) (hpending : s.timers.get t = some ⟨due,.dimPressTimer⟩)
    (hnow : s.outside.now ≤ time) :
    q = .dimming ∧ PressPhase ((s.moment time).dimmedAgain spent t due) .dimming := by
  cases q with
  | idle =>
    rw [hphase.2.2 t] at hpending
    cases hpending
  | pressed =>
    obtain ⟨-,due',-,honly⟩ := hphase
    cases (honly.get hpending).2
  | dimming =>
    obtain ⟨hvalue,hpress,due',honly⟩ := hphase
    have hlong : s.input.pressTime.toNat+600 ≤ time+spent .dim := by omega
    exact ⟨rfl,hvalue,hlong,_,onlyTimer_dimmedAgain honly hpending⟩
  | released | releasedLong => exact hphase.elim

theorem pressType_cases (s : GpioState (Moment EventType)) :
    s.pressType = .shortPress ∨ s.pressType = .longPress := by
  unfold GpioState.pressType
  split
  · exact .inl rfl
  · exact .inr rfl

theorem pressType_dimming {time : Nat} (hfits : time < UInt64.size)
    (hpress : s.input.pressTime.toNat+600 ≤ time) :
    (s.edge time false).pressType =
      if time = s.input.pressTime.toNat+600 then .shortPress else .longPress := by
  have hexact : time = s.input.pressTime.toNat+600 ↔ time ≤ s.input.pressTime.toNat+600 := by
    omega
  simp only [hexact]
  exact pressType_limit hfits (show s.input.pressTime.toNat ≤ time by omega) rfl

theorem branch_phase {q : PressState} (hphase : PressPhase s q) (h : GpioBranch s input s') :
    ∃ events, s'.outside.raised = s.outside.raised ++ events ∧
      (¬LateShort input s →
        ∃ q', Runs.after PressState.next events q = some q' ∧ PressPhase s' q') ∧
      ((Runs.after PressState.next events q).isSome → ¬LateShort input s) := by
  cases h with
  | @press time spent _ hfits hvalue =>
    refine ⟨[.press],rfl,fun _ => ?_,fun _ hlate => Bool.noConfusion (hvalue.symm.trans hlate.1)⟩
    cases q with
    | idle => exact ⟨.pressed,rfl,phase_press hphase hfits⟩
    | pressed | dimming => exact Bool.noConfusion (hvalue.symm.trans hphase.1)
    | released | releasedLong => exact hphase.elim
  | @release time spent hnow hfits hvalue =>
    refine ⟨[.release,(s.edge time false).pressType],rfl,?_⟩
    cases q with
    | idle => exact Bool.noConfusion (hvalue.symm.trans hphase.1)
    | pressed =>
      obtain ⟨-,due,-,honly⟩ := hphase
      refine ⟨fun _ => ⟨.idle,?_,phase_release honly⟩,fun _ hlate => ?_⟩
      · rcases pressType_cases (s.edge time false) with htype | htype <;> rw [htype] <;> rfl
      · have hcallback := honly.callback.symm.trans hlate.2.1
        cases hcallback
    | dimming =>
      obtain ⟨-,hpress,due,honly⟩ := hphase
      rw [pressType_dimming hfits (Nat.le_trans hpress hnow)]
      by_cases hexact : time = s.input.pressTime.toNat+600
      · rw [if_pos hexact]
        have hlate : LateShort (.edge time spent) s := ⟨hvalue,honly.callback,hexact⟩
        exact ⟨fun hnot => (hnot hlate).elim,fun hsome => by cases hsome⟩
      · rw [if_neg hexact]
        exact ⟨fun _ => ⟨.idle,rfl,phase_release honly⟩,fun _ hlate => hexact hlate.2.2⟩
    | released | releasedLong => exact hphase.elim
  | dim _ _ hdue hpending =>
    obtain ⟨rfl,hphase'⟩ := phase_dim hphase hpending hdue
    exact ⟨[.dim],rfl,fun _ => ⟨.dimming,rfl,hphase'⟩,fun _ => not_false⟩
  | dimAgain hnow _ _ hpending =>
    obtain ⟨rfl,hphase'⟩ := phase_dimAgain hphase hpending hnow
    exact ⟨[.dim],rfl,fun _ => ⟨.dimming,rfl,hphase'⟩,fun _ => not_false⟩

theorem branch_raised (h : GpioBranch s input s') :
    ∃ events, s'.outside.raised = s.outside.raised ++ events := by
  cases h <;> exact ⟨_,rfl⟩

def InGrammar (s : GpioState (Moment EventType)) : Prop :=
  ∃ w, PressWord w ∧ s.outside.raised <+: w

def InPhase (s : GpioState (Moment EventType)) : Prop :=
  ∃ q, Runs.after PressState.next s.outside.raised .idle = some q ∧ PressPhase s q

theorem inGrammar_iff :
    InGrammar s ↔ (Runs.after PressState.next s.outside.raised .idle).isSome :=
  pressState_accepts.prefix_iff

theorem inGrammar_past (h : gpioStep input s = some s') (hs' : InGrammar s') : InGrammar s := by
  obtain ⟨w,hw,hbegins⟩ := hs'
  obtain ⟨events,hevents⟩ := branch_raised (gpioStep_branch h)
  rw [hevents] at hbegins
  exact ⟨w,hw,(List.prefix_append _ events).trans hbegins⟩

theorem inPhase_step (hs : InPhase s) (h : gpioStep input s = some s') :
    (¬LateShort input s → InPhase s') ∧ (InGrammar s' → ¬LateShort input s) := by
  obtain ⟨q,hq,hphase⟩ := hs
  obtain ⟨events,hevents,hkeep,hneeds⟩ := branch_phase hphase (gpioStep_branch h)
  constructor
  · intro hcond
    obtain ⟨q',hq',hphase'⟩ := hkeep hcond
    refine ⟨q',?_,hphase'⟩
    rw [hevents]
    exact Runs.after_append.mpr ⟨q,hq,hq'⟩
  · intro hgrammar
    obtain ⟨q',hq'⟩ := Option.isSome_iff_exists.mp (inGrammar_iff.mp hgrammar)
    rw [hevents] at hq'
    obtain ⟨q₁,hq₁,hrest⟩ := Runs.after_append.mp hq'
    cases hq.symm.trans hq₁
    exact hneeds (Option.isSome_of_eq_some hrest)

theorem high_start {pin fd : Int} {start : Nat}
    (h : gpioStep input (gpioStart pin fd true start) = some s') : ¬InGrammar s' := by
  rw [inGrammar_iff]
  cases gpioStep_branch h with
  | press _ _ hvalue => cases hvalue
  | release _ _ _ => exact (nomatch ·)
  | dim _ _ _ hpending | dimAgain _ _ _ hpending => cases hpending

end Phases

/-- The events of a run are in order exactly when it does not start at a high level, unless nothing
happens, and no press that lasts 600 ms has been dimming. -/
theorem press_grammar_iff {pin fd : Int} {level : Bool} {start : Nat} {inputs : List GpioInput}
    {s' : GpioState (Moment EventType)}
    (hrun : Runs.after gpioStep inputs (gpioStart pin fd level start) = some s') :
    (∃ w, PressWord w ∧ s'.outside.raised <+: w) ↔
      (level = false ∨ inputs = []) ∧
        Runs.Meets gpioStep (fun input s => ¬LateShort input s) inputs
          (gpioStart pin fd level start) := by
  cases level with
  | false =>
    have hidle : InPhase (gpioStart pin fd false start) := ⟨.idle,rfl,rfl,rfl,fun _ => rfl⟩
    have hphase : ∀ s, InPhase s → InGrammar s := fun s ⟨q,hq,_⟩ =>
      inGrammar_iff.mpr (Option.isSome_of_eq_some hq)
    have hiff := Runs.after_iff_meets (P := InGrammar) (fun _ _ _ => inGrammar_past) hphase
      (fun _ _ _ hs h => inPhase_step hs h) hidle hrun
    exact hiff.trans ⟨fun h => ⟨.inl rfl,h⟩,fun h => h.2⟩
  | true =>
    cases inputs with
    | nil =>
      cases hrun
      exact iff_of_true ⟨[],.nil,List.prefix_rfl⟩ ⟨.inr rfl,trivial⟩
    | cons input inputs =>
      obtain ⟨s₁,h₁,hrest⟩ := Runs.after_cons.mp hrun
      refine iff_of_false (fun hgrammar => high_start h₁ ?_) (by simp)
      exact Runs.after_past (P := InGrammar) (fun _ _ _ => inGrammar_past) hrest hgrammar

def longPush : List GpioInput :=
  [.edge 1000 (fun _ => 3),.expire 0 1603 (fun _ => 3),.expire 1 1806 (fun _ => 3),
   .edge 1810 (fun _ => 3)]

theorem press_grammar_longPush :
    ∃ s', Runs.after gpioStep longPush (gpioStart 17 5 false 0) = some s' ∧
      ((∃ w, PressWord w ∧ s'.outside.raised <+: w) ↔
        (false = false ∨ longPush = []) ∧
          Runs.Meets gpioStep (fun input s => ¬LateShort input s) longPush
            (gpioStart 17 5 false 0)) :=
  ⟨_,rfl,press_grammar_iff rfl⟩

/-- A button that is held when the engine starts, and a press of 600 ms. -/
theorem pushes_out_of_order :
    (∃ s', Runs.after gpioStep [.edge 1000 (fun _ => 3)] (gpioStart 17 5 true 0) = some s' ∧
      ¬∃ w, PressWord w ∧ s'.outside.raised <+: w) ∧
    (∃ s', Runs.after gpioStep
        [.edge 1000 (fun _ => 0),.expire 0 1600 (fun _ => 0),.edge 1600 (fun _ => 0)]
        (gpioStart 17 5 false 0) = some s' ∧
      ¬∃ w, PressWord w ∧ s'.outside.raised <+: w) := by
  refine ⟨⟨_,rfl,fun hgrammar => ?_⟩,⟨_,rfl,fun hgrammar => ?_⟩⟩
  · have hsome := inGrammar_iff.mp hgrammar
    revert hsome
    decide
  · have hsome := inGrammar_iff.mp hgrammar
    revert hsome
    decide

end DomoticaEngine
