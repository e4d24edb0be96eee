import DomoticaEngine.FrameAgreement
import DomoticaEngine.Library.Runs
import DomoticaEngine.Library.Sweep
import DomoticaEngine.StoreRoundtrip

/-!
The level of one FUD14: how it is dimmed, and what it is set to.
-/

set_option autoImplicit false

namespace DomoticaEngine
open Sweep

/-- The limits of fud14_device_parser, and a level between them. -/
structure Fud14InLimits (fud14 : DeviceFud14) : Prop where
  dimMinValue : fud14.dimMinValue = 0
  dimMaxValue : fud14.dimMaxValue = 100
  dimInterval : fud14.dimInterval = 3
  dimValue : fud14.dimValue.toNat ≤ 100

def fud14Position (fud14 : DeviceFud14) : Position :=
  ⟨fud14.dimValue.toNat,fud14.dimDirection = 1⟩

def levelPosition : Userdata → Position
  | .fud14 fud14 => fud14Position fud14
  | _ => ⟨0,false⟩

/-- What DIM makes of a level: below the interval, a falling level wraps around to the maximum. -/
def dimPosition (p : Position) : Position :=
  if p.rising then if p.value+3 ≥ 100 then ⟨100,false⟩ else ⟨p.value+3,true⟩
  else if p.value < 3 then ⟨100,false⟩
  else ⟨p.value-3,p.value = 3⟩

/-- How many steps a sweep from this level has before it wraps around. From 100 it has 33, which
lead to 1; from 0 it has 34 that lead to 100. -/
def dimsLeft (p : Position) : Nat :=
  if p.rising then max 1 ((102-p.value)/3)+33
  else if p.value = 0 then 0
  else if p.value % 3 = 0 then p.value/3+67
  else p.value/3

section Dim
variable {fud14 : DeviceFud14}

/-- The two clamps after the step of a dimmer. -/
def fud14Clamp (fud14 : DeviceFud14) : DeviceFud14 :=
  let fud14 :=
    if fud14.dimValue ≥ fud14.dimMaxValue then
      { fud14 with dimValue := fud14.dimMaxValue, dimDirection := 0 }
    else fud14
  if fud14.dimValue ≤ fud14.dimMinValue then
    { fud14 with dimValue := fud14.dimMinValue, dimDirection := 1 }
  else fud14

theorem fud14Dim_eq (fud14 : DeviceFud14) :
    fud14Dim fud14 = fud14Clamp { fud14 with dimValue := dimStep fud14 } := by
  unfold fud14Dim dimStep
  by_cases hrising : fud14.dimDirection = 1
  · simp only [if_pos hrising]
    rfl
  · simp only [if_neg hrising]
    rfl

theorem fud14Clamp_position (hmin : fud14.dimMinValue = 0) (hmax : fud14.dimMaxValue = 100) :
    fud14Position (fud14Clamp fud14) =
      if fud14.dimValue.toNat ≥ 100 then ⟨100,false⟩
      else if fud14.dimValue.toNat = 0 then ⟨0,true⟩
      else fud14Position fud14 := by
  obtain ⟨address,value,direction,low,high,interval⟩ := fud14
  simp only at hmin hmax
  subst hmin hmax
  have hhigh : value ≥ 100 ↔ value.toNat ≥ 100 := UInt8.le_iff_toNat_le
  have hlow : value ≤ 0 ↔ value.toNat = 0 := by
    rw [UInt8.le_iff_toNat_le]
    exact Nat.le_zero
  have hpositive : ¬ (100 : UInt8) ≤ 0 := by decide
  simp only [fud14Clamp,fud14Position,hhigh]
  by_cases hfull : value.toNat ≥ 100
  · simp [hfull,hpositive]
  · by_cases hdark : value.toNat = 0
    · simp [hlow,hdark]
    · simp [hfull,hlow,hdark]

theorem fud14Clamp_limits (hmin : fud14.dimMinValue = 0) (hmax : fud14.dimMaxValue = 100)
    (hinterval : fud14.dimInterval = 3) : Fud14InLimits (fud14Clamp fud14) := by
  have hvalue : (fud14Position (fud14Clamp fud14)).value ≤ 100 := by
    rw [fud14Clamp_position hmin hmax]
    split
    · exact Nat.le_refl _
    · split
      · exact Nat.zero_le _
      · rename_i hfull _
        exact Nat.le_of_lt (Nat.lt_of_not_ge hfull)
  have hkept : (fud14Clamp fud14).dimMinValue = fud14.dimMinValue ∧
      (fud14Clamp fud14).dimMaxValue = fud14.dimMaxValue ∧
      (fud14Clamp fud14).dimInterval = fud14.dimInterval := by
    unfold fud14Clamp
    simp only
    repeat' split
    all_goals exact ⟨rfl,rfl,rfl⟩
  exact ⟨hkept.1.trans hmin,hkept.2.1.trans hmax,hkept.2.2.trans hinterval,hvalue⟩

theorem dimStep_toNat (h : Fud14InLimits fud14) :
    (dimStep fud14).toNat =
      if fud14.dimDirection = 1 then fud14.dimValue.toNat+3
      else if fud14.dimValue.toNat < 3 then fud14.dimValue.toNat+253
      else fud14.dimValue.toNat-3 := by
  have hvalue := h.dimValue
  have hthree : (3 : UInt8).toNat = 3 := rfl
  unfold dimStep
  rw [h.dimInterval]
  split
  · rw [UInt8.toNat_add,hthree]
    omega
  · rw [UInt8.toNat_sub,hthree]
    split <;> omega

theorem fud14Dim_spec (h : Fud14InLimits fud14) :
    Fud14InLimits (fud14Dim fud14) ∧
      fud14Position (fud14Dim fud14) = dimPosition (fud14Position fud14) := by
  rw [fud14Dim_eq]
  refine ⟨fud14Clamp_limits h.dimMinValue h.dimMaxValue h.dimInterval,?_⟩
  rw [@fud14Clamp_position { fud14 with dimValue := dimStep fud14 } h.dimMinValue h.dimMaxValue]
  have hvalue := h.dimValue
  simp only [dimStep_toNat h,dimPosition,fud14Position]
  by_cases hrising : fud14.dimDirection = 1
  · simp [hrising]
  · simp only [hrising,if_false,decide_false,Bool.false_eq_true]
    by_cases hwrap : fud14.dimValue.toNat < 3
    · simp [hwrap]
    · have hnot : ¬ fud14.dimValue.toNat-3 ≥ 100 := by omega
      simp only [hwrap,hnot,if_false]
      by_cases hthree : fud14.dimValue.toNat = 3
      · simp [hthree]
      · have hpositive : ¬ fud14.dimValue.toNat-3 = 0 := by omega
        simp [hthree,hpositive]

theorem dimPosition_step {p : Position} (h : p.value ≤ 100) :
    (Step 0 100 3 p (dimPosition p) ↔ 0 < dimsLeft p) ∧
      (Step 0 100 3 p (dimPosition p) → dimsLeft (dimPosition p)+1 = dimsLeft p) := by
  obtain ⟨value,rising⟩ := p
  simp only at h
  cases rising with
  | true =>
    rw [step_rising]
    by_cases hfull : value+3 ≥ 100
    · have hnext : dimPosition ⟨value,true⟩ = ⟨100,false⟩ := by simp [dimPosition,hfull]
      have hleft : dimsLeft ⟨value,true⟩ = 34 := by
        simp only [dimsLeft,if_true]
        omega
      have hturned : dimsLeft ⟨100,false⟩ = 33 := rfl
      rw [hnext,hleft,hturned]
      simp only [iff_self,and_true]
      exact ⟨iff_of_true (by omega) (by omega),fun _ => trivial⟩
    · simp only [dimPosition,dimsLeft,if_neg hfull,if_true,Bool.true_eq_false,false_iff]
      exact ⟨iff_of_true (by omega) (by omega),fun _ => by omega⟩
  | false =>
    rw [step_falling]
    by_cases hwrap : value < 3
    · simp only [dimPosition,dimsLeft,if_pos hwrap,Bool.false_eq_true,if_false]
      refine ⟨iff_of_false (by omega) ?_,fun hstep => absurd hstep (by omega)⟩
      split_ifs <;> omega
    · by_cases hthree : value = 3
      · subst hthree
        decide
      · simp only [dimPosition,dimsLeft,if_neg hwrap,hthree,decide_false,Bool.false_eq_true,
          if_false,false_iff]
        refine ⟨iff_of_true (by omega) ?_,fun _ => ?_⟩
        · split_ifs <;> omega
        · split_ifs <;> omega

end Dim

def DimRun (device : DeviceId) (w : Nat → World) (n : Nat) : Prop :=
  ∀ k, k < n → ∃ (trigger : Trigger) (action : Action) (event : Option Event),
    (∀ e v v', trigger e v = some v' → v'.userdata device = v.userdata device) ∧
      action.type = .dim ∧ deviceSet trigger device action event (w k) = some (w (k+1))

section Runs
variable {device : DeviceId} {w w' : World} {fud14 : DeviceFud14}

theorem deviceSet_fud14 (hd : w.userdata device = .fud14 fud14) {action : Action}
    (hmask : action.type ∈ (deviceTypeInfo .fud14).actions) (trigger : Trigger)
    (event : Option Event) :
    deviceSet trigger device action event w = fud14DeviceExec trigger device fud14 action w := by
  unfold deviceSet
  simp only [hd]
  exact if_pos hmask

theorem deviceSet_dim (hd : w.userdata device = .fud14 fud14) {trigger : Trigger} {action : Action}
    {event : Option Event}
    (hkeep : ∀ e v v', trigger e v = some v' → v'.userdata device = v.userdata device)
    (hdim : action.type = .dim) (hset : deviceSet trigger device action event w = some w') :
    w'.userdata device = .fud14 (fud14Dim fud14) := by
  have hmask : action.type ∈ (deviceTypeInfo .fud14).actions := by
    rw [hdim]
    decide
  rw [deviceSet_fud14 hd hmask] at hset
  unfold fud14DeviceExec fud14Command at hset
  rw [hdim] at hset
  rw [hkeep _ _ _ hset]
  simp

theorem DimRun.keeps {w : Nat → World} {n : Nat} (hrun : DimRun device w n)
    (hd : (w 0).userdata device = .fud14 fud14) (h : Fud14InLimits fud14) {k : Nat} (hk : k ≤ n) :
    ∃ fud14, (w k).userdata device = .fud14 fud14 ∧ Fud14InLimits fud14 := by
  induction k with
  | zero => exact ⟨fud14,hd,h⟩
  | succ k ih =>
    obtain ⟨fud14,hd,h⟩ := ih (by omega)
    obtain ⟨trigger,action,event,hkeep,hdim,hset⟩ := hrun k (by omega)
    exact ⟨_,deviceSet_dim hd hkeep hdim hset,(fud14Dim_spec h).1⟩

end Runs

/-- Consecutive DIM actions are a sweep between 0 and 100 in steps of at most 3 exactly as long as
the level does not have to wrap around. -/
theorem fud14_sweep_iff (device : DeviceId) (fud14 : DeviceFud14) (w : Nat → World) (n : Nat)
    (hlimits : Fud14InLimits fud14) (hd : (w 0).userdata device = .fud14 fud14)
    (hrun : DimRun device w n) :
    Swept 0 100 3 (fun k => levelPosition ((w k).userdata device)) n ↔
      n ≤ dimsLeft (fud14Position fud14) := by
  have hnext : ∀ k, k < n → (levelPosition ((w k).userdata device)).value ≤ 100 ∧
      levelPosition ((w (k+1)).userdata device) =
        dimPosition (levelPosition ((w k).userdata device)) := by
    intro k hk
    obtain ⟨fud14,hd,h⟩ := hrun.keeps hd hlimits (Nat.le_of_lt hk)
    obtain ⟨trigger,action,event,hkeep,hdim,hset⟩ := hrun k hk
    rw [deviceSet_dim hd hkeep hdim hset,hd]
    exact ⟨h.dimValue,(fud14Dim_spec h).2⟩
  have hstart : levelPosition ((w 0).userdata device) = fud14Position fud14 := by rw [hd]; rfl
  rw [swept_iff,← hstart]
  refine Runs.countdown_iff (s := fun k => levelPosition ((w k).userdata device))
    (I := fun p => p.value ≤ 100) ?_ ?_
  · intro k hk hvalue
    obtain ⟨-,hstep⟩ := hnext k hk
    obtain ⟨hleft,htakes⟩ := dimPosition_step hvalue
    rw [hstep]
    exact ⟨hleft,fun hgood => ⟨hgood.le_high,htakes hgood⟩⟩
  · rw [hstart]
    exact hlimits.dimValue

def dimWorlds (w : World) (device : DeviceId) : Nat → World
  | 0 => w
  | k+1 =>
    (deviceSet untriggered device ⟨.dim,device,[]⟩ none (dimWorlds w device k)).getD w

theorem dimWorlds_run (w : World) (device : DeviceId) (n : Nat) :
    DimRun device (dimWorlds w device) n := by
  intro k _
  obtain ⟨w₁,raised,hresume,-,-⟩ :=
    deviceSet_spec device ⟨.dim,device,[]⟩ none (dimWorlds w device k)
  refine ⟨untriggered,⟨.dim,device,[]⟩,none,fun e v v' h => ?_,rfl,?_⟩
  · cases h
    rfl
  · have hset : deviceSet untriggered device ⟨.dim,device,[]⟩ none (dimWorlds w device k) =
        some w₁ := deviceSet_quiet hresume
    simp only [dimWorlds,hset,Option.getD_some]

/-- A dimmer as it is parsed, for as long as the sweep lasts: up to 100 and down to 1. -/
theorem fud14_sweep_dimmer :
    Swept 0 100 3 (fun k => levelPosition ((dimWorlds dimmerWorld 0 k).userdata 0)) 67 ↔
      67 ≤ dimsLeft (fud14Position dimmer) :=
  fud14_sweep_iff 0 dimmer (dimWorlds dimmerWorld 0) 67 ⟨rfl,rfl,rfl,by decide⟩ rfl
    (dimWorlds_run dimmerWorld 0 67)

def dimmedDown : DeviceFud14 := { dimmer with dimValue := 1, dimDirection := 0 }

/-- The next step leads from 1 to 100. -/
theorem fud14_sweep_wraps :
    Fud14InLimits dimmedDown ∧ ∃ w : Nat → World, (w 0).userdata 0 = .fud14 dimmedDown ∧
      DimRun 0 w 1 ∧ ¬ Swept 0 100 3 (fun k => levelPosition ((w k).userdata 0)) 1 := by
  refine ⟨⟨rfl,rfl,rfl,by decide⟩,
    dimWorlds (World.start fun _ => .fud14 dimmedDown) 0,rfl,dimWorlds_run _ 0 1,fun h => ?_⟩
  have hstep : Step 0 100 3 ⟨1,false⟩ ⟨100,false⟩ := h.steps 0 (by omega)
  have hforward : 100 ≤ 1 := (step_falling.mp hstep).1.2.2.1
  omega

/-- The number that an action asks for: the one that its option is read as, or 100. -/
def levelAsked (action : Action) : Int :=
  match actionGetOption action 1 with
  | some option => strtoll option 10
  | none => 100

inductive LevelInput where
  | act (action : Action)
  | store
  | restore (i : Nat)
  | restart (options : List CString)

abbrev LevelState := World × List VariantMap

/-- An action, which the rules answer with further inputs; a state is stored, and a stored one
restored; or the device is parsed again. -/
def levelStep (device : DeviceId) (input : LevelInput) (s : LevelState) : Option LevelState :=
  match s.1.userdata device with
  | .fud14 fud14 =>
    match input with
    | .act action => (deviceSet untriggered device action none s.1).map (·,s.2)
    | .store => some (s.1,s.2 ++ [fud14DeviceStore fud14])
    | .restore i => do
      let state ← s.2[i]?
      let fud14 ← (fud14DeviceRestore fud14 state).toOption
      return (s.1.setUserdata device (.fud14 fud14),s.2)
    | .restart options => do
      let fud14 ← fud14DeviceParser options
      return (s.1.setUserdata device (.fud14 fud14),s.2)
  | _ => none

def LevelInRange (device : DeviceId) (w : World) : Prop :=
  ∃ fud14, w.userdata device = .fud14 fud14 ∧ fud14.dimMinValue = 0 ∧ fud14.dimMaxValue = 100 ∧
    fud14.dimMinValue ≤ fud14.dimValue ∧ fud14.dimValue ≤ fud14.dimMaxValue

def SetsLevel (device : DeviceId) (action : Action) (w : World) : Prop :=
  action.type = .set ∨
    action.type = .toggle ∧ deviceCheck device ⟨.unset,device⟩ w = true

/-- The step keeps the level in its range, and leaves the device on when it sets the level to a
positive number. -/
def KeepsLevel (device : DeviceId) (input : LevelInput) (s : LevelState) : Prop :=
  ∀ s', levelStep device input s = some s' → LevelInRange device s'.1 ∧
    ∀ action, input = .act action → SetsLevel device action s.1 → 0 < levelAsked action →
      deviceCheck device ⟨.set,device⟩ s'.1 = true

/-- The number fits into the range after the byte has taken it, and is not a positive one of which
the byte takes 0. -/
def AsksForLevel (device : DeviceId) (input : LevelInput) (s : LevelState) : Prop :=
  ∀ action, input = .act action → SetsLevel device action s.1 →
    levelAsked action % 256 ≤ 100 ∧ (0 < levelAsked action → levelAsked action % 256 ≠ 0)

section Level
variable {device : DeviceId} {w : World} {fud14 : DeviceFud14} {action : Action}

theorem dimValue_toNat (action : Action) :
    (UInt8.ofInt (fud14DimValue action)).toNat = (levelAsked action % 256).toNat := by
  rw [ofInt_toNat]
  unfold fud14DimValue levelAsked
  cases actionGetOption action 1 with
  | none => rfl
  | some option => rw [atoi_mod]

def fud14After (fud14 : DeviceFud14) (action : Action) : DeviceFud14 :=
  ((fud14Command fud14 action).map Prod.fst).getD fud14

theorem deviceSet_level (hd : w.userdata device = .fud14 fud14) (action : Action) :
    ∃ w', deviceSet untriggered device action none w = some w' ∧
      w'.userdata device = .fud14 (fud14After fud14 action) := by
  by_cases hmask : action.type ∈ (deviceTypeInfo .fud14).actions
  · rw [deviceSet_fud14 hd hmask]
    unfold fud14DeviceExec fud14After
    cases fud14Command fud14 action with
    | none => exact ⟨w,rfl,hd⟩
    | some command => exact ⟨_,rfl,by simp⟩
  · refine ⟨w,?_,?_⟩
    · unfold deviceSet
      simp only [hd]
      exact if_neg hmask
    · have hnone : fud14Command fud14 action = none := by
        have hactions : (deviceTypeInfo .fud14).actions = [.set,.unset,.toggle,.dim] := rfl
        rw [hactions] at hmask
        unfold fud14Command
        cases htype : action.type <;> simp [htype] at hmask ⊢
      simp [fud14After,hnone,hd]

theorem deviceCheck_fud14 (hd : w.userdata device = .fud14 fud14) :
    (deviceCheck device ⟨.set,device⟩ w = true ↔ fud14.dimValue.toNat ≠ 0) ∧
      (deviceCheck device ⟨.unset,device⟩ w = true ↔ fud14.dimValue.toNat = 0) := by
  have hmask : ConditionType.set ∈ (deviceTypeInfo .fud14).conditions ∧
      ConditionType.unset ∈ (deviceTypeInfo .fud14).conditions := by decide
  have hpositive : fud14.dimValue > 0 ↔ fud14.dimValue.toNat ≠ 0 := by
    rw [gt_iff_lt,UInt8.lt_iff_toNat_lt]
    exact Nat.pos_iff_ne_zero
  have hzero : fud14.dimValue = 0 ↔ fud14.dimValue.toNat = 0 := UInt8.toNat_inj.symm
  unfold deviceCheck
  simp only [hd,Userdata.deviceType,hmask,decide_true,Bool.true_and,fud14DeviceCheck,
    decide_eq_true_eq,hpositive,hzero,and_self]

/-- What an action makes of the level: a setting action the number it asks for, as far as a byte
takes it, and every other one a level in the range. -/
theorem fud14After_level (hd : w.userdata device = .fud14 fud14) (h : Fud14InLimits fud14)
    (action : Action) :
    (SetsLevel device action w →
      (fud14After fud14 action).dimValue.toNat = (levelAsked action % 256).toNat) ∧
    (¬ SetsLevel device action w → (fud14After fud14 action).dimValue.toNat ≤ 100) ∧
    (fud14After fud14 action).dimMinValue = 0 ∧ (fud14After fud14 action).dimMaxValue = 100 ∧
      (fud14After fud14 action).dimInterval = 3 := by
  have hvalue := dimValue_toNat action
  have hdim := (fud14Dim_spec h).1
  have hoff := (deviceCheck_fud14 hd).2
  unfold SetsLevel
  rw [hoff]
  unfold fud14After fud14Command
  cases htype : action.type with
  | set =>
    simp only [Option.map_some,Option.getD_some]
    exact ⟨fun _ => hvalue,fun hnot => absurd (.inl trivial) hnot,h.1,h.2,h.3⟩
  | unset =>
    simp only [Option.map_some,Option.getD_some]
    exact ⟨by simp,fun _ => Nat.zero_le _,h.1,h.2,h.3⟩
  | toggle =>
    simp only [Option.map_some,Option.getD_some]
    have hlit : fud14.dimValue > 0 ↔ fud14.dimValue.toNat ≠ 0 := UInt8.lt_iff_toNat_lt.trans
      Nat.pos_iff_ne_zero
    by_cases hdark : fud14.dimValue.toNat = 0
    · simp only [hlit,hdark,ne_eq,not_true_eq_false,if_false]
      exact ⟨fun _ => hvalue,fun hnot => absurd (.inr ⟨trivial,trivial⟩) hnot,h.1,h.2,h.3⟩
    · simp only [hlit,hdark,ne_eq,not_false_eq_true,if_true]
      exact ⟨by simp,fun _ => Nat.zero_le _,h.1,h.2,h.3⟩
  | dim =>
    simp only [Option.map_some,Option.getD_some]
    exact ⟨by simp,fun _ => hdim.dimValue,hdim.1,hdim.2,hdim.3⟩
  | _ =>
    simp only [Option.map_none,Option.getD_none]
    exact ⟨by simp,fun _ => h.dimValue,h.1,h.2,h.3⟩

structure LevelHolds (device : DeviceId) (s : LevelState) (fud14 : DeviceFud14) : Prop where
  userdata : s.1.userdata device = .fud14 fud14
  limits : Fud14InLimits fud14
  stored : ∀ state ∈ s.2, ∃ v : UInt8, v.toNat ≤ 100 ∧ state = valueStore v.toNat

theorem fud14Restore_stored (fud14 : DeviceFud14) (v : UInt8) :
    fud14DeviceRestore fud14 (valueStore v.toNat) = .ok { fud14 with dimValue := v } := by
  have hvalue := valueStore_get v.toNat (fud14_fits v)
  simp [fud14DeviceRestore,hvalue,Except.map,fud14_back]

theorem fud14DeviceParser_limits {options : List CString}
    (h : fud14DeviceParser options = some fud14) : Fud14InLimits fud14 := by
  obtain ⟨address,-,rfl⟩ := Option.map_eq_some_iff.mp h
  exact ⟨rfl,rfl,rfl,Nat.zero_le _⟩

theorem inRange_iff (hd : w.userdata device = .fud14 fud14) (hmin : fud14.dimMinValue = 0)
    (hmax : fud14.dimMaxValue = 100) :
    LevelInRange device w ↔ fud14.dimValue.toNat ≤ 100 := by
  constructor
  · rintro ⟨fud14₁,hd₁,-,hmax₁,-,hle⟩
    rw [hd,Userdata.fud14.injEq] at hd₁
    subst hd₁
    rwa [hmax₁,UInt8.le_iff_toNat_le] at hle
  · intro hle
    refine ⟨fud14,hd,hmin,hmax,?_,?_⟩
    · rw [hmin,UInt8.le_iff_toNat_le]
      exact Nat.zero_le _
    · rwa [hmax,UInt8.le_iff_toNat_le]

theorem LevelHolds.inRange {s : LevelState} (h : LevelHolds device s fud14) :
    LevelInRange device s.1 :=
  (inRange_iff h.userdata h.limits.dimMinValue h.limits.dimMaxValue).mpr h.limits.dimValue

theorem LevelHolds.other {s s' : LevelState} {input : LevelInput} (h : LevelHolds device s fud14)
    (hact : ∀ action, input ≠ .act action) (hstep : levelStep device input s = some s') :
    ∃ fud14, LevelHolds device s' fud14 := by
  unfold levelStep at hstep
  simp only [h.userdata] at hstep
  cases input with
  | act action => exact absurd rfl (hact action)
  | store =>
    cases hstep
    refine ⟨fud14,h.userdata,h.limits,fun state hmem => ?_⟩
    rcases List.mem_append.mp hmem with hmem | hmem
    · exact h.stored state hmem
    · exact ⟨fud14.dimValue,h.limits.dimValue,List.mem_singleton.mp hmem⟩
  | restore i =>
    obtain ⟨state,hstate,hrest⟩ := Option.bind_eq_some_iff.mp hstep
    obtain ⟨v,hv,rfl⟩ := h.stored state (List.mem_of_getElem? hstate)
    rw [fud14Restore_stored] at hrest
    cases hrest
    exact ⟨{ fud14 with dimValue := v },setUserdata_same _ _ _,
      ⟨h.limits.dimMinValue,h.limits.dimMaxValue,h.limits.dimInterval,hv⟩,h.stored⟩
  | restart options =>
    obtain ⟨parsed,hparse,hrest⟩ := Option.bind_eq_some_iff.mp hstep
    cases hrest
    exact ⟨parsed,setUserdata_same _ _ _,fud14DeviceParser_limits hparse,h.stored⟩

theorem LevelHolds.act {s s' : LevelState} (h : LevelHolds device s fud14)
    (hstep : levelStep device (.act action) s = some s') :
    (KeepsLevel device (.act action) s ↔ AsksForLevel device (.act action) s) ∧
      (KeepsLevel device (.act action) s → ∃ fud14, LevelHolds device s' fud14) := by
  obtain ⟨w',hset,hd'⟩ := deviceSet_level h.userdata action
  obtain ⟨hsets,hother,hmin,hmax,hinterval⟩ := fud14After_level h.userdata h.limits action
  have hs' : s' = (w',s.2) := by
    unfold levelStep at hstep
    simp only [h.userdata,hset,Option.map_some] at hstep
    exact (Option.some.inj hstep).symm
  subst hs'
  have hkeeps : KeepsLevel device (.act action) s ↔
      (fud14After fud14 action).dimValue.toNat ≤ 100 ∧
        (SetsLevel device action s.1 → 0 < levelAsked action →
          (fud14After fud14 action).dimValue.toNat ≠ 0) := by
    rw [← inRange_iff hd' hmin hmax,← (deviceCheck_fud14 hd').1]
    constructor
    · intro hkeeps
      exact ⟨(hkeeps _ hstep).1,(hkeeps _ hstep).2 action rfl⟩
    · rintro ⟨hrange,hon⟩ s₁ hs₁
      rw [hstep,Option.some.injEq] at hs₁
      subst hs₁
      refine ⟨hrange,fun action₁ heq => ?_⟩
      cases heq
      exact hon
  refine ⟨?_,fun hkept => ?_⟩
  · rw [hkeeps]
    by_cases hsetting : SetsLevel device action s.1
    · rw [hsets hsetting]
      constructor
      · rintro ⟨hrange,hon⟩ action₁ heq -
        cases heq
        have hon' := hon hsetting
        omega
      · intro hasks
        obtain ⟨hrange,hon⟩ := hasks action rfl hsetting
        omega
    · refine iff_of_true ⟨hother hsetting,fun hset => absurd hset hsetting⟩ ?_
      intro action₁ heq hset
      cases heq
      exact absurd hset hsetting
  · exact ⟨_,hd',⟨hmin,hmax,hinterval,(hkeeps.mp hkept).1⟩,h.stored⟩

theorem LevelHolds.step {s s' : LevelState} {input : LevelInput} (h : LevelHolds device s fud14)
    (hstep : levelStep device input s = some s') :
    (KeepsLevel device input s ↔ AsksForLevel device input s) ∧
      (KeepsLevel device input s → ∃ fud14, LevelHolds device s' fud14) := by
  cases input with
  | act action => exact h.act hstep
  | store | restore | restart =>
    obtain ⟨fud14',hafter⟩ := h.other (fun action => by simp) hstep
    refine ⟨iff_of_true ?_ (fun action heq => by cases heq),fun _ => ⟨fud14',hafter⟩⟩
    intro s₁ hs₁
    rw [hstep,Option.some.injEq] at hs₁
    subst hs₁
    exact ⟨hafter.inRange,fun action heq => by cases heq⟩

theorem level_iff {s : LevelState} (h : LevelHolds device s fud14) (inputs : List LevelInput) :
    Runs.Meets (levelStep device) (KeepsLevel device) inputs s ↔
      Runs.Meets (levelStep device) (AsksForLevel device) inputs s :=
  Runs.meets_iff (I := fun s => ∃ fud14, LevelHolds device s fud14)
    (fun _ _ _ ⟨_,hholds⟩ hstep => hholds.step hstep) ⟨fud14,h⟩

theorem levelHolds_start {options : List CString} (hparse : fud14DeviceParser options = some fud14)
    (hd : w.userdata device = .fud14 fud14) : LevelHolds device (w,[]) fud14 :=
  ⟨hd,fud14DeviceParser_limits hparse,fun state hmem => by cases hmem⟩

end Level

/-- From a freshly parsed dimmer on, the level stays between 0 and 100, and a setting action with
a positive number leaves the dimmer on, exactly when the numbers of the setting actions are in
order as far as a byte takes them. -/
theorem fud14_level_iff (device : DeviceId) (w : World) (options : List CString)
    (fud14 : DeviceFud14) (inputs : List LevelInput)
    (hparse : fud14DeviceParser options = some fud14) (hd : w.userdata device = .fud14 fud14) :
    LevelInRange device w ∧ Runs.Meets (levelStep device) (KeepsLevel device) inputs (w,[]) ↔
      Runs.Meets (levelStep device) (AsksForLevel device) inputs (w,[]) := by
  have hholds := levelHolds_start hparse hd
  rw [level_iff hholds inputs]
  exact and_iff_right hholds.inRange

def dimmerOptions : List CString := [[],"7".toList]

theorem fud14_level_dimmer :
    LevelInRange 0 dimmerWorld ∧ Runs.Meets (levelStep 0) (KeepsLevel 0)
        [.act ⟨.set,0,["40".toList]⟩,.store,.act ⟨.toggle,0,[]⟩,.restore 0] (dimmerWorld,[]) ↔
      Runs.Meets (levelStep 0) (AsksForLevel 0)
        [.act ⟨.set,0,["40".toList]⟩,.store,.act ⟨.toggle,0,[]⟩,.restore 0] (dimmerWorld,[]) :=
  fud14_level_iff 0 dimmerWorld dimmerOptions dimmer _ rfl rfl

/-- A level of 200 is out of the range, and 256 turns the dimmer off. -/
theorem fud14_level_wrong :
    fud14DeviceParser dimmerOptions = some dimmer ∧
    ¬ Runs.Meets (levelStep 0) (KeepsLevel 0) [.act ⟨.set,0,["200".toList]⟩] (dimmerWorld,[]) ∧
    ¬ Runs.Meets (levelStep 0) (KeepsLevel 0) [.act ⟨.set,0,["256".toList]⟩] (dimmerWorld,[]) := by
  have hparse : fud14DeviceParser dimmerOptions = some dimmer := rfl
  have hholds : LevelHolds 0 (dimmerWorld,[]) dimmer := levelHolds_start hparse rfl
  refine ⟨hparse,?_,?_⟩
  · rw [level_iff hholds]
    intro hmeets
    have hrange : (200 : Int) % 256 ≤ 100 := ((hmeets _ rfl).1 _ rfl (.inl rfl)).1
    omega
  · rw [level_iff hholds]
    intro hmeets
    have hon : (256 : Int) % 256 ≠ 0 := ((hmeets _ rfl).1 _ rfl (.inl rfl)).2 (by decide)
    exact hon rfl

end DomoticaEngine
