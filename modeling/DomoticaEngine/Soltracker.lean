import Mathlib.Algebra.Order.Group.Unbundled.Abs
import Mathlib.Tactic.Linarith
import Mathlib.Tactic.NormNum
import DomoticaEngine.Types

/-!
The trackers of the sun.
-/

set_option autoImplicit false

namespace DomoticaEngine

structure Soltracker where
  lat : ℚ
  lon : ℚ
  azimuth : ℚ
  altitude : ℚ
  angle : ℚ
  viewAngle : ℚ
  inSun : Bool
  deriving DecidableEq

/-- An event with the options that `event_option_set_double` gives it. -/
structure SunEvent where
  type : EventType
  options : List (CString × ℚ)
  deriving DecidableEq

/-- `soltracker_check_tracker`. The position of the sun, as azimuth and altitude, comes from
SolTrack, for a longitude and a latitude. No rule can change a tracker. -/
def soltrackerCheckTracker {σ : Type} (trigger : SunEvent → σ → σ) (position : ℚ → ℚ → ℚ × ℚ)
    (st : Soltracker) (s : σ) : Soltracker × σ :=
  let (azi,alt) := position st.lon st.lat
  let st := { st with azimuth := azi, altitude := alt }
  let angleOn := st.angle-st.viewAngle/2
  let angleOff := st.angle+st.viewAngle/2
  let inSun : Bool := alt ≥ 0 ∧ azi > angleOn ∧ azi < angleOff
  let (st,s) :=
    if inSun ≠ st.inSun then
      ({ st with inSun := inSun },trigger ⟨if inSun then .set else .unset,[]⟩ s)
    else (st,s)
  (st,trigger ⟨.sunPosition,[("azimuth".toList,azi),("altitude".toList,alt)]⟩ s)

def raiseEvent (event : SunEvent) (events : List SunEvent) : List SunEvent := events ++ [event]

def circleDistance (a b : ℚ) : ℚ := min |a-b| (360-|a-b|)

def changesSun (event : SunEvent) : Bool := event.type = .set ∨ event.type = .unset

/-- What a check should do to a tracker when the sun is at `azi` and `alt`. -/
structure SeesCircle (azi alt : ℚ) (st st' : Soltracker) (raised : List SunEvent) : Prop where
  sun : st'.inSun = true ↔ 0 ≤ alt ∧ circleDistance azi st.angle < st.viewAngle/2
  events : raised.filter changesSun =
    if st'.inSun = st.inSun then [] else [⟨if st'.inSun then .set else .unset,[]⟩]

section Check
variable {position : ℚ → ℚ → ℚ × ℚ} {st : Soltracker} {azi alt : ℚ}

theorem check_inSun (hposition : position st.lon st.lat = (azi,alt)) :
    (soltrackerCheckTracker raiseEvent position st []).1.inSun = true ↔
      0 ≤ alt ∧ |azi-st.angle| < st.viewAngle/2 := by
  have hwindow : (alt ≥ 0 ∧ azi > st.angle-st.viewAngle/2 ∧ azi < st.angle+st.viewAngle/2) ↔
      (0 ≤ alt ∧ |azi-st.angle| < st.viewAngle/2) := by
    rw [abs_lt]
    constructor
    · rintro ⟨halt,hon,hoff⟩
      exact ⟨halt,by linarith,by linarith⟩
    · rintro ⟨halt,hon,hoff⟩
      exact ⟨halt,by linarith,by linarith⟩
  rw [← hwindow]
  unfold soltrackerCheckTracker
  simp only [hposition]
  split
  · simp
  · rename_i hsame
    simp only [ne_eq,Decidable.not_not] at hsame
    simp [← hsame]

theorem check_events (position : ℚ → ℚ → ℚ × ℚ) (st : Soltracker) :
    (soltrackerCheckTracker raiseEvent position st []).2.filter changesSun =
      if (soltrackerCheckTracker raiseEvent position st []).1.inSun = st.inSun then []
      else [⟨if (soltrackerCheckTracker raiseEvent position st []).1.inSun then .set
        else .unset,[]⟩] := by
  unfold soltrackerCheckTracker
  obtain ⟨azi,alt⟩ := position st.lon st.lat
  simp only
  split
  · simp only
    split <;> rfl
  · rw [if_pos rfl]
    rfl

theorem circleDistance_lt (azi : ℚ) (st : Soltracker) :
    circleDistance azi st.angle < st.viewAngle/2 ↔
      |azi-st.angle| < st.viewAngle/2 ∨ azi < st.angle+st.viewAngle/2-360 ∨
        st.angle-st.viewAngle/2+360 < azi := by
  rw [circleDistance,min_lt_iff]
  refine or_congr_right ?_
  have hround : 360-|azi-st.angle| < st.viewAngle/2 ↔ 360-st.viewAngle/2 < |azi-st.angle| := by
    constructor <;> intro h <;> linarith
  rw [hround,lt_abs]
  constructor
  · rintro (h | h)
    · exact .inr (by linarith)
    · exact .inl (by linarith)
  · rintro (h | h)
    · exact .inr (by linarith)
    · exact .inl (by linarith)

end Check

/-- The window is an interval of numbers, whose ends may lie below 0 or above 360. -/
theorem view_circular_iff (position : ℚ → ℚ → ℚ × ℚ) (st : Soltracker) (azi alt : ℚ)
    (hposition : position st.lon st.lat = (azi,alt)) (hview : st.viewAngle < 360) :
    SeesCircle azi alt st (soltrackerCheckTracker raiseEvent position st []).1
        (soltrackerCheckTracker raiseEvent position st []).2 ↔
      alt < 0 ∨ (st.angle+st.viewAngle/2-360 ≤ azi ∧ azi ≤ st.angle-st.viewAngle/2+360) := by
  have hsun := check_inSun hposition
  have hcircle := circleDistance_lt azi st
  constructor
  · rintro ⟨hsees,-⟩
    by_contra hbad
    rw [not_or,not_lt,not_and_or,not_le,not_le] at hbad
    obtain ⟨halt,hout⟩ := hbad
    obtain ⟨-,hwindow⟩ := hsun.mp (hsees.mpr ⟨halt,hcircle.mpr (.inr hout)⟩)
    rw [abs_lt] at hwindow
    -- The window is narrower than the circle, so it does not meet itself beyond north.
    rcases hout with hbelow | habove
    · linarith
    · linarith
  · intro hgood
    refine ⟨?_,check_events position st⟩
    rw [hsun,hcircle]
    constructor
    · rintro ⟨halt,hwindow⟩
      exact ⟨halt,.inl hwindow⟩
    · rintro ⟨halt,hwindow | hout⟩
      · exact ⟨halt,hwindow⟩
      · rcases hgood with hnight | ⟨hlow,hhigh⟩
        · linarith
        · rcases hout with hbelow | habove
          · linarith
          · linarith

def southWindow : Soltracker := ⟨51,4,0,0,180,120,false⟩

theorem view_circular_south :
    SeesCircle 200 30 southWindow
      (soltrackerCheckTracker raiseEvent (fun _ _ => (200,30)) southWindow []).1
      (soltrackerCheckTracker raiseEvent (fun _ _ => (200,30)) southWindow []).2 :=
  (view_circular_iff (fun _ _ => (200,30)) southWindow 200 30 rfl (by norm_num [southWindow])).mpr
    (.inr (by norm_num [southWindow]))

def northWindow : Soltracker := ⟨51,4,0,0,350,60,false⟩

theorem north_unseen :
    ¬ SeesCircle 5 10 northWindow
      (soltrackerCheckTracker raiseEvent (fun _ _ => (5,10)) northWindow []).1
      (soltrackerCheckTracker raiseEvent (fun _ _ => (5,10)) northWindow []).2 := by
  rintro ⟨hsun,-⟩
  have hseen := hsun.mpr ⟨by norm_num,by norm_num [circleDistance,northWindow]⟩
  have hposition : (fun _ _ => (5,10) : ℚ → ℚ → ℚ × ℚ) northWindow.lon northWindow.lat =
      (5,10) := rfl
  rw [check_inSun hposition] at hseen
  norm_num [northWindow] at hseen

end DomoticaEngine
