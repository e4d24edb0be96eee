import DomoticaEngine.DeviceParser
import DomoticaEngine.Numerals

/-!
The duration of a TIMER, from its text to milliseconds.
-/

set_option autoImplicit false

namespace DomoticaEngine

inductive DurationUnit where
  | s | m | h | none
  deriving DecidableEq, Repr

def DurationUnit.suffix : DurationUnit → CString
  | .s => ['s']
  | .m => ['m']
  | .h => ['h']
  | .none => []

def DurationUnit.milliseconds : DurationUnit → Nat
  | .s | .none => 1000
  | .m => 60000
  | .h => 3600000

/-- The number that the parser scans and its product fit into an `int`, and the duration is what
the text says. -/
structure DurationExact (unit : DurationUnit) (n : Nat) (tmr : Tmr) : Prop where
  scanned : Fits32 n
  product : Fits32 (n*1000)
  timeoutMs : tmr.timeoutMs.toNat = n*unit.milliseconds

def TimeoutExact (unit : DurationUnit) (n : Nat) (options : List CString) : Prop :=
  ∀ tmr, timerDeviceParser options = some tmr → DurationExact unit n tmr

/-- The numbers whose milliseconds fit into an `int`, in seconds. -/
def DurationFits (unit : DurationUnit) (n : Nat) : Prop :=
  n = 0 ∨ unit.milliseconds = 1000 ∧ n*1000 < 2147483648

section Parser
variable {digits : CString} {n : Nat}

theorem timerDeviceParser_numeral (unit : DurationUnit) (hn : Numeral digits n)
    (options : List CString) :
    timerDeviceParser ((digits ++ unit.suffix) :: options) =
      some ⟨UInt64.ofInt (wrap 32 (wrap 32 (saturate n)*1000)),none⟩ := by
  have hsuffix : ∀ c ∈ unit.suffix.head?, isDigit 10 c = false := by
    cases unit <;> simp [DurationUnit.suffix] <;> decide
  simp [timerDeviceParser,scanfInt,scanInt_numeral hn hsuffix]

theorem ofInt_wrap {v : Int} (h : Fits32 v) (m : Nat) (hm : m < 9223372036854775808) :
    (UInt64.ofInt v).toNat = m ↔ v = m := by
  have hbit : signBit 32 = 2147483648 := by decide
  unfold Fits32 at h
  rw [hbit] at h
  have hnat : (UInt64.ofInt v).toNat = (v % 18446744073709551616).toNat := by
    have hbound : (v % 18446744073709551616).toNat < 18446744073709551616 := by omega
    simp [UInt64.ofInt,Nat.mod_eq_of_lt hbound]
  rw [hnat]
  omega

end Parser

/-- The units are not told apart, and the milliseconds are computed in an `int`. -/
theorem timer_duration_iff (unit : DurationUnit) (digits : CString) (n : Nat)
    (hn : Numeral digits n) (hfits : n*unit.milliseconds < 9223372036854775808)
    (options : List CString) :
    TimeoutExact unit n ((digits ++ unit.suffix) :: options) ↔ DurationFits unit n := by
  have hbit : signBit 32 = 2147483648 := by decide
  have hbit' : signBit 64 = 9223372036854775808 := by decide
  have hunit : unit.milliseconds = 1000 ∨ unit.milliseconds = 60000 ∨
      unit.milliseconds = 3600000 := by cases unit <;> simp [DurationUnit.milliseconds]
  have hsaturate : saturate n = n := by
    unfold saturate
    have hle : n < 9223372036854775808 := by
      rcases hunit with h | h | h <;> rw [h] at hfits <;> omega
    rw [hbit',if_neg (by omega),if_neg (by omega)]
  have hwrap : ∀ v : Int, Fits32 (wrap 32 v) := by
    intro v
    unfold Fits32 wrap
    rw [hbit]
    omega
  unfold TimeoutExact
  rw [timerDeviceParser_numeral unit hn,hsaturate]
  simp only [Option.some.injEq,forall_eq']
  constructor
  · intro hexact
    have hms := (ofInt_wrap (hwrap _) _ hfits).mp hexact.timeoutMs
    rw [wrap_fits hexact.scanned,wrap_fits hexact.product] at hms
    have hproduct := hexact.product.2
    rw [hbit] at hproduct
    unfold DurationFits
    push_cast at hms
    rcases hunit with h | h | h <;> rw [h] at hms ⊢ <;> omega
  · intro hfit
    have hscanned : Fits32 n := by
      unfold Fits32
      rw [hbit]
      unfold DurationFits at hfit
      omega
    have hproduct : Fits32 (n*1000) := by
      unfold Fits32
      rw [hbit]
      unfold DurationFits at hfit
      omega
    refine ⟨hscanned,hproduct,(ofInt_wrap (hwrap _) _ hfits).mpr ?_⟩
    rw [wrap_fits hscanned,wrap_fits hproduct]
    rcases hfit with hzero | ⟨hthousand,-⟩
    · rw [hzero,Nat.zero_mul]
      rfl
    · rw [hthousand]
      exact (Int.natCast_mul n 1000).symm

theorem timer_duration_seconds : TimeoutExact .s 90 ["90s".toList] :=
  (timer_duration_iff .s "90".toList 90 ⟨by decide,List.all_eq_true.mp (by decide),by decide⟩
    (by decide) []).mpr (.inr ⟨rfl,by decide⟩)

theorem timer_duration_minutes : ¬ TimeoutExact .m 5 ["5m".toList] := by
  intro h
  exact absurd (h ⟨5000,none⟩ (by decide)).timeoutMs (by decide)

end DomoticaEngine
