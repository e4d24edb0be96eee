import Mathlib.Algebra.Order.Field.Rat
import Mathlib.Data.NNRat.Lemmas
import DomoticaEngine.Library.Json
import DomoticaEngine.Numerals

/-!
Numbers as `printf` writes them.
-/

set_option autoImplicit false

namespace DomoticaEngine

/-- A `double` by its exact value. Zero has a sign. -/
inductive Double where
  | finite (negative : Bool) (magnitude : ℚ≥0)
  | infinite (negative : Bool)
  | nan (negative : Bool)
  deriving DecidableEq

def minus (negative : Bool) : CString := if negative then ['-'] else []

/-- `%0kd` of a number that is not negative. -/
def padded (k n : Nat) : CString := (decimal n).leftpad k '0'

def roundHalfEven (q : ℚ≥0) : Nat :=
  let whole := q.num / q.den
  let rest := q.num % q.den
  if 2*rest < q.den then whole
  else if 2*rest > q.den then whole+1
  else if whole % 2 = 0 then whole
  else whole+1

/-- Six digits behind the point. -/
def fixedText (micros : Nat) : CString :=
  decimal (micros / 1000000) ++ '.' :: padded 6 (micros % 1000000)

def micros (magnitude : ℚ≥0) : Nat := roundHalfEven (magnitude*1000000)

/-- `%f`. -/
def floatText : Double → CString
  | .finite negative magnitude => minus negative ++ fixedText (micros magnitude)
  | .infinite negative => minus negative ++ "inf".toList
  | .nan negative => minus negative ++ "nan".toList

section Digits

theorem decimal_length {n k : Nat} (hk : 0 < k) (h : n < 10^k) : (decimal n).length ≤ k :=
  (Nat.length_toDigits_le_iff (by decide) hk).mpr h

theorem padded_numeral (k n : Nat) : Numeral (padded k n) n := by
  have hdecimal := decimal_numeral n
  refine ⟨?_,fun c hc => ?_,?_⟩
  · intro hnil
    exact hdecimal.ne_nil (List.append_eq_nil_iff.mp hnil).2
  · rcases List.mem_append.mp hc with hc | hc
    · rw [List.eq_of_mem_replicate hc]
      decide
    · exact hdecimal.digit c hc
  · unfold padded List.leftpad
    rw [Nat.ofDigitChars_append,Nat.ofDigitChars_replicate_zero,Nat.mul_zero]
    exact hdecimal.value

theorem padded_length {n k : Nat} (hk : 0 < k) (h : n < 10^k) : (padded k n).length = k := by
  have hlength := decimal_length hk h
  unfold padded
  rw [List.length_leftpad]
  omega

theorem decimal_head (n : Nat) (h : (decimal n).head? = some '0') : decimal n = ['0'] := by
  have hpos : ∀ n : Nat, 0 < n → (decimal n).head? ≠ some '0' := by
    intro n
    induction n using Nat.strongRecOn with
    | ind n ih =>
      intro hn hhead
      unfold decimal at hhead ih
      by_cases hlt : n < 10
      · rw [Nat.toDigits_of_lt_base hlt,List.head?_cons,Option.some.injEq,
          Nat.digitChar_eq_zero] at hhead
        omega
      · rw [Nat.toDigits_of_base_le (by decide) (Nat.le_of_not_lt hlt),
          List.head?_append_of_ne_nil _ Nat.toDigits_ne_nil] at hhead
        exact ih (n/10) (by omega) (by omega) hhead
  cases n with
  | zero => rfl
  | succ n => exact absurd h (hpos _ (Nat.succ_pos n))

end Digits

def PlainText (s : CString) : Prop := ∀ c ∈ s, Json.isPlain c = true

section Plain

instance (s : CString) : Decidable (PlainText s) := List.decidableBAll _ _

theorem plainText_append {s s' : CString} :
    PlainText (s ++ s') ↔ PlainText s ∧ PlainText s' := List.forall_mem_append

theorem plainText_cons {c : Char} {s : CString} :
    PlainText (c :: s) ↔ Json.isPlain c = true ∧ PlainText s := List.forall_mem_cons

theorem decimal_plain (n : Nat) : PlainText (decimal n) := by
  intro c hc
  have hdigit := (decimal_numeral n).digit c hc
  have hzero : '0' ≤ c ∧ c ≤ '9' := by simpa [Char.isDigit,Char.le_def] using hdigit
  refine Json.isPlain_iff.mpr ⟨?_,?_,Char.le_trans (by decide) hzero.1⟩
  · rintro rfl
    exact absurd hdigit (by decide)
  · rintro rfl
    exact absurd hdigit (by decide)

theorem minus_plain (negative : Bool) : PlainText (minus negative) := by
  cases negative <;> decide

theorem padded_plain (k n : Nat) : PlainText (padded k n) := by
  unfold padded List.leftpad
  refine plainText_append.mpr ⟨fun c hc => ?_,decimal_plain n⟩
  rw [List.eq_of_mem_replicate hc]
  decide

theorem intText_plain (v : Int) : PlainText (intText v) := by
  unfold intText
  split
  · exact plainText_cons.mpr ⟨by decide,decimal_plain _⟩
  · exact decimal_plain _

theorem floatText_plain (v : Double) : PlainText (floatText v) := by
  cases v with
  | finite negative magnitude =>
    refine plainText_append.mpr ⟨minus_plain _,plainText_append.mpr ⟨decimal_plain _,?_⟩⟩
    exact plainText_cons.mpr ⟨by decide,padded_plain _ _⟩
  | infinite negative => exact plainText_append.mpr ⟨minus_plain _,by decide⟩
  | nan negative => exact plainText_append.mpr ⟨minus_plain _,by decide⟩

end Plain

end DomoticaEngine
