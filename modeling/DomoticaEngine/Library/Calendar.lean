import Mathlib.Data.List.Basic

/-!
The Gregorian calendar: the date of a day that is counted from 1 January 1970, and back.
-/

set_option autoImplicit false

namespace Calendar

section Walk
variable (length : Nat → Nat)

def total (i : Nat) : Nat → Nat
  | 0 => 0
  | k+1 => total i k + length (i+k)

/-- From day `n` behind the start of period `i` to the period of this day, and the day in it. -/
def walk : Nat → Nat → Nat → Nat × Nat
  | 0, i, n => (i,n)
  | fuel+1, i, n => if n < length i then (i,n) else walk fuel (i+1) (n-length i)

theorem total_cons (i k : Nat) : total length i (k+1) = length i + total length (i+1) k := by
  induction k with
  | zero => simp [total]
  | succ k ih =>
    rw [total,ih,total]
    have hnext : i+(k+1) = i+1+k := by omega
    rw [hnext]
    omega

theorem total_mono (i : Nat) {k l : Nat} (h : k ≤ l) : total length i k ≤ total length i l := by
  induction h with
  | refl => exact Nat.le_refl _
  | step _ ih => exact Nat.le_trans ih (Nat.le_add_right _ _)

variable {length}

theorem walk_spec (hlength : ∀ i, 0 < length i) {fuel n : Nat} (i : Nat) (h : n < fuel) :
    ∃ k, (walk length fuel i n).1 = i+k ∧
      n = total length i k + (walk length fuel i n).2 ∧
      (walk length fuel i n).2 < length (i+k) := by
  induction fuel generalizing i n with
  | zero => omega
  | succ fuel ih =>
    have hpos := hlength i
    unfold walk
    by_cases hn : n < length i
    · rw [if_pos hn]
      exact ⟨0,rfl,(Nat.zero_add n).symm,hn⟩
    · rw [if_neg hn]
      obtain ⟨k,hperiod,hday,hless⟩ := ih (i+1) (n := n-length i) (by omega)
      have hnext : i+1+k = i+(k+1) := by omega
      rw [hnext] at hperiod hless
      refine ⟨k+1,hperiod,?_,hless⟩
      rw [total_cons]
      omega

end Walk

def isLeap (year : Nat) : Bool := year % 4 = 0 && (year % 100 ≠ 0 || year % 400 = 0)

def yearLength (year : Nat) : Nat := if isLeap year then 366 else 365

def monthLength (year month : Nat) : Nat :=
  if month = 2 then (if isLeap year then 29 else 28)
  else if month = 4 ∨ month = 6 ∨ month = 9 ∨ month = 11 then 30
  else 31

structure Date where
  year : Int
  month : Nat
  day : Nat
  deriving DecidableEq, Repr

def eraDays : Nat := 146097

def date (days : Int) : Date :=
  let (year,rest) := walk yearLength eraDays 1970 (days % eraDays).toNat
  let (month,day) := walk (monthLength year) (rest+1) 1 rest
  { year := 400*(days / eraDays)+year, month := month, day := day+1 }

def days (d : Date) : Int :=
  let year := 1970+((d.year-1970) % 400).toNat
  eraDays*((d.year-1970) / 400) +
    (total yearLength 1970 (year-1970) + total (monthLength year) 1 (d.month-1) + (d.day-1) : Nat)

theorem yearLength_pos (year : Nat) : 0 < yearLength year := by
  unfold yearLength
  split <;> omega

theorem monthLength_pos (year month : Nat) : 0 < monthLength year month := by
  unfold monthLength
  split <;> split <;> omega

theorem year_months (year : Nat) : total (monthLength year) 1 12 = yearLength year := by
  unfold yearLength
  cases hleap : isLeap year <;> simp [total,monthLength,hleap]

theorem total_years (k : Nat) :
    total yearLength 1970 k = 365*k+((k+1)/4+(k+369)/400-(k+69)/100) := by
  induction k with
  | zero => rfl
  | succ k ih =>
    rw [total,ih,yearLength,isLeap]
    by_cases h4 : (1970+k) % 4 = 0 <;> by_cases h100 : (1970+k) % 100 = 0 <;>
      by_cases h400 : (1970+k) % 400 = 0 <;> simp [h4,h100,h400] <;> omega

theorem date_walks (n : Int) : ∃ k m day : Nat,
    date n = { year := 400*(n / eraDays)+(1970+k : Nat), month := 1+m, day := day+1 } ∧
      k < 400 ∧ m < 12 ∧ day < monthLength (1970+k) (1+m) ∧
      (n % eraDays).toNat = total yearLength 1970 k + (total (monthLength (1970+k)) 1 m + day) := by
  have hera : (eraDays : Int) = 146097 := rfl
  have hrest : (n % eraDays).toNat < eraDays := by
    have hlt := Int.emod_lt_of_pos n (show (0 : Int) < eraDays by decide)
    have hnonneg := Int.emod_nonneg n (show (eraDays : Int) ≠ 0 by decide)
    omega
  obtain ⟨k,hyear,htotal,hday⟩ := walk_spec yearLength_pos 1970 hrest
  have hk : k < 400 := by
    by_contra hge
    have hmono := total_mono yearLength 1970 (Nat.le_of_not_lt hge)
    rw [total_years 400] at hmono
    have hdays : eraDays = 146097 := rfl
    omega
  obtain ⟨m,hmonth,hsum,hless⟩ := walk_spec (monthLength_pos (1970+k)) 1
    (Nat.lt_succ_self (walk yearLength eraDays 1970 (n % eraDays).toNat).2)
  have hm : m < 12 := by
    by_contra hge
    have hmono := total_mono (monthLength (1970+k)) 1 (Nat.le_of_not_lt hge)
    rw [year_months] at hmono
    omega
  refine ⟨k,m,_,?_,hk,hm,hless,htotal.trans (congrArg _ hsum)⟩
  unfold date
  rw [← hmonth,← hyear]

theorem days_date (n : Int) : days (date n) = n := by
  obtain ⟨k,m,day,hdate,hk,-,-,hrest⟩ := date_walks n
  have hnonneg := Int.emod_nonneg n (show (eraDays : Int) ≠ 0 by decide)
  have hmod : ((400*(n / eraDays)+(1970+k : Nat)-1970 : Int) % 400).toNat = k := by omega
  have hdiv : (400*(n / eraDays)+(1970+k : Nat)-1970 : Int) / 400 = n / eraDays := by omega
  rw [hdate,days]
  simp only [hmod,hdiv,Nat.add_sub_cancel_left,Nat.add_sub_cancel]
  rw [Nat.add_assoc,← hrest]
  have hsplit := Int.mul_ediv_add_emod n eraDays
  omega

def fourDigitDays : Int := 2932897

theorem date_bounds {n : Int} (h : 0 ≤ n) (h' : n < fourDigitDays) :
    1970 ≤ (date n).year ∧ (date n).year ≤ 9999 ∧ (date n).month ≤ 12 ∧ (date n).day ≤ 31 := by
  obtain ⟨k,m,day,hdate,hk,hm,hday,hrest⟩ := date_walks n
  have hera : (eraDays : Int) = 146097 := rfl
  have hfour : fourDigitDays = 2932897 := rfl
  have hsplit := Int.mul_ediv_add_emod n eraDays
  have hnonneg := Int.emod_nonneg n (show (eraDays : Int) ≠ 0 by decide)
  have hmonth : monthLength (1970+k) (1+m) ≤ 31 := by
    unfold monthLength
    split <;> split <;> omega
  rw [total_years] at hrest
  rw [hdate]
  simp only [hera] at hsplit hnonneg hrest ⊢
  omega

end Calendar
