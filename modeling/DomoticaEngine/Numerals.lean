import DomoticaEngine.CLib

/-!
Numbers written in decimal, as the scanners read them.
-/

set_option autoImplicit false

namespace DomoticaEngine

structure Numeral (digits : CString) (n : Nat) : Prop where
  ne_nil : digits ≠ []
  digit : ∀ c ∈ digits, c.isDigit = true
  value : Nat.ofDigitChars 10 digits 0 = n

def decimal (n : Nat) : CString := Nat.toDigits 10 n

/-- What `%d` of `printf` writes. -/
def intText (v : Int) : CString :=
  if v < 0 then '-' :: decimal v.natAbs else decimal v.natAbs

theorem decimal_numeral (n : Nat) : Numeral (decimal n) n :=
  ⟨Nat.toDigits_ne_nil,fun _ hc => Nat.isDigit_of_mem_toDigits (by decide) (by decide) hc,
    Nat.ofDigitChars_ten_toDigits⟩

theorem digitValue_isDigit {c : Char} (h : c.isDigit = true) : digitValue c = c.toNat-48 := by
  have hbounds : '0' ≤ c ∧ c ≤ '9' := by
    simpa [Char.isDigit,Char.le_def] using h
  simp [digitValue,hbounds]

theorem isDigit_ten {c : Char} (h : c.isDigit = true) : isDigit 10 c = true := by
  have hbound : c.toNat ≤ 57 := by
    simp only [Char.isDigit,Bool.and_eq_true,decide_eq_true_eq,ge_iff_le,
      UInt32.le_iff_toNat_le] at h
    exact h.2
  simp only [isDigit,digitValue_isDigit h,decide_eq_true_eq]
  omega

theorem isSpace_digit {c : Char} (h : c.isDigit = true) : isSpace c = false := by
  have hbounds : 48 ≤ c.toNat := by
    simp only [Char.isDigit,Bool.and_eq_true,decide_eq_true_eq,ge_iff_le,
      UInt32.le_iff_toNat_le] at h
    exact h.1
  have hspace : c ≠ ' ' := by
    rintro rfl
    exact absurd h (by decide)
  have hcr : ¬ c ≤ '\r' := by
    intro hle
    have hnat : c.toNat ≤ 13 := by simpa [Char.le_def,UInt32.le_iff_toNat_le] using hle
    omega
  simp [isSpace,hspace,hcr]

section Scan
variable {digits rest : CString} {n : Nat}

theorem scanDigits_digits (h : ∀ c ∈ digits, c.isDigit = true)
    (hrest : ∀ c ∈ rest.head?, isDigit 10 c = false) (m : Nat) :
    scanDigits 10 m (digits ++ rest) = (Nat.ofDigitChars 10 digits m,rest) := by
  induction digits generalizing m with
  | nil =>
    cases rest with
    | nil => rfl
    | cons c rest => simp [scanDigits,hrest c (by simp),Nat.ofDigitChars]
  | cons c digits ih =>
    have hc := h c (by simp)
    have hrest' := ih (fun d hd => h d (by simp [hd])) (m*10+(c.toNat-48))
    simp only [List.cons_append,scanDigits,isDigit_ten hc,if_true,digitValue_isDigit hc]
    rw [hrest',Nat.ofDigitChars_cons,Nat.mul_comm 10 m]
    rfl

theorem scanInt_space {c : Char} (h : isSpace c = true) (base : Nat) (s : CString) :
    scanInt base (c :: s) = scanInt base s := by
  simp [scanInt,h]

theorem scanInt_numeral (h : Numeral digits n)
    (hrest : ∀ c ∈ rest.head?, isDigit 10 c = false) :
    scanInt 10 (digits ++ rest) = some (saturate n,rest) := by
  obtain ⟨c,tail,rfl⟩ := List.exists_cons_of_ne_nil h.ne_nil
  have hc := h.digit c (by simp)
  have hminus : c ≠ '-' := by
    rintro rfl
    exact absurd hc (by decide)
  have hplus : c ≠ '+' := by
    rintro rfl
    exact absurd hc (by decide)
  have hskip : ∀ s, skipPrefix 10 s = s := by
    intro s
    unfold skipPrefix
    split <;> simp
  have hdigits := scanDigits_digits h.digit hrest 0
  rw [h.value] at hdigits
  simp only [List.cons_append] at hdigits ⊢
  simp [scanInt,isSpace_digit hc,hminus,hplus,hskip,isDigit_ten hc,hdigits]

theorem scanInt_minus (h : Numeral digits n)
    (hrest : ∀ c ∈ rest.head?, isDigit 10 c = false) :
    scanInt 10 ('-' :: (digits ++ rest)) = some (saturate (-n),rest) := by
  obtain ⟨c,tail,rfl⟩ := List.exists_cons_of_ne_nil h.ne_nil
  have hc := h.digit c (by simp)
  have hskip : ∀ s, skipPrefix 10 s = s := by
    intro s
    unfold skipPrefix
    split <;> simp
  have hdigits := scanDigits_digits h.digit hrest 0
  rw [h.value] at hdigits
  simp only [List.cons_append] at hdigits ⊢
  simp [scanInt,isSpace,hskip,isDigit_ten hc,hdigits]

/-- An `int` that is written in decimal is read back. -/
theorem scanfInt_text {v : Int} (hv : Fits32 v)
    (hrest : ∀ c ∈ rest.head?, isDigit 10 c = false) :
    scanfInt (intText v ++ rest) = some (v,rest) := by
  have hdecimal := decimal_numeral v.natAbs
  have hscan : scanInt 10 (intText v ++ rest) = some (v,rest) := by
    unfold intText
    by_cases hneg : v < 0
    · have habs : -(v.natAbs : Int) = v := by omega
      rw [if_pos hneg,List.cons_append,scanInt_minus hdecimal hrest,habs,saturate_fits hv]
    · have habs : (v.natAbs : Int) = v := by omega
      rw [if_neg hneg,scanInt_numeral hdecimal hrest,habs,saturate_fits hv]
  rw [scanfInt,hscan]
  simp [wrap_fits hv]

end Scan

end DomoticaEngine
