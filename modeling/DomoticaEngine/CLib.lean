import DomoticaEngine.Types

set_option autoImplicit false

namespace DomoticaEngine

def nul : Char := Char.ofNat 0

def cString (buffer : List Char) : CString := buffer.takeWhile (fun c => c ≠ nul)

/-- `isspace` in the C locale. -/
def isSpace (c : Char) : Bool := c = ' ' || ('\t' ≤ c && c ≤ '\r')

def digitValue (c : Char) : Nat :=
  if '0' ≤ c && c ≤ '9' then c.toNat-48
  else if 'a' ≤ c && c ≤ 'z' then c.toNat-87
  else if 'A' ≤ c && c ≤ 'Z' then c.toNat-55
  else 36

def isDigit (base : Nat) (c : Char) : Bool := digitValue c < base

/-- The value of a run of digits that continues the value `n`, and what is left. -/
def scanDigits (base n : Nat) : CString → Nat × CString
  | [] => (n,[])
  | c :: s => if isDigit base c then scanDigits base (n*base+digitValue c) s else (n,c :: s)

/-- The least value that does not fit into `bits` bits with a sign. -/
def signBit (bits : Nat) : Int := (1 <<< (bits-1) : Nat)

/-- Out of range, `strtol` and `strtoll` answer with the nearest value of 64 bits. -/
def saturate (v : Int) : Int :=
  if v < -signBit 64 then -signBit 64
  else if v ≥ signBit 64 then signBit 64-1
  else v

/-- `0x` in front of a digit is skipped in base 16. -/
def skipPrefix (base : Nat) (s : CString) : CString :=
  match s with
  | '0' :: x :: d :: _ =>
    if base = 16 ∧ (x = 'x' ∨ x = 'X') ∧ isDigit base d then s.drop 2 else s
  | _ => s

/-- An optional sign and digits, after white space. `none` when no digit is there. -/
def scanInt (base : Nat) (s : CString) : Option (Int × CString) :=
  let s := s.dropWhile isSpace
  let negative := s.head? = some '-'
  let s := if s.head? = some '-' ∨ s.head? = some '+' then s.tail else s
  let s := skipPrefix base s
  match s with
  | [] => none
  | c :: _ =>
    if isDigit base c then
      let (n,rest) := scanDigits base 0 s
      some (saturate (if negative then -n else n),rest)
    else none

def strtoll (s : CString) (base : Nat) : Int :=
  match scanInt base s with
  | some (v,_) => v
  | none => 0

/-- The two's complement value of the low `bits` bits. -/
def wrap (bits : Nat) (v : Int) : Int :=
  (v+signBit bits) % (2*signBit bits) - signBit bits

/-- The values of an `int`. -/
def Fits32 (v : Int) : Prop := -signBit 32 ≤ v ∧ v < signBit 32

theorem fits32_zero : Fits32 0 := ⟨by decide,by decide⟩

theorem fits32_one : Fits32 1 := ⟨by decide,by decide⟩

theorem wrap_fits {v : Int} (h : Fits32 v) : wrap 32 v = v := by
  have hbit : signBit 32 = 2147483648 := by decide
  unfold Fits32 at h
  unfold wrap
  rw [hbit] at h ⊢
  omega

theorem saturate_fits {v : Int} (h : Fits32 v) : saturate v = v := by
  have hbit : signBit 32 = 2147483648 := by decide
  have hbit' : signBit 64 = 9223372036854775808 := by decide
  unfold Fits32 at h
  unfold saturate
  rw [hbit] at h
  rw [hbit',if_neg (by omega),if_neg (by omega)]

/-- `(int) strtol(s, NULL, 10)`. -/
def atoi (s : CString) : Int := wrap 32 (strtoll s 10)

/-- A byte takes the lowest eight bits. -/
theorem ofInt_toNat (v : Int) : (UInt8.ofInt v).toNat = (v % 256).toNat := by
  have hbound : (v % 256).toNat < 256 := by omega
  simp [UInt8.ofInt,Nat.mod_eq_of_lt hbound]

theorem atoi_mod (s : CString) : atoi s % 256 = strtoll s 10 % 256 := by
  have hbit : signBit 32 = 2147483648 := by decide
  unfold atoi wrap
  rw [hbit]
  omega

/-- The `%d` of `sscanf`. -/
def scanfInt (s : CString) : Option (Int × CString) :=
  (scanInt 10 s).map (fun (v,rest) => (wrap 32 v,rest))

/-- The `%ns` of `sscanf`: up to `n` characters that are not white space. -/
def scanfWord (n : Nat) (s : CString) : Option (CString × CString) :=
  let s := s.dropWhile isSpace
  let word := (s.takeWhile (fun c => !isSpace c)).take n
  if word = [] then none else some (word,s.drop word.length)

end DomoticaEngine
