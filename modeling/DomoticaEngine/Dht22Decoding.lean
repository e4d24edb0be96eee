import Mathlib.Data.Fin.VecNotation
import Mathlib.Data.Fintype.Basic
import Mathlib.Tactic.FinCases
import Mathlib.Tactic.Ring
import Mathlib.Tactic.FieldSimp
import DomoticaEngine.Dht22Worker
import DomoticaEngine.Library.Scatter

/-!
What `pi_2_dht_read` makes of a train of pulses.
-/

set_option autoImplicit false

namespace DomoticaEngine
open Waits Scatter

def lowCounts (pulseCounts : List Nat) : List Nat :=
  (List.range 40).map (fun k => pulseCount pulseCounts (2*k+2))

def lowAverage (pulseCounts : List Nat) : Nat := (lowCounts pulseCounts).foldl (· + ·) 0 / 40

/-- The high pulses behind the first one are the bits of the bytes, the most significant first: at
or above the average for a 1, below it for a 0. -/
def EncodesBytes (pulseCounts : List Nat) (bytes : Fin 5 → UInt8) : Prop :=
  ∀ (j : Fin 5) (m : Fin 8),
    lowAverage pulseCounts ≤ pulseCount pulseCounts (2*(8*j.val+m.val)+3) ↔
      (bytes j).toNat.testBit (7-m.val) = true

def ValidFrame (bytes : Fin 5 → UInt8) : Prop :=
  (bytes 4).toNat =
    ((bytes 0).toNat+(bytes 1).toNat+(bytes 2).toNat+(bytes 3).toNat) % 256

def signMagnitude (high low : UInt8) : Int :=
  if high.toNat < 128 then high.toNat*256+low.toNat
  else -(((high.toNat-128 : Nat) : Int)*256+low.toNat)

section Threshold

theorem sum_mod {m : Nat} (f : Nat → Nat) (ks : List Nat) (t : Nat) :
    ks.foldl (fun t k => (t+f k) % m) (t % m) = (ks.map f).foldl (· + ·) t % m := by
  induction ks generalizing t with
  | nil => rfl
  | cons k ks ih =>
    rw [List.foldl_cons,Nat.mod_add_mod,ih]
    rfl

theorem sum_bound {limit : Nat} {l : List Nat} (h : ∀ n ∈ l, n ≤ limit) (t : Nat) :
    l.foldl (· + ·) t ≤ t+l.length*limit := by
  induction l generalizing t with
  | nil => simp
  | cons n l ih =>
    have hn := h n (by simp)
    have hrest := ih (fun x hx => h x (by simp [hx])) (t+n)
    rw [List.foldl_cons,List.length_cons,Nat.succ_mul]
    omega

theorem pulseCount_le {pulseCounts : List Nat} (h : ∀ count ∈ pulseCounts, count < dhtMaxcount)
    (i : Nat) : pulseCount pulseCounts i ≤ dhtMaxcount := by
  unfold pulseCount
  rw [List.getD_eq_getElem?_getD]
  cases hget : pulseCounts[i]? with
  | none => exact Nat.zero_le _
  | some count => exact Nat.le_of_lt (h count (List.mem_of_getElem? hget))

theorem dhtThreshold_average {pulseCounts : List Nat}
    (h : ∀ count ∈ pulseCounts, count < dhtMaxcount) :
    dhtThreshold pulseCounts = lowAverage pulseCounts := by
  have hsum := sum_mod (m := UInt32.size) (fun k => pulseCount pulseCounts (2*k+2))
    (List.range 40) 0
  have hcounts : ∀ n ∈ lowCounts pulseCounts, n ≤ dhtMaxcount := by
    intro n hn
    obtain ⟨k,-,rfl⟩ := List.mem_map.mp hn
    exact pulseCount_le h _
  have hbound := sum_bound hcounts 0
  have hlength : (lowCounts pulseCounts).length = 40 := by simp [lowCounts]
  have hsmall : (lowCounts pulseCounts).foldl (· + ·) 0 < UInt32.size := by
    have hmax : dhtMaxcount = 3200000 := rfl
    have hsize : UInt32.size = 4294967296 := rfl
    rw [hlength,hmax] at hbound
    omega
  unfold dhtThreshold lowAverage
  change List.foldl _ (0 % UInt32.size) (List.range 40) / 40 = _
  rw [hsum]
  exact congrArg (· / 40) (Nat.mod_eq_of_lt hsmall)

end Threshold

section Data
variable {pulseCounts : List Nat} {bytes : Fin 5 → UInt8}

/-- The pulses of one byte. -/
theorem byte_pulses (j : Fin 5) :
    (List.range 40).filter (fun k => (2*k+3-3) / 16 = j.val) =
      (List.range 8).map (fun m => 8*j.val+m) := by
  revert j
  decide

theorem shifted_bits (byte : UInt8) :
    (List.range 8).foldl (fun (b : UInt8) m => b <<< 1 |||
      if byte.toNat.testBit (7-m) then 1 else 0) 0 = byte := by
  have hall : ∀ n : Fin 256, (List.range 8).foldl
      (fun (b : UInt8) m => b <<< 1 ||| if n.val.testBit (7-m) then 1 else 0) 0 =
        UInt8.ofNat n.val := by decide +kernel
  have hbyte := hall ⟨byte.toNat,byte.toNat_lt⟩
  rwa [UInt8.ofNat_toNat] at hbyte

/-- Every byte comes out as it was encoded. -/
theorem dhtData_encoded (hcounts : ∀ count ∈ pulseCounts, count < dhtMaxcount)
    (hencodes : EncodesBytes pulseCounts bytes) : dhtData pulseCounts = List.ofFn bytes := by
  have hlength : (dhtData pulseCounts).length = 5 := by
    unfold dhtData
    rw [scatter_length (fun k => (2*k+3-3) / 16)
      (fun k (byte : UInt8) => byte <<< 1 ||| dhtBit pulseCounts (2*k+3))]
    rfl
  apply List.ext_getElem?
  intro i
  by_cases hi : i < 5
  · have hget := scatter_get (fun k => (2*k+3-3) / 16)
      (fun k (byte : UInt8) => byte <<< 1 ||| dhtBit pulseCounts (2*k+3)) (List.range (dhtPulses-1))
      (List.replicate 5 0) i
    have hbits : (List.range 8).foldl (fun (b : UInt8) m => b <<< 1 |||
        dhtBit pulseCounts (2*(8*i+m)+3)) 0 = bytes ⟨i,hi⟩ := by
      rw [← shifted_bits (bytes ⟨i,hi⟩)]
      refine List.foldl_ext _ _ 0 (fun b m hm => ?_)
      have hbit := hencodes ⟨i,hi⟩ ⟨m,List.mem_range.mp hm⟩
      simp only at hbit
      simp only [dhtBit,dhtThreshold_average hcounts,ge_iff_le,hbit]
    have hpulses := byte_pulses ⟨i,hi⟩
    unfold dhtData
    rw [hget]
    simp only at hpulses
    change Option.map (fun a => List.foldl _ a ((List.range 40).filter _)) _ = _
    simp only [hpulses,List.foldl_map]
    rw [List.getElem?_replicate,if_pos hi,Option.map_some,hbits,List.getElem?_ofFn,dif_pos hi]
  · rw [List.getElem?_eq_none (by omega),List.getElem?_eq_none (by simpa using hi)]

theorem dhtByte_encoded (hdata : dhtData pulseCounts = List.ofFn bytes) (j : Fin 5) :
    dhtByte (dhtData pulseCounts) j.val = (bytes j).toNat := by
  fin_cases j <;> simp [dhtByte,hdata]

theorem dhtTemperature_signMagnitude (high low : UInt8) :
    dhtTemperature high.toNat low.toNat = signMagnitude high low := by
  have hhigh := high.toNat_lt
  unfold dhtTemperature signMagnitude
  by_cases hsign : high.toNat < 128
  · rw [if_neg (by omega),if_pos hsign]
    omega
  · rw [if_pos (by omega),if_neg hsign]
    omega

theorem dhtDecode_encoded (hdata : dhtData pulseCounts = List.ofFn bytes) :
    dhtDecode pulseCounts =
      if (bytes 4).toNat =
          ((bytes 0).toNat+(bytes 1).toNat+(bytes 2).toNat+(bytes 3).toNat) % 256 then
        { status := .success,
          humidity := (((bytes 0).toNat*256+(bytes 1).toNat : Nat) : ℚ) / 10,
          temperature := (signMagnitude (bytes 2) (bytes 3) : ℚ) / 10 }
      else .failed .checksum := by
  have hbytes := dhtByte_encoded hdata
  unfold dhtDecode
  have h0 : dhtByte (dhtData pulseCounts) 0 = (bytes 0).toNat := hbytes 0
  have h1 : dhtByte (dhtData pulseCounts) 1 = (bytes 1).toNat := hbytes 1
  have h2 : dhtByte (dhtData pulseCounts) 2 = (bytes 2).toNat := hbytes 2
  have h3 : dhtByte (dhtData pulseCounts) 3 = (bytes 3).toNat := hbytes 3
  have h4 : dhtByte (dhtData pulseCounts) 4 = (bytes 4).toNat := hbytes 4
  simp only [h0,h1,h2,h3,h4,dhtTemperature_signMagnitude]

end Data

/-- One wrong byte changes the sum or what it is compared with. -/
theorem corrupted_invalid {frame bytes : Fin 5 → UInt8} (hvalid : ValidFrame frame)
    (hone : ∃! i, frame i ≠ bytes i) : ¬ ValidFrame bytes := by
  obtain ⟨i,hi,hother⟩ := hone
  have hwrong : (bytes i).toNat ≠ (frame i).toNat := fun heq => hi (UInt8.toNat_inj.mp heq.symm)
  have hsame : ∀ j, j ≠ i → (bytes j).toNat = (frame j).toNat := by
    intro j hj
    by_contra hne
    exact hj (hother j (fun heq => hne (by rw [heq])))
  have hbyte := (bytes i).toNat_lt
  have hframe := (frame i).toNat_lt
  have hposition : ∀ i : Fin 5, i = 0 ∨ i = 1 ∨ i = 2 ∨ i = 3 ∨ i = 4 := by decide
  intro hbad
  unfold ValidFrame at hvalid hbad
  rcases hposition i with rfl | rfl | rfl | rfl | rfl
  · rw [hsame 4 (by decide),hsame 1 (by decide),hsame 2 (by decide),hsame 3 (by decide)] at hbad
    omega
  · rw [hsame 4 (by decide),hsame 0 (by decide),hsame 2 (by decide),hsame 3 (by decide)] at hbad
    omega
  · rw [hsame 4 (by decide),hsame 0 (by decide),hsame 1 (by decide),hsame 3 (by decide)] at hbad
    omega
  · rw [hsame 4 (by decide),hsame 0 (by decide),hsame 1 (by decide),hsame 2 (by decide)] at hbad
    omega
  · -- The sums are the same, and only the byte that they are compared with is wrong.
    rw [hsame 0 (by decide),hsame 1 (by decide),hsame 2 (by decide),hsame 3 (by decide)] at hbad
    omega

/-- What a read of the sensor answers for the pulses that are recorded. -/
theorem dht22_decoding (levels : Nat → Bool) (sched : Scheduling) (pulseCounts : List Nat)
    (bytes : Fin 5 → UInt8) (hrecorded : SensorAnswers levels pulseCounts)
    (hencodes : EncodesBytes pulseCounts bytes) :
    dhtData pulseCounts = List.ofFn bytes ∧
      ((pi2DhtRead levels sched).1.status = .success ↔ ValidFrame bytes) ∧
      (ValidFrame bytes →
        (pi2DhtRead levels sched).1.humidity*10 = (bytes 0).toNat*256+(bytes 1).toNat ∧
        (pi2DhtRead levels sched).1.temperature*10 = signMagnitude (bytes 2) (bytes 3)) ∧
      ∀ frame : Fin 5 → UInt8, ValidFrame frame → (∃! i, frame i ≠ bytes i) →
        (pi2DhtRead levels sched).1.status = .checksum := by
  have hcounts : ∀ count ∈ pulseCounts, count < dhtMaxcount := by
    obtain ⟨count,pos,hfollows⟩ := hrecorded
    exact fun n hn => hfollows.bounds.2 n (List.mem_cons_of_mem count hn)
  have hdata := dhtData_encoded hcounts hencodes
  have hread : (pi2DhtRead levels sched).1 = _ :=
    (congrArg Prod.fst (pi2DhtRead_answered hrecorded sched)).trans (dhtDecode_encoded hdata)
  rw [hread]
  refine ⟨hdata,?_,?_,?_⟩
  · unfold ValidFrame
    split <;> simp_all [DhtRead.failed]
  · intro hvalid
    unfold ValidFrame at hvalid
    rw [if_pos hvalid]
    constructor
    · push_cast
      field_simp
    · field_simp
  · intro frame hframe hone
    have hbad := corrupted_invalid hframe hone
    unfold ValidFrame at hbad
    rw [if_neg hbad]
    rfl

def warmFrame : Fin 5 → UInt8 := ![0x02,0x8C,0x01,0x5F,0xEE]

def warmPulses : List Nat :=
  [2,2] ++ (List.range 40).flatMap (fun k =>
    [2,if (warmFrame (Fin.ofNat 5 (k / 8))).toNat.testBit (7-k % 8) then 3 else 1])

def warmLevels (pos : Nat) : Bool := (play (true :: pulseLevels) (1 :: warmPulses)).getD pos false

theorem warm_answers : SensorAnswers warmLevels warmPulses := by
  have hlimit : (1 :: warmPulses).all (fun count => count < dhtMaxcount) = true := by decide
  have hcounts : ∀ count ∈ 1 :: warmPulses, count < dhtMaxcount := by
    intro count hcount
    simpa using List.all_eq_true.mp hlimit count hcount
  have hlevels : ∀ (i : Nat) (look : Bool),
      (play (true :: pulseLevels) (1 :: warmPulses))[i]? = some look →
        warmLevels (0+i) = look := by
    intro i look hlook
    simp [warmLevels,List.getD_eq_getElem?_getD,hlook]
  obtain ⟨pos,hfollows⟩ := follows_play (by decide) hcounts hlevels
  exact ⟨1,pos,hfollows⟩

theorem dht22_decoding_warm :
    (pi2DhtRead warmLevels .default).1.status = .success ∧
      (pi2DhtRead warmLevels .default).1.humidity*10 = 652 ∧
      (pi2DhtRead warmLevels .default).1.temperature*10 = 351 := by
  have hencodes : EncodesBytes warmPulses warmFrame := by
    unfold EncodesBytes
    decide +kernel
  obtain ⟨-,hsuccess,hvalues,-⟩ :=
    dht22_decoding warmLevels .default warmPulses warmFrame warm_answers hencodes
  have hvalid : ValidFrame warmFrame := by
    unfold ValidFrame
    decide
  obtain ⟨hhumidity,htemperature⟩ := hvalues hvalid
  refine ⟨hsuccess.mpr hvalid,?_,?_⟩
  · have hfirst : (warmFrame 0).toNat = 2 := rfl
    have hsecond : (warmFrame 1).toNat = 140 := rfl
    rw [hhumidity,hfirst,hsecond]
    norm_num
  · have htenths : signMagnitude (warmFrame 2) (warmFrame 3) = 351 := by decide
    rw [htemperature,htenths]
    norm_num

end DomoticaEngine
