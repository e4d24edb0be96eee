import Mathlib.Algebra.Order.Field.Rat
import Mathlib.Data.List.Nodup
import Mathlib.Data.List.TakeWhile

/-!
JSON texts and what they stand for. A relation between a text, the value at its start and
the text that is left.
-/

set_option autoImplicit false

namespace Json

inductive Value where
  | null
  | bool (b : Bool)
  | number (q : ℚ)
  | string (s : List Char)
  | array (l : List Value)
  | object (m : List (List Char × Value))

def isSpace (c : Char) : Bool := c = ' ' || c = '\t' || c = '\n' || c = '\r'

def skip (t : List Char) : List Char := t.dropWhile isSpace

def isPlain (c : Char) : Bool := c ≠ '"' && c ≠ '\\' && ' ' ≤ c

def escapes : List (Char × Char) :=
  [('"','"'), ('\\','\\'), ('/','/'), ('b','\x08'), ('f','\x0c'), ('n','\n'), ('r','\r'),
   ('t','\t')]

def hexDigit (c : Char) : Option Nat :=
  if c.isDigit then some (c.toNat-48)
  else if 'a' ≤ c && c ≤ 'f' then some (c.toNat-87)
  else if 'A' ≤ c && c ≤ 'F' then some (c.toNat-55)
  else none

def hexCode : List Char → Option Nat
  | [a,b,c,d] => do
    return ((← hexDigit a)*16+(← hexDigit b))*256+(← hexDigit c)*16+(← hexDigit d)
  | _ => none

def isHigh (n : Nat) : Bool := 0xd800 ≤ n && n < 0xdc00

def isLow (n : Nat) : Bool := 0xdc00 ≤ n && n < 0xe000

inductive Chars : List Char → List Char → List Char → Prop where
  | stop {t} : Chars ('"' :: t) [] t
  | plain {c t s r} (hc : isPlain c = true) (h : Chars t s r) : Chars (c :: t) (c :: s) r
  | escape {e c t s r} (he : (e,c) ∈ escapes) (h : Chars t s r) :
      Chars ('\\' :: e :: t) (c :: s) r
  | unicode {x n t s r} (hx : hexCode x = some n) (hn : isHigh n = false ∧ isLow n = false)
      (h : Chars t s r) : Chars ('\\' :: 'u' :: (x ++ t)) (Char.ofNat n :: s) r
  | surrogates {x y n m t s r} (hx : hexCode x = some n) (hn : isHigh n = true)
      (hy : hexCode y = some m) (hm : isLow m = true) (h : Chars t s r) :
      Chars ('\\' :: 'u' :: (x ++ '\\' :: 'u' :: (y ++ t)))
        (Char.ofNat (0x10000+(n-0xd800)*0x400+(m-0xdc00)) :: s) r

section Numbers

def isNumberChar (c : Char) : Bool :=
  c.isDigit || c = '-' || c = '+' || c = '.' || c = 'e' || c = 'E'

def digitsOf (t : List Char) : List Char := t.takeWhile Char.isDigit

def behindDigits (t : List Char) : List Char := t.dropWhile Char.isDigit

def digitsValue (ds : List Char) : Nat := Nat.ofDigitChars 10 ds 0

def readExponent : List Char → Option Int
  | [] => some 0
  | e :: t =>
    if e = 'e' ∨ e = 'E' then
      let ds := if t.head? = some '-' ∨ t.head? = some '+' then t.tail else t
      if ds ≠ [] ∧ behindDigits ds = [] then
        some (if t.head? = some '-' then -(digitsValue ds : Int) else digitsValue ds)
      else none
    else none

/-- The digits behind the point, and what is left. Without a point there are none. -/
def readFraction (t : List Char) : Option (List Char × List Char) :=
  if t.head? = some '.' then
    if digitsOf t.tail = [] then none else some (digitsOf t.tail,behindDigits t.tail)
  else some ([],t)

def readUnsigned (t : List Char) : Option ℚ := do
  if digitsOf t = [] ∨ (digitsOf t).head? = some '0' ∧ digitsOf t ≠ ['0'] then none
  let (fraction,t') ← readFraction (behindDigits t)
  let exponent ← readExponent t'
  return digitsValue (digitsOf t ++ fraction) * (10 : ℚ)^(exponent-fraction.length)

def readNumber (t : List Char) : Option ℚ :=
  if t.head? = some '-' then (readUnsigned t.tail).map (fun q => -q) else readUnsigned t

/-- A number with a point: the digits before and behind it, as one number, and the point. -/
theorem readUnsigned_point {whole fraction : List Char} (hwhole : whole ≠ [])
    (hw : ∀ c ∈ whole, c.isDigit = true) (hzero : whole.head? = some '0' → whole = ['0'])
    (hfraction : fraction ≠ []) (hf : ∀ c ∈ fraction, c.isDigit = true) :
    readUnsigned (whole ++ '.' :: fraction) =
      some (digitsValue (whole ++ fraction) * (10 : ℚ)^(-(fraction.length : Int))) := by
  have hdigits : digitsOf (whole ++ '.' :: fraction) = whole := by
    unfold digitsOf
    rw [List.takeWhile_append_of_pos hw,List.takeWhile_cons_of_neg (by decide),List.append_nil]
  have hbehind : behindDigits (whole ++ '.' :: fraction) = '.' :: fraction := by
    unfold behindDigits
    rw [List.dropWhile_append_of_pos hw,List.dropWhile_cons_of_neg (by decide)]
  have hpoint : readFraction ('.' :: fraction) = some (fraction,[]) := by
    have hall : digitsOf fraction = fraction ∧ behindDigits fraction = [] :=
      ⟨List.takeWhile_eq_self_iff.mpr hf,List.dropWhile_eq_nil_iff.mpr hf⟩
    simp [readFraction,hall,hfraction]
  have hlead : ¬ (whole = [] ∨ whole.head? = some '0' ∧ whole ≠ ['0']) := by
    rintro (hnil | ⟨hhead,hne⟩)
    · exact hwhole hnil
    · exact hne (hzero hhead)
  unfold readUnsigned
  rw [hdigits,hbehind,hpoint,if_neg hlead]
  simp [readExponent]

end Numbers

inductive Part where
  | value (j : Value)
  | elements (l : List Value)
  | members (m : List (List Char × Value))

/-- The part is at the start of the text, and the other text is left behind it. A number goes
on as long as there are characters of numbers. -/
inductive Reads : List Char → Part → List Char → Prop where
  | null {t} : Reads ('n' :: 'u' :: 'l' :: 'l' :: t) (.value .null) t
  | true {t} : Reads ('t' :: 'r' :: 'u' :: 'e' :: t) (.value (.bool Bool.true)) t
  | false {t} : Reads ('f' :: 'a' :: 'l' :: 's' :: 'e' :: t) (.value (.bool Bool.false)) t
  | number {t q} (h : readNumber (t.takeWhile isNumberChar) = some q) :
      Reads t (.value (.number q)) (t.dropWhile isNumberChar)
  | string {t s r} (h : Chars t s r) : Reads ('"' :: t) (.value (.string s)) r
  | emptyArray {t r} (h : skip t = ']' :: r) : Reads ('[' :: t) (.value (.array [])) r
  | array {t l r} (h : Reads (skip t) (.elements l) r) : Reads ('[' :: t) (.value (.array l)) r
  | emptyObject {t r} (h : skip t = '}' :: r) : Reads ('{' :: t) (.value (.object [])) r
  | object {t m r} (h : Reads (skip t) (.members m) r) : Reads ('{' :: t) (.value (.object m)) r
  | lastElement {t j u r} (h : Reads t (.value j) u) (hu : skip u = ']' :: r) :
      Reads t (.elements [j]) r
  | element {t j u v l r} (h : Reads t (.value j) u) (hu : skip u = ',' :: v)
      (hrest : Reads (skip v) (.elements l) r) : Reads t (.elements (j :: l)) r
  | lastMember {t k u v j w r} (hk : Chars t k u) (hu : skip u = ':' :: v)
      (h : Reads (skip v) (.value j) w) (hw : skip w = '}' :: r) :
      Reads ('"' :: t) (.members [(k,j)]) r
  | member {t k u v j w x m r} (hk : Chars t k u) (hu : skip u = ':' :: v)
      (h : Reads (skip v) (.value j) w) (hw : skip w = ',' :: x)
      (hrest : Reads (skip x) (.members m) r) : Reads ('"' :: t) (.members ((k,j) :: m)) r

def Text (t : List Char) (j : Value) : Prop := ∃ r, Reads (skip t) (.value j) r ∧ skip r = []

section Unique

theorem hexCode_length {x : List Char} {n : Nat} (h : hexCode x = some n) : x.length = 4 := by
  unfold hexCode at h
  split at h
  · rfl
  · cases h

theorem hexCode_append {x y t u : List Char} {n m : Nat} (hx : hexCode x = some n)
    (hy : hexCode y = some m) (h : x ++ t = y ++ u) : n = m ∧ t = u := by
  obtain ⟨rfl,rfl⟩ := List.append_inj h ((hexCode_length hx).trans (hexCode_length hy).symm)
  rw [hx] at hy
  exact ⟨Option.some.inj hy,rfl⟩

theorem escapes_unique {e c d : Char} (hc : (e,c) ∈ escapes) (hd : (e,d) ∈ escapes) : c = d := by
  have hkeys : (escapes.map Prod.fst).Nodup := by decide
  exact congrArg Prod.snd (List.inj_on_of_nodup_map hkeys hc hd rfl)

theorem escapes_code {c : Char} : ('u',c) ∉ escapes := by
  intro h
  have hkeys : 'u' ∉ escapes.map Prod.fst := by decide
  exact hkeys (List.mem_map_of_mem h)

theorem Chars.unique {t s r s' r' : List Char} (h : Chars t s r) (h' : Chars t s' r') :
    s = s' ∧ r = r' := by
  induction h generalizing s' r' with
  | stop =>
    cases h' with
    | stop => exact ⟨rfl,rfl⟩
    | plain hc => exact absurd hc (by decide)
  | plain hc _ ih =>
    cases h' with
    | stop => exact absurd hc (by decide)
    | plain _ h' =>
      obtain ⟨rfl,rfl⟩ := ih h'
      exact ⟨rfl,rfl⟩
    | escape | unicode | surrogates => exact absurd hc (by decide)
  | escape he _ ih =>
    cases h' with
    | plain hc => exact absurd hc (by decide)
    | escape he' h' =>
      obtain ⟨rfl,rfl⟩ := ih h'
      exact ⟨by rw [escapes_unique he he'],rfl⟩
    | unicode | surrogates => exact absurd he escapes_code
  | @unicode x _ t _ _ hx hn _ ih =>
    generalize ht : x ++ t = t' at h'
    cases h' with
    | plain hc => exact absurd hc (by decide)
    | escape he => exact absurd he escapes_code
    | unicode hx' hn' h' =>
      obtain ⟨rfl,rfl⟩ := hexCode_append hx hx' ht
      obtain ⟨rfl,rfl⟩ := ih h'
      exact ⟨rfl,rfl⟩
    | surrogates hx' hn' =>
      obtain ⟨rfl,-⟩ := hexCode_append hx hx' ht
      rw [hn.1] at hn'
      cases hn'
  | @surrogates x y _ _ t _ _ hx hn hy _ _ ih =>
    generalize ht : x ++ '\\' :: 'u' :: (y ++ t) = t' at h'
    cases h' with
    | plain hc => exact absurd hc (by decide)
    | escape he => exact absurd he escapes_code
    | unicode hx' hn' h' =>
      obtain ⟨rfl,-⟩ := hexCode_append hx hx' ht
      rw [hn'.1] at hn
      cases hn
    | surrogates hx' hn' hy' hm' h' =>
      obtain ⟨rfl,hrest⟩ := hexCode_append hx hx' ht
      simp only [List.cons.injEq,true_and] at hrest
      obtain ⟨rfl,rfl⟩ := hexCode_append hy hy' hrest
      obtain ⟨rfl,rfl⟩ := ih h'
      exact ⟨rfl,rfl⟩

theorem number_none {c : Char} {t : List Char} (h : isNumberChar c = false) :
    readNumber ((c :: t).takeWhile isNumberChar) = none := by
  rw [List.takeWhile_cons_of_neg (by simp [h])]
  rfl

def Part.kind : Part → Nat
  | .value _ => 0
  | .elements _ => 1
  | .members _ => 2

theorem Chars.colon_unique {t k k' u u' v v' : List Char} (h : Chars t k u)
    (hu : skip u = ':' :: v) (h' : Chars t k' u') (hu' : skip u' = ':' :: v') :
    k = k' ∧ v = v' := by
  obtain ⟨rfl,rfl⟩ := h.unique h'
  exact ⟨rfl,(List.cons.inj (hu.symm.trans hu')).2⟩

theorem Reads.not_bracket {t r : List Char} {p : Part} : ¬ Reads (']' :: t) p r := by
  intro h
  generalize hx : ']' :: t = x at h
  induction h with
  | number h =>
    subst hx
    simp [number_none (c := ']') (by decide)] at h
  | lastElement _ _ ih => exact ih hx
  | element _ _ _ ih => exact ih hx
  | _ => cases hx

theorem Reads.members_ne {t r : List Char} {m : List (List Char × Value)}
    (h : Reads t (.members m) r) : m ≠ [] := by
  generalize hp : Part.members m = p at h
  cases h with
  | lastMember | member => cases hp; simp
  | _ => cases hp

theorem Reads.unique {t r r' : List Char} {p p' : Part} (h : Reads t p r) (h' : Reads t p' r')
    (hkind : p.kind = p'.kind) : p = p' ∧ r = r' := by
  induction h generalizing p' r' with
  | null =>
    cases h' with
    | null => exact ⟨rfl,rfl⟩
    | number h => simp [number_none (c := 'n') (by decide)] at h
    | _ => cases hkind
  | true =>
    cases h' with
    | true => exact ⟨rfl,rfl⟩
    | number h => simp [number_none (c := 't') (by decide)] at h
    | _ => cases hkind
  | false =>
    cases h' with
    | false => exact ⟨rfl,rfl⟩
    | number h => simp [number_none (c := 'f') (by decide)] at h
    | _ => cases hkind
  | number h =>
    cases h' with
    | number h' =>
      rw [h] at h'
      exact ⟨by rw [Option.some.inj h'],rfl⟩
    | null => simp [number_none (c := 'n') (by decide)] at h
    | true => simp [number_none (c := 't') (by decide)] at h
    | false => simp [number_none (c := 'f') (by decide)] at h
    | string => simp [number_none (c := '"') (by decide)] at h
    | emptyArray | array => simp [number_none (c := '[') (by decide)] at h
    | emptyObject | object => simp [number_none (c := '{') (by decide)] at h
    | _ => cases hkind
  | string h =>
    cases h' with
    | string h' =>
      obtain ⟨rfl,rfl⟩ := h.unique h'
      exact ⟨rfl,rfl⟩
    | number h => simp [number_none (c := '"') (by decide)] at h
    | _ => cases hkind
  | emptyArray h =>
    cases h' with
    | emptyArray h' =>
      rw [h] at h'
      exact ⟨rfl,(List.cons.inj h').2⟩
    | array h' => exact absurd (h ▸ h') Reads.not_bracket
    | number h => simp [number_none (c := '[') (by decide)] at h
    | _ => cases hkind
  | array h ih =>
    cases h' with
    | emptyArray h' => exact absurd (h' ▸ h) Reads.not_bracket
    | array h' =>
      obtain ⟨hsame,rfl⟩ := ih h' rfl
      cases hsame
      exact ⟨rfl,rfl⟩
    | number h => simp [number_none (c := '[') (by decide)] at h
    | _ => cases hkind
  | emptyObject h =>
    cases h' with
    | emptyObject h' =>
      rw [h] at h'
      exact ⟨rfl,(List.cons.inj h').2⟩
    | object h' =>
      rw [h] at h'
      cases h'
    | number h => simp [number_none (c := '{') (by decide)] at h
    | _ => cases hkind
  | object h ih =>
    cases h' with
    | emptyObject h' =>
      rw [h'] at h
      cases h
    | object h' =>
      obtain ⟨hsame,rfl⟩ := ih h' rfl
      cases hsame
      exact ⟨rfl,rfl⟩
    | number h => simp [number_none (c := '{') (by decide)] at h
    | _ => cases hkind
  | lastElement _ hu ih =>
    cases h' with
    | lastElement h' hu' =>
      obtain ⟨hsame,rfl⟩ := ih h' rfl
      cases hsame
      rw [hu] at hu'
      exact ⟨rfl,(List.cons.inj hu').2⟩
    | element h' hu' =>
      obtain ⟨-,rfl⟩ := ih h' rfl
      simp [hu] at hu'
    | _ => cases hkind
  | element _ hu _ ih ihrest =>
    cases h' with
    | lastElement h' hu' =>
      obtain ⟨-,rfl⟩ := ih h' rfl
      simp [hu] at hu'
    | element h' hu' hrest' =>
      obtain ⟨hsame,rfl⟩ := ih h' rfl
      cases hsame
      rw [hu] at hu'
      cases hu'
      obtain ⟨hsame,rfl⟩ := ihrest hrest' rfl
      cases hsame
      exact ⟨rfl,rfl⟩
    | _ => cases hkind
  | lastMember hk hu _ hw ih =>
    cases h' with
    | lastMember hk' hu' h' hw' =>
      obtain ⟨rfl,rfl⟩ := hk.colon_unique hu hk' hu'
      obtain ⟨hsame,rfl⟩ := ih h' rfl
      cases hsame
      rw [hw] at hw'
      exact ⟨rfl,(List.cons.inj hw').2⟩
    | member hk' hu' h' hw' =>
      obtain ⟨rfl,rfl⟩ := hk.colon_unique hu hk' hu'
      obtain ⟨-,rfl⟩ := ih h' rfl
      simp [hw] at hw'
    | _ => cases hkind
  | member hk hu _ hw _ ih ihrest =>
    cases h' with
    | lastMember hk' hu' h' hw' =>
      obtain ⟨rfl,rfl⟩ := hk.colon_unique hu hk' hu'
      obtain ⟨-,rfl⟩ := ih h' rfl
      simp [hw] at hw'
    | member hk' hu' h' hw' hrest' =>
      obtain ⟨rfl,rfl⟩ := hk.colon_unique hu hk' hu'
      obtain ⟨hsame,rfl⟩ := ih h' rfl
      cases hsame
      rw [hw] at hw'
      cases hw'
      obtain ⟨hsame,rfl⟩ := ihrest hrest' rfl
      cases hsame
      exact ⟨rfl,rfl⟩
    | _ => cases hkind

theorem Text.unique {t : List Char} {j j' : Value} (h : Text t j) (h' : Text t j') : j = j' := by
  obtain ⟨r,hr,-⟩ := h
  obtain ⟨r',hr',-⟩ := h'
  obtain ⟨hsame,-⟩ := hr.unique hr' rfl
  cases hsame
  rfl

end Unique

section Quoted

theorem isPlain_iff {c : Char} : isPlain c = true ↔ c ≠ '"' ∧ c ≠ '\\' ∧ ' ' ≤ c := by
  simp [isPlain,and_assoc]

theorem escapes_visible {e c : Char} (h : (e,c) ∈ escapes) : ' ' ≤ e := by
  have hall : (escapes.all fun pair => ' ' ≤ pair.1) = true := by decide
  simpa using List.all_eq_true.mp hall _ h

theorem hexDigit_visible {c : Char} {n : Nat} (h : hexDigit c = some n) : ' ' ≤ c := by
  unfold hexDigit at h
  split at h
  · rename_i hdigit
    have hzero : '0' ≤ c := by
      simp only [Char.isDigit,Bool.and_eq_true,decide_eq_true_eq] at hdigit
      exact hdigit.1
    exact Char.le_trans (by decide) hzero
  · split at h
    · rename_i hcase
      simp only [Bool.and_eq_true,decide_eq_true_eq] at hcase
      exact Char.le_trans (by decide) hcase.1
    · split at h
      · rename_i hcase
        simp only [Bool.and_eq_true,decide_eq_true_eq] at hcase
        exact Char.le_trans (by decide) hcase.1
      · cases h

theorem hexCode_visible {x : List Char} {n : Nat} (h : hexCode x = some n) : ∀ c ∈ x, ' ' ≤ c := by
  unfold hexCode at h
  split at h
  · rename_i a b c d
    simp only [Option.bind_eq_bind,Option.bind_eq_some_iff] at h
    obtain ⟨_,ha,_,hb,_,hc,_,hd,-⟩ := h
    intro e he
    simp only [List.mem_cons,List.not_mem_nil,or_false] at he
    rcases he with rfl | rfl | rfl | rfl
    · exact hexDigit_visible ha
    · exact hexDigit_visible hb
    · exact hexDigit_visible hc
    · exact hexDigit_visible hd
  · cases h

/-- What stands between the quotes: no control characters, at least as much as is meant, and
the same when it is as much. -/
theorem Chars.body {t s r : List Char} (h : Chars t s r) :
    ∃ body, t = body ++ '"' :: r ∧ s.length ≤ body.length ∧ (∀ c ∈ body, ' ' ≤ c) ∧
      (body.length = s.length → body = s ∧ ∀ c ∈ s, isPlain c = true) := by
  induction h with
  | stop => exact ⟨[],rfl,Nat.le_refl _,by simp,by simp⟩
  | @plain c _ _ _ hc _ ih =>
    obtain ⟨body,rfl,hlength,hvisible,hsame⟩ := ih
    refine ⟨c :: body,rfl,by simpa using hlength,?_,fun heq => ?_⟩
    · exact List.forall_mem_cons.mpr ⟨(isPlain_iff.mp hc).2.2,hvisible⟩
    · obtain ⟨rfl,hplain⟩ := hsame (by simpa using heq)
      exact ⟨rfl,List.forall_mem_cons.mpr ⟨hc,hplain⟩⟩
  | @escape e _ _ _ _ he _ ih =>
    obtain ⟨body,rfl,hlength,hvisible,-⟩ := ih
    refine ⟨'\\' :: e :: body,rfl,?_,?_,fun heq => ?_⟩
    · simp only [List.length_cons]
      omega
    · exact List.forall_mem_cons.mpr
        ⟨by decide,List.forall_mem_cons.mpr ⟨escapes_visible he,hvisible⟩⟩
    · simp only [List.length_cons] at heq
      omega
  | @unicode x _ _ _ _ hx _ _ ih =>
    obtain ⟨body,rfl,hlength,hvisible,-⟩ := ih
    refine ⟨'\\' :: 'u' :: (x ++ body),by simp,?_,?_,fun heq => ?_⟩
    · simp only [List.length_cons,List.length_append]
      omega
    · refine List.forall_mem_cons.mpr ⟨by decide,List.forall_mem_cons.mpr ⟨by decide,?_⟩⟩
      exact List.forall_mem_append.mpr ⟨hexCode_visible hx,hvisible⟩
    · simp only [List.length_cons,List.length_append] at heq
      omega
  | @surrogates x y _ _ _ _ _ hx _ hy _ _ ih =>
    obtain ⟨body,rfl,hlength,hvisible,-⟩ := ih
    refine ⟨'\\' :: 'u' :: (x ++ '\\' :: 'u' :: (y ++ body)),by simp,?_,?_,fun heq => ?_⟩
    · simp only [List.length_cons,List.length_append]
      omega
    · refine List.forall_mem_cons.mpr ⟨by decide,List.forall_mem_cons.mpr ⟨by decide,?_⟩⟩
      refine List.forall_mem_append.mpr ⟨hexCode_visible hx,?_⟩
      refine List.forall_mem_cons.mpr ⟨by decide,List.forall_mem_cons.mpr ⟨by decide,?_⟩⟩
      exact List.forall_mem_append.mpr ⟨hexCode_visible hy,hvisible⟩
    · simp only [List.length_cons,List.length_append] at heq
      omega

theorem append_ne {w u t r : List Char} (hw : '"' ∉ w) (hu : '\n' ∉ u) :
    w ++ '\n' :: t ≠ u ++ '"' :: r := by
  induction w generalizing u with
  | nil =>
    cases u with
    | nil => simp
    | cons c u =>
      intro h
      simp only [List.nil_append,List.cons_append,List.cons.injEq] at h
      exact hu (h.1 ▸ List.mem_cons_self)
  | cons d w ih =>
    simp only [List.mem_cons,not_or] at hw
    cases u with
    | nil =>
      intro h
      simp only [List.nil_append,List.cons_append,List.cons.injEq] at h
      exact hw.1 h.1.symm
    | cons c u =>
      intro h
      simp only [List.mem_cons,not_or] at hu
      simp only [List.cons_append,List.cons.injEq] at h
      exact ih hw.2 hu.2 h.2

/-- A text put between quotes as it is, with no other quote before the end of the line: read
as what it is, it has nothing to be escaped. -/
theorem chars_spliced {s w t r : List Char} (hw : '"' ∉ w)
    (h : Chars (s ++ '"' :: (w ++ '\n' :: t)) s r) :
    (∀ c ∈ s, isPlain c = true) ∧ r = w ++ '\n' :: t := by
  obtain ⟨body,htext,hlength,hvisible,hsame⟩ := h.body
  obtain ⟨u,rfl⟩ : s <+: body :=
    List.prefix_of_prefix_length_le ⟨_,rfl⟩ ⟨_,htext.symm⟩ hlength
  rw [List.append_assoc,List.append_cancel_left_eq] at htext
  cases u with
  | nil =>
    rw [List.nil_append,List.cons.injEq] at htext
    exact ⟨(hsame (by simp)).2,htext.2.symm⟩
  | cons c u =>
    -- The string would go on behind its quote, and so over the end of the line.
    rw [List.cons_append,List.cons.injEq] at htext
    have hline : '\n' ∉ u := by
      intro hmem
      exact absurd (hvisible '\n' (by simp [hmem])) (by decide)
    exact absurd htext.2 (append_ne hw hline)

end Quoted

section Blanks
variable {c : Char} {t : List Char}

def Blank (t : List Char) : Prop := ∀ c ∈ t, isSpace c = true

theorem blank_nil : Blank [] := fun c hc => by cases hc

theorem blank_singleton {c : Char} (h : isSpace c = true) : Blank [c] := by
  intro d hd
  rw [List.mem_singleton.mp hd]
  exact h

theorem Blank.append {sp sp' : List Char} (h : Blank sp) (h' : Blank sp') : Blank (sp ++ sp') := by
  intro c hc
  rcases List.mem_append.mp hc with hc | hc
  · exact h c hc
  · exact h' c hc

theorem skip_of_not_space (h : isSpace c = false) : skip (c :: t) = c :: t :=
  List.dropWhile_cons_of_neg (by simp [h])

theorem skip_blank {sp : List Char} (h : Blank sp) (t : List Char) : skip (sp ++ t) = skip t := by
  unfold skip
  rw [List.dropWhile_append_of_pos h]

theorem space_number (h : isSpace c = true) : isNumberChar c = false := by
  simp only [isSpace,Bool.or_eq_true,decide_eq_true_eq] at h
  rcases h with ((rfl | rfl) | rfl) | rfl <;> decide

def Ends (r : List Char) : Prop := ∀ c ∈ r.head?, isNumberChar c = false

theorem ends_cons (h : isNumberChar c = false) : Ends (c :: t) := by
  intro d hd
  cases hd
  exact h

theorem ends_blank {sp : List Char} (h : Blank sp) (ht : Ends t) : Ends (sp ++ t) := by
  cases sp with
  | nil => exact ht
  | cons d sp => exact ends_cons (space_number (h d (by simp)))

end Blanks

section Writing
variable {t k : List Char} {j : Value}

def Prints (t : List Char) (j : Value) : Prop :=
  ∀ r, Ends r → ∃ u, Reads (skip (t ++ r)) (.value j) u ∧ skip u = skip r

def PrintsMember (t k : List Char) (j : Value) : Prop :=
  ∀ r, Ends r → ∃ t' u v w, skip (t ++ r) = '"' :: t' ∧ Chars t' k u ∧ skip u = ':' :: v ∧
    Reads (skip v) (.value j) w ∧ skip w = skip r

theorem Prints.text (h : Prints t j) : Text t j := by
  obtain ⟨u,hu,hskip⟩ := h [] (by simp [Ends])
  rw [List.append_nil] at hu
  exact ⟨u,hu,hskip⟩

theorem Prints.blanks {sp sp' : List Char} (h : Prints t j) (hsp : Blank sp) (hsp' : Blank sp') :
    Prints (sp ++ t ++ sp') j := by
  intro r hr
  obtain ⟨u,hu,hskip⟩ := h (sp' ++ r) (ends_blank hsp' hr)
  refine ⟨u,?_,hskip.trans (skip_blank hsp' r)⟩
  rw [List.append_assoc,List.append_assoc,skip_blank hsp]
  exact hu

theorem chars_plain {s : List Char} (h : ∀ c ∈ s, isPlain c = true) (r : List Char) :
    Chars (s ++ '"' :: r) s r := by
  induction s with
  | nil => exact .stop
  | cons c s ih => exact .plain (h c (by simp)) (ih (fun d hd => h d (by simp [hd])))

theorem prints_string {s : List Char} (h : ∀ c ∈ s, isPlain c = true) :
    Prints ('"' :: (s ++ ['"'])) (.string s) := by
  intro r _
  refine ⟨r,?_,rfl⟩
  have hquote : isSpace '"' = false := by decide
  rw [List.cons_append,List.append_assoc,skip_of_not_space hquote]
  exact .string (chars_plain h r)

theorem prints_number {q : ℚ} (ht : ∀ c ∈ t, isNumberChar c = true) (h : readNumber t = some q) :
    Prints t (.number q) := by
  intro r hr
  have hskip : skip (t ++ r) = t ++ r := by
    cases t with
    | nil => cases h
    | cons c t =>
      refine skip_of_not_space ?_
      cases hspace : isSpace c with
      | false => rfl
      | true => exact absurd (ht c (by simp)) (by simp [space_number hspace])
  have hstop : r.takeWhile isNumberChar = [] ∧ r.dropWhile isNumberChar = r := by
    cases r with
    | nil => exact ⟨rfl,rfl⟩
    | cons c r => simp [hr c rfl]
  have htake : (t ++ r).takeWhile isNumberChar = t := by
    rw [List.takeWhile_append_of_pos ht,hstop.1,List.append_nil]
  have hdrop : (t ++ r).dropWhile isNumberChar = r := by
    rw [List.dropWhile_append_of_pos ht,hstop.2]
  have hread := Reads.number (t := t ++ r) (q := q) (by rw [htake]; exact h)
  rw [hdrop] at hread
  exact ⟨r,by rw [hskip]; exact hread,rfl⟩

theorem prints_member {sp sp' : List Char} (hsp : Blank sp) (hsp' : Blank sp')
    (hk : ∀ c ∈ k, isPlain c = true) (h : Prints t j) :
    PrintsMember (sp ++ '"' :: (k ++ '"' :: (sp' ++ ':' :: t))) k j := by
  intro r hr
  obtain ⟨w,hw,hskip⟩ := h r hr
  refine ⟨k ++ '"' :: (sp' ++ ':' :: (t ++ r)),sp' ++ ':' :: (t ++ r),t ++ r,w,?_,
    chars_plain hk _,?_,hw,hskip⟩
  · rw [List.append_assoc,skip_blank hsp]
    have hquote : isSpace '"' = false := by decide
    simp [skip_of_not_space hquote]
  · rw [skip_blank hsp',skip_of_not_space (by decide)]

variable {sp sp' : List Char}

theorem reads_elements (hsp : Blank sp) (hsp' : Blank sp') {items : List (List Char × Value)}
    (hne : items ≠ []) (hitems : ∀ item ∈ items, Prints item.1 item.2) {r r' : List Char}
    (hr : Ends r) (hclose : skip r = ']' :: r') :
    Reads (skip ((sp ++ ',' :: sp').intercalate (items.map Prod.fst) ++ r))
      (.elements (items.map Prod.snd)) r' := by
  induction items with
  | nil => contradiction
  | cons item items ih =>
    have hitem := hitems item (by simp)
    cases items with
    | nil =>
      obtain ⟨u,hu,hskip⟩ := hitem r hr
      simpa using Reads.lastElement hu (hskip.trans hclose)
    | cons item' items =>
      have hrest := ih (by simp) (fun i hi => hitems i (by simp [hi]))
      have hends : Ends (sp ++ ',' :: (sp' ++
          ((sp ++ ',' :: sp').intercalate ((item' :: items).map Prod.fst) ++ r))) :=
        ends_blank hsp (ends_cons (by decide))
      obtain ⟨u,hu,hskip⟩ := hitem _ hends
      have hcomma : isSpace ',' = false := by decide
      rw [skip_blank hsp,skip_of_not_space hcomma] at hskip
      have hread := Reads.element hu hskip (by rw [skip_blank hsp']; exact hrest)
      simpa [List.intercalate_cons_cons,List.append_assoc] using hread

theorem reads_members (hsp : Blank sp) (hsp' : Blank sp')
    {items : List (List Char × List Char × Value)} (hne : items ≠ [])
    (hitems : ∀ item ∈ items, PrintsMember item.1 item.2.1 item.2.2) {r r' : List Char}
    (hr : Ends r) (hclose : skip r = '}' :: r') :
    Reads (skip ((sp ++ ',' :: sp').intercalate (items.map Prod.fst) ++ r))
      (.members (items.map Prod.snd)) r' := by
  induction items with
  | nil => contradiction
  | cons item items ih =>
    have hitem := hitems item (by simp)
    cases items with
    | nil =>
      obtain ⟨t',u,v,w,ht,hk,hu,hv,hskip⟩ := hitem r hr
      have hread := Reads.lastMember hk hu hv (hskip.trans hclose)
      rw [← ht] at hread
      simpa using hread
    | cons item' items =>
      have hrest := ih (by simp) (fun i hi => hitems i (by simp [hi]))
      have hends : Ends (sp ++ ',' :: (sp' ++
          ((sp ++ ',' :: sp').intercalate ((item' :: items).map Prod.fst) ++ r))) :=
        ends_blank hsp (ends_cons (by decide))
      obtain ⟨t',u,v,w,ht,hk,hu,hv,hskip⟩ := hitem _ hends
      have hcomma : isSpace ',' = false := by decide
      rw [skip_blank hsp,skip_of_not_space hcomma] at hskip
      have hread := Reads.member hk hu hv hskip (by rw [skip_blank hsp']; exact hrest)
      rw [← ht] at hread
      simpa [List.intercalate_cons_cons,List.append_assoc] using hread

theorem prints_array (hsp : Blank sp) (hsp' : Blank sp') {items : List (List Char × Value)}
    (hitems : ∀ item ∈ items, Prints item.1 item.2) {close : List Char} (hclose : Blank close) :
    Prints ('[' :: ((sp ++ ',' :: sp').intercalate (items.map Prod.fst) ++ (close ++ [']'])))
      (.array (items.map Prod.snd)) := by
  intro r _
  have hopen : isSpace '[' = false := by decide
  have hend : skip (close ++ ']' :: r) = ']' :: r := by
    rw [skip_blank hclose,skip_of_not_space (by decide)]
  refine ⟨r,?_,rfl⟩
  rw [List.cons_append,skip_of_not_space hopen]
  by_cases hne : items = []
  · subst hne
    exact .emptyArray (by simpa using hend)
  · have helements := reads_elements hsp hsp' hne hitems
      (ends_blank hclose (ends_cons (by decide))) hend
    exact .array (by simpa using helements)

theorem prints_object (hsp : Blank sp) (hsp' : Blank sp')
    {items : List (List Char × List Char × Value)}
    (hitems : ∀ item ∈ items, PrintsMember item.1 item.2.1 item.2.2) {first close : List Char}
    (hfirst : Blank first) (hclose : Blank close) :
    Prints ('{' :: (first ++ ((sp ++ ',' :: sp').intercalate (items.map Prod.fst) ++
      (close ++ ['}'])))) (.object (items.map Prod.snd)) := by
  intro r _
  have hopen : isSpace '{' = false := by decide
  have hend : skip (close ++ '}' :: r) = '}' :: r := by
    rw [skip_blank hclose,skip_of_not_space (by decide)]
  refine ⟨r,?_,rfl⟩
  rw [List.cons_append,skip_of_not_space hopen]
  by_cases hne : items = []
  · subst hne
    exact .emptyObject (by rw [List.append_assoc,skip_blank hfirst]; simpa using hend)
  · have hmembers := reads_members hsp hsp' hne hitems
      (ends_blank hclose (ends_cons (by decide))) hend
    refine .object ?_
    rw [List.append_assoc,skip_blank hfirst]
    simpa using hmembers

end Writing

end Json
