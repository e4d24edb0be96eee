import Mathlib.Data.List.Find
import Mathlib.Data.List.MinMax

/-!
The item with the largest key, found in two ways: by a walk over the items, and by a search
for one key after the other, downwards.
-/

set_option autoImplicit false

namespace Latest

variable {α β : Type} (f : α → Int)

/-- The item with the largest key, the first in the list among equals. -/
def latest (l : List α) : Option α :=
  @List.argmax α Int Int.instLinearOrder.toPreorder Int.decLt f l

@[simp] theorem latest_nil : latest f [] = none := rfl

theorem latest_concat (a : α) (l : List α) :
    latest f (l ++ [a]) =
      match latest f l with
      | none => some a
      | some c => if f c < f a then some a else some c := by
  unfold latest
  rw [List.argmax_concat]
  cases @List.argmax α Int Int.instLinearOrder.toPreorder Int.decLt f l <;> rfl

theorem latest_mem {l : List α} {a : α} (h : latest f l = some a) : a ∈ l := List.argmax_mem h

theorem latest_eq_none {l : List α} : latest f l = none ↔ l = [] := List.argmax_eq_none

def between (lo hi : Int) (l : List α) : List α := l.filter (fun a => lo < f a ∧ f a < hi)

theorem mem_between {lo hi : Int} {l : List α} {a : α} :
    a ∈ between f lo hi l ↔ a ∈ l ∧ lo < f a ∧ f a < hi := by
  simp [between]

theorem between_concat (lo hi : Int) (l : List α) (a : α) :
    between f lo hi (l ++ [a]) =
      if lo < f a ∧ f a < hi then between f lo hi l ++ [a] else between f lo hi l := by
  unfold between
  split <;> simp_all

theorem between_congr {lo hi lo' hi' : Int} {l : List α}
    (h : ∀ a ∈ l, (lo < f a ∧ f a < hi) ↔ (lo' < f a ∧ f a < hi')) :
    between f lo hi l = between f lo' hi' l := by
  apply List.filter_congr
  intro a ha
  simp [h a ha]

theorem foldl_latest (g : α → β) (init : β) (lo hi : Int) (l : List α) :
    l.foldl (fun s a => if s.2 < f a ∧ f a < hi then (g a,f a) else s) (init,lo) =
      match latest f (between f lo hi l) with
      | some a => (g a,f a)
      | none => (init,lo) := by
  induction l using List.reverseRecOn with
  | nil => rfl
  | append_singleton l a ih =>
    rw [List.foldl_append,ih,between_concat]
    cases hbest : latest f (between f lo hi l) with
    | none =>
      by_cases ha : lo < f a ∧ f a < hi
      · simp [ha,latest_concat,hbest]
      · simp [ha,hbest]
    | some b =>
      have hb := (mem_between f).mp (latest_mem f hbest)
      by_cases ha : lo < f a ∧ f a < hi
      · by_cases hlt : f b < f a
        · simp [ha,latest_concat,hbest,hlt]
        · simp [ha,latest_concat,hbest,hlt]
      · have hno : ¬ (f b < f a ∧ f a < hi) := by omega
        simp [ha,hno,hbest]

theorem latest_of_find {l : List α} (hi : Int) (hle : ∀ a ∈ l, f a ≤ hi) {e : α}
    (h : l.find? (fun a => f a = hi) = some e) : latest f l = some e := by
  induction l using List.reverseRecOn with
  | nil => simp at h
  | append_singleton l a ih =>
    have hle' : ∀ b ∈ l, f b ≤ hi := fun b hb => hle b (by simp [hb])
    rw [List.find?_append] at h
    rw [latest_concat]
    cases hl : l.find? (fun a => f a = hi) with
    | some b =>
      rw [hl] at h
      simp only [Option.some_or,Option.some.injEq] at h
      subst h
      have hb : f b = hi := by simpa using List.find?_some hl
      have ha := hle a (by simp)
      have hno : ¬ f b < f a := by omega
      simp [ih hle' hl,hno]
    | none =>
      rw [hl] at h
      obtain ⟨ha,rfl⟩ : f a = hi ∧ a = e := by simpa using h
      cases hbest : latest f l with
      | none => rfl
      | some b =>
        have hb := latest_mem f hbest
        have hne : f b ≠ hi := by simpa using List.find?_eq_none.mp hl b hb
        have hlt : f b < f a := by
          have := hle' b hb
          omega
        simp [hlt]

theorem findSome_descending (l : List α) (n : Nat) (hi : Int) :
    (List.range n).findSome? (fun (k : Nat) => l.find? (fun a => f a = hi - k)) =
      latest f (between f (hi-n) (hi+1) l) := by
  induction n generalizing hi with
  | zero =>
    have hnone : between f (hi-(0:Nat)) (hi+1) l = [] := by
      apply List.filter_eq_nil_iff.mpr
      intro a _
      simp only [decide_eq_true_eq]
      omega
    rw [hnone]
    rfl
  | succ n ih =>
    rw [List.range_succ_eq_map,List.findSome?_cons]
    have hzero : hi - ((0:Nat):Int) = hi := by simp
    rw [hzero]
    cases hfind : l.find? (fun a => f a = hi) with
    | some e =>
      symm
      apply latest_of_find f hi
      · intro a ha
        have := ((mem_between f).mp ha).2
        omega
      · rw [between,List.find?_filter,← hfind]
        apply List.find?_congr
        intro a _
        rw [Bool.eq_iff_iff]
        simp only [decide_eq_true_eq]
        push_cast
        omega
    | none =>
      have hne : ∀ a ∈ l, f a ≠ hi := by simpa using hfind
      simp only [List.findSome?_map]
      have hshift : (fun (k : Nat) => l.find? (fun a => f a = hi - ((k+1 : Nat) : Int))) =
          (fun (k : Nat) => l.find? (fun a => f a = (hi-1) - (k : Int))) := by
        funext k
        congr 2
        funext a
        congr 1
        simp only [eq_iff_iff]
        omega
      have hcomp : ((fun (k : Nat) => l.find? (fun a => f a = hi - (k : Int))) ∘ Nat.succ) =
          (fun (k : Nat) => l.find? (fun a => f a = hi - ((k+1 : Nat) : Int))) := rfl
      rw [hcomp,hshift,ih (hi-1)]
      congr 1
      apply between_congr
      intro a ha
      have := hne a ha
      push_cast
      omega

theorem latest_single (l : List α) (k : Int) :
    latest f (between f (k-1) (k+1) l) = l.find? (fun a => f a = k) := by
  have h := findSome_descending f l 1 k
  have hzero : k - ((0 : Nat) : Int) = k := by omega
  rw [List.range_one,List.findSome?_singleton,hzero] at h
  exact h.symm

theorem latest_split (l : List α) (lo mid hi : Int) (h₁ : lo ≤ mid) (h₂ : mid < hi) :
    latest f (between f lo hi l) =
      (latest f (between f mid hi l)).or (latest f (between f lo (mid+1) l)) := by
  obtain ⟨a,ha⟩ := Int.eq_ofNat_of_zero_le (a := hi-1-mid) (by omega)
  obtain ⟨b,hb⟩ := Int.eq_ofNat_of_zero_le (a := mid-lo) (by omega)
  have htop := findSome_descending f l a (hi-1)
  have hlow := findSome_descending f l b mid
  have hall := findSome_descending f l (a+b) (hi-1)
  have e₁ : hi-1-(a : Int) = mid := by omega
  have e₂ : mid-(b : Int) = lo := by omega
  have e₃ : hi-1-((a+b : Nat) : Int) = lo := by
    push_cast
    omega
  have e₄ : hi-1+1 = hi := by omega
  rw [e₁,e₄] at htop
  rw [e₂] at hlow
  rw [e₃,e₄,List.range_add,List.findSome?_append,htop,List.findSome?_map] at hall
  have hshift : ((fun (k : Nat) => l.find? (fun x => f x = hi-1 - (k : Int))) ∘
      (fun k => a+k)) = (fun (k : Nat) => l.find? (fun x => f x = mid - (k : Int))) := by
    funext k
    have hk : hi-1 - ((a+k : Nat) : Int) = mid - (k : Int) := by
      push_cast
      omega
    simp only [Function.comp_apply,hk]
  rw [hshift,hlow] at hall
  exact hall.symm

end Latest
