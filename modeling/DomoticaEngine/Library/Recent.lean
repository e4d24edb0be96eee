import Mathlib.Algebra.GroupWithZero.Nat
import Mathlib.Data.List.Basic

/-!
A fixed array that is shifted by each insertion, and a counter that stops when it is full.
-/

set_option autoImplicit false

namespace Recent

variable {α : Type} {n : Nat}

/-- Of the `n` cells the first `count` hold something that was inserted. -/
structure Shifted (α : Type) (n : Nat) where
  cells : List α
  count : Nat
  full : cells.length = n
  counted : count ≤ n
  deriving DecidableEq

def Shifted.blank (n : Nat) (a : α) : Shifted α n :=
  { cells := List.replicate n a, count := 0, full := List.length_replicate,
    counted := Nat.zero_le n }

def Shifted.insert [NeZero n] (a : α) (s : Shifted α n) : Shifted α n :=
  { cells := a :: s.cells.take (n-1),
    count := if s.count < n then s.count+1 else s.count,
    full := by
      have hpos := Nat.pos_of_neZero n
      rw [List.length_cons,List.length_take,s.full]
      omega,
    counted := by
      have hcounted := s.counted
      split <;> omega }

def Shifted.contents (s : Shifted α n) : List α := s.cells.take s.count

@[simp] theorem contents_blank (a : α) : (Shifted.blank n a).contents = [] := rfl

theorem contents_length (s : Shifted α n) : s.contents.length = s.count := by
  rw [Shifted.contents,List.length_take,s.full,Nat.min_eq_left s.counted]

theorem contents_insert [NeZero n] (a : α) (s : Shifted α n) :
    (s.insert a).contents = (a :: s.contents).take n := by
  have hpos := Nat.pos_of_neZero n
  obtain ⟨m,rfl⟩ : ∃ m, n = m+1 := ⟨n-1,by omega⟩
  have hcounted := s.counted
  unfold Shifted.contents Shifted.insert
  by_cases hroom : s.count < m+1
  · have hcount : s.count ≤ m := by omega
    simp [hroom,List.take_take,hcount]
  · have hfull : s.count = m+1 := by omega
    simp [hfull,List.take_take]

theorem contents_inserts [NeZero n] (l : List α) (s : Shifted α n) :
    (l.foldl (fun s a => s.insert a) s).contents = (l.reverse ++ s.contents).take n := by
  induction l generalizing s with
  | nil =>
    have hlength := contents_length s
    have hcounted := s.counted
    rw [List.foldl_nil,List.reverse_nil,List.nil_append,List.take_of_length_le (by omega)]
  | cons a l ih =>
    rw [List.foldl_cons,ih,contents_insert,List.reverse_cons,List.append_assoc]
    rw [List.take_append,List.take_append,List.take_take,List.singleton_append]
    simp

theorem count_inserts [NeZero n] (l : List α) (s : Shifted α n) :
    (l.foldl (fun s a => s.insert a) s).count = min (l.length+s.count) n := by
  rw [← contents_length,contents_inserts,List.length_take,List.length_append,List.length_reverse,
    contents_length,Nat.min_comm]

theorem newest_iff {k : Nat} (hk : 0 < k) {l l' : List α} (hlength : l.length = l'.length) :
    (∀ m, (l.take m).reverse.take k = (l'.take m).reverse.take k) ↔ l = l' := by
  constructor
  · intro h
    have hget : ∀ (l : List α) (i : Nat), i < l.length →
        ((l.take (i+1)).reverse.take k).head? = l[i]? := by
      intro l i hi
      rw [List.head?_take,if_neg (by omega),List.head?_reverse,List.getLast?_take]
      simp [List.getElem?_eq_getElem hi]
    refine List.ext_getElem? (fun i => ?_)
    by_cases hi : i < l.length
    · rw [← hget l i hi,← hget l' i (hlength ▸ hi),h]
    · rw [List.getElem?_eq_none (Nat.le_of_not_lt hi),
        List.getElem?_eq_none (hlength ▸ Nat.le_of_not_lt hi)]
  · intro h m
    rw [h]

end Recent
