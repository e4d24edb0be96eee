import Mathlib.Logic.Function.Basic

/-!
Things that are handed out under names of their own and given back: records on a heap, timers of
an event loop. A name is not used again.
-/

set_option autoImplicit false

/-- `get` tells what is live under a name; the names from `next` on have not been handed out. -/
structure Slots (κ : Type) where
  next : Nat
  get : Nat → Option κ
  fresh : ∀ i, next ≤ i → get i = none

namespace Slots

variable {κ : Type}

def empty : Slots κ := ⟨0,fun _ => none,fun _ _ => rfl⟩

def alloc (s : Slots κ) (k : κ) : Nat × Slots κ :=
  (s.next,⟨s.next+1,Function.update s.get s.next (some k),fun i hi => by
    rw [Function.update_of_ne (by omega)]
    exact s.fresh i (by omega)⟩)

def put (s : Slots κ) (i : Nat) (k : κ) : Slots κ :=
  ⟨s.next,fun j => if j = i then (s.get i).map (fun _ => k) else s.get j,fun j hj => by
    split
    · rename_i heq
      rw [s.fresh i (heq ▸ hj)]
      rfl
    · exact s.fresh j hj⟩

def erase (s : Slots κ) (i : Nat) : Slots κ :=
  ⟨s.next,Function.update s.get i none,fun j hj => by
    by_cases hji : j = i
    · rw [hji,Function.update_self]
    · rw [Function.update_of_ne hji,s.fresh j hj]⟩

def without (s : Slots κ) : Option Nat → Slots κ
  | some i => s.erase i
  | none => s

def free (s : Slots κ) (i : Nat) : Option (Slots κ) :=
  match s.get i with
  | some _ => some (s.erase i)
  | none => none

section Laws
variable {s : Slots κ} {i j : Nat} {k : κ}

theorem lt_of_get (h : s.get i = some k) : i < s.next := by
  by_contra hle
  rw [s.fresh i (by omega)] at h
  cases h

theorem alloc_get : (s.alloc k).2.get j = if j = s.next then some k else s.get j := by
  simp only [alloc,Function.update_apply]

@[simp] theorem alloc_get_self : (s.alloc k).2.get s.next = some k := by simp [alloc_get]

theorem put_get : (s.put i k).get j = if j = i then (s.get i).map (fun _ => k) else s.get j := rfl

theorem erase_get : (s.erase i).get j = if j = i then none else s.get j := by
  simp only [erase,Function.update_apply]

theorem erase_alloc (h : i ≠ s.next) : (s.alloc k).2.erase i = ((s.erase i).alloc k).2 := by
  simp only [alloc,erase,Slots.mk.injEq,true_and]
  exact Function.update_comm h.symm _ _ _

theorem free_live (h : s.get i = some k) : s.free i = some (s.erase i) := by
  simp [free,h]

end Laws

end Slots
