import Mathlib.Data.List.Chain

/-!
A two-valued signal that is looked at from time to time, and marks for its changes.
-/

set_option autoImplicit false

namespace Edges

variable {α β : Type}

def edge (up down : β) (before after : Bool) : Option β :=
  if before = after then none else if after then some up else some down

section Marks
variable (level : α → Bool) (mark : α → Option β) (up down : β)

/-- Between `s` and `s'` the signal is looked at in the points of a list, and each point is
marked with the change that led to it. -/
def Marked (s : Bool) : List α → Bool → Prop
  | [], s' => s' = s
  | a :: l, s' => mark a = edge up down s (level a) ∧ Marked (level a) l s'

variable {level mark up down}

theorem marked_append {s s'' : Bool} {l l' : List α} :
    Marked level mark up down s (l ++ l') s'' ↔
      ∃ s', Marked level mark up down s l s' ∧ Marked level mark up down s' l' s'' := by
  induction l generalizing s with
  | nil => simp [Marked]
  | cons a l ih => simp [Marked,ih,and_assoc]

/-- The points determine the signal behind them. -/
theorem Marked.unique {s s₁ s₂ : Bool} {l : List α} (h₁ : Marked level mark up down s l s₁)
    (h₂ : Marked level mark up down s l s₂) : s₁ = s₂ := by
  induction l generalizing s with
  | nil => exact h₁.trans h₂.symm
  | cons a l ih => exact ih h₁.2 h₂.2

theorem marked_same {s s' : Bool} {a : α} {l : List α} (hlevel : level a = s)
    (hmark : mark a = none) :
    Marked level mark up down s (a :: l) s' ↔ Marked level mark up down s l s' := by
  simp [Marked,edge,hlevel,hmark]

theorem edge_none {s : Bool} : edge up down s s = none := by simp [edge]

theorem Marked.alternate (hne : up ≠ down) {s s' : Bool} {l : List α}
    (h : Marked level mark up down s l s') :
    List.IsChain (fun x y => x ≠ y) ((if s then up else down) :: l.filterMap mark) := by
  induction l generalizing s with
  | nil => simp
  | cons a l ih =>
    obtain ⟨hmark,hrest⟩ := h
    have hchain := ih hrest
    by_cases hlevel : level a = s
    · rw [hlevel] at hmark hchain
      rw [List.filterMap_cons_none (hmark.trans edge_none)]
      exact hchain
    · have hsome : mark a = some (if level a then up else down) := by
        rw [hmark,edge,if_neg (Ne.symm hlevel)]
        split <;> rfl
      rw [List.filterMap_cons_some hsome]
      refine List.isChain_cons_cons.mpr ⟨?_,hchain⟩
      cases s <;> cases hl : level a <;> simp_all [Ne.symm hne]

end Marks

end Edges
