import Mathlib.Data.List.Basic

/-!
Updates of a list, each at one position.
-/

set_option autoImplicit false

namespace Scatter

variable {α κ : Type}

theorem scatter_get (position : κ → Nat) (f : κ → α → α) (ks : List κ) (l : List α) (j : Nat) :
    (ks.foldl (fun l k => l.modify (position k) (f k)) l)[j]? =
      l[j]?.map (fun a => (ks.filter (fun k => position k = j)).foldl (fun a k => f k a) a) := by
  induction ks generalizing l with
  | nil => simp
  | cons k ks ih =>
    rw [List.foldl_cons,ih,List.getElem?_modify]
    by_cases hk : position k = j
    · simp [hk,Option.map_map,Function.comp_def]
    · simp [hk]

theorem scatter_length (position : κ → Nat) (f : κ → α → α) (ks : List κ) (l : List α) :
    (ks.foldl (fun l k => l.modify (position k) (f k)) l).length = l.length := by
  induction ks generalizing l with
  | nil => rfl
  | cons k ks ih => rw [List.foldl_cons,ih,List.length_modify]

end Scatter
