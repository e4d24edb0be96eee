import DomoticaEngine.Library.Runs
import Mathlib.Logic.Function.Iterate

/-!
A source of items, and a loop that takes them until there are none.
-/

set_option autoImplicit false

namespace Drain

variable {ρ φ σ : Type}

structure Lawful (take : ρ → Option φ × ρ) (items : ρ → List φ) : Prop where
  first : ∀ r, (take r).1 = (items r).head?
  rest : ∀ r, items (take r).2 = (items r).tail

def emptied (take : ρ → Option φ × ρ) (items : ρ → List φ) (r : ρ) : ρ :=
  (fun r => (take r).2)^[(items r).length+1] r

def drain (take : ρ → Option φ × ρ) (handle : φ → σ → Option σ) : Nat → ρ → σ → Option (ρ × σ)
  | 0, _, _ => none
  | fuel+1, r, s =>
    match take r with
    | (none,r) => some (r,s)
    | (some a,r) => do
      let s ← handle a s
      drain take handle fuel r s

variable {take : ρ → Option φ × ρ} {items : ρ → List φ} {handle : φ → σ → Option σ}

theorem Lawful.take_nil (h : Lawful take items) {r : ρ} (hr : items r = []) :
    take r = (none,emptied take items r) := by
  have hfirst := h.first r
  rw [hr] at hfirst
  unfold emptied
  rw [hr]
  exact Prod.ext hfirst rfl

theorem Lawful.take_cons (h : Lawful take items) {r : ρ} {a : φ} {l : List φ}
    (hr : items r = a :: l) : ∃ r', take r = (some a,r') ∧ items r' = l ∧
      emptied take items r' = emptied take items r := by
  have hfirst := h.first r
  have hrest := h.rest r
  rw [hr] at hfirst hrest
  refine ⟨(take r).2,Prod.ext hfirst rfl,hrest,?_⟩
  unfold emptied
  rw [hrest,hr]
  rfl

theorem Lawful.emptied_items (h : Lawful take items) (r : ρ) :
    items (emptied take items r) = [] := by
  induction hr : items r generalizing r with
  | nil =>
    have hrest := h.rest r
    rw [h.take_nil hr,hr] at hrest
    exact hrest
  | cons a l ih =>
    obtain ⟨r',-,hl,hemptied⟩ := h.take_cons hr
    rw [← hemptied]
    exact ih r' hl

theorem Lawful.drain_eq (h : Lawful take items) {fuel : Nat} {r : ρ}
    (hfuel : (items r).length < fuel) (s : σ) :
    drain take handle fuel r s =
      (Runs.after handle (items r) s).map (fun s => (emptied take items r,s)) := by
  induction fuel generalizing r s with
  | zero => exact absurd hfuel (Nat.not_lt_zero _)
  | succ fuel ih =>
    cases hr : items r with
    | nil =>
      rw [drain,h.take_nil hr]
      rfl
    | cons a l =>
      obtain ⟨r',htake,hl,hemptied⟩ := h.take_cons hr
      rw [hr,List.length_cons,← hl] at hfuel
      simp only [drain,htake,Runs.after,List.foldlM_cons,Option.bind_eq_bind]
      cases handle a s with
      | none => rfl
      | some s =>
        have hdrain := ih (Nat.lt_of_succ_lt_succ hfuel) s
        rw [hl,hemptied] at hdrain
        exact hdrain

theorem Lawful.drain_some (h : Lawful take items) {fuel : Nat} {r r' : ρ} {s s' : σ}
    (hdrain : drain take handle fuel r s = some (r',s')) :
    r' = emptied take items r ∧ Runs.after handle (items r) s = some s' := by
  induction fuel generalizing r s with
  | zero => cases hdrain
  | succ fuel ih =>
    cases hr : items r with
    | nil =>
      rw [drain,h.take_nil hr] at hdrain
      cases hdrain
      exact ⟨rfl,rfl⟩
    | cons a l =>
      obtain ⟨r₁,htake,hl,hemptied⟩ := h.take_cons hr
      simp only [drain,htake,Option.bind_eq_bind,Option.bind_eq_some_iff] at hdrain
      obtain ⟨s₁,hhandle,hdrain⟩ := hdrain
      obtain ⟨hend,hrest⟩ := ih hdrain
      rw [hemptied] at hend
      rw [hl] at hrest
      exact ⟨hend,Runs.after_cons.mpr ⟨s₁,hhandle,hrest⟩⟩

theorem drain_keeps {R : σ → σ → Prop} (hrefl : ∀ s, R s s)
    (htrans : ∀ s t u, R s t → R t u → R s u) (hhandle : ∀ a s s', handle a s = some s' → R s s')
    {fuel : Nat} {r r' : ρ} {s s' : σ} (hdrain : drain take handle fuel r s = some (r',s')) :
    R s s' := by
  induction fuel generalizing r s with
  | zero => cases hdrain
  | succ fuel ih =>
    rw [drain] at hdrain
    split at hdrain
    · cases hdrain
      exact hrefl _
    · obtain ⟨s₁,hfirst,hrest⟩ := Option.bind_eq_some_iff.mp hdrain
      exact htrans s s₁ s' (hhandle _ s s₁ hfirst) (ih hrest)

end Drain
