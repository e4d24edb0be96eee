import Mathlib.Data.Set.Lattice
import Mathlib.Order.CompletePartialOrder

/-!
Operations on a store that read and write only certain places of it. Operations whose
footprints are disjoint commute.
-/

set_option autoImplicit false

namespace Footprint

variable {δ β : Type}

abbrev Operation (δ β : Type) := (δ → β) → Option (δ → β)

/-- The operation writes only places of `W`, and what it does there, and whether it returns,
depends only on the places of `R` and `W`. -/
structure Local (R W : Set δ) (f : Operation δ β) : Prop where
  frame : ∀ s t, f s = some t → ∀ d, d ∉ W → t d = s d
  reads : ∀ s s' t, Set.EqOn s s' (R ∪ W) → f s = some t →
    ∃ t', f s' = some t' ∧ Set.EqOn t t' W

section Rules
variable {R W : Set δ} {f g : Operation δ β}

theorem Local.agree (hf : Local R W f) {s s' t t' : δ → β} (h : Set.EqOn s s' (R ∪ W))
    (ht : f s = some t) (ht' : f s' = some t') (heq : Set.EqOn t t' W) :
    Set.EqOn t t' (R ∪ W) := by
  intro d hd
  by_cases hW : d ∈ W
  · exact heq hW
  · rw [hf.frame s t ht d hW,hf.frame s' t' ht' d hW]
    exact h hd

theorem Local.pure : Local R W (fun s : δ → β => some s) := by
  refine ⟨fun s t h d _ => ?_,fun s s' t heq h => ?_⟩
  · cases h
    rfl
  · cases h
    exact ⟨s',rfl,heq.mono Set.subset_union_right⟩

theorem Local.bind (hf : Local R W f) (hg : Local R W g) :
    Local R W (fun s => (f s).bind g) := by
  refine ⟨fun s u h d hd => ?_,fun s s' u heq h => ?_⟩
  · obtain ⟨t,ht,hu⟩ := Option.bind_eq_some_iff.mp h
    rw [hg.frame t u hu d hd,hf.frame s t ht d hd]
  · obtain ⟨t,ht,hu⟩ := Option.bind_eq_some_iff.mp h
    obtain ⟨t',ht',htt'⟩ := hf.reads s s' t heq ht
    obtain ⟨u',hu',huu'⟩ := hg.reads t t' u (hf.agree heq ht ht' htt') hu
    exact ⟨u',Option.bind_eq_some_iff.mpr ⟨t',ht',hu'⟩,huu'⟩

theorem Local.foldlM {α : Type} {f : (δ → β) → α → Option (δ → β)} (l : List α)
    (h : ∀ a ∈ l, Local R W (fun s => f s a)) : Local R W (fun s => l.foldlM f s) := by
  induction l with
  | nil => exact Local.pure
  | cons a l ih => exact (h a (by simp)).bind (ih (fun b hb => h b (by simp [hb])))

theorem Local.ite {c : (δ → β) → Bool} (hc : ∀ s s', Set.EqOn s s' (R ∪ W) → c s = c s')
    (hf : Local R W f) (hg : Local R W g) :
    Local R W (fun s => if c s then f s else g s) := by
  refine ⟨fun s t h d hd => ?_,fun s s' t heq h => ?_⟩
  · by_cases hs : c s = true
    · exact hf.frame s t (by simpa [hs] using h) d hd
    · exact hg.frame s t (by simpa [hs] using h) d hd
  · simp only [← hc s s' heq]
    by_cases hs : c s = true
    · simpa [hs] using hf.reads s s' t heq (by simpa [hs] using h)
    · simpa [hs] using hg.reads s s' t heq (by simpa [hs] using h)

/-- An operation that first reads a place of its footprint. -/
theorem Local.read {f : β → Operation δ β} {d : δ} (hd : d ∈ R ∪ W)
    (hf : ∀ v, Local R W (f v)) : Local R W (fun s => f (s d) s) := by
  refine ⟨fun s => (hf (s d)).frame s,fun s s' t heq h => ?_⟩
  have hsame : s' d = s d := (heq hd).symm
  simp only [hsame]
  exact (hf (s d)).reads s s' t heq h

theorem Local.update [DecidableEq δ] {d : δ} (hd : d ∈ W) (v : β) :
    Local R W (fun s => some (Function.update s d v)) := by
  refine ⟨fun s t h d' hd' => ?_,fun s s' t heq h => ?_⟩
  · cases h
    have hne : d' ≠ d := by
      rintro rfl
      exact hd' hd
    exact Function.update_of_ne hne _ _
  · cases h
    refine ⟨_,rfl,fun d' hd' => ?_⟩
    by_cases hsame : d' = d
    · subst hsame
      simp
    · simp only [Function.update_of_ne hsame]
      exact heq (.inr hd')

end Rules

section Commute
variable {R₁ W₁ R₂ W₂ : Set δ} {f g : Operation δ β}

theorem Local.comm_some (hf : Local R₁ W₁ f) (hg : Local R₂ W₂ g)
    (h₁ : Disjoint W₁ (R₂ ∪ W₂)) (h₂ : Disjoint W₂ (R₁ ∪ W₁)) {s u : δ → β}
    (h : (f s).bind g = some u) : (g s).bind f = some u := by
  obtain ⟨t₁,ht₁,hu⟩ := Option.bind_eq_some_iff.mp h
  have hsame₁ : Set.EqOn t₁ s (R₂ ∪ W₂) := fun d hd =>
    hf.frame s t₁ ht₁ d (fun hW => Set.disjoint_left.mp h₁ hW hd)
  obtain ⟨t₂,ht₂,heq₂⟩ := hg.reads t₁ s u hsame₁ hu
  have hsame₂ : Set.EqOn s t₂ (R₁ ∪ W₁) := fun d hd =>
    (hg.frame s t₂ ht₂ d (fun hW => Set.disjoint_left.mp h₂ hW hd)).symm
  obtain ⟨u',hu',heq₁⟩ := hf.reads s t₂ t₁ hsame₂ ht₁
  -- Both orders write the places of `f` as `f` does and those of `g` as `g` does.
  have hfinal : u' = u := by
    funext d
    by_cases hd₁ : d ∈ W₁
    · have hd₂ : d ∉ W₂ := fun hW => Set.disjoint_left.mp h₁ hd₁ (.inr hW)
      rw [← heq₁ hd₁,hg.frame t₁ u hu d hd₂]
    · rw [hf.frame t₂ u' hu' d hd₁]
      by_cases hd₂ : d ∈ W₂
      · exact (heq₂ hd₂).symm
      · rw [hg.frame s t₂ ht₂ d hd₂,hg.frame t₁ u hu d hd₂,hf.frame s t₁ ht₁ d hd₁]
  exact Option.bind_eq_some_iff.mpr ⟨t₂,ht₂,hu'.trans (congrArg some hfinal)⟩

/-- Operations with disjoint footprints can be exchanged. -/
theorem Local.comm (hf : Local R₁ W₁ f) (hg : Local R₂ W₂ g)
    (h₁ : Disjoint W₁ (R₂ ∪ W₂)) (h₂ : Disjoint W₂ (R₁ ∪ W₁)) (s : δ → β) :
    (f s).bind g = (g s).bind f := by
  apply Option.ext
  intro u
  exact ⟨hf.comm_some hg h₁ h₂,hg.comm_some hf h₂ h₁⟩

end Commute

end Footprint
