import Mathlib.Data.Set.Card
import Mathlib.Logic.Relation

/-!
Recursive state transformers given by one unfolding of their body.

A body `F` says what a call does when the calls it makes itself are answered by
`self`. Running it with fuel `n` allows `n` nested calls; a call returns when
some amount of fuel is enough for it.
-/

set_option autoImplicit false

namespace Fuel

variable {ε σ : Type}

abbrev Call (ε σ : Type) := ε → σ → Option σ

abbrev Body (ε σ : Type) := Call ε σ → Call ε σ

def run (F : Body ε σ) : Nat → Call ε σ
  | 0 => fun _ _ => none
  | n+1 => F (run F n)

def Le (f g : Call ε σ) : Prop := ∀ e s s', f e s = some s' → g e s = some s'

theorem Le.refl (f : Call ε σ) : Le f f := fun _ _ _ h => h

theorem Le.trans {f g h : Call ε σ} (hfg : Le f g) (hgh : Le g h) : Le f h :=
  fun e s s' hs => hgh e s s' (hfg e s s' hs)

def Monotone (F : Body ε σ) : Prop := ∀ f g, Le f g → Le (F f) (F g)

def Returns (F : Body ε σ) (e : ε) (s s' : σ) : Prop := ∃ n, run F n e s = some s'

theorem run_le_succ {F : Body ε σ} (hF : Monotone F) (n : Nat) :
    Le (run F n) (run F (n+1)) := by
  induction n with
  | zero =>
    intro e s s' h
    simp [run] at h
  | succ n ih => exact hF _ _ ih

theorem run_mono {F : Body ε σ} (hF : Monotone F) {m n : Nat} (h : m ≤ n) :
    Le (run F m) (run F n) := by
  induction h with
  | refl => exact Le.refl _
  | step _ ih => exact Le.trans ih (run_le_succ hF _)

theorem Returns.unique {F : Body ε σ} (hF : Monotone F) {e : ε} {s s₁ s₂ : σ}
    (h₁ : Returns F e s s₁) (h₂ : Returns F e s s₂) : s₁ = s₂ := by
  obtain ⟨n₁,h₁⟩ := h₁
  obtain ⟨n₂,h₂⟩ := h₂
  have h₁' := run_mono hF (Nat.le_max_left n₁ n₂) e s s₁ h₁
  have h₂' := run_mono hF (Nat.le_max_right n₁ n₂) e s s₂ h₂
  rw [h₁'] at h₂'
  exact Option.some.inj h₂'

theorem run_induct {F : Body ε σ} {P : ε → σ → σ → Prop}
    (step : ∀ f : Call ε σ, (∀ e s s', f e s = some s' → P e s s') →
      ∀ e s s', F f e s = some s' → P e s s')
    (n : Nat) (e : ε) (s s' : σ) (h : run F n e s = some s') : P e s s' := by
  induction n generalizing e s s' with
  | zero => simp [run] at h
  | succ n ih => exact step (run F n) ih e s s' h

theorem Returns.induct {F : Body ε σ} {P : ε → σ → σ → Prop}
    (step : ∀ f : Call ε σ, (∀ e s s', f e s = some s' → P e s s') →
      ∀ e s s', F f e s = some s' → P e s s')
    {e : ε} {s s' : σ} (h : Returns F e s s') : P e s s' := by
  obtain ⟨n,h⟩ := h
  exact run_induct step n e s s' h

/-- A call returns when the calls it makes have smaller rank. The state may be
anything that satisfies the invariant `I`, which every call keeps. -/
theorem returns_of_rank {F : Body ε σ} (rank : ε → Nat) (I : σ → Prop)
    (step : ∀ (f : Call ε σ) (e : ε),
      (∀ e', rank e' < rank e → ∀ s, I s → ∃ s', f e' s = some s' ∧ I s') →
      ∀ s, I s → ∃ s', F f e s = some s' ∧ I s')
    (n : Nat) (e : ε) (hn : rank e < n) (s : σ) (hs : I s) :
    ∃ s', run F n e s = some s' ∧ I s' := by
  induction n generalizing e s with
  | zero => omega
  | succ n ih =>
    apply step (run F n) e _ s hs
    intro e' he' s₁ hs₁
    exact ih e' (by omega) s₁ hs₁

theorem run_congr {F G : Body ε σ} (h : ∀ n, F (run F n) = G (run F n)) (n : Nat) :
    run F n = run G n := by
  induction n with
  | zero => rfl
  | succ n ih => rw [run,run,h,ih]

theorem run_map {τ : Type} {F : Body ε σ} {G : Body ε τ} {view : σ → τ} {I : σ → Prop}
    (step : ∀ (f : Call ε σ) (g : Call ε τ),
      (∀ e s, I s → (f e s).map view = g e (view s) ∧ ∀ s', f e s = some s' → I s') →
      ∀ e s, I s → (F f e s).map view = G g e (view s) ∧ ∀ s', F f e s = some s' → I s')
    (n : Nat) (e : ε) (s : σ) (hs : I s) :
    (run F n e s).map view = run G n e (view s) ∧ ∀ s', run F n e s = some s' → I s' := by
  induction n generalizing e s with
  | zero => exact ⟨rfl,by simp [run]⟩
  | succ n ih => exact step (run F n) (run G n) ih e s hs

section Walk
variable {α : Type}

theorem foldlM_map {τ : Type} {f : σ → α → Option σ} {g : τ → α → Option τ} {view : σ → τ}
    {I : σ → Prop} (l : List α)
    (h : ∀ a ∈ l, ∀ s, I s → (f s a).map view = g (view s) a ∧ ∀ s', f s a = some s' → I s')
    (s : σ) (hs : I s) :
    (l.foldlM f s).map view = l.foldlM g (view s) ∧ ∀ s', l.foldlM f s = some s' → I s' := by
  induction l generalizing s with
  | nil =>
    refine ⟨rfl,fun s' h' => ?_⟩
    cases h'
    exact hs
  | cons a l ih =>
    obtain ⟨hmap,hkeep⟩ := h a (by simp) s hs
    simp only [List.foldlM_cons,Option.bind_eq_bind,← hmap]
    cases hstep : f s a with
    | none => exact ⟨rfl,by simp⟩
    | some t => exact ih (fun b hb => h b (by simp [hb])) t (hkeep t hstep)

theorem foldlM_le {f g : σ → α → Option σ} (l : List α)
    (h : ∀ a ∈ l, ∀ s s', f s a = some s' → g s a = some s') (s s' : σ)
    (hs : l.foldlM f s = some s') : l.foldlM g s = some s' := by
  induction l generalizing s with
  | nil => simpa using hs
  | cons a l ih =>
    simp only [List.foldlM_cons,Option.bind_eq_bind] at hs ⊢
    obtain ⟨t,ht,hrest⟩ := Option.bind_eq_some_iff.mp hs
    rw [h a (by simp) s t ht]
    exact ih (fun b hb => h b (by simp [hb])) t hrest

theorem foldlM_keeps {f : σ → α → Option σ} {P : σ → σ → Prop} (hrefl : ∀ s, P s s)
    (htrans : ∀ s t u, P s t → P t u → P s u) (l : List α)
    (h : ∀ a ∈ l, ∀ s s', f s a = some s' → P s s') (s s' : σ)
    (hs : l.foldlM f s = some s') : P s s' := by
  induction l generalizing s with
  | nil =>
    have : s = s' := by simpa using hs
    exact this ▸ hrefl s
  | cons a l ih =>
    simp only [List.foldlM_cons,Option.bind_eq_bind] at hs
    obtain ⟨t,ht,hrest⟩ := Option.bind_eq_some_iff.mp hs
    exact htrans s t s' (h a (by simp) s t ht)
      (ih (fun b hb => h b (by simp [hb])) t hrest)

theorem foldlM_returns {f : σ → α → Option σ} {I : σ → Prop} (l : List α)
    (h : ∀ a ∈ l, ∀ s, I s → ∃ s', f s a = some s' ∧ I s') (s : σ) (hs : I s) :
    ∃ s', l.foldlM f s = some s' ∧ I s' := by
  induction l generalizing s with
  | nil => exact ⟨s,by simp,hs⟩
  | cons a l ih =>
    obtain ⟨t,ht,hIt⟩ := h a (by simp) s hs
    obtain ⟨s',hs',hI⟩ := ih (fun b hb => h b (by simp [hb])) t hIt
    exact ⟨s',by simp [List.foldlM_cons,ht,hs'],hI⟩

end Walk

section Rank
variable {α : Type} (r : α → α → Prop)

noncomputable def reach (a : α) : Nat := Set.ncard {b | Relation.TransGen r a b}

theorem reachable_subset {targets : Set α} (ht : ∀ a b, r a b → b ∈ targets) (a : α) :
    {b | Relation.TransGen r a b} ⊆ targets := by
  intro b hb
  cases hb with
  | single h => exact ht _ _ h
  | tail _ h => exact ht _ _ h

/-- Without a cycle, and with finitely many nodes that an edge leads to, every
edge leads to a node from which fewer nodes can be reached. -/
theorem reach_lt {targets : Set α} (hfin : targets.Finite)
    (ht : ∀ a b, r a b → b ∈ targets) (hacyclic : ∀ a, ¬ Relation.TransGen r a a)
    {a b : α} (hab : r a b) : reach r b < reach r a := by
  apply Set.ncard_lt_ncard
  · constructor
    · intro c hc
      exact Relation.TransGen.head hab hc
    · intro hsub
      exact hacyclic b (hsub (Relation.TransGen.single hab))
  · exact hfin.subset (reachable_subset r ht a)

end Rank

end Fuel
