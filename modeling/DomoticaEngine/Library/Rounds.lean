import Mathlib.Data.List.Infix
import Mathlib.Data.List.Count

/-!
A history that a mark divides into rounds.
-/

set_option autoImplicit false

namespace Rounds

variable {ε : Type}

def Unseen (mark e : ε) (history : List ε) : Prop :=
  ∀ before round, history = before ++ round → mark ∉ round → e ∉ round

def Once [DecidableEq ε] (mark e : ε) (history : List ε) : Prop :=
  ∀ before round after, history = before ++ round ++ after → mark ∉ round → round.count e ≤ 1

section Rules
variable {mark e m : ε} {history : List ε}

theorem split_append {before round : List ε} (h : history ++ [m] = before ++ round) :
    round = [] ∨ ∃ round', round = round' ++ [m] ∧ history = before ++ round' := by
  rcases List.eq_nil_or_concat round with rfl | ⟨round',m',rfl⟩
  · exact .inl rfl
  · rw [List.concat_eq_append,← List.append_assoc] at h
    obtain ⟨hhistory,hm⟩ := List.append_inj' h rfl
    cases hm
    exact .inr ⟨round',List.concat_eq_append,hhistory⟩

theorem unseen_mark : Unseen mark e (history ++ [mark]) := by
  intro before round h hround
  rcases split_append h with rfl | ⟨round',rfl,-⟩
  · exact List.not_mem_nil
  · exact (hround (by simp)).elim

theorem Unseen.append (h : Unseen mark e history) (hm : m ≠ e) :
    Unseen mark e (history ++ [m]) := by
  intro before round hsplit hround
  rcases split_append hsplit with rfl | ⟨round',rfl,hhistory⟩
  · exact List.not_mem_nil
  · have hold : e ∉ round' := h before round' hhistory (fun hmem => hround (by simp [hmem]))
    simp [hold,hm.symm]

variable [DecidableEq ε]

theorem once_nil : Once mark e [] := by
  intro before round after h _
  obtain ⟨hround,-⟩ := List.append_eq_nil_iff.mp h.symm
  rw [(List.append_eq_nil_iff.mp hround).2]
  exact Nat.zero_le 1

theorem Once.append (h : Once mark e history) (hm : m = e → Unseen mark e history) :
    Once mark e (history ++ [m]) := by
  intro before round after hsplit hround
  rcases split_append hsplit with rfl | ⟨after',rfl,hhistory⟩
  · rw [List.append_nil] at hsplit
    rcases split_append hsplit with rfl | ⟨round',rfl,hhistory⟩
    · exact Nat.zero_le 1
    · have hmark : mark ∉ round' := fun hmem => hround (by simp [hmem])
      rw [List.count_append]
      by_cases heq : m = e
      · have hnone := List.count_eq_zero.mpr (hm heq before round' hhistory hmark)
        have hone : [m].count e ≤ 1 := List.count_le_length
        omega
      · have hold := h before round' [] (by rw [hhistory,List.append_nil]) hmark
        have hnone : [m].count e = 0 := List.count_eq_zero.mpr (by simpa using Ne.symm heq)
        omega
  · exact h before round after' hhistory hround

end Rules

end Rounds
