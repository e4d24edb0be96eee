import Mathlib.Data.List.Perm.Basic

/-!
Items that come up and are handed over later, and when the two orders agree.
-/

set_option autoImplicit false

namespace Turns

variable {α : Type}

inductive Mark (α : Type) where
  | up (a : α)
  | over (a : α)
  deriving DecidableEq, Repr

def ups : List (Mark α) → List α
  | [] => []
  | .up a :: l => a :: ups l
  | .over _ :: l => ups l

def overs : List (Mark α) → List α
  | [] => []
  | .up _ :: l => overs l
  | .over a :: l => a :: overs l

def InTurn : List (Mark α) → Prop
  | [] => True
  | .up a :: .over b :: l => a = b ∧ InTurn l
  | _ => False

@[simp] theorem ups_append (l l' : List (Mark α)) : ups (l ++ l') = ups l ++ ups l' := by
  induction l with
  | nil => rfl
  | cons m l ih => cases m <;> simp [ups,ih]

@[simp] theorem overs_append (l l' : List (Mark α)) : overs (l ++ l') = overs l ++ overs l' := by
  induction l with
  | nil => rfl
  | cons m l ih => cases m <;> simp [overs,ih]

theorem eq_nil_of_ups_overs {l : List (Mark α)} (hu : ups l = []) (ho : overs l = []) :
    l = [] := by
  cases l with
  | nil => rfl
  | cons m l => cases m <;> simp [ups,overs] at hu ho

theorem InTurn.eq {l : List (Mark α)} (h : InTurn l) : overs l = ups l := by
  induction l using InTurn.induct with
  | case1 => rfl
  | case2 a b l ih =>
    obtain ⟨rfl,hl⟩ := h
    simp [ups,overs,ih hl]
  | case3 l h₁ h₂ => simp [InTurn] at h

theorem InTurn.append {l l' : List (Mark α)} (h : InTurn l) (h' : InTurn l') :
    InTurn (l ++ l') := by
  induction l using InTurn.induct with
  | case1 => exact h'
  | case2 a b l ih => exact ⟨h.1,ih h.2⟩
  | case3 l h₁ h₂ => simp [InTurn] at h

structure Settled (l : List (Mark α)) : Prop where
  perm : (overs l).Perm (ups l)
  turn : overs l = ups l → InTurn l

theorem Settled.nil : Settled ([] : List (Mark α)) := ⟨.nil,fun _ => trivial⟩

theorem Settled.length {l : List (Mark α)} (h : Settled l) :
    (overs l).length = (ups l).length := h.perm.length_eq

theorem Settled.append {l l' : List (Mark α)} (h : Settled l) (h' : Settled l') :
    Settled (l ++ l') := by
  constructor
  · simpa using h.perm.append h'.perm
  · intro heq
    simp only [overs_append,ups_append] at heq
    obtain ⟨h₁,h₂⟩ := List.append_inj heq h.length
    exact (h.turn h₁).append (h'.turn h₂)

structure Owing (a : α) (l : List (Mark α)) : Prop where
  perm : (overs l).Perm (a :: ups l)
  turn : overs l = a :: ups l → InTurn (.up a :: l)

theorem Owing.hand {a : α} {l : List (Mark α)} (h : Settled l) : Owing a (.over a :: l) := by
  constructor
  · exact h.perm.cons a
  · intro heq
    exact ⟨rfl,h.turn (List.cons.inj heq).2⟩

theorem Owing.settled {a : α} {l : List (Mark α)} (h : Owing a l) : Settled (.up a :: l) :=
  ⟨h.perm,h.turn⟩

section Later
variable {a : α} {l l' : List (Mark α)}

theorem Settled.eq_nil_of_head (h : Settled l) (ha : a ∉ ups l) {os us : List α}
    (heq : overs l ++ os = a :: us) : l = [] := by
  cases ho : overs l with
  | nil =>
    have hu : (ups l).length = 0 := by rw [← h.length,ho]; rfl
    exact eq_nil_of_ups_overs (List.length_eq_zero_iff.mp hu) ho
  | cons b bs =>
    rw [ho] at heq
    have hb : b = a := (List.cons.inj heq).1
    have hmem : a ∈ overs l := by rw [ho,hb]; simp
    exact absurd (h.perm.mem_iff.mp hmem) ha

theorem Owing.later (h : Settled l) (ha : a ∉ ups l) (h' : Owing a l') :
    Owing a (l ++ l') := by
  constructor
  · simp only [overs_append,ups_append]
    exact (h.perm.append h'.perm).trans List.perm_middle
  · intro heq
    simp only [overs_append,ups_append] at heq
    have hnil := h.eq_nil_of_head ha heq
    subst hnil
    exact h'.turn heq

end Later

end Turns
