import Mathlib.Data.List.Basic
import Mathlib.Data.List.Perm.Basic
import Mathlib.Data.List.Pairwise

/-!
Lists that are put together from blocks, and what a change of the order of the blocks does to
the positions of their items.
-/

set_option autoImplicit false

namespace Blocks

section Lookup
variable {α : Type} {p : α → Bool} {l l' : List α}

/-- The first item of a property is the same in another order, when the order among the items
of the property is the same. -/
theorem find?_perm {r : α → α → Prop} (hasymm : ∀ a b, r a b → ¬ r b a) (hperm : l.Perm l')
    (hl : l.Pairwise (fun a b => p a = true → p b = true → r a b))
    (hl' : l'.Pairwise (fun a b => p a = true → p b = true → r a b)) :
    l'.find? p = l.find? p := by
  have hleast : ∀ {l : List α}, l.Pairwise (fun a b => p a = true → p b = true → r a b) →
      ∀ {a b : α}, l.find? p = some a → b ∈ l → p b = true → b = a ∨ r a b := by
    intro l hl a b ha hb hpb
    obtain ⟨hpa,before,after,rfl,hbefore⟩ := List.find?_eq_some_iff_append.mp ha
    rcases List.mem_append.mp hb with hb | hb
    · exact absurd hpb (by simpa using hbefore b hb)
    · rcases List.mem_cons.mp hb with rfl | hb
      · exact .inl rfl
      · exact .inr ((List.pairwise_cons.mp (List.pairwise_append.mp hl).2.1).1 b hb hpa hpb)
  cases ha : l.find? p with
  | none =>
    rw [List.find?_eq_none] at ha ⊢
    exact fun a hmem => ha a (hperm.mem_iff.mpr hmem)
  | some a =>
    have hmem := List.mem_of_find?_eq_some ha
    have hpa := List.find?_some ha
    cases hb : l'.find? p with
    | none => exact absurd hpa (List.find?_eq_none.mp hb a (hperm.mem_iff.mp hmem))
    | some b =>
      have hmem' := List.mem_of_find?_eq_some hb
      have hpb := List.find?_some hb
      rcases hleast hl ha (hperm.mem_iff.mpr hmem') hpb with rfl | hab
      · rfl
      · rcases hleast hl' hb (hperm.mem_iff.mp hmem) hpa with rfl | hba
        · rfl
        · exact absurd hba (hasymm a b hab)

variable [DecidableEq α]

theorem findIdx?_idxOf (p : α → Bool) (l : List α) :
    l.findIdx? p = (l.find? p).map (fun a => l.idxOf a) := by
  induction l with
  | nil => rfl
  | cons a l ih =>
    rw [List.findIdx?_cons,List.find?_cons]
    cases hp : p a with
    | true => simp
    | false =>
      simp only [Bool.false_eq_true,if_false,ih,Option.map_map]
      cases hfind : l.find? p with
      | none => rfl
      | some b =>
        have hne : a ≠ b := by
          rintro rfl
          simp [List.find?_some hfind] at hp
        simp [List.idxOf_cons_ne l hne]

/-- Where the item at a position of `l` stands in `l'`. -/
def renumber (l l' : List α) (i : Nat) : Nat :=
  match l[i]? with
  | some a => l'.idxOf a
  | none => i

theorem renumber_getElem? (hperm : l.Perm l') {i : Nat} {a : α} (h : l[i]? = some a) :
    l'[renumber l l' i]? = some a := by
  have hmem : a ∈ l' := hperm.mem_iff.mp (List.mem_of_getElem? h)
  simp only [renumber,h]
  exact List.getElem?_idxOf hmem

theorem findIdx?_renumber {r : α → α → Prop} (hasymm : ∀ a b, r a b → ¬ r b a)
    (hperm : l.Perm l') (hl : l.Pairwise (fun a b => p a = true → p b = true → r a b))
    (hl' : l'.Pairwise (fun a b => p a = true → p b = true → r a b)) :
    l'.findIdx? p = (l.findIdx? p).map (renumber l l') := by
  rw [findIdx?_idxOf,findIdx?_idxOf,find?_perm hasymm hperm hl hl',Option.map_map]
  cases hfind : l.find? p with
  | none => rfl
  | some a =>
    have hget := List.getElem?_idxOf (List.mem_of_find?_eq_some hfind)
    simp [renumber,hget]

end Lookup

section Labels
variable {κ β : Type} (block : κ → List β)

def labels (ks : List κ) : List (κ × Nat) :=
  ks.flatMap (fun k => (List.range (block k).length).map (fun j => (k,j)))

variable {block} {ks ks' : List κ}

theorem labels_perm (h : ks.Perm ks') : (labels block ks).Perm (labels block ks') :=
  h.flatMap_right _

theorem labels_items (block : κ → List β) (ks : List κ) :
    (labels block ks).map (fun a => (block a.1)[a.2]?) = (ks.flatMap block).map some := by
  induction ks with
  | nil => rfl
  | cons k ks ih =>
    have hblock : (List.range (block k).length).map (fun j => (block k)[j]?) =
        (block k).map some := by
      apply List.ext_getElem
      · simp
      · intro i hi hi'
        have hlt : i < (block k).length := by simpa using hi
        simp [hlt]
    unfold labels at ih ⊢
    rw [List.flatMap_cons,List.map_append,ih,List.map_map,List.flatMap_cons,List.map_append]
    exact congrArg (· ++ _) hblock

theorem labels_getElem? {i : Nat} {b : β} (h : (ks.flatMap block)[i]? = some b) :
    ∃ a, (labels block ks)[i]? = some a ∧ (block a.1)[a.2]? = some b := by
  have hitems := congrArg (·[i]?) (labels_items block ks)
  simp only [List.getElem?_map,h,Option.map_some] at hitems
  obtain ⟨a,ha,hb⟩ := Option.map_eq_some_iff.mp hitems
  exact ⟨a,ha,hb⟩

theorem getElem?_labels {i : Nat} {a : κ × Nat} {b : β} (h : (labels block ks)[i]? = some a)
    (hb : (block a.1)[a.2]? = some b) : (ks.flatMap block)[i]? = some b := by
  have hitems := congrArg (·[i]?) (labels_items block ks)
  simp only [List.getElem?_map,h,Option.map_some,hb] at hitems
  obtain ⟨b',hb',heq⟩ := Option.map_eq_some_iff.mp hitems.symm
  rw [hb',Option.some.inj heq]

theorem labels_pairwise {q : β → Bool}
    (h : ks.Pairwise (fun k k' => ∀ b ∈ block k, ∀ b' ∈ block k', q b = true → ¬ q b' = true)) :
    (labels block ks).Pairwise (fun a a' => (block a.1)[a.2]?.any q = true →
      (block a'.1)[a'.2]?.any q = true → a.1 = a'.1 ∧ a.2 < a'.2) := by
  have hmem : ∀ {k : κ} {j : Nat}, (block k)[j]?.any q = true → ∃ b ∈ block k, q b = true := by
    intro k j hany
    obtain ⟨b,hb,hq⟩ := (Option.any_eq_true _ _).mp hany
    exact ⟨b,List.mem_of_getElem? hb,hq⟩
  unfold labels
  rw [List.pairwise_flatMap]
  constructor
  · intro k _
    rw [List.pairwise_map]
    exact List.pairwise_lt_range.imp (fun hlt _ _ => ⟨rfl,hlt⟩)
  · refine h.imp (fun hdistinct a ha a' ha' hany hany' => ?_)
    obtain ⟨j,-,rfl⟩ := List.mem_map.mp ha
    obtain ⟨j',-,rfl⟩ := List.mem_map.mp ha'
    obtain ⟨b,hb,hq⟩ := hmem hany
    obtain ⟨b',hb',hq'⟩ := hmem hany'
    exact absurd hq' (hdistinct b hb b' hb' hq)

variable [DecidableEq κ]

theorem findIdx?_flatMap {q : β → Bool} (hperm : ks.Perm ks')
    (h : ks.Pairwise (fun k k' => ∀ b ∈ block k, ∀ b' ∈ block k', q b = true → ¬ q b' = true)) :
    (ks'.flatMap block).findIdx? q =
      ((ks.flatMap block).findIdx? q).map (renumber (labels block ks) (labels block ks')) := by
  have hlabels : ∀ ks : List κ, (ks.flatMap block).findIdx? q =
      (labels block ks).findIdx? (fun a => (block a.1)[a.2]?.any q) := by
    intro ks
    have hitems := congrArg (List.findIdx? (Option.any q)) (labels_items block ks)
    rw [List.findIdx?_map,List.findIdx?_map] at hitems
    exact hitems.symm
  have h' : ks'.Pairwise (fun k k' => ∀ b ∈ block k, ∀ b' ∈ block k', q b = true → ¬ q b' = true)
      := (hperm.pairwise_iff (fun hkk' b hb b' hb' hq hq' => hkk' b' hb' b hb hq' hq)).mp h
  rw [hlabels,hlabels]
  exact findIdx?_renumber (r := fun a a' => a.1 = a'.1 ∧ a.2 < a'.2) (fun a a' hr hr' => by omega)
    (labels_perm hperm) (labels_pairwise h) (labels_pairwise h')

end Labels

end Blocks
