import Mathlib.Data.List.Nodup

/-!
Items under keys: an item is updated, and created first when its key has none.
-/

set_option autoImplicit false

namespace Upserts

variable {κ β : Type} [DecidableEq κ] (key : β → κ) (new : κ → β)

def upsert (k : κ) (f : β → β) : List β → List β
  | [] => [f (new k)]
  | b :: l => if key b = k then f b :: l else b :: upsert k f l

def under (k : κ) (l : List β) : List β := l.filter (fun b => key b = k)

def updatesOf (k : κ) (ops : List (κ × (β → β))) : List (β → β) :=
  (ops.filter (fun op => op.1 = k)).map Prod.snd

def run (ops : List (κ × (β → β))) (l : List β) : List β :=
  ops.foldl (fun l op => upsert key new op.1 op.2 l) l

section Steps
variable {key new} {k k' : κ} {f : β → β} {l : List β}

theorem upsert_lookup :
    upsert key new k f l =
      match l.findIdx? (fun b => key b = k) with
      | some i => l.modify i f
      | none => l ++ [f (new k)] := by
  induction l with
  | nil => rfl
  | cons b l ih =>
    rw [upsert,List.findIdx?_cons]
    by_cases hb : key b = k
    · simp [hb]
    · cases hfind : l.findIdx? (fun b => key b = k) <;> simp [hb,hfind,ih]

theorem under_upsert (hnew : key (new k) = k) (hf : ∀ b, key (f b) = key b) :
    under key k (upsert key new k f l) =
      match under key k l with
      | [] => [f (new k)]
      | b :: rest => f b :: rest := by
  induction l with
  | nil => simp [under,upsert,hf,hnew]
  | cons b l ih =>
    by_cases hb : key b = k
    · simp [under,upsert,hb,hf]
    · simpa [under,upsert,hb] using ih

theorem under_upsert_other (hnew : key (new k) = k) (hf : ∀ b, key (f b) = key b) (h : k' ≠ k) :
    under key k' (upsert key new k f l) = under key k' l := by
  have hk : k ≠ k' := fun heq => h heq.symm
  induction l with
  | nil => simp [under,upsert,hf,hnew,hk]
  | cons b l ih =>
    unfold under at ih ⊢
    rw [upsert]
    split
    · rename_i hb
      simp [hf,hb,hk]
    · rw [List.filter_cons,List.filter_cons,ih]

theorem updatesOf_cons (op : κ × (β → β)) (ops : List (κ × (β → β))) :
    updatesOf k (op :: ops) =
      if op.1 = k then op.2 :: updatesOf k ops else updatesOf k ops := by
  unfold updatesOf
  rw [List.filter_cons]
  by_cases hop : op.1 = k <;> simp [hop]

end Steps

theorem under_run (hnew : ∀ k, key (new k) = k) (k : κ) (ops : List (κ × (β → β)))
    (hops : ∀ op ∈ ops, ∀ b, key (op.2 b) = key b) :
    under key k (run key new ops []) =
      if updatesOf k ops = [] then [] else [(updatesOf k ops).foldl (fun b f => f b) (new k)] := by
  -- The start is generalised to a table in which the key has at most one item.
  have hrun : ∀ (ops : List (κ × (β → β))) (l : List β),
      (∀ op ∈ ops, ∀ b, key (op.2 b) = key b) →
      (∀ b, under key k l = [b] →
        under key k (run key new ops l) = [(updatesOf k ops).foldl (fun b f => f b) b]) ∧
      (under key k l = [] → under key k (run key new ops l) =
        if updatesOf k ops = [] then []
        else [(updatesOf k ops).foldl (fun b f => f b) (new k)]) := by
    intro ops
    induction ops with
    | nil => exact fun l _ => ⟨fun b hb => hb,fun hl => hl⟩
    | cons op ops ih =>
      intro l hops
      have hkeeps := hops op (by simp)
      obtain ⟨hsome,hnone⟩ := ih (upsert key new op.1 op.2 l) (fun o ho => hops o (by simp [ho]))
      rw [updatesOf_cons]
      change (∀ b, _ → under key k (run key new ops (upsert key new op.1 op.2 l)) = _) ∧
        (_ → under key k (run key new ops (upsert key new op.1 op.2 l)) = _)
      by_cases hop : op.1 = k
      · have hstep := under_upsert (l := l) (hnew op.1) hkeeps
        rw [hop] at hstep hsome
        rw [if_pos hop]
        refine ⟨fun b hb => ?_,fun hl => ?_⟩
        · rw [hb] at hstep
          rw [hop]
          exact hsome _ hstep
        · rw [hl] at hstep
          rw [hop,hsome _ hstep]
          simp
      · have hstep := under_upsert_other (l := l) (hnew op.1) hkeeps (fun heq => hop heq.symm)
        rw [if_neg hop]
        exact ⟨fun b hb => hsome b (hstep.trans hb),fun hl => hnone (hstep.trans hl)⟩
  exact (hrun ops [] hops).2 rfl

theorem keys_nodup (hnew : ∀ k, key (new k) = k) (ops : List (κ × (β → β)))
    (hops : ∀ op ∈ ops, ∀ b, key (op.2 b) = key b) : ((run key new ops []).map key).Nodup := by
  rw [List.nodup_iff_count_le_one]
  intro k
  have hunder := under_run key new hnew k ops hops
  rw [List.count_eq_countP,List.countP_map,List.countP_eq_length_filter]
  have hsame : (run key new ops []).filter ((fun k' => k' == k) ∘ key) =
      under key k (run key new ops []) := by
    unfold under
    congr 1
  rw [hsame,hunder]
  split <;> simp

end Upserts
