import Mathlib.Data.List.Basic

/-!
Reading a list of items one after the other. A read may be undefined, answer with a
status other than 0, which ends the run, or answer with 0 and go on.
-/

set_option autoImplicit false

namespace Reads

variable {ε α σ τ : Type}

abbrev Read (ε α σ : Type) := α → σ → Except ε (Int × σ)

def readAll (read : Read ε α σ) : List α → σ → Except ε (Int × σ)
  | [], s => .ok (0,s)
  | a :: l, s =>
    match read a s with
    | .error e => .error e
    | .ok (status,s) => if status = 0 then readAll read l s else .ok (status,s)

def Accepts (read : Read ε α σ) (a : α) (s s' : σ) : Prop := read a s = .ok (0,s')

def AcceptsAll (read : Read ε α σ) (l : List α) (s s' : σ) : Prop :=
  readAll read l s = .ok (0,s')

section Basic
variable {read : Read ε α σ} {a : α} {l l' : List α} {s s' s'' : σ}

@[simp] theorem acceptsAll_nil : AcceptsAll read [] s s' ↔ s = s' := by
  simp [AcceptsAll,readAll]

theorem acceptsAll_cons :
    AcceptsAll read (a :: l) s s'' ↔ ∃ s', Accepts read a s s' ∧ AcceptsAll read l s' s'' := by
  unfold AcceptsAll Accepts
  rw [readAll]
  cases hread : read a s with
  | error e => simp
  | ok r =>
    obtain ⟨status,s₁⟩ := r
    by_cases hstatus : status = 0
    · subst hstatus
      simp
    · simp [hstatus]

theorem readAll_accepts (h : Accepts read a s s') :
    readAll read (a :: l) s = readAll read l s' := by
  unfold Accepts at h
  rw [readAll,h]
  rfl

theorem acceptsAll_append :
    AcceptsAll read (l ++ l') s s'' ↔
      ∃ s', AcceptsAll read l s s' ∧ AcceptsAll read l' s' s'' := by
  induction l generalizing s with
  | nil => simp
  | cons a l ih =>
    simp only [List.cons_append,acceptsAll_cons,ih]
    constructor
    · rintro ⟨s₁,h₁,s₂,h₂,h₃⟩
      exact ⟨s₂,⟨s₁,h₁,h₂⟩,h₃⟩
    · rintro ⟨s₂,⟨s₁,h₁,h₂⟩,h₃⟩
      exact ⟨s₁,h₁,s₂,h₂,h₃⟩

theorem acceptsAll_flatMap {β : Type} {parts : β → List α} {bs : List β} :
    AcceptsAll (fun b => readAll read (parts b)) bs s s' ↔
      AcceptsAll read (bs.flatMap parts) s s' := by
  induction bs generalizing s with
  | nil => simp
  | cons b bs ih =>
    rw [List.flatMap_cons,acceptsAll_cons,acceptsAll_append]
    simp only [ih]
    rfl

theorem Accepts.unique (h : Accepts read a s s') (h' : Accepts read a s s'') : s' = s'' := by
  unfold Accepts at h h'
  rw [h] at h'
  simpa using h'

theorem AcceptsAll.unique (h : AcceptsAll read l s s') (h' : AcceptsAll read l s s'') :
    s' = s'' := by
  unfold AcceptsAll at h h'
  rw [h] at h'
  simpa using h'

theorem acceptsAll_blocks {β : Type} (fresh : List β → σ) {readable : α → Prop}
    {block : α → List β} (h : ∀ a ∈ l, ∀ P s', Accepts read a (fresh P) s' ↔
      readable a ∧ s' = fresh (P ++ block a)) {P : List β} :
    AcceptsAll read l (fresh P) s' ↔
      (∀ a ∈ l, readable a) ∧ s' = fresh (P ++ l.flatMap block) := by
  induction l generalizing P with
  | nil => simp [eq_comm]
  | cons a l ih =>
    have hrest := fun P => ih (fun b hb => h b (by simp [hb])) (P := P)
    rw [acceptsAll_cons,List.forall_mem_cons,List.flatMap_cons,← List.append_assoc]
    constructor
    · rintro ⟨s₁,h₁,htail⟩
      obtain ⟨hread,rfl⟩ := (h a (by simp) P s₁).mp h₁
      obtain ⟨hall,hs'⟩ := (hrest _).mp htail
      exact ⟨⟨hread,hall⟩,hs'⟩
    · rintro ⟨⟨hread,hall⟩,hs'⟩
      exact ⟨_,(h a (by simp) P _).mpr ⟨hread,rfl⟩,(hrest _).mpr ⟨hall,hs'⟩⟩

theorem AcceptsAll.holds {I : σ → Prop}
    (hstep : ∀ a ∈ l, ∀ s s', Accepts read a s s' → I s → I s')
    (h : AcceptsAll read l s s') (hs : I s) : I s' := by
  induction l generalizing s with
  | nil =>
    rw [acceptsAll_nil] at h
    exact h ▸ hs
  | cons a l ih =>
    obtain ⟨s₁,h₁,hrest⟩ := acceptsAll_cons.mp h
    exact ih (fun b hb => hstep b (by simp [hb])) hrest (hstep a (by simp) s s₁ h₁ hs)

theorem AcceptsAll.follows {β : Type} {R : σ → β → Prop} {f : β → α → β} {b : β}
    (hstep : ∀ a s s' b, Accepts read a s s' → R s b → R s' (f b a))
    (h : AcceptsAll read l s s') (hs : R s b) : R s' (l.foldl f b) := by
  induction l generalizing s b with
  | nil =>
    rw [acceptsAll_nil] at h
    exact h ▸ hs
  | cons a l ih =>
    obtain ⟨s₁,h₁,hrest⟩ := acceptsAll_cons.mp h
    exact ih hrest (hstep a s s₁ b h₁ hs)

end Basic

theorem readAll_map {read : Read ε α σ} {read' : Read ε α τ} (g : σ → τ)
    (h : ∀ a s, read' a (g s) = (read a s).map (fun r => (r.1,g r.2))) (l : List α) (s : σ) :
    readAll read' l (g s) = (readAll read l s).map (fun r => (r.1,g r.2)) := by
  induction l generalizing s with
  | nil => rfl
  | cons a l ih =>
    simp only [readAll,h]
    cases read a s with
    | error e => rfl
    | ok r =>
      obtain ⟨status,s₁⟩ := r
      by_cases hstatus : status = 0
      · simp [Except.map,hstatus,ih]
      · simp [Except.map,hstatus]

theorem acceptsAll_map {read : Read ε α σ} {read' : Read ε α τ} (g : σ → τ)
    (h : ∀ a s, read' a (g s) = (read a s).map (fun r => (r.1,g r.2))) {l : List α} {s : σ}
    {t' : τ} : AcceptsAll read' l (g s) t' ↔ ∃ s', AcceptsAll read l s s' ∧ g s' = t' := by
  unfold AcceptsAll
  rw [readAll_map g h]
  cases readAll read l s with
  | error e => simp [Except.map]
  | ok r =>
    obtain ⟨status,s₁⟩ := r
    by_cases hstatus : status = 0
    · simp [Except.map,hstatus]
    · simp [Except.map,hstatus]

theorem readAll_append (read : Read ε α σ) (l l' : List α) (s : σ) :
    readAll read (l ++ l') s =
      match readAll read l s with
      | .error e => .error e
      | .ok (status,s) => if status = 0 then readAll read l' s else .ok (status,s) := by
  induction l generalizing s with
  | nil => simp [readAll]
  | cons a l ih =>
    rw [List.cons_append,readAll,readAll]
    cases read a s with
    | error e => rfl
    | ok r =>
      obtain ⟨status,s₁⟩ := r
      by_cases hstatus : status = 0
      · simp only [hstatus,if_true]
        exact ih s₁
      · simp [hstatus]

theorem readAll_flatMap {β : Type} (read : Read ε α σ) (parts : β → List α) (bs : List β) (s : σ) :
    readAll (fun b => readAll read (parts b)) bs s = readAll read (bs.flatMap parts) s := by
  induction bs generalizing s with
  | nil => rfl
  | cons b bs ih =>
    rw [List.flatMap_cons,readAll_append,readAll]
    cases readAll read (parts b) s with
    | error e => rfl
    | ok r => simp only [ih]

theorem readAll_keeps {read : Read ε α σ} {R : σ → σ → Prop} (hrefl : ∀ s, R s s)
    (htrans : ∀ {s s' s''}, R s s' → R s' s'' → R s s'')
    (hstep : ∀ a s status s', read a s = .ok (status,s') → R s s') {l : List α} {s s' : σ}
    {status : Int} (h : readAll read l s = .ok (status,s')) : R s s' := by
  induction l generalizing s with
  | nil =>
    cases h
    exact hrefl _
  | cons a l ih =>
    rw [readAll] at h
    cases hread : read a s with
    | error e => simp [hread] at h
    | ok r =>
      obtain ⟨status₁,s₁⟩ := r
      simp only [hread] at h
      have h₁ := hstep a s status₁ s₁ hread
      split at h
      · exact htrans h₁ (ih h)
      · cases h
        exact h₁

def seen {β : Type} (f : σ → β) (result : Except ε (Int × σ)) : Except ε (Int × β) :=
  result.map (fun r => (r.1,f r.2))

theorem seen_insert_iff {β : Type} {read : Read ε α σ} (f : σ → β) (l l' : List α) (a : α)
    (s : σ) : seen f (readAll read (l ++ a :: l') s) = seen f (readAll read (l ++ l') s) ↔
      ∀ s', AcceptsAll read l s s' →
        seen f (readAll read (a :: l') s') = seen f (readAll read l' s') := by
  rw [readAll_append,readAll_append]
  unfold AcceptsAll
  cases readAll read l s with
  | error e => simp
  | ok r =>
    obtain ⟨status,s₁⟩ := r
    by_cases hstatus : status = 0
    · subst hstatus
      simp
    · simp [hstatus]

def visits (read : Read ε α σ) : List α → σ → List (α × σ)
  | [], _ => []
  | a :: l, s =>
    (a,s) ::
      match read a s with
      | .error _ => []
      | .ok (status,s') => if status = 0 then visits read l s' else []

section Visits
variable {read : Read ε α σ} {read' : Read ε α τ} {a : α} {l : List α} {s s' : σ}

theorem visits_accepts (h : Accepts read a s s') :
    visits read (a :: l) s = (a,s) :: visits read l s' := by
  unfold Accepts at h
  rw [visits,h]
  rfl

theorem visits_refused (h : ∀ s', ¬ Accepts read a s s') :
    visits read (a :: l) s = [(a,s)] := by
  rw [visits]
  cases hread : read a s with
  | error e => rfl
  | ok r =>
    obtain ⟨status,s'⟩ := r
    by_cases hstatus : status = 0
    · subst hstatus
      exact absurd hread (h s')
    · simp [hstatus]

theorem AcceptsAll.visits_items (h : AcceptsAll read l s s') :
    (visits read l s).map Prod.fst = l := by
  induction l generalizing s with
  | nil => rfl
  | cons a l ih =>
    obtain ⟨s₁,h₁,hrest⟩ := acceptsAll_cons.mp h
    rw [visits_accepts h₁,List.map_cons,ih hrest]

theorem AcceptsAll.visits_accepted (h : AcceptsAll read l s s') {v : α × σ}
    (hv : v ∈ visits read l s) : ∃ s'', Accepts read v.1 v.2 s'' := by
  induction l generalizing s with
  | nil => cases hv
  | cons a l ih =>
    obtain ⟨s₁,h₁,hrest⟩ := acceptsAll_cons.mp h
    rw [visits_accepts h₁,List.mem_cons] at hv
    rcases hv with rfl | hv
    · exact ⟨s₁,h₁⟩
    · exact ih hrest hv

theorem visits_prefix : (visits read l s).map Prod.fst <+: l := by
  induction l generalizing s with
  | nil => exact List.prefix_refl _
  | cons a l ih =>
    by_cases haccepts : ∃ s', Accepts read a s s'
    · obtain ⟨s₁,h₁⟩ := haccepts
      rw [visits_accepts h₁,List.map_cons]
      exact (List.prefix_cons_inj _).mpr ih
    · rw [visits_refused (fun s' hs' => haccepts ⟨s',hs'⟩)]
      exact (List.prefix_cons_inj _).mpr List.nil_prefix

def AllRead (read : Read ε α σ) (whole : α → Prop) (l : List α) (s : σ) : Prop :=
  ∀ front a rest s', l = front ++ a :: rest → AcceptsAll read front s s' → whole a

theorem allRead_cons {whole : α → Prop} :
    AllRead read whole (a :: l) s ↔
      whole a ∧ ∀ s', Accepts read a s s' → AllRead read whole l s' := by
  constructor
  · intro h
    refine ⟨h [] a l s rfl (acceptsAll_nil.mpr rfl),fun s₁ h₁ front b rest s' hl hfront => ?_⟩
    exact h (a :: front) b rest s' (by simp [hl]) (acceptsAll_cons.mpr ⟨s₁,h₁,hfront⟩)
  · rintro ⟨ha,hrest⟩ front b rest s' hl hfront
    cases front with
    | nil =>
      obtain ⟨rfl,-⟩ := List.cons.inj hl
      exact ha
    | cons a' front =>
      obtain ⟨rfl,htail⟩ := List.cons.inj hl
      obtain ⟨s₁,h₁,hbefore⟩ := acceptsAll_cons.mp hfront
      exact hrest s₁ h₁ front b rest s' htail hbefore

theorem visits_parts {parts : α → List α} {whole : α → Prop}
    (hwhole : ∀ a ∈ l, whole a → parts a = [a]) (h : AllRead read whole l s) :
    visits read (l.flatMap parts) s = visits read l s ∧
      ∀ s', AcceptsAll read (l.flatMap parts) s s' → AcceptsAll read l s s' := by
  induction l generalizing s with
  | nil => exact ⟨rfl,fun _ h => h⟩
  | cons a l ih =>
    obtain ⟨ha,hrest⟩ := allRead_cons.mp h
    rw [List.flatMap_cons,hwhole a (by simp) ha,List.singleton_append]
    by_cases haccepts : ∃ s', Accepts read a s s'
    · obtain ⟨s₁,h₁⟩ := haccepts
      obtain ⟨hvisits,hall⟩ := ih (fun b hb => hwhole b (by simp [hb])) (hrest s₁ h₁)
      rw [visits_accepts h₁,visits_accepts h₁,hvisits]
      refine ⟨rfl,fun s' hs' => ?_⟩
      obtain ⟨s₂,h₂,htail⟩ := acceptsAll_cons.mp hs'
      obtain rfl := h₁.unique h₂
      exact acceptsAll_cons.mpr ⟨s₁,h₁,hall s' htail⟩
    · have hrefused : ∀ s', ¬ Accepts read a s s' := fun s' hs' => haccepts ⟨s',hs'⟩
      rw [visits_refused hrefused,visits_refused hrefused]
      refine ⟨rfl,fun s' hs' => ?_⟩
      obtain ⟨s₂,h₂,-⟩ := acceptsAll_cons.mp hs'
      exact absurd h₂ (hrefused s₂)

/-- When each item that is not whole has another first part, the parts that are read are only
items as long as the items are whole. -/
theorem allRead_parts {parts : α → List α} {whole : α → Prop}
    (hwhole : ∀ a ∈ l, whole a → parts a = [a])
    (hpart : ∀ a ∈ l, ¬ whole a → ∃ b bs, parts a = b :: bs ∧ b ≠ a)
    (h : (visits read (l.flatMap parts) s).map Prod.fst <+: l) : AllRead read whole l s := by
  induction l generalizing s with
  | nil =>
    intro front a rest s' hl
    simp at hl
  | cons a l ih =>
    rw [allRead_cons]
    by_cases ha : whole a
    · refine ⟨ha,fun s₁ h₁ => ?_⟩
      rw [List.flatMap_cons,hwhole a (by simp) ha,List.singleton_append,visits_accepts h₁,
        List.map_cons,List.prefix_cons_inj] at h
      exact ih (fun b hb => hwhole b (by simp [hb])) (fun b hb => hpart b (by simp [hb])) h
    · obtain ⟨b,bs,hparts,hne⟩ := hpart a (by simp) ha
      rw [List.flatMap_cons,hparts,List.cons_append,visits,List.map_cons] at h
      exact absurd (List.cons_prefix_cons.mp h).1 hne

/-- Two readers whose states stay related see the same in every item that both read, when one
of them accepts them all. -/
theorem AcceptsAll.visits_agree {R : σ → τ → Prop} {mark : α → σ → Bool} {mark' : α → τ → Bool}
    (hmark : ∀ a s s' t, R s t → Accepts read a s s' → mark a s = mark' a t)
    (hstep : ∀ a s s' t t', R s t → Accepts read a s s' → Accepts read' a t t' → R s' t')
    (h : AcceptsAll read l s s') {t : τ} (hs : R s t) :
    (visits read' l t).map (fun v => (v.1,mark' v.1 v.2)) <+:
      (visits read l s).map (fun v => (v.1,mark v.1 v.2)) := by
  induction l generalizing s t with
  | nil => exact List.prefix_refl _
  | cons a l ih =>
    obtain ⟨s₁,h₁,hrest⟩ := acceptsAll_cons.mp h
    rw [visits_accepts h₁,List.map_cons,hmark a s s₁ t hs h₁]
    by_cases haccepts : ∃ t', Accepts read' a t t'
    · obtain ⟨t₁,ht₁⟩ := haccepts
      rw [visits_accepts ht₁,List.map_cons]
      exact (List.prefix_cons_inj _).mpr (ih hrest (hstep a s s₁ t t₁ hs h₁ ht₁))
    · rw [visits_refused (fun t' ht' => haccepts ⟨t',ht'⟩)]
      exact (List.prefix_cons_inj _).mpr (List.nil_prefix)

end Visits

end Reads
