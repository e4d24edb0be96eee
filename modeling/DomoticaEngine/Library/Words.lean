import Mathlib.Data.List.TakeWhile

/-!
Words of a text: maximal runs of characters that are not separators.
-/

set_option autoImplicit false

namespace Words

variable {α : Type} (sep : α → Bool)

def front (l : List α) : List α := l.takeWhile (fun c => !sep c)

def following : List α → List (List α)
  | [] => []
  | c :: l =>
    if sep c then
      match front sep l with
      | [] => following l
      | d :: w => (d :: w) :: following l
    else following l

def words (l : List α) : List (List α) :=
  match front sep l with
  | [] => following sep l
  | c :: w => (c :: w) :: following sep l

def IsWord (w : List α) : Prop := w ≠ [] ∧ ∀ c ∈ w, sep c = false

instance (w : List α) : Decidable (IsWord sep w) := inferInstanceAs (Decidable (_ ∧ _))

/-- Each word with a separator `s` before it. -/
def spaced (s : α) (ws : List (List α)) : List α := ws.flatMap (fun w => s :: w)

@[simp] theorem spaced_nil (s : α) : spaced s [] = [] := rfl

@[simp] theorem spaced_cons (s : α) (w : List α) (ws : List (List α)) :
    spaced s (w :: ws) = s :: (w ++ spaced s ws) := by simp [spaced]

theorem mem_spaced {s c : α} {ws : List (List α)} (h : c ∈ spaced s ws) :
    c = s ∨ ∃ w ∈ ws, c ∈ w := by
  simp only [spaced,List.mem_flatMap,List.mem_cons] at h
  obtain ⟨w,hw,rfl | hc⟩ := h
  · exact .inl rfl
  · exact .inr ⟨w,hw,hc⟩

theorem following_word {w : List α} (hw : ∀ c ∈ w, sep c = false) (l : List α) :
    following sep (w ++ l) = following sep l := by
  induction w with
  | nil => rfl
  | cons c w ih =>
    have hc := hw c (by simp)
    simp only [List.cons_append,following,hc]
    exact ih (fun d hd => hw d (by simp [hd]))

theorem front_word {w : List α} (hw : ∀ c ∈ w, sep c = false) {l : List α}
    (hl : ∀ c ∈ l.head?, sep c = true) : front sep (w ++ l) = w := by
  induction w with
  | nil =>
    cases l with
    | nil => rfl
    | cons c l => simp [front,hl c (by simp)]
  | cons c w ih =>
    have hc := hw c (by simp)
    have ht := ih (fun d hd => hw d (by simp [hd]))
    simp only [front] at ht
    simp [front,hc,ht]

theorem front_iff {w : List α} (hw : ∀ c ∈ w, sep c = false) {l : List α} :
    front sep l = w ↔ w <+: l ∧ ∀ c rest, l = w ++ c :: rest → sep c = true := by
  constructor
  · rintro rfl
    refine ⟨List.takeWhile_prefix _,fun c rest hl => ?_⟩
    by_contra hc
    have hlonger : front sep (front sep l ++ c :: rest) = front sep l ++ c :: front sep rest := by
      unfold front at hw ⊢
      rw [List.takeWhile_append_of_pos (fun d hd => by simp [hw d hd]),
        List.takeWhile_cons_of_pos (by simp [hc])]
    rw [← hl] at hlonger
    simp at hlonger
  · rintro ⟨⟨rest,rfl⟩,hends⟩
    refine front_word sep hw (fun c hc => ?_)
    cases rest with
    | nil => cases hc
    | cons d rest =>
      cases hc
      exact hends c rest rfl

theorem following_sep_word {s : α} (hs : sep s = true) {w : List α} (hw : IsWord sep w)
    {l : List α} (hl : ∀ c ∈ l.head?, sep c = true) :
    following sep (s :: (w ++ l)) = w :: following sep l := by
  have hf := front_word sep hw.2 hl
  cases w with
  | nil => exact absurd rfl hw.1
  | cons c w =>
    simp only [following,hs,if_true,hf]
    rw [following_word sep hw.2]

theorem spaced_head {s : α} (hs : sep s = true) (ws : List (List α)) :
    ∀ c ∈ (spaced s ws).head?, sep c = true := by
  intro c hc
  cases ws with
  | nil => simp at hc
  | cons w ws =>
    simp only [spaced_cons,List.head?_cons,Option.mem_def,Option.some.injEq] at hc
    exact hc ▸ hs

theorem following_spaced {s : α} (hs : sep s = true) {ws : List (List α)}
    (hws : ∀ w ∈ ws, IsWord sep w) : following sep (spaced s ws) = ws := by
  induction ws with
  | nil => rfl
  | cons w ws ih =>
    rw [spaced_cons,following_sep_word sep hs (hws w (by simp)) (spaced_head sep hs ws)]
    rw [ih (fun v hv => hws v (by simp [hv]))]

theorem split_front (l : List α) : ∃ pieces, l.splitOnP sep = front sep l :: pieces ∧
    pieces.filter (fun w => !w.isEmpty) = following sep l := by
  induction l with
  | nil => exact ⟨[],by simp [front],rfl⟩
  | cons c l ih =>
    obtain ⟨pieces,hsplit,hpieces⟩ := ih
    rw [List.splitOnP_cons_eq_if_modifyHead,hsplit]
    cases hc : sep c with
    | true =>
      refine ⟨front sep l :: pieces,by simp [front,hc],?_⟩
      rw [following,if_pos hc,List.filter_cons,hpieces]
      cases front sep l <;> simp
    | false =>
      refine ⟨pieces,by simp [front,hc],?_⟩
      rw [following,hc]
      exact hpieces

theorem split_words (l : List α) :
    (l.splitOnP sep).filter (fun w => !w.isEmpty) = words sep l := by
  obtain ⟨pieces,hsplit,hpieces⟩ := split_front sep l
  rw [hsplit,List.filter_cons,hpieces,words]
  cases front sep l <;> simp

theorem words_append_sep {s : α} (hs : sep s = true) (l : List α) :
    words sep (l ++ [s]) = words sep l := by
  rw [← split_words,List.splitOnP_append_cons l [] hs,List.filter_append,split_words]
  simp

theorem following_append_sep {s : α} (hs : sep s = true) (l : List α) :
    following sep (l ++ [s]) = following sep l := by
  obtain ⟨pieces,hsplit,hpieces⟩ := split_front sep l
  obtain ⟨longer,hsplit',hlonger⟩ := split_front sep (l ++ [s])
  rw [List.splitOnP_append_cons l [] hs,hsplit,List.splitOnP_nil,List.cons_append] at hsplit'
  rw [← hlonger,← (List.cons.inj hsplit').2,List.filter_append,hpieces]
  simp

theorem words_cons {c : α} (hc : sep c = false) (l : List α) :
    words sep (c :: l) = front sep (c :: l) :: following sep (c :: l) := by
  have hfront : front sep (c :: l) = c :: front sep l := by simp [front,hc]
  rw [words,hfront]

theorem following_length (l : List α) :
    (following sep l).length + (following sep l).flatten.length + (front sep l).length ≤
      l.length := by
  induction l with
  | nil => simp [following,front]
  | cons c l ih =>
    by_cases hc : sep c = true
    · have hfront : front sep (c :: l) = [] := by simp [front,hc]
      rw [hfront,following,if_pos hc]
      cases hword : front sep l with
      | nil =>
        rw [hword] at ih
        simp only [List.length_nil,List.length_cons] at ih ⊢
        omega
      | cons d w =>
        rw [hword] at ih
        simp only [List.flatten_cons,List.length_append,List.length_nil,List.length_cons] at ih ⊢
        omega
    · have hfront : front sep (c :: l) = c :: front sep l := by simp [front,hc]
      rw [hfront,following,if_neg hc]
      simp only [List.length_cons]
      omega

end Words
