import Mathlib.Data.List.Basic

/-!
A text cut into lines, and into pieces of bounded length as a reader with a buffer
gets them.
-/

set_option autoImplicit false

namespace Pieces

variable {α : Type} (stop : α → Bool)

def lines : List α → List (List α)
  | [] => []
  | c :: l =>
    if stop c then [c] :: lines l
    else
      match lines l with
      | [] => [[c]]
      | p :: ps => (c :: p) :: ps

/-- The pieces when the first may have `room` items and each later one `n`. A piece
also ends where a line ends. -/
def cut (n room : Nat) : List α → List (List α)
  | [] => []
  | c :: l =>
    if stop c ∨ room ≤ 1 then [c] :: cut n n l
    else
      match cut n (room-1) l with
      | [] => [[c]]
      | p :: ps => (c :: p) :: ps

def pieces (n : Nat) (l : List α) : List (List α) := cut stop n n l

theorem lines_ne_nil {c : α} {l : List α} : lines stop (c :: l) ≠ [] := by
  unfold lines
  split
  · simp
  · split <;> simp

theorem cut_ne_nil {n room : Nat} {c : α} {l : List α} : cut stop n room (c :: l) ≠ [] := by
  unfold cut
  split
  · simp
  · split <;> simp

theorem mem_lines_ne_nil {l p : List α} (h : p ∈ lines stop l) : p ≠ [] := by
  induction l with
  | nil => simp [lines] at h
  | cons c l ih =>
    unfold lines at h
    split at h
    · rcases List.mem_cons.mp h with rfl | h
      · simp
      · exact ih h
    · split at h
      · simp_all
      · rename_i q qs hq
        rcases List.mem_cons.mp h with rfl | h
        · simp
        · exact ih (hq ▸ List.mem_cons_of_mem q h)

theorem cut_cons {n room : Nat} {c : α} {l p : List α} {ps : List (List α)}
    (hc : ¬ stop c = true) (hroom : ¬ room ≤ 1) (h : cut stop n (room-1) l = p :: ps) :
    cut stop n room (c :: l) = (c :: p) :: ps := by
  simp [cut,hc,hroom,h]

theorem cut_flatten (n room : Nat) (l : List α) : (cut stop n room l).flatten = l := by
  induction l generalizing room with
  | nil => rfl
  | cons c l ih =>
    by_cases hends : stop c = true ∨ room ≤ 1
    · simp [cut,hends,ih]
    · have hrest := ih (room-1)
      rw [cut,if_neg hends]
      cases hcut : cut stop n (room-1) l with
      | nil => simpa [hcut] using hrest
      | cons p ps => simpa [hcut] using hrest

theorem pieces_flatten (n : Nat) (l : List α) : (pieces stop n l).flatten = l :=
  cut_flatten stop n n l

theorem cut_lines (n room : Nat) (l : List α) :
    cut stop n room l =
      match lines stop l with
      | [] => []
      | p :: ps => cut stop n room p ++ ps.flatMap (cut stop n n) := by
  induction l generalizing room with
  | nil => rfl
  | cons c l ih =>
    have hrest : cut stop n n l = (lines stop l).flatMap (cut stop n n) := by
      rw [ih n]
      cases lines stop l <;> rfl
    by_cases hc : stop c = true
    · simp [lines,cut,hc,hrest]
    · cases hl : lines stop l with
      | nil =>
        have hnil : l = [] := by
          cases l with
          | nil => rfl
          | cons d l => exact absurd hl (lines_ne_nil stop)
        subst hnil
        simp [lines,hc]
      | cons p ps =>
        by_cases hroom : room ≤ 1
        · simp [lines,cut,hc,hl,hroom,hrest]
        · have hp : p ≠ [] := mem_lines_ne_nil stop (l := l) (by simp [hl])
          have hcut := ih (room-1)
          rw [hl] at hcut
          simp only at hcut
          obtain ⟨x,xs,hx⟩ : ∃ x xs, cut stop n (room-1) p = x :: xs := by
            cases p with
            | nil => contradiction
            | cons d q => exact List.exists_cons_of_ne_nil (cut_ne_nil stop)
          rw [hx,List.cons_append] at hcut
          rw [cut_cons stop hc hroom hcut]
          simp [lines,hl,hc,cut_cons stop hc hroom hx]

theorem pieces_lines (n : Nat) (l : List α) :
    pieces stop n l = (lines stop l).flatMap (pieces stop n) := by
  unfold pieces
  rw [cut_lines]
  cases lines stop l <;> rfl

theorem cut_line {n : Nat} {s : α} (hs : stop s = true) (line rest : List α)
    (hline : ∀ c ∈ line, stop c = false) (room : Nat) (hroom : line.length < room) :
    cut stop n room (line ++ s :: rest) = (line ++ [s]) :: cut stop n n rest := by
  induction line generalizing room with
  | nil => simp [cut,hs]
  | cons c line ih =>
    have hc := hline c (by simp)
    simp only [List.length_cons] at hroom
    have hrec := ih (fun d hd => hline d (by simp [hd])) (room-1) (by omega)
    exact cut_cons stop (by simp [hc]) (by omega) hrec

theorem pieces_line {n : Nat} {s : α} (hs : stop s = true) (line rest : List α)
    (hline : ∀ c ∈ line, stop c = false) (hn : line.length < n) :
    pieces stop n (line ++ s :: rest) = (line ++ [s]) :: pieces stop n rest :=
  cut_line stop hs line rest hline n hn

theorem cut_full {n : Nat} (line rest : List α) (hline : ∀ c ∈ line, stop c = false) (room : Nat)
    (hroom : line.length = room) (hpos : 0 < room) :
    cut stop n room (line ++ rest) = line :: cut stop n n rest := by
  induction line generalizing room with
  | nil =>
    simp only [List.length_nil] at hroom
    omega
  | cons c line ih =>
    have hc := hline c (by simp)
    simp only [List.length_cons] at hroom
    cases line with
    | nil =>
      have hone : room ≤ 1 := by simpa using Nat.le_of_eq hroom.symm
      simp [cut,hone]
    | cons d line =>
      simp only [List.length_cons] at hroom ih
      have hrec := ih (fun e he => hline e (by simp [he])) (room-1) (by omega) (by omega)
      exact cut_cons stop (by simp [hc]) (by omega) hrec

theorem cut_length {n : Nat} (hn : 0 < n) (l : List α) (room : Nat) (hroom : 0 < room) :
    (∀ p ∈ (cut stop n room l).head?, p.length ≤ room) ∧
      ∀ p ∈ (cut stop n room l).tail, p.length ≤ n := by
  induction l generalizing room with
  | nil => simp [cut]
  | cons c l ih =>
    by_cases hends : stop c = true ∨ room ≤ 1
    · rw [cut,if_pos hends]
      obtain ⟨hhead,htail⟩ := ih n hn
      refine ⟨fun p hp => ?_,fun p hp => ?_⟩
      · cases hp
        exact hroom
      · cases hrest : cut stop n n l with
        | nil => simp [hrest] at hp
        | cons q qs =>
          rw [hrest] at hp hhead htail
          rcases List.mem_cons.mp hp with rfl | hp
          · exact hhead p rfl
          · exact htail p hp
    · rw [cut,if_neg hends]
      obtain ⟨hhead,htail⟩ := ih (room-1) (by omega)
      cases hrest : cut stop n (room-1) l with
      | nil =>
        refine ⟨fun p hp => ?_,by simp⟩
        cases hp
        exact hroom
      | cons q qs =>
        rw [hrest] at hhead htail
        have hq := hhead q rfl
        refine ⟨fun p hp => ?_,htail⟩
        cases hp
        simp only [List.length_cons]
        omega

theorem pieces_length {n : Nat} (hn : 0 < n) {l p : List α} (h : p ∈ pieces stop n l) :
    p.length ≤ n := by
  obtain ⟨hhead,htail⟩ := cut_length stop hn l n hn
  unfold pieces at h
  cases hcut : cut stop n n l with
  | nil => simp [hcut] at h
  | cons q qs =>
    rw [hcut] at h hhead htail
    rcases List.mem_cons.mp h with rfl | h
    · exact hhead p rfl
    · exact htail p h

theorem mem_lines_plain {l p : List α} (h : p ∈ lines stop l) :
    ∀ c ∈ p.dropLast, stop c = false := by
  induction l generalizing p with
  | nil => simp [lines] at h
  | cons c l ih =>
    unfold lines at h
    split at h
    · rcases List.mem_cons.mp h with rfl | h
      · simp
      · exact ih h
    · rename_i hc
      split at h
      · rw [List.mem_singleton.mp h]
        simp
      · rename_i q qs hq
        have hrest : ∀ p ∈ q :: qs, ∀ d ∈ p.dropLast, stop d = false := fun p hp => ih (hq ▸ hp)
        rcases List.mem_cons.mp h with rfl | h
        · intro d hd
          cases q with
          | nil => simp at hd
          | cons e q =>
            rw [List.dropLast_cons_cons] at hd
            rcases List.mem_cons.mp hd with rfl | hd
            · simpa using hc
            · exact hrest _ (by simp) d hd
        · exact hrest p (by simp [h])

theorem lines_line {s : α} (hs : stop s = true) (line : List α)
    (hline : ∀ c ∈ line, stop c = false) : lines stop (line ++ [s]) = [line ++ [s]] := by
  induction line with
  | nil => simp [lines,hs]
  | cons c line ih =>
    have hrec := ih (fun d hd => hline d (by simp [hd]))
    simp [lines,hline c (by simp),hrec]

theorem cut_whole {n : Nat} {p : List α} (hne : p ≠ []) (hp : ∀ c ∈ p.dropLast, stop c = false)
    (room : Nat) (hroom : p.length ≤ room) : cut stop n room p = [p] := by
  induction p generalizing room with
  | nil => contradiction
  | cons c l ih =>
    cases l with
    | nil => by_cases hends : stop c = true ∨ room ≤ 1 <;> simp [cut,hends]
    | cons d l =>
      simp only [List.length_cons] at hroom ih
      rw [List.dropLast_cons_cons] at hp
      have hc := hp c (by simp)
      have hrec := ih (by simp) (fun e he => hp e (by simp [he])) (room-1) (by omega)
      exact cut_cons stop (by simp [hc]) (by omega) hrec

theorem pieces_whole {n : Nat} {l p : List α} (h : p ∈ lines stop l) (hn : p.length ≤ n) :
    pieces stop n p = [p] :=
  cut_whole stop (mem_lines_ne_nil stop h) (mem_lines_plain stop h) n hn

theorem pieces_part {n : Nat} (hpos : 0 < n) {l p : List α} (h : p ∈ lines stop l)
    (hn : ¬ p.length ≤ n) : ∃ q qs, pieces stop n p = q :: qs ∧ q ≠ p := by
  obtain ⟨c,p',rfl⟩ := List.exists_cons_of_ne_nil (mem_lines_ne_nil stop h)
  obtain ⟨q,qs,hcut⟩ := List.exists_cons_of_ne_nil
    (show pieces stop n (c :: p') ≠ [] from cut_ne_nil stop)
  refine ⟨q,qs,hcut,?_⟩
  rintro rfl
  exact hn (pieces_length stop hpos (l := c :: p') (by simp [hcut]))

theorem cut_stop {n : Nat} {s : α} (hs : stop s = true) (front rest : List α) (room : Nat) :
    cut stop n room (front ++ s :: rest) = cut stop n room (front ++ [s]) ++ cut stop n n rest := by
  induction front generalizing room with
  | nil => simp [cut,hs]
  | cons c front ih =>
    by_cases hends : stop c = true ∨ room ≤ 1
    · simp only [List.cons_append,cut,if_pos hends,ih]
    · obtain ⟨p,ps,hcut⟩ : ∃ p ps, cut stop n (room-1) (front ++ [s]) = p :: ps := by
        refine List.exists_cons_of_ne_nil ?_
        cases front <;> exact cut_ne_nil stop
      simp only [List.cons_append,cut,if_neg hends,ih,hcut]

theorem pieces_stop {n : Nat} {s : α} (hs : stop s = true) (front rest : List α) :
    pieces stop n (front ++ s :: rest) = pieces stop n (front ++ [s]) ++ pieces stop n rest :=
  cut_stop stop hs front rest n

end Pieces
