
/-!
A gate that lets one item through at a time, with a gap between two, and that is looked at by a
timer: how long an item can wait before it.
-/

set_option autoImplicit false

namespace Pacing

/-- How many items wait and how many have been let through, the time of the last one, and the last
time at which the timer has looked. -/
structure Gate where
  waiting : Nat
  given : Nat
  last : Nat
  tick : Nat
  deriving DecidableEq, Repr

/-- A look at the gate: the time before it and after it, the items that come with it, and whether
it is one of the timer. -/
structure Look where
  time : Nat
  after : Nat
  added : Nat
  periodic : Bool
  deriving DecidableEq, Repr

def Look.tick (l : Look) (s : Gate) : Nat := if l.periodic then l.time else s.tick

def look (gap : Nat) (s : Gate) (l : Look) : Gate :=
  if s.waiting + l.added = 0 ∨ l.time < s.last + gap then
    { s with waiting := s.waiting + l.added, tick := l.tick s }
  else ⟨s.waiting + l.added - 1,s.given+1,l.after,l.tick s⟩

structure Look.OnTime (bound : Nat) (s : Gate) (l : Look) : Prop where
  tick : s.tick ≤ l.time
  last : s.last ≤ l.time
  after : l.time ≤ l.after
  bound : l.after ≤ s.tick + bound

def Timely (gap bound : Nat) : Gate → List Look → Prop
  | _, [] => True
  | s, l :: looks => l.OnTime bound s ∧ Timely gap bound (look gap s l) looks

theorem timely_append {gap bound : Nat} {s : Gate} {looks looks' : List Look}
    (h : Timely gap bound s looks) (h' : Timely gap bound (looks.foldl (look gap) s) looks') :
    Timely gap bound s (looks ++ looks') := by
  induction looks generalizing s with
  | nil => exact h'
  | cons l looks ih => exact ⟨h.1,ih h.2 h'⟩

def Awake (gap : Nat) (s : Gate) : Prop := 0 < s.waiting → s.tick ≤ s.last + gap

section Looks
variable {gap bound : Nat} {s : Gate} {l : Look}

theorem look_given : s.given ≤ (look gap s l).given := by
  unfold look
  split <;> simp

theorem looks_given (looks : List Look) (s : Gate) :
    s.given ≤ (looks.foldl (look gap) s).given := by
  induction looks generalizing s with
  | nil => exact Nat.le_refl _
  | cons l looks ih => exact Nat.le_trans look_given (ih (look gap s l))

theorem look_total : s.given + s.waiting ≤ (look gap s l).given + (look gap s l).waiting := by
  unfold look
  split
  · exact Nat.add_le_add_left (Nat.le_add_right _ _) _
  · rename_i hopen
    have hwaiting : s.waiting + l.added ≠ 0 := fun h => hopen (Or.inl h)
    simp only
    omega

theorem tick_le (hl : l.OnTime bound s) : l.tick s ≤ l.time := by
  unfold Look.tick
  split
  · exact Nat.le_refl _
  · exact hl.tick

theorem look_awake (hl : l.OnTime bound s) : Awake gap (look gap s l) := by
  have htick := tick_le hl
  intro hwaiting
  unfold look at hwaiting ⊢
  by_cases hclosed : s.waiting + l.added = 0 ∨ l.time < s.last + gap
  · rw [if_pos hclosed] at hwaiting ⊢
    rcases hclosed with hnone | hearly
    · simp only at hwaiting
      omega
    · exact Nat.le_trans htick (Nat.le_of_lt hearly)
  · -- The gap begins again, after the look.
    rw [if_neg hclosed] at hwaiting ⊢
    exact Nat.le_trans htick (Nat.le_trans hl.after (Nat.le_add_right _ _))

theorem look_last (hl : l.OnTime bound s) (hs : Awake gap s) (hwaiting : 0 < s.waiting) :
    (look gap s l).given = s.given ∧ (look gap s l).last = s.last ∨
      (look gap s l).given = s.given+1 ∧ (look gap s l).last ≤ s.last + (gap+bound) := by
  unfold look
  split
  · exact .inl ⟨rfl,rfl⟩
  · have htick := hs hwaiting
    have hbound := hl.bound
    refine .inr ⟨rfl,?_⟩
    simp only
    omega

theorem looks_awake {looks : List Look} {s : Gate} (hlooks : Timely gap bound s looks)
    (hs : Awake gap s) : Awake gap (looks.foldl (look gap) s) := by
  induction looks generalizing s with
  | nil => exact hs
  | cons l looks ih => exact ih hlooks.2 (look_awake hlooks.1)

/-- Induction on the looks. An item with `k` items before it is let through within `k+1` gaps, each
of them longer by the time that the timer can take. -/
theorem latency (looks : List Look) {s : Gate} (hs : Awake gap s)
    (hlooks : Timely gap bound s looks) {k : Nat} (hk : k < s.waiting) :
    s.given + k < (looks.foldl (look gap) s).given ∨
      (looks.foldl (look gap) s).tick ≤ s.last + k*(gap+bound) + gap := by
  induction looks generalizing s k with
  | nil =>
    have htick := hs (Nat.zero_lt_of_lt hk)
    refine .inr ?_
    rw [List.foldl_nil]
    omega
  | cons l looks ih =>
    obtain ⟨hl,hrest⟩ := hlooks
    have hs₁ := @look_awake gap _ _ _ hl
    have htotal := @look_total gap s l
    rw [List.foldl_cons]
    rcases look_last hl hs (Nat.zero_lt_of_lt hk) with ⟨hgiven,hlast⟩ | ⟨hgiven,hlast⟩
    · have hk₁ : k < (look gap s l).waiting := by omega
      rw [← hgiven,← hlast]
      exact ih hs₁ hrest hk₁
    · cases k with
      | zero =>
        have hmore := @looks_given gap looks (look gap s l)
        refine .inl ?_
        omega
      | succ k =>
        have hk₁ : k < (look gap s l).waiting := by omega
        rcases ih hs₁ hrest hk₁ with hthrough | hwaits
        · refine .inl ?_
          omega
        · refine .inr (Nat.le_trans hwaits ?_)
          rw [Nat.succ_mul]
          omega

end Looks

end Pacing
