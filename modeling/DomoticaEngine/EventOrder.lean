import DomoticaEngine.Engine
import DomoticaEngine.Library.Turns

set_option autoImplicit false

namespace DomoticaEngine
open Turns

def raisedOn (d : DeviceId) (h : List Occurrence) : List (Nat × Event) :=
  h.filterMap (fun
    | .raised n event => if event.device = d then some (n,event) else none
    | .offered .. => none)

/-- The events of `d` in the order in which they were offered to the rule that `dest`
gives for their type. -/
def offeredBy (d : DeviceId) (dest : EventType → Nat) (h : List Occurrence) :
    List (Nat × Event) :=
  h.filterMap (fun
    | .raised .. => none
    | .offered n i event =>
      if event.device = d ∧ i = dest event.type then some (n,event) else none)

def offeredTo (i : Nat) (d : DeviceId) (h : List Occurrence) : List (Nat × Event) :=
  offeredBy d (fun _ => i) h

@[simp] theorem raisedOn_append (d : DeviceId) (h h' : List Occurrence) :
    raisedOn d (h ++ h') = raisedOn d h ++ raisedOn d h' := List.filterMap_append

@[simp] theorem offeredBy_append (d : DeviceId) (dest : EventType → Nat)
    (h h' : List Occurrence) :
    offeredBy d dest (h ++ h') = offeredBy d dest h ++ offeredBy d dest h' :=
  List.filterMap_append

/-- An event of `d` comes up when it is raised, and is handed over when it is offered
to the rule that `dest` gives for its type. -/
def turns (d : DeviceId) (dest : EventType → Nat) :
    List Occurrence → List (Mark (Nat × Event))
  | [] => []
  | .raised n event :: h =>
    if event.device = d then .up (n,event) :: turns d dest h else turns d dest h
  | .offered n i event :: h =>
    if event.device = d ∧ i = dest event.type then .over (n,event) :: turns d dest h
    else turns d dest h

@[simp] theorem turns_append (d : DeviceId) (dest : EventType → Nat) (h h' : List Occurrence) :
    turns d dest (h ++ h') = turns d dest h ++ turns d dest h' := by
  induction h with
  | nil => rfl
  | cons o h ih =>
    cases o with
    | raised n event => by_cases he : event.device = d <;> simp [turns,he,ih]
    | offered n i event =>
      by_cases he : event.device = d ∧ i = dest event.type <;> simp [turns,he,ih]

theorem ups_turns (d : DeviceId) (dest : EventType → Nat) (h : List Occurrence) :
    ups (turns d dest h) = raisedOn d h := by
  induction h with
  | nil => rfl
  | cons o h ih =>
    cases o with
    | raised n event =>
      by_cases he : event.device = d <;> simpa [turns,he,ups,raisedOn] using ih
    | offered n i event =>
      by_cases he : event.device = d ∧ i = dest event.type <;>
        simpa [turns,he,ups,raisedOn] using ih

theorem overs_turns (d : DeviceId) (dest : EventType → Nat) (h : List Occurrence) :
    overs (turns d dest h) = offeredBy d dest h := by
  induction h with
  | nil => rfl
  | cons o h ih =>
    cases o with
    | raised n event =>
      by_cases he : event.device = d <;> simpa [turns,he,overs,offeredBy] using ih
    | offered n i event =>
      by_cases he : event.device = d ∧ i = dest event.type <;>
        simpa [turns,he,overs,offeredBy] using ih

theorem raised_of_mem {d : DeviceId} {item : Nat × Event} {h : List Occurrence}
    (hitem : item ∈ raisedOn d h) : .raised item.1 item.2 ∈ h := by
  simp only [raisedOn,List.mem_filterMap] at hitem
  obtain ⟨o,ho,heq⟩ := hitem
  cases o with
  | raised n event =>
    simp only [Option.ite_none_right_eq_some,Option.some.injEq] at heq
    obtain ⟨-,rfl⟩ := heq
    exact ho
  | offered n i event => simp at heq

/-- What a finished piece of a run adds to the history: every event it raises, from
number `b` on, has been offered to each of the `N` rules. -/
structure Finished (N b : Nat) (seg : List Occurrence) : Prop where
  numbers : ∀ n event, .raised n event ∈ seg → b ≤ n
  settled : ∀ (d : DeviceId) (dest : EventType → Nat), (∀ type, dest type < N) →
    Settled (turns d dest seg)

theorem Finished.nil (N b : Nat) : Finished N b [] :=
  ⟨by simp,fun _ _ _ => Settled.nil⟩

theorem Finished.append {N b : Nat} {s s' : List Occurrence} (h : Finished N b s)
    (h' : Finished N (b+s.length) s') : Finished N b (s ++ s') := by
  constructor
  · intro n event hmem
    rcases List.mem_append.mp hmem with hs | hs
    · exact h.numbers n event hs
    · have hb := h'.numbers n event hs
      omega
  · intro d dest hdest
    rw [turns_append]
    exact (h.settled d dest hdest).append (h'.settled d dest hdest)

def Adds (N : Nat) (w w' : World) : Prop :=
  ∃ seg, w'.history = w.history ++ seg ∧ Finished N w.history.length seg

theorem Adds.of_history {N : Nat} {w w' : World} (h : w'.history = w.history) : Adds N w w' :=
  ⟨[],by simp [h],Finished.nil N _⟩

theorem Adds.trans {N : Nat} {w w₁ w₂ : World} (h : Adds N w w₁) (h' : Adds N w₁ w₂) :
    Adds N w w₂ := by
  obtain ⟨s,hs,hf⟩ := h
  obtain ⟨s',hs',hf'⟩ := h'
  refine ⟨s ++ s',by rw [hs',hs,List.append_assoc],hf.append ?_⟩
  rw [hs,List.length_append] at hf'
  exact hf'

section Dispatch
variable {N : Nat} {f : Trigger}

theorem actionExecute_adds (hf : ∀ e w w', f e w = some w' → Adds N w w') (action : Action)
    (event : Option Event) (w w' : World) (h : actionExecute f action event w = some w') :
    Adds N w w' := by
  obtain ⟨w₁,raised,hresume,hframe,-⟩ := deviceSet_spec action.device action event w
  rw [actionExecute,hresume] at h
  cases raised with
  | none =>
    simp only [resume,Option.some.injEq] at h
    exact h ▸ Adds.of_history hframe.history
  | some type => exact (Adds.of_history hframe.history).trans (hf _ _ _ h)

theorem triggerEventIterCb_adds (hf : ∀ e w w', f e w = some w' → Adds N w w') (event : Event)
    (rule : Rule) (w w' : World) (h : triggerEventIterCb f event rule w = some w') :
    Adds N w w' := by
  unfold triggerEventIterCb at h
  split at h
  · exact Fuel.foldlM_keeps (fun _ => Adds.of_history rfl) (fun _ _ _ => Adds.trans) _
      (fun action _ s s' hs => actionExecute_adds hf action _ s s' hs) w w' h
  · simp only [Option.some.injEq] at h
    exact h ▸ Adds.of_history rfl

theorem offerRule_adds (hf : ∀ e w w', f e w = some w' → Adds N w w') {n : Nat} {event : Event}
    {w w' : World} {rule : Rule} {i : Nat} (h : offerRule f n event w (rule,i) = some w') :
    Adds N (w.record (.offered n i event)) w' := by
  unfold offerRule at h
  simp only at h
  split at h
  · exact triggerEventIterCb_adds hf event rule _ w' h
  · simp only [Option.some.injEq] at h
    exact h ▸ Adds.of_history rfl

/-- What the walk adds from rule `k` on, when event `n` has been raised before and the
rules before `k` have seen it. -/
structure Walked (N k n b : Nat) (event : Event) (seg : List Occurrence) : Prop where
  numbers : ∀ m event, .raised m event ∈ seg → b ≤ m
  settled : ∀ (d : DeviceId) (dest : EventType → Nat), (∀ type, dest type < N) →
    (event.device ≠ d ∨ dest event.type < k) → Settled (turns d dest seg)
  owing : ∀ (d : DeviceId) (dest : EventType → Nat), (∀ type, dest type < N) →
    event.device = d → k ≤ dest event.type → Owing (n,event) (turns d dest seg)

theorem Walked.cons {k n b : Nat} {event : Event} {s₁ s₂ : List Occurrence} (hn : n < b)
    (hfin : Finished N (b+1) s₁) (hwalk : Walked N (k+1) n (b+1+s₁.length) event s₂) :
    Walked N k n b event (.offered n k event :: (s₁ ++ s₂)) := by
  have hnot : ∀ (d : DeviceId) (dest : EventType → Nat), (n,event) ∉ ups (turns d dest s₁) := by
    intro d dest hmem
    rw [ups_turns] at hmem
    have hb := hfin.numbers n event (raised_of_mem hmem)
    omega
  refine ⟨?_,?_,?_⟩
  · intro m e hm
    rcases List.mem_cons.mp hm with hm | hm
    · cases hm
    · rcases List.mem_append.mp hm with hm | hm
      · have hb := hfin.numbers m e hm
        omega
      · have hb := hwalk.numbers m e hm
        omega
  · -- Nobody waits for this event: the offer leaves no mark.
    intro d dest hdest hcase
    have hno : ¬ (event.device = d ∧ k = dest event.type) := by
      rintro ⟨hd,hki⟩
      rcases hcase with hne | hlt
      · exact hne hd
      · omega
    have hcase' : event.device ≠ d ∨ dest event.type < k+1 := by
      rcases hcase with hne | hlt
      · exact .inl hne
      · exact .inr (by omega)
    simp only [turns,if_neg hno,turns_append]
    exact (hfin.settled d dest hdest).append (hwalk.settled d dest hdest hcase')
  · intro d dest hdest hd hle
    by_cases hki : k = dest event.type
    · simp only [turns,if_pos (And.intro hd hki),turns_append]
      exact Owing.hand ((hfin.settled d dest hdest).append
        (hwalk.settled d dest hdest (.inr (by omega))))
    · have hno : ¬ (event.device = d ∧ k = dest event.type) := fun hc => hki hc.2
      simp only [turns,if_neg hno,turns_append]
      exact Owing.later (hfin.settled d dest hdest) (hnot d dest)
        (hwalk.owing d dest hdest hd (by omega))

theorem ruleListForeachEvent_walked (hf : ∀ e w w', f e w = some w' → Adds N w w')
    {n : Nat} {event : Event} (rules : List Rule) (k : Nat) (hk : k + rules.length = N)
    (w w' : World) (hn : n < w.history.length)
    (h : ruleListForeachEvent f n event (rules.zipIdx k) w = some w') :
    ∃ seg, w'.history = w.history ++ seg ∧ Walked N k n w.history.length event seg := by
  induction rules generalizing k w with
  | nil =>
    have hw : w = w' := by simpa [ruleListForeachEvent] using h
    refine ⟨[],by simp [hw],by simp,fun _ _ _ _ => Settled.nil,?_⟩
    intro d dest hdest _ hle
    have hlt := hdest event.type
    simp only [List.length_nil] at hk
    omega
  | cons rule rules ih =>
    simp only [ruleListForeachEvent,List.zipIdx_cons,List.foldlM_cons,Option.bind_eq_bind] at h
    obtain ⟨w₁,hstep,hrest⟩ := Option.bind_eq_some_iff.mp h
    obtain ⟨s₁,hs₁,hfin⟩ := offerRule_adds hf hstep
    simp only [record_history,List.append_assoc,List.length_append,List.length_cons,
      List.length_nil] at hs₁ hfin
    have hlength : w₁.history.length = w.history.length+1+s₁.length := by
      simp only [hs₁,List.length_append,List.length_cons,List.length_nil]
      omega
    have hk' : k+1+rules.length = N := by
      simp only [List.length_cons] at hk
      omega
    obtain ⟨s₂,hs₂,hwalk⟩ := ih (k+1) hk' w₁ (by omega) hrest
    rw [hlength] at hwalk
    exact ⟨.offered n k event :: (s₁ ++ s₂),by simp [hs₂,hs₁],Walked.cons hn hfin hwalk⟩

end Dispatch

theorem engineBody_adds {rules : List Rule} {f : Trigger}
    (hf : ∀ e w w', f e w = some w' → Adds rules.length w w') (event : Event) (w w' : World)
    (h : engineBody rules f event w = some w') : Adds rules.length w w' := by
  obtain ⟨seg,hseg,hwalk⟩ := ruleListForeachEvent_walked hf rules 0 (by omega)
    (w.record (.raised w.history.length event)) w' (by simp) h
  simp only [record_history,List.append_assoc,List.length_append,List.length_cons,
    List.length_nil] at hseg hwalk
  refine ⟨.raised w.history.length event :: seg,by simpa using hseg,?_,?_⟩
  · intro n e hmem
    rcases List.mem_cons.mp hmem with heq | hmem
    · cases heq
      omega
    · have hb := hwalk.numbers n e hmem
      omega
  · intro d dest hdest
    by_cases hd : event.device = d
    · simp only [turns,if_pos hd]
      exact (hwalk.owing d dest hdest hd (by omega)).settled
    · simp only [turns,if_neg hd]
      exact hwalk.settled d dest hdest (.inl hd)

/-- A dispatch that returns is finished: each event it raised has been offered to
every rule, and no other event has. -/
theorem Dispatches.adds {rules : List Rule} {event : Event} {w w' : World}
    (h : Dispatches rules event w w') : Adds rules.length w w' :=
  Fuel.Returns.induct (P := fun _ w w' => Adds rules.length w w')
    (fun _ hf e s s' hs => engineBody_adds hf e s s' hs) h

theorem Finished.offered_perm {N b : Nat} {seg : List Occurrence} (h : Finished N b seg)
    {dest : EventType → Nat} (hdest : ∀ type, dest type < N) (d : DeviceId) :
    (offeredBy d dest seg).Perm (raisedOn d seg) := by
  have hperm := (h.settled d dest hdest).perm
  rwa [overs_turns,ups_turns] at hperm

/-- The two orders agree when, and only when, each event of the device is offered
before the next one is raised. -/
theorem Finished.offered_eq_iff {N b : Nat} {seg : List Occurrence} (h : Finished N b seg)
    {dest : EventType → Nat} (hdest : ∀ type, dest type < N) (d : DeviceId) :
    offeredBy d dest seg = raisedOn d seg ↔ InTurn (turns d dest seg) := by
  rw [← overs_turns,← ups_turns d dest]
  exact ⟨(h.settled d dest hdest).turn,InTurn.eq⟩

end DomoticaEngine
