import DomoticaEngine.Library.Rounds
import DomoticaEngine.SunrisetTimers

/-!
Who owns the timers of a SUNRISET and their records.
-/

set_option autoImplicit false

namespace DomoticaEngine
open SunState

/-- The timer `t` is the one that the device keeps for the event, and the record is the timer's. -/
structure Held (s : SunState) (se : SunrisetEvent) (t sunevent : Nat) : Prop where
  pointer : s.sr.sunrisetTimers se = some t
  timer : ∃ delay, s.loop.get t = some ⟨delay,.event sunevent⟩
  record : s.heap.get sunevent = some se

/-- Every pointer, every timer and every record is one of three that belong together, and the other
records have been freed once. -/
structure Owned (s : SunState) : Prop where
  pointer : ∀ se t, s.sr.sunrisetTimers se = some t → ∃ sunevent, Held s se t sunevent
  timer : ∀ t delay sunevent, s.loop.get t = some ⟨delay,.event sunevent⟩ →
    ∃ se, Held s se t sunevent
  record : ∀ sunevent se, s.heap.get sunevent = some se → ∃ t, Held s se t sunevent
  nodup : s.freed.Nodup
  freed : ∀ sunevent, sunevent ∈ s.freed ↔
    sunevent < s.heap.next ∧ s.heap.get sunevent = none

structure OthersKept (s s' : SunState) : Prop where
  midnight : s'.sr.midnight = s.sr.midnight
  history : s'.history = s.history
  nextRun : ∀ t delay, s'.loop.get t = some ⟨delay,.nextRun⟩ ↔
    s.loop.get t = some ⟨delay,.nextRun⟩

def SunState.dropped (s : SunState) (se : SunrisetEvent) (t sunevent : Nat) : SunState :=
  { s with
    sr := { s.sr with sunrisetTimers := Function.update s.sr.sunrisetTimers se none }
    loop := s.loop.erase t
    heap := s.heap.erase sunevent
    freed := s.freed ++ [sunevent] }

def SunState.added (s : SunState) (se : SunrisetEvent) (delay : Int) : SunState :=
  { s with
    sr := { s.sr with sunrisetTimers := Function.update s.sr.sunrisetTimers se (some s.loop.next) }
    loop := (s.loop.alloc ⟨delay,.event s.heap.next⟩).2
    heap := (s.heap.alloc se).2 }

section Ownership
variable {s s' s'' : SunState} {se se' : SunrisetEvent} {t t' sunevent sunevent' : Nat}

theorem OthersKept.refl (s : SunState) : OthersKept s s := ⟨rfl,rfl,fun _ _ => Iff.rfl⟩

theorem OthersKept.trans (h : OthersKept s s') (h' : OthersKept s' s'') : OthersKept s s'' :=
  ⟨h'.midnight.trans h.midnight,h'.history.trans h.history,
    fun t delay => (h'.nextRun t delay).trans (h.nextRun t delay)⟩

theorem Held.timer_eq (h : Held s se t sunevent) (h' : Held s se' t' sunevent')
    (heq : se = se') : t = t' := by
  have hpointer := h.pointer
  rw [heq,h'.pointer] at hpointer
  exact (Option.some.inj hpointer).symm

theorem Held.record_eq (h : Held s se t sunevent) (h' : Held s se' t' sunevent')
    (heq : t = t') : sunevent = sunevent' := by
  obtain ⟨delay,htimer⟩ := h.timer
  obtain ⟨delay',htimer'⟩ := h'.timer
  rw [heq,htimer'] at htimer
  cases htimer
  rfl

theorem Held.event_eq (h : Held s se t sunevent) (h' : Held s se' t' sunevent')
    (heq : sunevent = sunevent') : se = se' := by
  have hrecord := h.record
  rw [heq,h'.record] at hrecord
  exact (Option.some.inj hrecord).symm

theorem Held.dropped (h : Held s se t sunevent) (h' : Held s se' t' sunevent') (hne : se' ≠ se) :
    Held (s.dropped se t sunevent) se' t' sunevent' := by
  have ht : t' ≠ t := fun heq => hne (h'.event_eq h (h'.record_eq h heq))
  have hsunevent : sunevent' ≠ sunevent := fun heq => hne (h'.event_eq h heq)
  obtain ⟨delay,htimer⟩ := h'.timer
  refine ⟨?_,⟨delay,?_⟩,?_⟩
  · exact (Function.update_of_ne hne _ _).trans h'.pointer
  · exact (Slots.erase_get.trans (if_neg ht)).trans htimer
  · exact (Slots.erase_get.trans (if_neg hsunevent)).trans h'.record

theorem Owned.dropped (h : Owned s) (hheld : Held s se t sunevent) :
    Owned (s.dropped se t sunevent) where
  pointer se' t' hpointer := by
    have hne : se' ≠ se := by
      rintro rfl
      exact nomatch (Function.update_self _ _ _).symm.trans hpointer
    obtain ⟨sunevent',hheld'⟩ := h.pointer se' t'
      ((Function.update_of_ne hne _ _).symm.trans hpointer)
    exact ⟨sunevent',hheld.dropped hheld' hne⟩
  timer t' delay sunevent' htimer := by
    change (s.loop.erase t).get t' = _ at htimer
    rw [Slots.erase_get] at htimer
    split at htimer
    · cases htimer
    · rename_i hne
      obtain ⟨se',hheld'⟩ := h.timer t' delay sunevent' htimer
      exact ⟨se',hheld.dropped hheld' (fun heq => hne (hheld'.timer_eq hheld heq))⟩
  record sunevent' se' hrecord := by
    change (s.heap.erase sunevent).get sunevent' = _ at hrecord
    rw [Slots.erase_get] at hrecord
    split at hrecord
    · cases hrecord
    · rename_i hne
      obtain ⟨t',hheld'⟩ := h.record sunevent' se' hrecord
      exact ⟨t',hheld.dropped hheld' (fun heq =>
        hne (hheld'.record_eq hheld (hheld'.timer_eq hheld heq)))⟩
  nodup := by
    have hnew : sunevent ∉ s.freed := fun hmem => by
      have hnone := ((h.freed sunevent).mp hmem).2
      rw [hheld.record] at hnone
      cases hnone
    exact List.nodup_append.mpr ⟨h.nodup,List.nodup_singleton _,fun a ha b hb => by
      rw [List.mem_singleton.mp hb]
      exact fun heq => hnew (heq ▸ ha)⟩
  freed sunevent' := by
    change sunevent' ∈ s.freed ++ [sunevent] ↔
      sunevent' < s.heap.next ∧ (s.heap.erase sunevent).get sunevent' = none
    rw [List.mem_append,h.freed,List.mem_singleton,Slots.erase_get]
    by_cases heq : sunevent' = sunevent
    · subst heq
      simp [Slots.lt_of_get hheld.record]
    · simp [heq]

theorem kept_dropped (hheld : Held s se t sunevent) : OthersKept s (s.dropped se t sunevent) := by
  refine ⟨rfl,rfl,fun t' delay => ?_⟩
  change (s.loop.erase t).get t' = _ ↔ _
  rw [Slots.erase_get]
  split
  · rename_i heq
    obtain ⟨delay',htimer⟩ := hheld.timer
    rw [heq,htimer]
    simp
  · exact Iff.rfl

theorem Held.added (h : Held s se' t sunevent) (hne : se' ≠ se) (delay : Int) :
    Held (s.added se delay) se' t sunevent := by
  obtain ⟨delay',htimer⟩ := h.timer
  refine ⟨(Function.update_of_ne hne _ _).trans h.pointer,⟨delay',?_⟩,?_⟩
  · exact (Slots.alloc_get.trans (if_neg (Slots.lt_of_get htimer).ne)).trans htimer
  · exact (Slots.alloc_get.trans (if_neg (Slots.lt_of_get h.record).ne)).trans h.record

theorem held_added (s : SunState) (se : SunrisetEvent) (delay : Int) :
    Held (s.added se delay) se s.loop.next s.heap.next :=
  ⟨Function.update_self _ _ _,⟨delay,Slots.alloc_get_self⟩,Slots.alloc_get_self⟩

theorem Owned.added (h : Owned s) (hnone : s.sr.sunrisetTimers se = none) (delay : Int) :
    Owned (s.added se delay) := by
  have hold : ∀ se' t' sunevent', Held s se' t' sunevent' →
      Held (s.added se delay) se' t' sunevent' := by
    refine fun se' t' sunevent' hheld => hheld.added (fun heq => ?_) delay
    rw [heq] at hheld
    exact nomatch hnone.symm.trans hheld.pointer
  refine ⟨fun se' t' hpointer => ?_,fun t' delay' sunevent' htimer => ?_,
    fun sunevent' se' hrecord => ?_,h.nodup,fun sunevent' => ?_⟩
  · by_cases heq : se' = se
    · subst heq
      cases (Function.update_self _ _ _).symm.trans hpointer
      exact ⟨_,held_added s se' delay⟩
    · obtain ⟨sunevent',hheld⟩ := h.pointer se' t'
        ((Function.update_of_ne heq _ _).symm.trans hpointer)
      exact ⟨sunevent',hold _ _ _ hheld⟩
  · by_cases heq : t' = s.loop.next
    · subst heq
      cases Slots.alloc_get_self.symm.trans htimer
      exact ⟨se,held_added s se delay⟩
    · obtain ⟨se',hheld⟩ := h.timer t' delay' sunevent'
        ((Slots.alloc_get.trans (if_neg heq)).symm.trans htimer)
      exact ⟨se',hold _ _ _ hheld⟩
  · by_cases heq : sunevent' = s.heap.next
    · subst heq
      cases Slots.alloc_get_self.symm.trans hrecord
      exact ⟨_,held_added s se delay⟩
    · obtain ⟨t',hheld⟩ := h.record sunevent' se'
        ((Slots.alloc_get.trans (if_neg heq)).symm.trans hrecord)
      exact ⟨t',hold _ _ _ hheld⟩
  · change sunevent' ∈ s.freed ↔
      sunevent' < s.heap.next+1 ∧ (s.heap.alloc se).2.get sunevent' = none
    rw [h.freed,Slots.alloc_get]
    by_cases heq : sunevent' = s.heap.next
    · simp [heq]
    · rw [if_neg heq]
      refine and_congr_left (fun _ => ?_)
      omega

theorem kept_added (s : SunState) (se : SunrisetEvent) (delay : Int) :
    OthersKept s (s.added se delay) := by
  refine ⟨rfl,rfl,fun t' delay' => ?_⟩
  change (s.loop.alloc _).2.get t' = _ ↔ _
  rw [Slots.alloc_get]
  split
  · rename_i heq
    rw [heq,s.loop.fresh _ (Nat.le_refl _)]
    simp
  · exact Iff.rfl

theorem giveUp_some {delay : Int} (htimer : s.loop.get t = some ⟨delay,.event sunevent⟩)
    (hrecord : s.heap.get sunevent = some se) :
    s.giveUp t = some { s with
      loop := s.loop.erase t
      heap := s.heap.erase sunevent
      freed := s.freed ++ [sunevent] } := by
  have huserdata : s.getUserdata t = some sunevent := by
    unfold SunState.getUserdata
    rw [htimer]
  have hfree : s.free sunevent =
      some { s with heap := s.heap.erase sunevent, freed := s.freed ++ [sunevent] } := by
    rw [SunState.free,Slots.free_live hrecord]
    rfl
  unfold SunState.giveUp
  rw [huserdata,Option.bind_eq_bind,Option.bind_some,hfree,Option.bind_eq_bind,Option.bind_some]
  rw [SunState.destroy,Slots.free_live htimer]
  rfl

theorem dropTimer_some (h : Owned s) (se : SunrisetEvent) :
    ∃ s', s.dropTimer se = some s' ∧ Owned s' ∧ OthersKept s s' ∧
      (∀ se', se' ≠ se → s'.sr.sunrisetTimers se' = s.sr.sunrisetTimers se') ∧
      s'.sr.sunrisetTimers se = none := by
  unfold SunState.dropTimer
  cases hpointer : s.sr.sunrisetTimers se with
  | none => exact ⟨s,rfl,h,.refl s,fun _ _ => rfl,hpointer⟩
  | some t =>
    obtain ⟨sunevent,hheld⟩ := h.pointer se t hpointer
    obtain ⟨delay,htimer⟩ := hheld.timer
    refine ⟨s.dropped se t sunevent,?_,h.dropped hheld,kept_dropped hheld,
      fun _ hne => Function.update_of_ne hne _ _,Function.update_self _ _ _⟩
    change (s.giveUp t).map _ = _
    rw [giveUp_some htimer hheld.record]
    rfl

/-- Whether a timer is pending after `sunriset_create_event_timer`. -/
def timerAfter (clock : Option (Int × Int)) (before : Bool) : Bool :=
  match clock with
  | none => before
  | some (ct,et) => et > ct

structure TimerStep (se : SunrisetEvent) (after : Bool) (s s' : SunState) : Prop where
  owned : Owned s'
  kept : OthersKept s s'
  others : ∀ se', se' ≠ se → s'.sr.sunrisetTimers se' = s.sr.sunrisetTimers se'
  pending : (s'.sr.sunrisetTimers se).isSome = after

theorem sunrisetCreateEventTimer_step (h : Owned s) (se : SunrisetEvent)
    (clock : Option (Int × Int)) :
    ∃ s', s.sunrisetCreateEventTimer se clock = some s' ∧
      TimerStep se (timerAfter clock (s.sr.sunrisetTimers se).isSome) s s' := by
  cases clock with
  | none => exact ⟨s,rfl,h,.refl s,fun _ _ => rfl,rfl⟩
  | some times =>
    obtain ⟨ct,et⟩ := times
    obtain ⟨s₁,hs₁,howned,hkept,hothers,hnone⟩ := dropTimer_some h se
    simp only [SunState.sunrisetCreateEventTimer,hs₁,Option.bind_eq_bind,Option.bind_some]
    by_cases hlater : et > ct
    · refine ⟨s₁.added se ((et-ct)*1000),if_pos hlater,howned.added hnone _,
        hkept.trans (kept_added _ _ _),fun se' hne => ?_,?_⟩
      · exact (Function.update_of_ne hne _ _).trans (hothers se' hne)
      · change Option.isSome (Function.update s₁.sr.sunrisetTimers se _ se) = decide (et > ct)
        rw [Function.update_self,decide_eq_true hlater]
        rfl
    · refine ⟨s₁,if_neg hlater,howned,hkept,hothers,?_⟩
      change _ = decide (et > ct)
      rw [hnone,decide_eq_false hlater]
      rfl

theorem createEventTimers_step (h : Owned s) (clock : SunrisetEvent → Option (Int × Int))
    {events : List SunrisetEvent} (hnodup : events.Nodup) :
    ∃ s', events.foldlM (fun s se => s.sunrisetCreateEventTimer se (clock se)) s = some s' ∧
      Owned s' ∧ OthersKept s s' ∧ ∀ se, (s'.sr.sunrisetTimers se).isSome =
        if se ∈ events then timerAfter (clock se) (s.sr.sunrisetTimers se).isSome
        else (s.sr.sunrisetTimers se).isSome := by
  induction events generalizing s with
  | nil => exact ⟨s,rfl,h,.refl s,fun se => by simp⟩
  | cons se events ih =>
    obtain ⟨hfirst,hnodup⟩ := List.nodup_cons.mp hnodup
    obtain ⟨s₁,hs₁,hstep⟩ := sunrisetCreateEventTimer_step h se (clock se)
    obtain ⟨s',hs',howned,hkept,hpending⟩ := ih hstep.owned hnodup
    refine ⟨s',?_,howned,hstep.kept.trans hkept,fun se' => ?_⟩
    · rw [List.foldlM_cons,hs₁]
      exact hs'
    · rw [hpending]
      by_cases heq : se' = se
      · subst heq
        rw [if_neg hfirst,if_pos List.mem_cons_self,hstep.pending]
      · rw [hstep.others se' heq]
        simp [heq]

theorem Owned.congr (h : Owned s) (hpointers : s'.sr.sunrisetTimers = s.sr.sunrisetTimers)
    (hloop : ∀ t delay sunevent, s'.loop.get t = some ⟨delay,.event sunevent⟩ ↔
      s.loop.get t = some ⟨delay,.event sunevent⟩)
    (hheap : s'.heap = s.heap) (hfreed : s'.freed = s.freed) : Owned s' := by
  have hheld : ∀ {se t sunevent}, Held s se t sunevent → Held s' se t sunevent := by
    intro se t sunevent hheld
    obtain ⟨delay,htimer⟩ := hheld.timer
    exact ⟨hpointers ▸ hheld.pointer,⟨delay,(hloop t delay sunevent).mpr htimer⟩,
      hheap ▸ hheld.record⟩
  refine ⟨fun se t hpointer => ?_,fun t delay sunevent htimer => ?_,fun sunevent se hrecord => ?_,
    hfreed ▸ h.nodup,fun sunevent => ?_⟩
  · obtain ⟨sunevent,hold⟩ := h.pointer se t (hpointers ▸ hpointer)
    exact ⟨sunevent,hheld hold⟩
  · obtain ⟨se,hold⟩ := h.timer t delay sunevent ((hloop t delay sunevent).mp htimer)
    exact ⟨se,hheld hold⟩
  · obtain ⟨t,hold⟩ := h.record sunevent se (hheap ▸ hrecord)
    exact ⟨t,hheld hold⟩
  · rw [hfreed,hheap]
    exact h.freed sunevent

theorem Owned.mark (h : Owned s) (m : SunMark) : Owned (s.mark m) :=
  h.congr rfl (fun _ _ _ => Iff.rfl) rfl rfl

theorem Owned.currentState (h : Owned s) : Owned s.sunrisetCurrentState :=
  h.congr rfl (fun _ _ _ => Iff.rfl) rfl rfl

end Ownership

/-- Whether a timer is pending after `sunriset_calculate`. -/
def SunClock.pending (clock : SunClock) (se : SunrisetEvent) (before : Bool) : Bool :=
  if clock.calculate then timerAfter (clock.event se) before else before

def FlagsCurrent (s : SunState) : Prop :=
  s.sr.flags = sunrisetFlags (fun se => (s.sr.sunrisetTimers se).isSome)

structure SunInvariant (s : SunState) : Prop where
  owned : Owned s
  midnight : ∀ t, s.sr.midnight = some t ↔ ∃ delay, s.loop.get t = some ⟨delay,.nextRun⟩
  flags : FlagsCurrent s
  once : ∀ se, Rounds.Once .calculate (.raise se) s.history
  unseen : ∀ se t, s.sr.sunrisetTimers se = some t →
    Rounds.Unseen .calculate (.raise se) s.history

/-- What `sunriset_calculate` does. -/
structure SunCalculates (clock : SunClock) (s s' : SunState) : Prop where
  owned : Owned s'
  midnight : s'.sr.midnight = s.sr.midnight
  nextRun : ∀ t delay, s'.loop.get t = some ⟨delay,.nextRun⟩ ↔
    s.loop.get t = some ⟨delay,.nextRun⟩
  flags : FlagsCurrent s → FlagsCurrent s'
  history : s'.history = s.history ++ if clock.calculate then [.calculate] else []
  pending : ∀ se, (s'.sr.sunrisetTimers se).isSome =
    clock.pending se (s.sr.sunrisetTimers se).isSome

section Invariant
variable {s s' : SunState} {t : Nat}

theorem sunrisetEvents_nodup : sunrisetEvents.Nodup := by decide

theorem mem_sunrisetEvents (se : SunrisetEvent) : se ∈ sunrisetEvents := by
  cases se <;> decide

theorem sunrisetCalculate_some (h : Owned s) (clock : SunClock) :
    ∃ s', s.sunrisetCalculate clock = some s' ∧ SunCalculates clock s s' := by
  cases hcalculate : clock.calculate with
  | false =>
    refine ⟨s,by simp [SunState.sunrisetCalculate,hcalculate],h,rfl,fun _ _ => Iff.rfl,id,?_,
      fun se => ?_⟩
    · simp [hcalculate]
    · simp [SunClock.pending,hcalculate]
  | true =>
    obtain ⟨s₁,hs₁,howned,hkept,hpending⟩ :=
      createEventTimers_step (h.mark .calculate) clock.event sunrisetEvents_nodup
    refine ⟨s₁.sunrisetCurrentState,?_,howned.currentState,hkept.midnight,hkept.nextRun,
      fun _ => rfl,?_,fun se => ?_⟩
    · simp only [SunState.sunrisetCalculate,hcalculate,if_true,hs₁]
      rfl
    · rw [hcalculate,if_pos rfl]
      exact hkept.history
    · rw [SunClock.pending,hcalculate,if_pos rfl]
      exact (hpending se).trans (if_pos (mem_sunrisetEvents se))

theorem sunStep_event {delay : Int} {sunevent : Nat} {se : SunrisetEvent} {clock : SunClock}
    (hheld : Held s se t sunevent) (htimer : s.loop.get t = some ⟨delay,.event sunevent⟩) :
    sunStep ⟨t,clock⟩ s =
      some ((s.mark (.raise se)).dropped se t sunevent).sunrisetCurrentState := by
  have hfree : ((s.mark (.raise se)).setTimer se none).free sunevent =
      some { (s.mark (.raise se)).setTimer se none with
        heap := s.heap.erase sunevent, freed := s.freed ++ [sunevent] } := by
    change (s.heap.free sunevent).map _ = _
    rw [Slots.free_live hheld.record]
    rfl
  simp only [sunStep,htimer,Option.bind_eq_bind,Option.bind_some,SunState.sunrisetEventCallback,
    hheld.record,hfree]
  rfl

theorem Owned.event {sunevent : Nat} {se : SunrisetEvent} (h : Owned s)
    (hheld : Held s se t sunevent) (m : SunMark) :
    Owned ((s.mark m).dropped se t sunevent).sunrisetCurrentState := by
  have hmarked : Held (s.mark m) se t sunevent := ⟨hheld.pointer,hheld.timer,hheld.record⟩
  exact ((h.mark m).dropped hmarked).currentState

theorem SunInvariant.event {sunevent : Nat} {se : SunrisetEvent} (h : SunInvariant s)
    (hheld : Held s se t sunevent) :
    SunInvariant ((s.mark (.raise se)).dropped se t sunevent).sunrisetCurrentState := by
  have hkept := kept_dropped hheld
  refine ⟨h.owned.event hheld _,fun t' => ?_,rfl,fun se' => ?_,fun se' t' hpointer => ?_⟩
  · refine (h.midnight t').trans ⟨fun ⟨delay,htimer⟩ => ⟨delay,?_⟩,fun ⟨delay,htimer⟩ => ⟨delay,?_⟩⟩
    · exact (hkept.nextRun t' delay).mpr htimer
    · exact (hkept.nextRun t' delay).mp htimer
  · exact (h.once se').append (fun heq => SunMark.raise.inj heq ▸ h.unseen se t hheld.pointer)
  · have hne : se' ≠ se := by
      rintro rfl
      exact nomatch (Function.update_self _ _ _).symm.trans hpointer
    have hold : s.sr.sunrisetTimers se' = some t' :=
      (Function.update_of_ne hne _ _).symm.trans hpointer
    exact (h.unseen se' t' hold).append (fun heq => hne (SunMark.raise.inj heq).symm)

theorem SunCalculates.invariant {clock : SunClock} (h : SunCalculates clock s s')
    (hinv : SunInvariant s) : SunInvariant s' := by
  have hmidnight : ∀ t, s'.sr.midnight = some t ↔
      ∃ delay, s'.loop.get t = some ⟨delay,.nextRun⟩ := by
    intro t
    rw [h.midnight,hinv.midnight]
    exact exists_congr (fun delay => (h.nextRun t delay).symm)
  have hhistory := h.history
  cases hcalculate : clock.calculate with
  | false =>
    rw [hcalculate,if_neg (by decide),List.append_nil] at hhistory
    refine ⟨h.owned,hmidnight,h.flags hinv.flags,hhistory ▸ hinv.once,fun se t hpointer => ?_⟩
    have hpending := h.pending se
    rw [SunClock.pending,hcalculate,if_neg (by decide),hpointer] at hpending
    obtain ⟨t',ht'⟩ := Option.isSome_iff_exists.mp hpending.symm
    exact hhistory ▸ hinv.unseen se t' ht'
  | true =>
    rw [hcalculate,if_pos rfl] at hhistory
    refine ⟨h.owned,hmidnight,h.flags hinv.flags,fun se => ?_,fun se t _ => ?_⟩
    · exact hhistory ▸ (hinv.once se).append nofun
    · exact hhistory ▸ Rounds.unseen_mark

def SunState.stopNextRun (s : SunState) (t : Nat) : SunState :=
  { s with sr := { s.sr with midnight := none }, loop := s.loop.erase t }

theorem erase_nextRun {loop : Slots SunTimer} {t' : Nat} {delay delay' : Int} {sunevent : Nat}
    (htimer : loop.get t = some ⟨delay,.nextRun⟩) :
    (loop.erase t).get t' = some ⟨delay',.event sunevent⟩ ↔
      loop.get t' = some ⟨delay',.event sunevent⟩ := by
  rw [Slots.erase_get]
  split
  · rename_i heq
    rw [heq,htimer]
    simp
  · exact Iff.rfl

theorem SunInvariant.stopNextRun (h : SunInvariant s) {delay : Int}
    (htimer : s.loop.get t = some ⟨delay,.nextRun⟩) : SunInvariant (s.stopNextRun t) := by
  have hmidnight := (h.midnight t).mpr ⟨delay,htimer⟩
  refine ⟨h.owned.congr rfl (fun t' delay' sunevent => ?_) rfl rfl,fun t' => ?_,h.flags,h.once,
    h.unseen⟩
  · exact erase_nextRun htimer
  · refine iff_of_false nofun (fun ⟨delay',hget⟩ => ?_)
    change (s.loop.erase t).get t' = _ at hget
    rw [Slots.erase_get] at hget
    split at hget
    · cases hget
    · rename_i hne
      have hmidnight' := (h.midnight t').mpr ⟨delay',hget⟩
      exact hne (Option.some.inj (hmidnight'.symm.trans hmidnight))

theorem SunInvariant.setNextRun (h : SunInvariant s) (hnone : s.sr.midnight = none)
    (clock : SunClock) : SunInvariant (s.sunrisetCalculateNextRun clock) := by
  unfold SunState.sunrisetCalculateNextRun
  cases clock.nextRun with
  | none => exact h
  | some times =>
    have hnew : s.loop.get s.loop.next = none := s.loop.fresh _ (Nat.le_refl _)
    refine ⟨h.owned.congr rfl (fun t' delay sunevent => ?_) rfl rfl,fun t' => ?_,h.flags,h.once,
      h.unseen⟩
    · change (s.loop.alloc _).2.get t' = _ ↔ _
      rw [Slots.alloc_get]
      split
      · rename_i heq
        rw [heq,hnew]
        simp
      · exact Iff.rfl
    · change some s.loop.next = some t' ↔ ∃ delay, (s.loop.alloc _).2.get t' = _
      simp only [Slots.alloc_get]
      by_cases heq : t' = s.loop.next
      · simp [heq]
      · rw [if_neg heq,← h.midnight,hnone]
        simp [Ne.symm heq]

theorem sunStep_nextRun {delay : Int} {clock : SunClock} (h : s.sunrisetCalculate clock = some s')
    (htimer : s.loop.get t = some ⟨delay,.nextRun⟩) (ht : t < s'.loop.next) :
    sunStep ⟨t,clock⟩ s = some ((s'.stopNextRun t).sunrisetCalculateNextRun clock) := by
  simp only [sunStep,htimer,Option.bind_eq_bind,Option.bind_some,SunState.sunrisetNextRunCallback,h]
  unfold SunState.sunrisetCalculateNextRun SunState.stopNextRun
  cases clock.nextRun with
  | none => rfl
  | some times =>
    refine congrArg some ?_
    simp only [Slots.erase_alloc ht.ne]
    rfl

inductive SunBranch (s : SunState) (input : SunInput) : SunState → Prop where
  | event {sunevent : Nat} {se : SunrisetEvent} (hheld : Held s se input.t sunevent) :
      SunBranch s input
        ((s.mark (.raise se)).dropped se input.t sunevent).sunrisetCurrentState
  | nextRun {delay : Int} {s₁ : SunState} (htimer : s.loop.get input.t = some ⟨delay,.nextRun⟩)
      (hcalculates : SunCalculates input.clock s s₁) :
      SunBranch s input ((s₁.stopNextRun input.t).sunrisetCalculateNextRun input.clock)

theorem sunStep_some {input : SunInput} {timer : SunTimer} (h : SunInvariant s)
    (htimer : s.loop.get input.t = some timer) :
    ∃ s', sunStep input s = some s' ∧ SunBranch s input s' := by
  obtain ⟨delay,callback⟩ := timer
  cases callback with
  | event sunevent =>
    obtain ⟨se,hheld⟩ := h.owned.timer _ _ _ htimer
    exact ⟨_,sunStep_event hheld htimer,.event hheld⟩
  | nextRun =>
    obtain ⟨s₁,hs₁,hcalculates⟩ := sunrisetCalculate_some h.owned input.clock
    have ht := Slots.lt_of_get ((hcalculates.nextRun input.t delay).mpr htimer)
    exact ⟨_,sunStep_nextRun hs₁ htimer ht,.nextRun htimer hcalculates⟩

theorem SunBranch.invariant {input : SunInput} (h : SunBranch s input s') (hinv : SunInvariant s) :
    SunInvariant s' := by
  cases h with
  | event hheld => exact hinv.event hheld
  | nextRun htimer hcalculates =>
    have htimer' := (hcalculates.nextRun _ _).mpr htimer
    exact ((hcalculates.invariant hinv).stopNextRun htimer').setNextRun rfl _

theorem sunStep_branch {input : SunInput} (h : SunInvariant s) (hstep : sunStep input s = some s') :
    SunBranch s input s' := by
  obtain ⟨timer,htimer,-⟩ := Option.bind_eq_some_iff.mp hstep
  obtain ⟨s₁,hs₁,hbranch⟩ := sunStep_some h htimer
  cases hs₁.symm.trans hstep
  exact hbranch

theorem zeroed_invariant :
    SunInvariant ⟨⟨⟨false,false,false,false⟩,none,fun _ => none⟩,.empty,.empty,[],[]⟩ := by
  have howned : Owned ⟨⟨⟨false,false,false,false⟩,none,fun _ => none⟩,.empty,.empty,[],[]⟩ :=
    ⟨nofun,nofun,nofun,List.nodup_nil,fun sunevent => iff_of_false List.not_mem_nil
      (fun h => Nat.not_lt_zero _ h.1)⟩
  exact ⟨howned,fun t => iff_of_false nofun (fun ⟨_,h⟩ => nomatch h),rfl,
    fun _ => Rounds.once_nil,nofun⟩

theorem calculateNextRun_keeps (clock : SunClock) (s : SunState) :
    (s.sunrisetCalculateNextRun clock).sr.sunrisetTimers = s.sr.sunrisetTimers ∧
      (s.sunrisetCalculateNextRun clock).history = s.history := by
  unfold SunState.sunrisetCalculateNextRun
  cases clock.nextRun <;> exact ⟨rfl,rfl⟩

theorem sunStart_some (clock : SunClock) :
    ∃ s, sunStart clock = some s ∧ SunInvariant s ∧
      s.history = if clock.calculate then [.calculate] else [] := by
  obtain ⟨s₁,hs₁,hcalculates⟩ := sunrisetCalculate_some zeroed_invariant.owned clock
  refine ⟨s₁.sunrisetCalculateNextRun clock,?_,?_,?_⟩
  · rw [sunStart,hs₁]
    rfl
  · exact (hcalculates.invariant zeroed_invariant).setNextRun hcalculates.midnight clock
  · exact (calculateNextRun_keeps clock s₁).2.trans hcalculates.history

theorem sunRun_invariant {inputs : List SunInput} (h : SunInvariant s)
    (hrun : Runs.after sunStep inputs s = some s') : SunInvariant s' := by
  induction inputs generalizing s with
  | nil =>
    cases hrun
    exact h
  | cons input inputs ih =>
    obtain ⟨s₁,h₁,hrest⟩ := Runs.after_cons.mp hrun
    exact ih ((sunStep_branch h h₁).invariant h) hrest

end Invariant

section Cleanup
variable {s s' : SunState}

def SunState.withTimers (s : SunState) (timers : SunrisetEvent → Option Nat) : SunState :=
  { s with sr := { s.sr with sunrisetTimers := timers } }

theorem cleanupTimer_some {timers : SunrisetEvent → Option Nat} (h : Owned (s.withTimers timers))
    {se : SunrisetEvent} (hpointer : timers se = s.sr.sunrisetTimers se) :
    ∃ s', s.cleanupTimer se = some s' ∧ s'.sr = s.sr ∧ OthersKept s s' ∧
      Owned (s'.withTimers (Function.update timers se none)) := by
  unfold SunState.cleanupTimer
  rw [← hpointer]
  cases htimer : timers se with
  | none =>
    refine ⟨s,rfl,rfl,.refl s,?_⟩
    rw [← htimer,Function.update_eq_self]
    exact h
  | some t =>
    obtain ⟨sunevent,hheld⟩ := h.pointer se t htimer
    obtain ⟨delay,hget⟩ := hheld.timer
    exact ⟨_,giveUp_some hget hheld.record,rfl,⟨rfl,rfl,(kept_dropped hheld).nextRun⟩,
      h.dropped hheld⟩

theorem cleanupTimers_some {events : List SunrisetEvent} (hnodup : events.Nodup)
    {timers : SunrisetEvent → Option Nat} (h : Owned (s.withTimers timers))
    (hleft : ∀ se ∈ events, timers se = s.sr.sunrisetTimers se)
    (hdone : ∀ se, se ∉ events → timers se = none) :
    ∃ s', events.foldlM cleanupTimer s = some s' ∧ OthersKept s s' ∧
      Owned (s'.withTimers (fun _ => none)) := by
  induction events generalizing s timers with
  | nil =>
    have hnone : timers = fun _ => none := funext (fun se => hdone se List.not_mem_nil)
    exact ⟨s,rfl,.refl s,hnone ▸ h⟩
  | cons se events ih =>
    obtain ⟨hfirst,hnodup⟩ := List.nodup_cons.mp hnodup
    obtain ⟨s₁,hs₁,hsr,hkept,howned⟩ := cleanupTimer_some h (hleft se List.mem_cons_self)
    have hleft' : ∀ se' ∈ events,
        Function.update timers se none se' = s₁.sr.sunrisetTimers se' := by
      intro se' hmem
      have hne : se' ≠ se := fun heq => hfirst (heq ▸ hmem)
      rw [Function.update_of_ne hne,hsr]
      exact hleft se' (List.mem_cons_of_mem _ hmem)
    have hdone' : ∀ se', se' ∉ events → Function.update timers se none se' = none := by
      intro se' hmem
      by_cases heq : se' = se
      · rw [heq,Function.update_self]
      · rw [Function.update_of_ne heq]
        exact hdone se' (by simp [heq,hmem])
    obtain ⟨s',hs',hkept',howned'⟩ := ih hnodup howned hleft' hdone'
    refine ⟨s',?_,hkept.trans hkept',howned'⟩
    rw [List.foldlM_cons,hs₁]
    exact hs'

structure CleanedUp (s : SunState) : Prop where
  timers : ∀ t, s.loop.get t = none
  records : ∀ sunevent, s.heap.get sunevent = none
  nodup : s.freed.Nodup
  freed : ∀ sunevent, sunevent ∈ s.freed ↔ sunevent < s.heap.next

theorem cleanedUp_of_owned (h : Owned (s.withTimers (fun _ => none)))
    (hnextRun : ∀ t delay, s.loop.get t ≠ some ⟨delay,.nextRun⟩) : CleanedUp s := by
  have hrecords : ∀ sunevent, s.heap.get sunevent = none := by
    intro sunevent
    by_contra hne
    obtain ⟨se,hse⟩ := Option.ne_none_iff_exists'.mp hne
    obtain ⟨t,hheld⟩ := h.record sunevent se hse
    exact nomatch hheld.pointer
  refine ⟨fun t => ?_,hrecords,h.nodup,fun sunevent => ?_⟩
  · by_contra hne
    obtain ⟨⟨delay,callback⟩,htimer⟩ := Option.ne_none_iff_exists'.mp hne
    cases callback with
    | event sunevent =>
      obtain ⟨se,hheld⟩ := h.timer t delay sunevent htimer
      exact nomatch hheld.pointer
    | nextRun => exact hnextRun t delay htimer
  · exact (h.freed sunevent).trans (and_iff_left (hrecords sunevent))

theorem sunrisetDeviceCleanup_some (h : SunInvariant s) :
    ∃ s', s.sunrisetDeviceCleanup = some s' ∧ CleanedUp s' := by
  obtain ⟨s₁,hs₁,hkept,howned⟩ := cleanupTimers_some sunrisetEvents_nodup h.owned
    (fun _ _ => rfl) (fun se hmem => (hmem (mem_sunrisetEvents se)).elim)
  have hmidnight : ∀ t, s₁.sr.midnight = some t ↔
      ∃ delay, s₁.loop.get t = some ⟨delay,.nextRun⟩ := by
    intro t
    rw [hkept.midnight,h.midnight]
    exact exists_congr (fun delay => (hkept.nextRun t delay).symm)
  unfold SunState.sunrisetDeviceCleanup
  rw [hs₁,Option.bind_eq_bind,Option.bind_some]
  cases ht : s₁.sr.midnight with
  | none =>
    refine ⟨s₁,rfl,cleanedUp_of_owned howned (fun t delay hget => ?_)⟩
    exact nomatch ht.symm.trans ((hmidnight t).mpr ⟨delay,hget⟩)
  | some t =>
    obtain ⟨delay,htimer⟩ := (hmidnight t).mp ht
    refine ⟨{ s₁ with loop := s₁.loop.erase t },?_,cleanedUp_of_owned ?_ ?_⟩
    · change s₁.destroy t = _
      rw [SunState.destroy,Slots.free_live htimer]
      rfl
    · exact howned.congr rfl (fun t' delay' sunevent => erase_nextRun htimer) rfl rfl
    · intro t' delay' hget
      change (s₁.loop.erase t).get t' = _ at hget
      rw [Slots.erase_get] at hget
      split at hget
      · cases hget
      · rename_i hne
        have ht' := (hmidnight t').mpr ⟨delay',hget⟩
        exact hne (Option.some.inj (ht'.symm.trans ht))

end Cleanup

def TimerPending (s : SunState) (se : SunrisetEvent) (t : Nat) : Prop :=
  ∃ delay sunevent, s.loop.get t = some ⟨delay,.event sunevent⟩ ∧ s.heap.get sunevent = some se

/-- One timer at most is pending for an event, the device points to the timers that are pending and
to no other ones, each of them has a live record of its own and there is no other record, the
records that are not live have been freed once, and no event is raised twice between two
calculations. -/
structure TimersOwned (s : SunState) : Prop where
  one : ∀ se t t', TimerPending s se t → TimerPending s se t' → t = t'
  pointer : ∀ se t, s.sr.sunrisetTimers se = some t ↔ TimerPending s se t
  record : ∀ t delay sunevent, s.loop.get t = some ⟨delay,.event sunevent⟩ →
    (s.heap.get sunevent).isSome ∧
      ∀ t' delay', s.loop.get t' = some ⟨delay',.event sunevent⟩ → t' = t
  leak : ∀ sunevent, (s.heap.get sunevent).isSome →
    ∃ t delay, s.loop.get t = some ⟨delay,.event sunevent⟩
  nodup : s.freed.Nodup
  freed : ∀ sunevent, sunevent ∈ s.freed ↔
    sunevent < s.heap.next ∧ s.heap.get sunevent = none
  once : ∀ se, Rounds.Once .calculate (.raise se) s.history

theorem SunInvariant.timersOwned {s : SunState} (h : SunInvariant s) : TimersOwned s := by
  have hpointer : ∀ se t, s.sr.sunrisetTimers se = some t ↔ TimerPending s se t := by
    intro se t
    constructor
    · intro hpointer
      obtain ⟨sunevent,hheld⟩ := h.owned.pointer se t hpointer
      obtain ⟨delay,htimer⟩ := hheld.timer
      exact ⟨delay,sunevent,htimer,hheld.record⟩
    · rintro ⟨delay,sunevent,htimer,hrecord⟩
      obtain ⟨se',hheld⟩ := h.owned.timer t delay sunevent htimer
      cases hheld.record.symm.trans hrecord
      exact hheld.pointer
  refine ⟨fun se t t' ht ht' => ?_,hpointer,fun t delay sunevent htimer => ?_,
    fun sunevent hlive => ?_,h.owned.nodup,h.owned.freed,h.once⟩
  · exact Option.some.inj (((hpointer se t).mpr ht).symm.trans ((hpointer se t').mpr ht'))
  · obtain ⟨se,hheld⟩ := h.owned.timer t delay sunevent htimer
    refine ⟨Option.isSome_of_eq_some hheld.record,fun t' delay' htimer' => ?_⟩
    obtain ⟨se',hheld'⟩ := h.owned.timer t' delay' sunevent htimer'
    exact hheld'.timer_eq hheld (hheld'.event_eq hheld rfl)
  · obtain ⟨se,hse⟩ := Option.isSome_iff_exists.mp hlive
    obtain ⟨t,hheld⟩ := h.owned.record sunevent se hse
    obtain ⟨delay,htimer⟩ := hheld.timer
    exact ⟨t,delay,htimer⟩

/-- In every run, the timers are owned, every timer that is pending can expire, and the device can
be cleaned up, without a record being used or freed that is not live. -/
theorem sunriset_timers_owned (clock : SunClock) (inputs : List SunInput) :
    ∃ s₀, sunStart clock = some s₀ ∧ ∀ s, Runs.after sunStep inputs s₀ = some s →
      TimersOwned s ∧
      (∀ input, (s.loop.get input.t).isSome → (sunStep input s).isSome) ∧
      ∃ s', s.sunrisetDeviceCleanup = some s' ∧ CleanedUp s' := by
  obtain ⟨s₀,hs₀,hinv,-⟩ := sunStart_some clock
  refine ⟨s₀,hs₀,fun s hrun => ?_⟩
  have h := sunRun_invariant hinv hrun
  refine ⟨h.timersOwned,fun input hpending => ?_,sunrisetDeviceCleanup_some h⟩
  obtain ⟨timer,htimer⟩ := Option.isSome_iff_exists.mp hpending
  obtain ⟨s',hs',-⟩ := sunStep_some h htimer
  exact Option.isSome_of_eq_some hs'

/-- A day that is calculated at 05:00, its first event, and a calculation while the other timers are
pending. -/
theorem sunriset_timers_day :
    ∃ s, (sunStart (sunDay 18000)).bind
        (Runs.after sunStep [⟨0,sunDay 21600⟩,⟨8,sunDay 40000⟩]) = some s ∧ TimersOwned s := by
  obtain ⟨s₀,hs₀,h⟩ := sunriset_timers_owned (sunDay 18000) [⟨0,sunDay 21600⟩,⟨8,sunDay 40000⟩]
  have hrun : ((sunStart (sunDay 18000)).bind
      (Runs.after sunStep [⟨0,sunDay 21600⟩,⟨8,sunDay 40000⟩])).isSome := by decide
  rw [hs₀,Option.bind_some] at hrun ⊢
  obtain ⟨s,hs⟩ := Option.isSome_iff_exists.mp hrun
  exact ⟨s,hs,(h s hs).1⟩

end DomoticaEngine
