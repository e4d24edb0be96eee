import DomoticaEngine.EventOrder

/-!
Two rules that make the BOOL `r` follow the BOOL `b`, among any other rules.
-/

set_option autoImplicit false

namespace DomoticaEngine
open Turns

/-- Rules `i` and `j` are `IF b SET DO r SET` and `IF b UNSET DO r UNSET`, and no other
rule acts on `r`. -/
structure Mirror (rules : List Rule) (b r : DeviceId) (i j : Nat) : Prop where
  ne : r ≠ b
  setRule : ∃ options, rules[i]? = some ⟨⟨b,.set⟩,[],[⟨.set,r,options⟩]⟩
  unsetRule : ∃ options, rules[j]? = some ⟨⟨b,.unset⟩,[],[⟨.unset,r,options⟩]⟩
  alone : ∀ k rule, rules[k]? = some rule → k ≠ i → k ≠ j →
    ∀ action ∈ rule.actions, action.device ≠ r

def mirrorRule (i j : Nat) (type : EventType) : Nat := if type = .set then i else j

def eventVal (v : Int) : EventType → Int
  | .set => 1
  | .unset => 0
  | _ => v

def valAfter (v : Int) (events : List (Nat × Event)) : Int :=
  events.foldl (fun v item => eventVal v item.2.type) v

@[simp] theorem valAfter_append (v : Int) (events events' : List (Nat × Event)) :
    valAfter v (events ++ events') = valAfter (valAfter v events) events' :=
  List.foldl_append

/-- In a run from `w` to `w'`, `b` takes the value of each of its events when it is
raised, and `r` when it is offered to the rule in charge. -/
def Follows (b r : DeviceId) (dest : EventType → Nat) (w w' : World) : Prop :=
  ∀ vb vr, w.userdata b = .bool ⟨vb⟩ → w.userdata r = .bool ⟨vr⟩ →
    ∃ seg, w'.history = w.history ++ seg ∧
      w'.userdata b = .bool ⟨valAfter vb (raisedOn b seg)⟩ ∧
      w'.userdata r = .bool ⟨valAfter vr (offeredBy b dest seg)⟩

section Follows
variable {b r : DeviceId} {dest : EventType → Nat} {w w₁ w' : World}

theorem Follows.refl (w : World) : Follows b r dest w w :=
  fun _ _ hb hr => ⟨[],by simp,hb,hr⟩

theorem Follows.trans (h : Follows b r dest w w₁) (h' : Follows b r dest w₁ w') :
    Follows b r dest w w' := by
  intro vb vr hb hr
  obtain ⟨s,hs,hb₁,hr₁⟩ := h vb vr hb hr
  obtain ⟨s',hs',hb',hr'⟩ := h' _ _ hb₁ hr₁
  refine ⟨s ++ s',by simp [hs',hs],?_,?_⟩
  · simpa using hb'
  · simpa using hr'

theorem Follows.record {o : Occurrence} (hraised : raisedOn b [o] = [])
    (hoffered : offeredBy b dest [o] = []) : Follows b r dest w (w.record o) := by
  intro vb vr hb hr
  exact ⟨[o],rfl,by rw [hraised]; exact hb,by rw [hoffered]; exact hr⟩

end Follows

/-- What an action does to a BOOL with the value `v`: it changes nothing, or gives the
BOOL the value of the event that it then raises. -/
theorem deviceSet_bool {w : World} {device : DeviceId} {v : Int}
    (h : w.userdata device = .bool ⟨v⟩) (action : Action) (event : Option Event) :
    ∃ v', (∀ trigger, deviceSet trigger device action event w =
        if v = v' then some w
        else trigger ⟨device,if v' = 1 then .set else .unset⟩ (w.setUserdata device (.bool ⟨v'⟩))) ∧
      (v' = v ∨ v' = 0 ∨ v' = 1) ∧ (action.type = .set → v' = 1) ∧
      (action.type = .unset → v' = 0) := by
  refine ⟨boolAfter v action.type,deviceSet_boolAfter h action event,?_,?_,?_⟩
  · unfold boolAfter
    split
    · cases action.type <;> simp [boolCommand]
      omega
    · exact .inl rfl
  · intro hset
    rw [hset]
    rfl
  · intro hunset
    rw [hunset]
    rfl

section Dispatch
variable {b r : DeviceId} {dest : EventType → Nat} {f : Trigger}

/-- What is assumed of the dispatches inside, and shown of the one around them: from
the point where its event has been recorded, `r` follows `b`. -/
def DispatchFollows (b r : DeviceId) (dest : EventType → Nat) (f : Trigger) : Prop :=
  ∀ e w w', f e w = some w' → ∃ n, Follows b r dest (w.record (.raised n e)) w'

theorem DispatchFollows.other (hf : DispatchFollows b r dest f) {e : Event} {w w' : World}
    (he : e.device ≠ b) (h : f e w = some w') : Follows b r dest w w' := by
  obtain ⟨n,hn⟩ := hf e w w' h
  exact (Follows.record (by simp [raisedOn,he]) rfl).trans hn

theorem actionExecute_follows_b (hf : DispatchFollows b r dest f) (hne : r ≠ b)
    {action : Action} (hb : action.device = b) {event : Option Event} {w w' : World}
    (h : actionExecute f action event w = some w') : Follows b r dest w w' := by
  intro vb vr hvb hvr
  obtain ⟨v',hrun,hv',-,-⟩ := deviceSet_bool hvb action event
  rw [actionExecute,hb,hrun] at h
  by_cases heq : vb = v'
  · rw [if_pos heq] at h
    cases h
    exact Follows.refl w vb vr hvb hvr
  · rw [if_neg heq] at h
    obtain ⟨n,hn⟩ := hf _ _ _ h
    obtain ⟨s,hs,hb',hr'⟩ := hn v' vr (by simp) (by simpa [setUserdata_other hne] using hvr)
    refine ⟨.raised n ⟨b,if v' = 1 then .set else .unset⟩ :: s,by simpa using hs,?_,hr'⟩
    have hval : ∀ v, eventVal v (if v' = 1 then .set else .unset) = v' := by
      intro v
      rcases hv' with hv' | hv' | hv'
      · exact absurd hv'.symm heq
      · simp [hv',eventVal]
      · simp [hv',eventVal]
    simpa [raisedOn,valAfter,hval] using hb'

theorem actionExecute_follows (hf : DispatchFollows b r dest f) (hne : r ≠ b)
    {action : Action} (hr : action.device ≠ r) (event : Option Event) (w w' : World)
    (h : actionExecute f action event w = some w') : Follows b r dest w w' := by
  by_cases hb : action.device = b
  · exact actionExecute_follows_b hf hne hb h
  · obtain ⟨w₁,raised,hresume,hframe,-⟩ := deviceSet_spec action.device action event w
    rw [actionExecute,hresume] at h
    have hw₁ : Follows b r dest w w₁ := by
      intro vb vr hvb hvr
      refine ⟨[],by simp [hframe.history],?_,?_⟩
      · exact (hframe.other b (Ne.symm hb)).trans hvb
      · exact (hframe.other r (Ne.symm hr)).trans hvr
    cases raised with
    | none =>
      cases h
      exact hw₁
    | some type => exact hw₁.trans (hf.other hb h)

theorem actionExecute_mirrors (hf : DispatchFollows b r dest f) (hne : r ≠ b)
    {type : EventType} {action : Action} (hr : action.device = r)
    (htype : type = .set ∧ action.type = .set ∨ type = .unset ∧ action.type = .unset)
    {k n : Nat} (hk : k = dest type) {event : Option Event} {w w' : World}
    (h : actionExecute f action event (w.record (.offered n k ⟨b,type⟩)) = some w') :
    Follows b r dest w w' := by
  intro vb vr hvb hvr
  obtain ⟨v',hrun,-,hset,hunset⟩ := deviceSet_bool (w := w.record (.offered n k ⟨b,type⟩))
    hvr action event
  have hval : ∀ v, eventVal v type = v' := by
    intro v
    rcases htype with ⟨rfl,ht⟩ | ⟨rfl,ht⟩
    · exact (hset ht).symm
    · exact (hunset ht).symm
  have hoffer : ∀ s, valAfter vr (offeredBy b dest (.offered n k ⟨b,type⟩ :: s)) =
      valAfter v' (offeredBy b dest s) := by
    intro s
    simp [offeredBy,hk,valAfter,hval]
  rw [actionExecute,hr,hrun] at h
  by_cases heq : vr = v'
  · rw [if_pos heq] at h
    cases h
    refine ⟨[.offered n k ⟨b,type⟩],rfl,hvb,?_⟩
    rw [hoffer,← heq]
    exact hvr
  · rw [if_neg heq] at h
    obtain ⟨s,hs,hb',hr'⟩ := hf.other hne h vb v'
      (by simpa [setUserdata_other (Ne.symm hne)] using hvb) (by simp)
    refine ⟨.offered n k ⟨b,type⟩ :: s,by simpa using hs,hb',?_⟩
    rw [hoffer]
    exact hr'

theorem triggerEventIterCb_follows (hf : DispatchFollows b r dest f) (hne : r ≠ b)
    {rule : Rule} (hrule : ∀ action ∈ rule.actions, action.device ≠ r) (event : Event)
    (w w' : World) (h : triggerEventIterCb f event rule w = some w') : Follows b r dest w w' := by
  unfold triggerEventIterCb at h
  split at h
  · exact Fuel.foldlM_keeps Follows.refl (fun _ _ _ => Follows.trans) _
      (fun action haction s s' hs => actionExecute_follows hf hne (hrule action haction) _ s s' hs)
      w w' h
  · cases h
    exact Follows.refl w

end Dispatch

section Rules
variable {rules : List Rule} {b r : DeviceId} {i j : Nat} {f : Trigger}

theorem Mirror.ne_rule (h : Mirror rules b r i j) : i ≠ j := by
  intro hij
  obtain ⟨o,ho⟩ := h.setRule
  obtain ⟨o',ho'⟩ := h.unsetRule
  rw [hij,ho'] at ho
  simp at ho

theorem offerRule_single (e : Event) (action : Action) (n k : Nat) (event : Event) (w : World) :
    offerRule f n event w (⟨e,[],[action]⟩,k) =
      if e = event then actionExecute f action (some event) (w.record (.offered n k event))
      else some (w.record (.offered n k event)) := by
  simp [offerRule,triggerEventIterCb]

theorem offered_follows {n k : Nat} {event : Event} (w : World)
    (hcase : ¬ (event.device = b ∧ k = mirrorRule i j event.type) ∨
      eventVal 0 event.type ≠ eventVal 1 event.type) :
    Follows b r (mirrorRule i j) w (w.record (.offered n k event)) := by
  intro vb vr hvb hvr
  refine ⟨[.offered n k event],rfl,hvb,?_⟩
  by_cases hin : event.device = b ∧ k = mirrorRule i j event.type
  · have hval := hcase.resolve_left (not_not.mpr hin)
    have hval' : ∀ v, eventVal v event.type = v := by
      intro v
      cases ht : event.type <;> simp [ht,eventVal] at hval ⊢
    simpa [offeredBy,hin,valAfter,hval'] using hvr
  · simpa [offeredBy,hin,valAfter] using hvr

theorem offerRule_setRule (hm : Mirror rules b r i j)
    (hf : DispatchFollows b r (mirrorRule i j) f) {n : Nat} {event : Event} {rule : Rule}
    (hi : rules[i]? = some rule) {w w' : World} (h : offerRule f n event w (rule,i) = some w') :
    Follows b r (mirrorRule i j) w w' := by
  obtain ⟨options,ho⟩ := hm.setRule
  rw [ho] at hi
  cases hi
  rw [offerRule_single] at h
  by_cases he : (⟨b,.set⟩ : Event) = event
  · rw [if_pos he] at h
    subst he
    exact actionExecute_mirrors hf hm.ne rfl (.inl ⟨rfl,rfl⟩) (by simp [mirrorRule]) h
  · rw [if_neg he] at h
    cases h
    refine offered_follows w (.inl fun hc => he ?_)
    have ht : event.type = .set := by
      by_contra hne
      exact hm.ne_rule (by simpa [mirrorRule,hne] using hc.2)
    obtain ⟨device,type⟩ := event
    rw [Event.mk.injEq]
    exact ⟨hc.1.symm,ht.symm⟩

theorem offerRule_unsetRule (hm : Mirror rules b r i j)
    (hf : DispatchFollows b r (mirrorRule i j) f) {n : Nat} {event : Event} {rule : Rule}
    (hj : rules[j]? = some rule) {w w' : World} (h : offerRule f n event w (rule,j) = some w') :
    Follows b r (mirrorRule i j) w w' := by
  have hji := Ne.symm hm.ne_rule
  obtain ⟨options,ho⟩ := hm.unsetRule
  rw [ho] at hj
  cases hj
  rw [offerRule_single] at h
  by_cases he : (⟨b,.unset⟩ : Event) = event
  · rw [if_pos he] at h
    subst he
    exact actionExecute_mirrors hf hm.ne rfl (.inr ⟨rfl,rfl⟩) (by simp [mirrorRule]) h
  · rw [if_neg he] at h
    cases h
    apply offered_follows w
    by_cases hd : event.device = b
    · obtain ⟨device,type⟩ := event
      cases type <;> simp_all [mirrorRule,eventVal]
    · exact .inl (fun hc => hd hc.1)

theorem offerRule_otherRule (hm : Mirror rules b r i j)
    (hf : DispatchFollows b r (mirrorRule i j) f) {n : Nat} {event : Event} {rule : Rule}
    {k : Nat} (hk : rules[k]? = some rule) (hki : k ≠ i) (hkj : k ≠ j) {w w' : World}
    (h : offerRule f n event w (rule,k) = some w') : Follows b r (mirrorRule i j) w w' := by
  have hout : ¬ (event.device = b ∧ k = mirrorRule i j event.type) := by
    rintro ⟨-,hc⟩
    simp only [mirrorRule] at hc
    split at hc
    · exact hki hc
    · exact hkj hc
  have hoffered := offered_follows (n := n) (r := r) w (.inl hout)
  have hrule := hm.alone k rule hk hki hkj
  unfold offerRule at h
  simp only at h
  split at h
  · exact hoffered.trans (triggerEventIterCb_follows hf hm.ne hrule event _ _ h)
  · cases h
    exact hoffered

theorem offerRule_follows (hm : Mirror rules b r i j)
    (hf : DispatchFollows b r (mirrorRule i j) f) {n : Nat} {event : Event} {rule : Rule}
    {k : Nat} (hk : rules[k]? = some rule) {w w' : World}
    (h : offerRule f n event w (rule,k) = some w') : Follows b r (mirrorRule i j) w w' := by
  by_cases hki : k = i
  · subst hki
    exact offerRule_setRule hm hf hk h
  · by_cases hkj : k = j
    · subst hkj
      exact offerRule_unsetRule hm hf hk h
    · exact offerRule_otherRule hm hf hk hki hkj h

theorem engineBody_follows (hm : Mirror rules b r i j)
    (hf : DispatchFollows b r (mirrorRule i j) f) :
    DispatchFollows b r (mirrorRule i j) (engineBody rules f) := by
  intro event w w' h
  refine ⟨w.history.length,?_⟩
  refine Fuel.foldlM_keeps Follows.refl (fun _ _ _ => Follows.trans) _
    (fun entry hentry s s' hs => ?_) _ w' h
  obtain ⟨rule,k⟩ := entry
  have hk : rules[k]? = some rule := by
    have hmem := List.mem_zipIdx_iff_getElem?.mp hentry
    simpa using hmem
  exact offerRule_follows hm hf hk hs

theorem Dispatches.follows (hm : Mirror rules b r i j) {event : Event} {w w' : World}
    (h : Dispatches rules event w w') :
    ∃ n, Follows b r (mirrorRule i j) (w.record (.raised n event)) w' :=
  Fuel.Returns.induct (F := engineBody rules)
    (P := fun e s s' => ∃ n, Follows b r (mirrorRule i j) (s.record (.raised n e)) s')
    (fun _ (hf : DispatchFollows b r (mirrorRule i j) _) => engineBody_follows hm hf) h

end Rules

/-- Every event of a dispatch is offered to every rule. A rule sees the events of a
device in the order in which they were raised exactly when each has been offered to it
before the next is raised; when an earlier rule raises the next one first, the order
changes. A mirror BOOL ends with the value of the last event that was offered to its
rules, so that it agrees with its source when their order was kept. -/
theorem dispatch_order (rules : List Rule) (event : Event) (w w' : World)
    (h : Dispatches rules event w w') :
    ∃ seg, w'.history = w.history ++ seg ∧
      (∀ i < rules.length, ∀ d,
        (offeredTo i d seg).Perm (raisedOn d seg) ∧
        (offeredTo i d seg = raisedOn d seg ↔ InTurn (turns d (fun _ => i) seg))) ∧
      (∀ b r i j, Mirror rules b r i j → ∀ v,
        w.userdata b = .bool ⟨v⟩ → w.userdata r = .bool ⟨v⟩ →
        (event.device = b → eventVal v event.type = v) →
        w'.userdata b = .bool ⟨valAfter v (raisedOn b seg)⟩ ∧
        w'.userdata r = .bool ⟨valAfter v (offeredBy b (mirrorRule i j) seg)⟩ ∧
        (InTurn (turns b (mirrorRule i j) seg) → w'.userdata r = w'.userdata b)) := by
  obtain ⟨seg,hseg,hfin⟩ := h.adds
  refine ⟨seg,hseg,fun i hi d => ?_,?_⟩
  · exact ⟨hfin.offered_perm (fun _ => hi) d,hfin.offered_eq_iff (fun _ => hi) d⟩
  · intro b r i j hm v hb hr hcoherent
    obtain ⟨n,hn⟩ := h.follows hm
    obtain ⟨s,hs,hb',hr'⟩ := hn v v hb hr
    have hsplit : seg = .raised n event :: s := by
      rw [hseg] at hs
      simpa using hs
    have hfirst : valAfter v (raisedOn b seg) = valAfter v (raisedOn b s) := by
      by_cases hd : event.device = b
      · simp [hsplit,raisedOn,hd,valAfter,hcoherent hd]
      · simp [hsplit,raisedOn,hd]
    have hoffer : offeredBy b (mirrorRule i j) seg = offeredBy b (mirrorRule i j) s := by
      simp [hsplit,offeredBy]
    rw [hfirst,hoffer]
    refine ⟨hb',hr',fun hturn => ?_⟩
    have hdest : ∀ type, mirrorRule i j type < rules.length := by
      obtain ⟨_,hset⟩ := hm.setRule
      obtain ⟨_,hunset⟩ := hm.unsetRule
      have hi := (List.getElem?_eq_some_iff.mp hset).1
      have hj := (List.getElem?_eq_some_iff.mp hunset).1
      intro type
      unfold mirrorRule
      split <;> assumption
    have heq := (hfin.offered_eq_iff hdest b).mpr hturn
    rw [hb',hr',← hoffer,heq,hfirst]

/-- BOOLs x, b and r: `IF x SET DO b SET` and the mirror rules. -/
def followingRules : List Rule :=
  [⟨⟨0,.set⟩,[],[⟨.set,1,[]⟩]⟩, ⟨⟨1,.set⟩,[],[⟨.set,2,[]⟩]⟩,
   ⟨⟨1,.unset⟩,[],[⟨.unset,2,[]⟩]⟩]

def allUnset : World := World.start (fun _ => .bool ⟨0⟩)

theorem following_run :
    (engineTriggerEvent followingRules 5 ⟨0,.set⟩ allUnset).map
      (fun w => turns 1 (mirrorRule 1 2) w.history) =
    some [.up (2,⟨1,.set⟩),.over (2,⟨1,.set⟩)] :=
  rfl

theorem following_mirror : Mirror followingRules 1 2 1 2 := by
  refine ⟨by decide,⟨[],rfl⟩,⟨[],rfl⟩,?_⟩
  intro k rule hk hi hj
  have hlt : k < 3 := (List.getElem?_eq_some_iff.mp hk).1
  have hzero : k = 0 := by omega
  subst hzero
  cases hk
  decide

theorem dispatch_order_following :
    ∃ w', Dispatches followingRules ⟨0,.set⟩ allUnset w' ∧ w'.userdata 2 = w'.userdata 1 := by
  obtain ⟨w',hrun,hturns⟩ := Option.map_eq_some_iff.mp following_run
  have hdispatch : Dispatches followingRules ⟨0,.set⟩ allUnset w' := ⟨5,hrun⟩
  obtain ⟨seg,hseg,-,hmirror⟩ := dispatch_order followingRules ⟨0,.set⟩ allUnset w' hdispatch
  have hw' : w'.history = seg := hseg
  rw [hw'] at hturns
  obtain ⟨-,-,hequal⟩ := hmirror 1 2 1 2 following_mirror 0 rfl rfl (by decide)
  exact ⟨w',hdispatch,hequal (by rw [hturns]; exact ⟨rfl,trivial⟩)⟩

/-- A rule on `b SET` that comes before the mirror rules clears `b`. -/
def overtakingRules : List Rule :=
  [⟨⟨0,.set⟩,[],[⟨.set,1,[]⟩]⟩, ⟨⟨1,.set⟩,[],[⟨.unset,1,[]⟩]⟩,
   ⟨⟨1,.set⟩,[],[⟨.set,2,[]⟩]⟩, ⟨⟨1,.unset⟩,[],[⟨.unset,2,[]⟩]⟩]

theorem overtaking_run :
    (engineTriggerEvent overtakingRules 5 ⟨0,.set⟩ allUnset).map
      (fun w => (w.userdata 1,w.userdata 2,raisedOn 1 w.history,offeredTo 2 1 w.history)) =
    some (.bool ⟨0⟩,.bool ⟨1⟩,[(2,⟨1,.set⟩),(5,⟨1,.unset⟩)],
      [(5,⟨1,.unset⟩),(2,⟨1,.set⟩)]) :=
  rfl

theorem untrue_run :
    (engineTriggerEvent followingRules 5 ⟨1,.set⟩ allUnset).map
      (fun w => (w.userdata 1,w.userdata 2)) = some (.bool ⟨0⟩,.bool ⟨1⟩) :=
  rfl

/-- Rule 2 is offered `b UNSET` before `b SET`, and `r` stays set after `b` is cleared. An
event of `b` that does not tell the value of `b` also parts the two. -/
theorem event_overtaken :
    Mirror overtakingRules 1 2 2 3 ∧ allUnset.userdata 1 = allUnset.userdata 2 ∧
      (∃ w', Dispatches overtakingRules ⟨0,.set⟩ allUnset w' ∧
        offeredTo 2 1 w'.history ≠ raisedOn 1 w'.history ∧
        w'.userdata 2 ≠ w'.userdata 1) ∧
      (∃ w', Dispatches followingRules ⟨1,.set⟩ allUnset w' ∧
        w'.userdata 2 ≠ w'.userdata 1) := by
  refine ⟨⟨by decide,⟨[],rfl⟩,⟨[],rfl⟩,?_⟩,rfl,?_,?_⟩
  · intro k rule hk hi hj
    have hlt : k < 4 := (List.getElem?_eq_some_iff.mp hk).1
    have hcases : k = 0 ∨ k = 1 := by omega
    rcases hcases with rfl | rfl
    · cases hk
      decide
    · cases hk
      decide
  · obtain ⟨w',hrun,hobs⟩ := Option.map_eq_some_iff.mp overtaking_run
    simp only [Prod.mk.injEq] at hobs
    obtain ⟨hb,hr,hraised,hoffered⟩ := hobs
    refine ⟨w',⟨5,hrun⟩,?_,?_⟩
    · rw [hoffered,hraised]
      decide
    · rw [hb,hr]
      decide
  · obtain ⟨w',hrun,hobs⟩ := Option.map_eq_some_iff.mp untrue_run
    simp only [Prod.mk.injEq] at hobs
    refine ⟨w',⟨5,hrun⟩,?_⟩
    rw [hobs.1,hobs.2]
    decide

end DomoticaEngine
