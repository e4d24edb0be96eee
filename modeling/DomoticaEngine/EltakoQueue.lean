import Mathlib.Data.List.Chain
import DomoticaEngine.Eltako

/-!
The send queue of the Eltako technology over any run of messages and timer ticks.
-/

set_option autoImplicit false

namespace DomoticaEngine

inductive EltakoInput where
  | send (msg : EltakoMessage)
  | tick
  deriving DecidableEq, Repr

def eltakoStep (eltako : Eltako) : EltakoInput → Eltako
  | .send msg => eltakoSend eltako msg
  | .tick => eltakoCheckSendQueue eltako

/-- The messages passed to `eltako_send`. -/
def sentMessages (inputs : List EltakoInput) : List EltakoMessage :=
  inputs.filterMap (fun
    | .send msg => some msg
    | .tick => none)

structure Transmission where
  msg : EltakoMessage
  admitted : UInt64
  sent : UInt64
  deriving DecidableEq, Repr

def stepTransmissions (eltako eltako' : Eltako) : List Transmission :=
  (eltako'.transmitted.drop eltako.transmitted.length).map
    (fun msg => ⟨msg,(getCurrentTimeMs eltako).1,eltako'.sendLast⟩)

def transmissions : List EltakoInput → Eltako → List Transmission
  | [], _ => []
  | input :: inputs, eltako =>
    stepTransmissions eltako (eltakoStep eltako input) ++
      transmissions inputs (eltakoStep eltako input)

def Spaced (last next : Transmission) : Prop := last.sent.toNat + 190 ≤ next.admitted.toNat

def Eltako.start (clock : Nat → UInt64) : Eltako :=
  { sendQueue := [], sendLast := 0, transmitted := [], clock := clock }

def NonDecreasing (clock : Nat → UInt64) : Prop := ∀ m n, m ≤ n → clock m ≤ clock n

/-- What a look at the queue does: it reads the clock, and sends the first message if there
is one and the last one is not too recent. -/
theorem eltakoCheckSendQueue_cases (eltako : Eltako) :
    (eltakoCheckSendQueue eltako = { eltako with clock := fun n => eltako.clock (n+1) }) ∨
    ∃ msg queue, eltako.sendQueue = msg :: queue ∧ 190 ≤ eltako.clock 0 - eltako.sendLast ∧
      eltakoCheckSendQueue eltako =
        { sendQueue := queue, sendLast := eltako.clock 1,
          transmitted := eltako.transmitted ++ [msg], clock := fun n => eltako.clock (n+2) } := by
  unfold eltakoCheckSendQueue
  simp only [getCurrentTimeMs]
  cases hqueue : eltako.sendQueue with
  | nil => exact .inl rfl
  | cons msg queue =>
    by_cases hearly : eltako.clock 0 - eltako.sendLast < 200-10
    · exact .inl (if_pos hearly)
    · exact .inr ⟨msg,queue,rfl,UInt64.not_lt.mp hearly,if_neg hearly⟩

theorem eltakoCheckSendQueue_keeps (eltako : Eltako) :
    (eltakoCheckSendQueue eltako).transmitted ++ (eltakoCheckSendQueue eltako).sendQueue =
      eltako.transmitted ++ eltako.sendQueue := by
  rcases eltakoCheckSendQueue_cases eltako with h | ⟨msg,queue,hqueue,-,h⟩
  · rw [h]
  · rw [h,hqueue]
    simp

theorem eltakoSend_appends (eltako : Eltako) (msg : EltakoMessage) :
    (eltakoSend eltako msg).transmitted ++ (eltakoSend eltako msg).sendQueue =
      eltako.transmitted ++ eltako.sendQueue ++ [msg] := by
  unfold eltakoSend
  rw [eltakoCheckSendQueue_keeps]
  simp

theorem eltakoStep_conserves (inputs : List EltakoInput) (eltako : Eltako) :
    (inputs.foldl eltakoStep eltako).transmitted ++ (inputs.foldl eltakoStep eltako).sendQueue =
      eltako.transmitted ++ eltako.sendQueue ++ sentMessages inputs := by
  induction inputs generalizing eltako with
  | nil => simp [sentMessages]
  | cons input inputs ih =>
    rw [List.foldl_cons,ih]
    cases input with
    | send msg =>
      have h : eltakoStep eltako (.send msg) = eltakoSend eltako msg := rfl
      rw [h,eltakoSend_appends]
      simp [sentMessages]
    | tick =>
      have h : eltakoStep eltako .tick = eltakoCheckSendQueue eltako := rfl
      rw [h,eltakoCheckSendQueue_keeps]
      simp [sentMessages]

structure OnTime (eltako : Eltako) : Prop where
  clock : NonDecreasing eltako.clock
  last : eltako.sendLast ≤ eltako.clock 0

theorem OnTime.later {eltako : Eltako} (h : OnTime eltako) (k : Nat) :
    NonDecreasing (fun n => eltako.clock (n+k)) :=
  fun m n hmn => h.clock (m+k) (n+k) (by omega)

/-- A step transmits nothing and leaves the time of the last transmission, or it transmits one
message at least 190 ms after that time. -/
theorem check_onTime {eltako : Eltako} (h : OnTime eltako) :
    OnTime (eltakoCheckSendQueue eltako) ∧
    (((eltakoCheckSendQueue eltako).transmitted = eltako.transmitted ∧
        (eltakoCheckSendQueue eltako).sendLast = eltako.sendLast) ∨
      ∃ msg, (eltakoCheckSendQueue eltako).transmitted = eltako.transmitted ++ [msg] ∧
        eltako.sendLast.toNat + 190 ≤ (eltako.clock 0).toNat) := by
  rcases eltakoCheckSendQueue_cases eltako with hcheck | ⟨msg,queue,-,hlate,hcheck⟩
  · rw [hcheck]
    refine ⟨⟨h.later 1,?_⟩,.inl ⟨rfl,rfl⟩⟩
    exact UInt64.le_trans h.last (h.clock 0 1 (by omega))
  · rw [hcheck]
    refine ⟨⟨h.later 2,h.clock 1 2 (by omega)⟩,.inr ⟨msg,rfl,?_⟩⟩
    have hsub := UInt64.toNat_sub_of_le _ _ h.last
    have hle : (190 : UInt64).toNat ≤ (eltako.clock 0 - eltako.sendLast).toNat := hlate
    have hlast : eltako.sendLast.toNat ≤ (eltako.clock 0).toNat := h.last
    have h190 : (190 : UInt64).toNat = 190 := rfl
    omega

theorem eltakoStep_onTime {eltako : Eltako} (h : OnTime eltako) (input : EltakoInput) :
    OnTime (eltakoStep eltako input) ∧
    ((stepTransmissions eltako (eltakoStep eltako input) = [] ∧
        (eltakoStep eltako input).sendLast = eltako.sendLast) ∨
      ∃ t, stepTransmissions eltako (eltakoStep eltako input) = [t] ∧
        t.sent = (eltakoStep eltako input).sendLast ∧
        eltako.sendLast.toNat + 190 ≤ t.admitted.toNat) := by
  obtain ⟨queued,hqueued,hclock,hlast,htransmitted⟩ : ∃ queued : Eltako,
      eltakoStep eltako input = eltakoCheckSendQueue queued ∧ queued.clock = eltako.clock ∧
      queued.sendLast = eltako.sendLast ∧ queued.transmitted = eltako.transmitted := by
    cases input with
    | send msg => exact ⟨_,rfl,rfl,rfl,rfl⟩
    | tick => exact ⟨_,rfl,rfl,rfl,rfl⟩
  have hq : OnTime queued := ⟨hclock ▸ h.clock,by rw [hclock,hlast]; exact h.last⟩
  obtain ⟨hnext,hcases⟩ := check_onTime hq
  rw [hqueued]
  refine ⟨hnext,?_⟩
  unfold stepTransmissions getCurrentTimeMs
  rw [← htransmitted,← hlast,← hclock]
  rcases hcases with ⟨hsame,hkept⟩ | ⟨msg,hsent,hspaced⟩
  · exact .inl ⟨by simp [hsame],hkept⟩
  · exact .inr ⟨⟨msg,queued.clock 0,(eltakoCheckSendQueue queued).sendLast⟩,by simp [hsent],rfl,
      hspaced⟩

theorem transmissions_spaced (inputs : List EltakoInput) {eltako : Eltako} (h : OnTime eltako) :
    (transmissions inputs eltako).IsChain Spaced ∧
      ∀ t ∈ (transmissions inputs eltako).head?,
        eltako.sendLast.toNat + 190 ≤ t.admitted.toNat := by
  induction inputs generalizing eltako with
  | nil => simp [transmissions]
  | cons input inputs ih =>
    obtain ⟨hnext,hcases⟩ := eltakoStep_onTime h input
    obtain ⟨hchain,hhead⟩ := ih hnext
    rw [transmissions]
    rcases hcases with ⟨hnone,hkept⟩ | ⟨t,hone,hsent,hspaced⟩
    · rw [hnone,List.nil_append,← hkept]
      exact ⟨hchain,hhead⟩
    · rw [hone,List.singleton_append,List.isChain_cons]
      refine ⟨⟨fun t' ht' => ?_,hchain⟩,by simpa using hspaced⟩
      unfold Spaced
      rw [hsent]
      exact hhead t' ht'

theorem transmissions_messages (inputs : List EltakoInput) (eltako : Eltako) :
    eltako.transmitted ++ (transmissions inputs eltako).map Transmission.msg =
      (inputs.foldl eltakoStep eltako).transmitted := by
  induction inputs generalizing eltako with
  | nil => simp [transmissions]
  | cons input inputs ih =>
    have hstep : ∃ msgs, (eltakoStep eltako input).transmitted = eltako.transmitted ++ msgs := by
      have hcheck : ∀ e : Eltako, ∃ msgs,
          (eltakoCheckSendQueue e).transmitted = e.transmitted ++ msgs := by
        intro e
        rcases eltakoCheckSendQueue_cases e with h | ⟨msg,queue,-,-,h⟩
        · exact ⟨[],by rw [h]; simp⟩
        · exact ⟨[msg],by rw [h]⟩
      cases input with
      | send msg => exact hcheck { eltako with sendQueue := eltako.sendQueue ++ [msg] }
      | tick => exact hcheck eltako
    obtain ⟨msgs,hmsgs⟩ := hstep
    rw [List.foldl_cons,← ih,transmissions,hmsgs]
    simp [stepTransmissions,hmsgs,Function.comp_def]

/-- Messages leave in the order in which they were passed to `eltako_send`, none is lost or
sent twice, and each waits for 190 ms after the one before it. -/
theorem eltakoQueue_fifo_spaced (inputs : List EltakoInput) (clock : Nat → UInt64)
    (hclock : NonDecreasing clock) :
    let eltako := inputs.foldl eltakoStep (Eltako.start clock)
    eltako.transmitted ++ eltako.sendQueue = sentMessages inputs ∧
      (transmissions inputs (Eltako.start clock)).map Transmission.msg = eltako.transmitted ∧
      (transmissions inputs (Eltako.start clock)).IsChain Spaced := by
  have hstart : OnTime (Eltako.start clock) := ⟨hclock,by simp [Eltako.start]⟩
  refine ⟨?_,?_,(transmissions_spaced inputs hstart).1⟩
  · simpa [Eltako.start] using eltakoStep_conserves inputs (Eltako.start clock)
  · simpa [Eltako.start] using transmissions_messages inputs (Eltako.start clock)

/-- Two messages at 1000 ms: the second one waits for the tick at 1300 ms. -/
theorem eltakoQueue_fifo_spaced_example :
    let inputs : List EltakoInput :=
      [.send (.dimmer 1 .on 50 1 false),.send (.dimmer 2 .off 0 1 false),.tick]
    let clock : Nat → UInt64 := fun n => if n < 3 then 1000 else 1300
    NonDecreasing clock ∧
    (let eltako := inputs.foldl eltakoStep (Eltako.start clock)
    eltako.transmitted ++ eltako.sendQueue = sentMessages inputs ∧
      (transmissions inputs (Eltako.start clock)).map Transmission.msg = eltako.transmitted ∧
      (transmissions inputs (Eltako.start clock)).IsChain Spaced) := by
  intro inputs clock
  have hclock : NonDecreasing clock := by
    intro m n hmn
    simp only [clock]
    split
    · split <;> decide
    · rw [if_neg (by omega)]
      exact UInt64.le_refl _
  exact ⟨hclock,eltakoQueue_fifo_spaced inputs clock hclock⟩

end DomoticaEngine
