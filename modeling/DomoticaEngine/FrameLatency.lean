import DomoticaEngine.EltakoQueue
import DomoticaEngine.Library.Pacing
import DomoticaEngine.Outputs

/-!
How long a frame that a device asks for waits before it is on the bus, in every run of the program
in which the timer of the queue is punctual.
-/

set_option autoImplicit false

namespace DomoticaEngine
open Pacing

/-- The queue as a gate, when its timer has last read `tick` from the clock. -/
def pacedGate (tick : Nat) (eltako : Eltako) : Gate :=
  ⟨eltako.sendQueue.length,eltako.transmitted.length,eltako.sendLast.toNat,tick⟩

def EltakoInput.messages : EltakoInput → List EltakoMessage
  | .send msg => [msg]
  | .tick => []

def EltakoInput.ticked (tick : Nat) (eltako : Eltako) : EltakoInput → Nat
  | .send _ => tick
  | .tick => (eltako.clock 0).toNat

/-- A look at the queue reads the clock once, and once more when it has sent a frame. -/
def lookAt (eltako : Eltako) (input : EltakoInput) : Look :=
  { time := (eltako.clock 0).toNat,
    after := if (eltakoStep eltako input).transmitted = eltako.transmitted then
      (eltako.clock 0).toNat else (eltako.clock 1).toNat,
    added := input.messages.length, periodic := input = .tick }

/-- Each look is over `bound` ms after the last one of the timer at the latest. -/
def TimerPunctual (bound : Nat) : Nat → List EltakoInput → Eltako → Prop
  | _, [], _ => True
  | tick, input :: inputs, eltako => (lookAt eltako input).after ≤ tick + bound ∧
      TimerPunctual bound (input.ticked tick eltako) inputs (eltakoStep eltako input)

def lastTick : Nat → List EltakoInput → Eltako → Nat
  | tick, [], _ => tick
  | tick, input :: inputs, eltako =>
    lastTick (input.ticked tick eltako) inputs (eltakoStep eltako input)

section Queue
variable {eltako : Eltako} {tick bound : Nat}

def EltakoInput.queued (input : EltakoInput) (eltako : Eltako) : Eltako :=
  { eltako with sendQueue := eltako.sendQueue ++ input.messages }

theorem eltakoStep_queued (eltako : Eltako) (input : EltakoInput) :
    eltakoStep eltako input = eltakoCheckSendQueue (input.queued eltako) := by
  cases input with
  | send msg => rfl
  | tick => simp [eltakoStep,EltakoInput.queued,EltakoInput.messages]

theorem eltakoStep_cases (h : OnTime eltako) (input : EltakoInput) :
    ((input.queued eltako).sendQueue = [] ∨
        (eltako.clock 0).toNat < eltako.sendLast.toNat + 190) ∧
      eltakoStep eltako input =
        { input.queued eltako with clock := fun n => eltako.clock (n+1) } ∨
    ∃ msg queue, (input.queued eltako).sendQueue = msg :: queue ∧
      ¬ (eltako.clock 0).toNat < eltako.sendLast.toNat + 190 ∧
      eltakoStep eltako input =
        { sendQueue := queue, sendLast := eltako.clock 1,
          transmitted := eltako.transmitted ++ [msg], clock := fun n => eltako.clock (n+2) } := by
  have hearly : eltako.clock 0 - eltako.sendLast < 200-10 ↔
      (eltako.clock 0).toNat < eltako.sendLast.toNat + 190 := by
    have hsub := UInt64.toNat_sub_of_le _ _ h.last
    have hlast : eltako.sendLast.toNat ≤ (eltako.clock 0).toNat := h.last
    have h190 : (200-10 : UInt64).toNat = 190 := rfl
    rw [UInt64.lt_iff_toNat_lt]
    omega
  rw [eltakoStep_queued,eltakoCheckSendQueue]
  simp only [getCurrentTimeMs]
  cases hqueue : (input.queued eltako).sendQueue with
  | nil => exact .inl ⟨.inl rfl,rfl⟩
  | cons msg queue =>
    by_cases hlt : eltako.clock 0 - eltako.sendLast < 200-10
    · exact .inl ⟨.inr (hearly.mp hlt),if_pos hlt⟩
    · exact .inr ⟨msg,queue,rfl,fun hlate => hlt (hearly.mpr hlate),if_neg hlt⟩

/-- A look of the program is a look at the gate. -/
theorem eltakoStep_look (h : OnTime eltako) (input : EltakoInput) :
    pacedGate (input.ticked tick eltako) (eltakoStep eltako input) =
      look 190 (pacedGate tick eltako) (lookAt eltako input) := by
  have htick : (lookAt eltako input).tick (pacedGate tick eltako) = input.ticked tick eltako := by
    cases input <;> rfl
  have hlength : (pacedGate tick eltako).waiting + (lookAt eltako input).added =
      (input.queued eltako).sendQueue.length := List.length_append.symm
  unfold look
  rw [htick,hlength]
  rcases eltakoStep_cases h input with ⟨hclosed,hstep⟩ | ⟨msg,queue,hqueue,hopen,hstep⟩
  · have hgate : (input.queued eltako).sendQueue.length = 0 ∨
        (lookAt eltako input).time < (pacedGate tick eltako).last + 190 :=
      hclosed.imp_left List.length_eq_zero_iff.mpr
    rw [if_pos hgate,hstep]
    rfl
  · have hgate : ¬ ((input.queued eltako).sendQueue.length = 0 ∨
        (lookAt eltako input).time < (pacedGate tick eltako).last + 190) := by
      rw [hqueue]
      exact fun hclosed => hclosed.elim (by simp) hopen
    rw [if_neg hgate]
    simp [pacedGate,lookAt,hstep,hqueue]

theorem lookAt_onTime (h : OnTime eltako) (htick : tick ≤ (eltako.clock 0).toNat)
    {input : EltakoInput} (hbound : (lookAt eltako input).after ≤ tick + bound) :
    (lookAt eltako input).OnTime bound (pacedGate tick eltako) where
  tick := htick
  last := h.last
  after := by
    have hnext : (eltako.clock 0).toNat ≤ (eltako.clock 1).toNat := h.clock 0 1 (by omega)
    simp only [lookAt]
    split
    · exact Nat.le_refl _
    · exact hnext
  bound := hbound

theorem tick_le_clock (h : OnTime eltako) (htick : tick ≤ (eltako.clock 0).toNat)
    (input : EltakoInput) :
    input.ticked tick eltako ≤ ((eltakoStep eltako input).clock 0).toNat := by
  have hread : input.ticked tick eltako ≤ (eltako.clock 0).toNat := by
    cases input with
    | send msg => exact htick
    | tick => exact Nat.le_refl _
  have hlater : ∀ k, (eltako.clock 0).toNat ≤ (eltako.clock k).toNat :=
    fun k => h.clock 0 k (by omega)
  rcases eltakoStep_cases h input with ⟨-,hstep⟩ | ⟨msg,queue,-,-,hstep⟩
  · rw [hstep]
    exact Nat.le_trans hread (hlater 1)
  · rw [hstep]
    exact Nat.le_trans hread (hlater 2)

def looksAt : List EltakoInput → Eltako → List Look
  | [], _ => []
  | input :: inputs, eltako => lookAt eltako input :: looksAt inputs (eltakoStep eltako input)

structure Ticking (tick : Nat) (eltako : Eltako) : Prop where
  onTime : OnTime eltako
  tick : tick ≤ (eltako.clock 0).toNat

/-- Induction on the looks: the queue goes like the gate. -/
theorem eltako_paced (inputs : List EltakoInput) {eltako : Eltako} {tick : Nat}
    (h : Ticking tick eltako) (hpunctual : TimerPunctual bound tick inputs eltako) :
    Timely 190 bound (pacedGate tick eltako) (looksAt inputs eltako) ∧
      pacedGate (lastTick tick inputs eltako) (inputs.foldl eltakoStep eltako) =
        (looksAt inputs eltako).foldl (look 190) (pacedGate tick eltako) ∧
      Ticking (lastTick tick inputs eltako) (inputs.foldl eltakoStep eltako) := by
  induction inputs generalizing eltako tick with
  | nil => exact ⟨trivial,rfl,h⟩
  | cons input inputs ih =>
    obtain ⟨hbound,hrest⟩ := hpunctual
    obtain ⟨hlooks,hgate,hlast⟩ :=
      ih ⟨(eltakoStep_onTime h.onTime input).1,tick_le_clock h.onTime h.tick input⟩ hrest
    rw [eltakoStep_look h.onTime input] at hlooks hgate
    exact ⟨⟨lookAt_onTime h.onTime h.tick hbound,hlooks⟩,hgate,hlast⟩

end Queue

def Sends (eltako : Eltako) (w : World) : Prop :=
  ∃ msgs : List EltakoMessage, w.eltako = (msgs.map EltakoInput.send).foldl eltakoStep eltako

section Sends
variable {eltako : Eltako} {w w₁ : World} {action : Action}

theorem Sends.send (h : Sends eltako w) (msg : EltakoMessage) : Sends eltako (w.send msg) := by
  obtain ⟨msgs,hmsgs⟩ := h
  refine ⟨msgs ++ [msg],?_⟩
  rw [List.map_append,List.foldl_append,← hmsgs]
  rfl

theorem deviceSet_sends {event : Option Event} (hw : Sends eltako w)
    (h : deviceSet untriggered action.device action event w = some w₁) : Sends eltako w₁ := by
  unfold deviceSet at h
  simp only at h
  split at h
  · cases hdata : w.userdata action.device with
    | bool b =>
      simp only [hdata,boolExec,deviceTriggerEvent,untriggered,ite_self] at h
      cases h
      exact hw
    | fsr14 fsr14 =>
      simp only [hdata,fsr14DeviceExec,deviceTriggerEvent,untriggered] at h
      split at h <;> cases h
      · exact hw
      · exact Sends.send hw _
    | fud14 fud14 =>
      simp only [hdata,fud14DeviceExec,deviceTriggerEvent,untriggered] at h
      split at h <;> cases h
      · exact hw
      · exact Sends.send hw _
    | fsb14 fsb14 =>
      simp only [hdata,fsb14DeviceExec] at h
      cases h
      split
      · exact hw
      · exact hw
      · split
        · exact hw
        · simp only [fsb14Exec]
          split
          · exact hw
          · exact Sends.send hw _
    | timer tmr =>
      simp only [hdata,timerDeviceExec] at h
      cases h
      cases action.type <;> cases tmr.timer <;> exact hw
    | gpo gpio =>
      simp only [hdata,gpioOutputExec] at h
      cases h
      cases action.type <;> exact hw
    | veluxKlf200 klf200 =>
      simp only [hdata,veluxKlf200DeviceExec] at h
      cases h
      cases action.type <;> exact hw
    | schedule schedule | sunriset sr | plain type =>
      simp only [hdata] at h
      cases h
      exact hw
  · cases h
    exact hw

theorem sends_invariant (rules : List Rule) (types : DeviceId → DeviceType) :
    EngineInvariant rules types (Sends eltako) (fun _ _ => True) where
  action := fun _ h _ hset => deviceSet_sends h (deviceSet_quiet hset)
  own := fun _ h _ => h
  record := fun _ h => h
  loop := fun _ h => h
  rule := fun _ _ _ _ _ _ _ _ _ _ _ _ _ _ => trivial

end Sends

/-- The looks at the queue in a callback. The timer makes one, every other callback one for each
frame that is asked for in it. -/
def ProgramInput.looks (input : ProgramInput) (p p' : Program) : List EltakoInput :=
  match input with
  | .queue => [.tick]
  | _ => (p'.world.frames.drop p.world.frames.length).map .send

section Runs
variable {execdir : CString} {rules : List Rule} {bound tick tick' : Nat} {p p' p'' : Program}

theorem sentMessages_sends (msgs : List EltakoMessage) :
    sentMessages (msgs.map EltakoInput.send) = msgs := by
  induction msgs with
  | nil => rfl
  | cons msg msgs ih => exact congrArg (List.cons msg) ih

theorem step_looks {input : ProgramInput} (hstep : ProgramSteps execdir rules input p p') :
    p'.world.eltako = (input.looks p p').foldl eltakoStep p.world.eltako := by
  by_cases hqueue : input = .queue
  · subst hqueue
    obtain ⟨fuel,hstep⟩ := hstep
    cases hstep
    rfl
  · have hholds : Holds (fun d => (p.world.userdata d).deviceType) (Sends p.world.eltako) p.world :=
      ⟨fun _ => rfl,[],rfl⟩
    obtain ⟨msgs,hmsgs⟩ := ((sends_invariant rules _).callback_step hholds (fun _ _ => trivial)
      hqueue hstep).data
    have hframes : p'.world.frames = p.world.frames ++ msgs := by
      have hconserves := eltakoStep_conserves (msgs.map EltakoInput.send) p.world.eltako
      rwa [← hmsgs,sentMessages_sends] at hconserves
    have hlooks : input.looks p p' = msgs.map .send := by
      cases input with
      | queue => exact absurd rfl hqueue
      | _ => simp only [ProgramInput.looks,hframes,List.drop_left]
    rw [hlooks,hmsgs]

variable (execdir rules bound)

/-- A run in which every look at the queue is over `bound` ms after the timer has looked last, at
the latest. The timer has read `tick` before the run and `tick'` at its end. -/
inductive PunctualRun : Nat → Program → Nat → Program → Prop where
  | here {tick : Nat} {p : Program} : PunctualRun tick p tick p
  | step {tick tick' : Nat} {input : ProgramInput} {p p' p'' : Program}
      (hstep : ProgramSteps execdir rules input p p')
      (hpunctual : TimerPunctual bound tick (input.looks p p') p.world.eltako)
      (hrest : PunctualRun (lastTick tick (input.looks p p') p.world.eltako) p' tick' p'') :
      PunctualRun tick p tick' p''

variable {execdir rules bound}

/-- Induction on the run. -/
theorem PunctualRun.paced (hrun : PunctualRun execdir rules bound tick p tick' p')
    (h : Ticking tick p.world.eltako) :
    Ticking tick' p'.world.eltako ∧
    (∃ inputs : List EltakoInput, p'.world.eltako = inputs.foldl eltakoStep p.world.eltako) ∧
    ∃ looks, Timely 190 bound (pacedGate tick p.world.eltako) looks ∧
      pacedGate tick' p'.world.eltako = looks.foldl (look 190) (pacedGate tick p.world.eltako) := by
  induction hrun with
  | here => exact ⟨h,⟨[],rfl⟩,[],trivial,rfl⟩
  | @step tick tick' input p p' p'' hstep hpunctual _ ih =>
    obtain ⟨hlooks,hgate,hnext⟩ := eltako_paced _ h hpunctual
    have hsame := step_looks hstep
    rw [← hsame] at hgate hnext
    obtain ⟨hlast,⟨inputs,hinputs⟩,looks,hpaced,hend⟩ := ih hnext
    rw [hgate] at hpaced hend
    refine ⟨hlast,⟨input.looks p p' ++ inputs,?_⟩,_,timely_append hlooks hpaced,?_⟩
    · rw [List.foldl_append,← hsame]
      exact hinputs
    · rw [List.foldl_append]
      exact hend

theorem sent_inPlace {eltako eltako' : Eltako} {inputs : List EltakoInput}
    (h : eltako' = inputs.foldl eltakoStep eltako) {k : Nat} {msg : EltakoMessage}
    (hk : eltako.sendQueue[k]? = some msg)
    (hsent : eltako.transmitted.length + k < eltako'.transmitted.length) :
    eltako'.transmitted[eltako.transmitted.length+k]? = some msg := by
  have hconserves := eltakoStep_conserves inputs eltako
  rw [← h] at hconserves
  have hlt : k < eltako.sendQueue.length := (List.getElem?_eq_some_iff.mp hk).1
  have hplace := congrArg (fun frames => frames[eltako.transmitted.length+k]?) hconserves
  rw [List.getElem?_append_left hsent] at hplace
  rw [hplace,List.append_assoc,List.getElem?_append_right (Nat.le_add_right _ _),
    Nat.add_sub_cancel_left,List.getElem?_append_left hlt,hk]

/-- In every run in which the timer of the queue is punctual, a frame that waits behind `k` other
frames is sent within `k+1` gaps of 190 ms and the delays of the timer. -/
theorem frames_inTime {clock : Nat → UInt64} (hclock : NonDecreasing clock)
    (hstart : p.world.eltako = Eltako.start clock) {tick₀ : Nat} (hticks : tick₀ ≤ (clock 0).toNat)
    (hbefore : PunctualRun execdir rules bound tick₀ p tick p')
    (hafter : PunctualRun execdir rules bound tick p' tick' p'') {k : Nat} {msg : EltakoMessage}
    (hwaits : p'.world.eltako.sendQueue[k]? = some msg) :
    p''.world.eltako.transmitted[p'.world.eltako.transmitted.length+k]? = some msg ∨
      tick' ≤ p'.world.eltako.sendLast.toNat + k*(190+bound) + 190 := by
  have h : Ticking tick₀ p.world.eltako := by
    rw [hstart]
    exact ⟨⟨hclock,by simp [Eltako.start]⟩,hticks⟩
  have hawake : Awake 190 (pacedGate tick₀ p.world.eltako) := by
    rw [hstart]
    intro hwaiting
    cases hwaiting
  obtain ⟨h',-,looks,hlooks,hgate⟩ := hbefore.paced h
  have hawake' := looks_awake hlooks hawake
  rw [← hgate] at hawake'
  obtain ⟨-,⟨inputs,hinputs⟩,looks',hlooks',hgate'⟩ := hafter.paced h'
  have hlt : k < p'.world.eltako.sendQueue.length := (List.getElem?_eq_some_iff.mp hwaits).1
  rcases latency looks' hawake' hlooks' hlt with hsent | hlate
  · rw [← hgate'] at hsent
    exact .inl (sent_inPlace hinputs hwaits hsent)
  · rw [← hgate'] at hlate
    exact .inr hlate

end Runs

def lampClock (n : Nat) : UInt64 := if n < 3 then 1000 else 1300

def lampHouse : Program :=
  Program.start [⟨"lamp".toList,.fsr14 ⟨1,0⟩⟩]
    { World.start (fun _ => .fsr14 ⟨1,0⟩) with eltako := Eltako.start lampClock }
    (fun _ _ => 0) (fun _ _ => 0)

theorem lampClock_nonDecreasing : NonDecreasing lampClock := by
  intro m n hmn
  unfold lampClock
  split
  · split <;> decide
  · rw [if_neg (by omega)]
    exact UInt64.le_refl _

/-- The frame that switches the lamp off waits at 1000 ms. It is sent before the timer has looked
at 1300 ms. -/
theorem frames_inTime_lamp : ∃ p' p'', PunctualRun [] [] 400 900 lampHouse 900 p' ∧
    PunctualRun [] [] 400 900 p' 1300 p'' ∧
    p''.world.eltako.transmitted[1]? = some (.message 0 0x07 [0x08,0,0,1] 1 0) := by
  have hstart : lampHouse.world.eltako = Eltako.start lampClock := rfl
  obtain ⟨q,p',hset,hunset,hq,hp'⟩ : ∃ q p',
      ProgramSteps [] [] (.house (.command ⟨.set,0,[]⟩)) lampHouse q ∧
      ProgramSteps [] [] (.house (.command ⟨.unset,0,[]⟩)) q p' ∧
      q.world.eltako = ⟨[],1000,[.message 0 0x07 [0x09,0,0,1] 1 0],fun n => lampClock (n+2)⟩ ∧
      p'.world.eltako = ⟨[.message 0 0x07 [0x08,0,0,1] 1 0],1000,
        [.message 0 0x07 [0x09,0,0,1] 1 0],fun n => lampClock (n+3)⟩ :=
    ⟨_,_,⟨1,rfl⟩,⟨1,rfl⟩,rfl,rfl⟩
  have hlooks : (ProgramInput.house (.command ⟨.set,0,[]⟩)).looks lampHouse q =
      [.send (.message 0 0x07 [0x09,0,0,1] 1 0)] := by
    simp only [ProgramInput.looks,World.frames,hq,hstart]
    rfl
  have hlooks' : (ProgramInput.house (.command ⟨.unset,0,[]⟩)).looks q p' =
      [.send (.message 0 0x07 [0x08,0,0,1] 1 0)] := by
    simp only [ProgramInput.looks,World.frames,hq,hp']
    rfl
  have hbefore : PunctualRun [] [] 400 900 lampHouse 900 p' := by
    refine .step hset ?_ (.step hunset ?_ ?_)
    · rw [hlooks,hstart]
      exact ⟨by decide +kernel,trivial⟩
    · rw [hlooks,hlooks',hstart,hq]
      exact ⟨by decide +kernel,trivial⟩
    · rw [hlooks,hlooks']
      exact .here
  obtain ⟨p'',htick⟩ : ∃ p'', ProgramSteps [] [] .queue p' p'' := ⟨_,1,rfl⟩
  have hafter : PunctualRun [] [] 400 900 p' 1300 p'' := by
    refine .step htick ?_ ?_
    · rw [hp']
      exact ⟨by decide +kernel,trivial⟩
    · rw [hp']
      exact .here
  refine ⟨p',p'',hbefore,hafter,?_⟩
  rcases frames_inTime lampClock_nonDecreasing hstart (by decide) hbefore hafter
    (show p'.world.eltako.sendQueue[0]? = _ by rw [hp']; rfl) with hsent | hlate
  · rw [hp'] at hsent
    exact hsent
  · rw [hp'] at hlate
    exact absurd hlate (by decide)

end DomoticaEngine
