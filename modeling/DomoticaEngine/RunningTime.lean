import DomoticaEngine.FrameAgreement
import DomoticaEngine.Fsb14Motion

/-!
How long an FSB14 moves: the seconds in its frame and the delay of its timer.
-/

set_option autoImplicit false

namespace DomoticaEngine

/-- The seconds that a frame asks for, as a byte takes them: the option of the action or, without
one, the declared duration. -/
def secondsAsked (fsb14 : DeviceFsb14) (action : Action) : Nat :=
  match actionGetOption action 1 with
  | some option => (atoi option % 256).toNat
  | none => fsb14.duration.toNat % 256

def endedWith (condition : ConditionType) : EventType :=
  if condition = .rising then .up else .down

/-- When the timer of the device expires, the movement has ended: that is the condition which the
rules see, and its event is raised. -/
def EndsMovement (device : DeviceId) (fsb14 : DeviceFsb14) (condition : ConditionType) : Prop :=
  ∀ trigger v, v.userdata device = .fsb14 fsb14 →
    fsb14TimerCallback trigger device v =
      (trigger ⟨device,endedWith condition⟩
        (v.setUserdata device (.fsb14 { fsb14 with condition := endedIn condition }))).map
        (fun w => w.modifyFsb14 device (fun fsb14 =>
          { fsb14 with lastAction := some .stop, timer := none }))

/-- An action has sent one frame, which commands a movement, and armed one timer, which the device
remembers and which ends the movement; it expires when the seconds of the frame are over. -/
def RunningTimeAgrees (device : DeviceId) (w w' : World) : Prop :=
  ∃ fsb14 data1 seconds t, w'.userdata device = .fsb14 fsb14 ∧
    w'.frames = w.frames ++ [.message 0 0x07 [0x08,data1,seconds,0x00] fsb14.address 0] ∧
    moving (movesTo data1) = true ∧ fsb14.condition = movesTo data1 ∧ fsb14.timer = some t ∧
    w'.loop.pending t = some ⟨seconds.toNat*1000,.fsb14Timer,device⟩ ∧
    EndsMovement device fsb14 (movesTo data1)

theorem fsb14Message_seconds (fsb14 : DeviceFsb14) (data1 : UInt8) (action : Action) :
    ∃ seconds, fsb14Message fsb14 data1 action =
        .message 0 0x07 [0x08,data1,seconds,0x00] fsb14.address 0 ∧
      seconds.toNat = secondsAsked fsb14 action := by
  refine ⟨_,rfl,?_⟩
  unfold secondsAsked
  cases actionGetOption action 1 with
  | none => simp
  | some option => simp [ofInt_toNat]

theorem secondsAsked_lt (fsb14 : DeviceFsb14) (action : Action) :
    secondsAsked fsb14 action < 256 := by
  unfold secondsAsked
  split <;> omega

/-- The factor 1000 has three factors 2, so the product in 32 bits tells 29 bits of the
duration. -/
theorem delay_eq_iff (duration : UInt32) {seconds : Nat} (h : seconds < 256) :
    (duration*1000).toNat = seconds*1000 ↔ duration.toNat % 2^29 = seconds := by
  have hproduct : (duration*1000).toNat = duration.toNat*1000 % 2^32 := by
    rw [UInt32.toNat_mul]
    rfl
  have hbound := duration.toNat_lt
  omega

section Move
variable {device : DeviceId} {w : World} {fsb14 : DeviceFsb14} {action : Action} {data1 : UInt8}

theorem endsMovement_of {fsb14 : DeviceFsb14} {condition : ConditionType}
    (h : (condition = .rising ∧ fsb14.lastAction = some .up) ∨
      (condition = .descending ∧ fsb14.lastAction = some .down)) :
    EndsMovement device fsb14 condition := by
  intro trigger v hd
  unfold fsb14TimerCallback
  rw [modifyFsb14_eq hd,Option.map_eq_bind]
  rcases h with ⟨rfl,hlast⟩ | ⟨rfl,hlast⟩ <;>
    simp [hlast,endedIn,endedWith,World.modifyFsb14,deviceTriggerEvent,Function.comp_def,
      World.setUserdata]

theorem fsb14Exec_starts (device : DeviceId) (w : World) (action : Action)
    (hlocked : fsb14.locked = false) (hmoving : moving (movesTo data1) = true) :
    ∃ fsb14' t, (fsb14Exec device fsb14 data1 action w).userdata device = .fsb14 fsb14' ∧
      (fsb14Exec device fsb14 data1 action w).frames =
        w.frames ++ [fsb14Message fsb14 data1 action] ∧
      fsb14'.address = fsb14.address ∧ fsb14'.condition = movesTo data1 ∧
      fsb14'.timer = some t ∧
      (fsb14Exec device fsb14 data1 action w).loop.pending t =
        some ⟨(fsb14.duration*1000).toNat,.fsb14Timer,device⟩ ∧
      EndsMovement device fsb14' (movesTo data1) := by
  have hcancel := cancel_fst fsb14 w.loop
  unfold fsb14Exec
  rcases hresult : fsb14CancelTimer fsb14 w.loop with ⟨cancelled,loop⟩
  rw [hresult] at hcancel
  simp only at hcancel
  subst hcancel
  simp only [hlocked,Bool.false_eq_true,if_false,fsb14Move]
  by_cases hrise : data1 = 0x01
  · subst hrise
    exact ⟨_,loop.calls.length,setFsb14_userdata _ _ _ _,frames_send _ _,rfl,rfl,rfl,
      by simp [World.setFsb14,create_pending],endsMovement_of (.inl ⟨rfl,rfl⟩)⟩
  · by_cases hdescend : data1 = 0x02
    · subst hdescend
      exact ⟨_,loop.calls.length,setFsb14_userdata _ _ _ _,frames_send _ _,rfl,rfl,rfl,
        by simp [World.setFsb14,create_pending],endsMovement_of (.inr ⟨rfl,rfl⟩)⟩
    · simp [movesTo,hrise,hdescend,moving] at hmoving

/-- The frame and the timer of a movement agree exactly when the lowest 29 bits of the declared
duration are the seconds that the byte of the frame takes. -/
theorem fsb14Exec_agrees_iff (device : DeviceId) (w : World) (fsb14 : DeviceFsb14)
    (action : Action) (hlocked : fsb14.locked = false) (hmoving : moving (movesTo data1) = true) :
    RunningTimeAgrees device w (fsb14Exec device fsb14 data1 action w) ↔
      fsb14.duration.toNat % 2^29 = secondsAsked fsb14 action := by
  obtain ⟨fsb14',t,hdata,hframes,haddress,hcondition,htimer,hpending,hends⟩ :=
    fsb14Exec_starts device w action hlocked hmoving
  obtain ⟨seconds,hmessage,hseconds⟩ := fsb14Message_seconds fsb14 data1 action
  rw [← delay_eq_iff fsb14.duration (secondsAsked_lt fsb14 action),← hseconds]
  constructor
  · rintro ⟨fsb14₁,data1₁,seconds₁,t₁,hdata₁,hframes₁,-,-,htimer₁,hpending₁,-⟩
    rw [hdata,Userdata.fsb14.injEq] at hdata₁
    subst hdata₁
    have hframe : seconds = seconds₁ := by
      rw [hframes,hmessage] at hframes₁
      have hmsg := List.append_cancel_left hframes₁
      simp only [List.cons.injEq,EltakoMessage.message.injEq] at hmsg
      exact hmsg.1.2.2.1.2.2.1
    have ht : t = t₁ := Option.some.inj (htimer.symm.trans htimer₁)
    subst hframe ht
    rw [hpending,Option.some.injEq,Timer.mk.injEq] at hpending₁
    exact hpending₁.1
  · intro hdelay
    refine ⟨fsb14',data1,seconds,t,hdata,?_,hmoving,hcondition,htimer,?_,hends⟩
    · rw [hframes,hmessage,haddress]
    · rw [hpending,hdelay]

end Move

/-- Every accepted movement, whatever the state of the device: how long its frame asks for is how
long its timer runs exactly when the duration, as far as the timer counts it, is what the frame
asks for. -/
theorem fsb14_runningTime_iff (device : DeviceId) (w w' : World) (fsb14 : DeviceFsb14)
    (action : Action) (event : Option Event) (trigger : Trigger) (data1 : UInt8)
    (hd : w.userdata device = .fsb14 fsb14) (hlocked : fsb14.locked = false)
    (hcommand : fsb14Command fsb14.condition action.type = some data1)
    (hmoving : moving (movesTo data1) = true)
    (hset : deviceSet trigger device action event w = some w') :
    RunningTimeAgrees device w w' ↔
      fsb14.duration.toNat % 2^29 = secondsAsked fsb14 action := by
  have hw' : fsb14Exec device fsb14 data1 action w = w' := by
    rw [deviceSet_fsb14 hd,fsb14Act_command hd hcommand] at hset
    exact Option.some.inj hset
  rw [← hw']
  exact fsb14Exec_agrees_iff device w fsb14 action hlocked hmoving

theorem fsb14_runningTime_blind :
    ∃ w', deviceSet untriggered 0 ⟨.toggleDown,0,["30".toList]⟩ none
        (World.start fun _ => .fsb14 blind) = some w' ∧
      (RunningTimeAgrees 0 (World.start fun _ => .fsb14 blind) w' ↔
        blind.duration.toNat % 2^29 = secondsAsked blind ⟨.toggleDown,0,["30".toList]⟩) :=
  ⟨_,rfl,fsb14_runningTime_iff 0 _ _ blind ⟨.toggleDown,0,["30".toList]⟩ none untriggered 0x02
    rfl rfl rfl rfl rfl⟩

def slowBlind : DeviceFsb14 := { blind with duration := 300 }

/-- The declared duration does not fit into the byte, and the timer does not know the option. -/
theorem fsb14_runningTime_differs :
    fsb14DeviceParser ["FSB14".toList,"1".toList,"300".toList] = .ok (some slowBlind) ∧
    (∃ w', deviceSet untriggered 0 ⟨.up,0,[]⟩ none
        (World.start fun _ => .fsb14 slowBlind) = some w' ∧
      ¬ RunningTimeAgrees 0 (World.start fun _ => .fsb14 slowBlind) w') ∧
    ∃ w', deviceSet untriggered 0 ⟨.up,0,["10".toList]⟩ none
        (World.start fun _ => .fsb14 blind) = some w' ∧
      ¬ RunningTimeAgrees 0 (World.start fun _ => .fsb14 blind) w' := by
  refine ⟨rfl,⟨fsb14Exec 0 slowBlind 0x01 ⟨.up,0,[]⟩ (World.start fun _ => .fsb14 slowBlind),
    rfl,?_⟩,fsb14Exec 0 blind 0x01 ⟨.up,0,["10".toList]⟩ (World.start fun _ => .fsb14 blind),
    rfl,?_⟩
  · rw [fsb14Exec_agrees_iff 0 _ slowBlind ⟨.up,0,[]⟩ rfl rfl]
    decide
  · rw [fsb14Exec_agrees_iff 0 _ blind ⟨.up,0,["10".toList]⟩ rfl rfl]
    decide

end DomoticaEngine
