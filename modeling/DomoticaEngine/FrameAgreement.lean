import DomoticaEngine.DeviceParser
import DomoticaEngine.EltakoQueue
import DomoticaEngine.Execution

/-!
The last frame that was sent to an actuator against the state that the engine holds for it.
-/

set_option autoImplicit false

namespace DomoticaEngine

def messageAddress : EltakoMessage → UInt32
  | .message _ _ _ address _ => address
  | .dimmer address _ _ _ _ => address

def sendAddress : Userdata → Option UInt32
  | .fsr14 fsr14 => some fsr14.address
  | .fud14 fud14 => some fud14.address
  | .fsb14 fsb14 => some fsb14.address
  | _ => none

def actuatorAddress : Userdata → Option UInt32
  | .fsr14 fsr14 => some fsr14.address
  | .fud14 fud14 => some fud14.address
  | _ => none

def DistinctAddresses (w : World) : Prop :=
  ∀ d d' address, sendAddress (w.userdata d) = some address →
    sendAddress (w.userdata d') = some address → d = d'

/-- The frame tells the actuator this state: on exactly when the value of an FSR14 is 1, on
with the level of an FUD14 when that is above 0 and off when it is 0. -/
def Encodes : EltakoMessage → Userdata → Prop
  | .message _ _ data _ _, .fsr14 fsr14 =>
    data = if fsr14.val = 1 then [0x09,0x00,0x00,0x01] else [0x08,0x00,0x00,0x01]
  | .dimmer _ event value _ _, .fud14 fud14 =>
    if fud14.dimValue > 0 then event = .on ∧ value = fud14.dimValue else event = .off
  | _, _ => False

def framesFor (address : UInt32) (msgs : List EltakoMessage) : List EltakoMessage :=
  msgs.filter (fun msg => messageAddress msg = address)

def HasActed (tr : List Occasion) (d : DeviceId) : Prop :=
  ∃ v action, .exec v action ∈ tr ∧ action.device = d ∧
    action.type ∈ (deviceTypeInfo (v.userdata d).deviceType).actions

/-- When nothing waits in the queue, the last frame to every actuator that has executed an
action encodes its state. -/
def FramesAgree (tr : List Occasion) (w : World) : Prop :=
  w.eltako.sendQueue = [] → ∀ d address, actuatorAddress (w.userdata d) = some address →
    HasActed tr d → ∃ msg, (framesFor address w.eltako.transmitted).getLast? = some msg ∧
      Encodes msg (w.userdata d)

def World.frames (w : World) : List EltakoMessage := w.eltako.transmitted ++ w.eltako.sendQueue

@[simp] theorem frames_record (w : World) (o : Occurrence) : (w.record o).frames = w.frames := rfl

@[simp] theorem frames_setUserdata (w : World) (device : DeviceId) (data : Userdata) :
    (w.setUserdata device data).frames = w.frames := rfl

@[simp] theorem frames_send (w : World) (msg : EltakoMessage) :
    (w.send msg).frames = w.frames ++ [msg] := eltakoSend_appends w.eltako msg

def dimStep (fud14 : DeviceFud14) : UInt8 :=
  if fud14.dimDirection = 1 then fud14.dimValue + fud14.dimInterval
  else fud14.dimValue - fud14.dimInterval

/-- The actions that send what they set: a dimmer that is dimmed gets to its maximum, and one
that is set does not get the level 0. -/
def FrameOk (w : World) (action : Action) : Prop :=
  match w.userdata action.device,action.type with
  | .fud14 fud14,.dim => 100 ≤ dimStep fud14
  | .fud14 _,.set => UInt8.ofInt (fud14DimValue action) ≠ 0
  | _,_ => True

def Fud14Limits (data : Userdata) : Prop :=
  ∀ fud14, data = .fud14 fud14 → fud14.dimMinValue = 0 ∧ fud14.dimMaxValue = 100

/-- A record as fud14_device_parser makes it, with any value after that. -/
def Fud14Started (data : Userdata) : Prop :=
  ∀ fud14, data = .fud14 fud14 → ∃ options parsed, fud14DeviceParser options = some parsed ∧
    fud14 = { parsed with dimValue := fud14.dimValue, dimDirection := fud14.dimDirection }

theorem Fud14Started.limits {data : Userdata} (h : Fud14Started data) : Fud14Limits data := by
  intro fud14 hdata
  obtain ⟨options,parsed,hparse,hfud14⟩ := h fud14 hdata
  obtain ⟨address,-,rfl⟩ := Option.map_eq_some_iff.mp hparse
  rw [hfud14]
  exact ⟨rfl,rfl⟩

/-- What one action does for the frames: only its own device changes, and it keeps its address;
what it sends goes to that address. -/
structure FrameStep (device : DeviceId) (w w' : World) (msgs : List EltakoMessage) : Prop where
  other : ∀ d, d ≠ device → w'.userdata d = w.userdata d
  address : sendAddress (w'.userdata device) = sendAddress (w.userdata device)
  actuator : actuatorAddress (w'.userdata device) = actuatorAddress (w.userdata device)
  limits : Fud14Limits (w.userdata device) → Fud14Limits (w'.userdata device)
  frames : w'.frames = w.frames ++ msgs
  own : ∀ msg ∈ msgs, sendAddress (w.userdata device) = some (messageAddress msg)

theorem FrameStep.refl (device : DeviceId) (w : World) : FrameStep device w w [] :=
  ⟨fun _ _ => rfl,rfl,rfl,id,by simp,by simp⟩

theorem FrameStep.set {device : DeviceId} {w w₁ : World} {data : Userdata}
    (hu : w₁.userdata = w.userdata) (hf : w₁.frames = w.frames)
    (haddress : sendAddress data = sendAddress (w.userdata device))
    (hactuator : actuatorAddress data = actuatorAddress (w.userdata device))
    (hlimits : Fud14Limits (w.userdata device) → Fud14Limits data) :
    FrameStep device w (w₁.setUserdata device data) [] := by
  refine ⟨fun d hd => by rw [setUserdata_other hd,hu],?_,?_,?_,by simp [hf],by simp⟩
  · rw [setUserdata_same,haddress]
  · rw [setUserdata_same,hactuator]
  · rwa [setUserdata_same]

theorem FrameStep.send {device : DeviceId} {w w₁ : World} {msgs : List EltakoMessage}
    (h : FrameStep device w w₁ msgs) {msg : EltakoMessage}
    (hown : sendAddress (w.userdata device) = some (messageAddress msg)) :
    FrameStep device w (w₁.send msg) (msgs ++ [msg]) := by
  refine ⟨h.other,h.address,h.actuator,h.limits,?_,?_⟩
  · rw [frames_send,h.frames,List.append_assoc]
  · intro msg' hmem
    rcases List.mem_append.mp hmem with hmem | hmem
    · exact h.own msg' hmem
    · rw [List.mem_singleton.mp hmem]
      exact hown

def untriggered : Trigger := fun _ w => some w

def ActionFrames (action : Action) (w w' : World) : Prop :=
  ∃ msgs, FrameStep action.device w w' msgs ∧
    (actuatorAddress (w.userdata action.device) ≠ none →
      action.type ∈ (deviceTypeInfo (w.userdata action.device).deviceType).actions →
      ∃ msg, msgs = [msg] ∧ (FrameOk w action → Fud14Limits (w.userdata action.device) →
        Encodes msg (w'.userdata action.device)))

section Exec
variable {w w' : World} {action : Action}

theorem ActionFrames.quiet (hactuator : actuatorAddress (w.userdata action.device) = none)
    (h : FrameStep action.device w w' []) : ActionFrames action w w' :=
  ⟨[],h,fun hsome => absurd hactuator hsome⟩

theorem fsr14DeviceExec_frames {fsr14 : DeviceFsr14} (h : w.userdata action.device = .fsr14 fsr14)
    (hw' : fsr14DeviceExec untriggered action.device fsr14 action w = some w') :
    ActionFrames action w w' := by
  unfold fsr14DeviceExec at hw'
  cases hcommand : fsr14Command fsr14 action with
  | none =>
    rw [hcommand] at hw'
    cases hw'
    refine ⟨[],.refl action.device w,fun _ hmask => ?_⟩
    rw [h] at hmask
    have hsupported : action.type ∈ [ActionType.set,.unset,.toggle] := hmask
    unfold fsr14Command at hcommand
    cases htype : action.type <;> simp [htype] at hcommand hsupported
  | some command =>
    obtain ⟨val,data⟩ := command
    rw [hcommand] at hw'
    cases hw'
    have hset : FrameStep action.device w
        (w.setUserdata action.device (.fsr14 { fsr14 with val := val })) [] :=
      .set rfl rfl (by rw [h]; rfl) (by rw [h]; rfl) (fun _ fud14 heq => nomatch heq)
    refine ⟨_,hset.send (by rw [h]; rfl),fun _ _ => ⟨_,rfl,fun _ _ => ?_⟩⟩
    rw [send_userdata,setUserdata_same]
    unfold fsr14Command at hcommand
    cases htype : action.type <;> simp [htype] at hcommand
    · obtain ⟨rfl,rfl⟩ := hcommand
      rfl
    · obtain ⟨rfl,rfl⟩ := hcommand
      rfl
    · obtain ⟨rfl,rfl⟩ := hcommand
      by_cases hval : fsr14.val = 0 <;> simp [hval,Encodes] <;> decide

theorem fud14Dim_max {fud14 : DeviceFud14} (hmin : fud14.dimMinValue = 0)
    (hmax : fud14.dimMaxValue = 100) : (fud14Dim fud14).dimValue = 100 ↔ 100 ≤ dimStep fud14 := by
  have hclamp : ∀ stepped : DeviceFud14, stepped.dimMinValue = 0 → stepped.dimMaxValue = 100 →
      ((let fud14 :=
          if stepped.dimValue ≥ stepped.dimMaxValue then
            { stepped with dimValue := stepped.dimMaxValue, dimDirection := 0 }
          else stepped
        if fud14.dimValue ≤ fud14.dimMinValue then
          { fud14 with dimValue := fud14.dimMinValue, dimDirection := 1 }
        else fud14).dimValue = 100 ↔ 100 ≤ stepped.dimValue) := by
    intro stepped hmin hmax
    by_cases hhigh : (100 : UInt8) ≤ stepped.dimValue
    · have hzero : ¬ (100 : UInt8) ≤ 0 := by decide
      simp [hmin,hmax,hhigh,hzero]
    · by_cases hlow : stepped.dimValue ≤ 0
      · simp [hmin,hmax,hhigh,hlow]
      · have hne : stepped.dimValue ≠ 100 := by
          intro heq
          exact hhigh (UInt8.le_of_eq heq.symm)
        simp [hmin,hmax,hhigh,hlow,hne]
  unfold fud14Dim dimStep
  by_cases hdirection : fud14.dimDirection = 1
  · simp only [if_pos hdirection]
    exact hclamp { fud14 with dimValue := fud14.dimValue + fud14.dimInterval } hmin hmax
  · simp only [if_neg hdirection]
    exact hclamp { fud14 with dimValue := fud14.dimValue - fud14.dimInterval } hmin hmax

theorem fud14Command_limits {fud14 fud14' : DeviceFud14} {msg : EltakoMessage}
    (h : fud14Command fud14 action = some (fud14',msg)) :
    fud14'.address = fud14.address ∧ messageAddress msg = fud14.address ∧
      fud14'.dimMinValue = fud14.dimMinValue ∧ fud14'.dimMaxValue = fud14.dimMaxValue := by
  have hdim : (fud14Dim fud14).address = fud14.address ∧
      (fud14Dim fud14).dimMinValue = fud14.dimMinValue ∧
      (fud14Dim fud14).dimMaxValue = fud14.dimMaxValue := by
    unfold fud14Dim
    simp only
    repeat' split
    all_goals exact ⟨rfl,rfl,rfl⟩
  unfold fud14Command at h
  cases htype : action.type <;> simp [htype] at h <;> obtain ⟨rfl,rfl⟩ := h
  · exact ⟨rfl,rfl,rfl,rfl⟩
  · exact ⟨rfl,rfl,rfl,rfl⟩
  · exact ⟨rfl,rfl,rfl,rfl⟩
  · exact ⟨hdim.1,rfl,hdim.2⟩

theorem fud14Command_encodes_iff {fud14 fud14' : DeviceFud14} {msg : EltakoMessage}
    (hd : w.userdata action.device = .fud14 fud14)
    (h : fud14Command fud14 action = some (fud14',msg)) (hmin : fud14.dimMinValue = 0)
    (hmax : fud14.dimMaxValue = 100) : Encodes msg (.fud14 fud14') ↔ FrameOk w action := by
  unfold FrameOk
  rw [hd]
  unfold fud14Command at h
  cases htype : action.type <;> simp only [htype] at h ⊢ <;> cases h
  · by_cases hzero : UInt8.ofInt (fud14DimValue action) = 0
    · simp [Encodes,hzero]
    · have hpositive := UInt8.pos_iff_ne_zero.mpr hzero
      simp [Encodes,hzero,hpositive]
  · simp [Encodes]
  · by_cases hlit : fud14.dimValue > 0
    · simp [Encodes,hlit]
    · by_cases hzero : UInt8.ofInt (fud14DimValue action) > 0
      · simp [Encodes,hlit,hzero]
      · simp [Encodes,hlit,hzero]
  · rw [← fud14Dim_max hmin hmax]
    simp only [Encodes]
    constructor
    · intro hencodes
      split at hencodes
      · exact hencodes.2.symm
      · cases hencodes
    · intro hfull
      simp [hfull]

theorem fud14DeviceExec_frames {fud14 : DeviceFud14}
    (hd : w.userdata action.device = .fud14 fud14)
    (hw' : fud14DeviceExec untriggered action.device fud14 action w = some w') :
    ActionFrames action w w' := by
  unfold fud14DeviceExec at hw'
  cases hcommand : fud14Command fud14 action with
  | none =>
    rw [hcommand] at hw'
    cases hw'
    refine ⟨[],.refl action.device w,fun _ hmask => ?_⟩
    rw [hd] at hmask
    have hsupported : action.type ∈ [ActionType.set,.unset,.toggle,.dim] := hmask
    unfold fud14Command at hcommand
    cases htype : action.type <;> simp [htype] at hcommand hsupported
  | some command =>
    obtain ⟨fud14',msg⟩ := command
    rw [hcommand] at hw'
    cases hw'
    obtain ⟨haddress,hmsg,hmin,hmax⟩ := fud14Command_limits hcommand
    have hset : FrameStep action.device w (w.setUserdata action.device (.fud14 fud14')) [] := by
      refine .set rfl rfl (by rw [hd]; exact congrArg some haddress)
        (by rw [hd]; exact congrArg some haddress) (fun hlimits fud14₁ heq => ?_)
      cases heq
      rw [hmin,hmax]
      exact hlimits fud14 hd
    refine ⟨_,hset.send (by rw [hd]; exact congrArg some hmsg.symm),fun _ _ => ⟨msg,rfl,?_⟩⟩
    intro hok hlimits
    obtain ⟨hmin₀,hmax₀⟩ := hlimits fud14 hd
    rw [send_userdata,setUserdata_same]
    exact (fud14Command_encodes_iff hd hcommand hmin₀ hmax₀).mpr hok

theorem fsb14DeviceExec_frames {fsb14 : DeviceFsb14}
    (hd : w.userdata action.device = .fsb14 fsb14) :
    ActionFrames action w (fsb14DeviceExec action.device fsb14 action w) := by
  have hnone : actuatorAddress (w.userdata action.device) = none := by rw [hd]; rfl
  have hset : ∀ (fsb14' : DeviceFsb14) (loop : EventLoop), fsb14'.address = fsb14.address →
      FrameStep action.device w (w.setFsb14 action.device fsb14' loop) [] := by
    intro fsb14' loop haddress
    exact .set rfl rfl (by rw [hd]; exact congrArg some haddress) (by rw [hd]; rfl)
      (fun _ fud14 heq => nomatch heq)
  have hcancel : ∀ loop, (fsb14CancelTimer fsb14 loop).1.address = fsb14.address := by
    intro loop
    unfold fsb14CancelTimer
    split <;> rfl
  have hmove : ∀ (fsb14' : DeviceFsb14) data1 loop,
      (fsb14Move action.device fsb14' data1 loop).1.address = fsb14'.address := by
    intro fsb14' data1 loop
    unfold fsb14Move
    simp only
    split
    · rfl
    · split <;> rfl
  unfold fsb14DeviceExec
  split
  · exact .quiet hnone (hset _ _ rfl)
  · exact .quiet hnone (hset _ _ rfl)
  · split
    · exact .quiet hnone (.refl action.device w)
    · rename_i data1 _
      unfold fsb14Exec
      simp only
      split
      · exact .quiet hnone (hset _ _ (hcancel _))
      · have haddress := (hmove (fsb14CancelTimer fsb14 w.loop).1 data1
          (fsb14CancelTimer fsb14 w.loop).2).trans (hcancel w.loop)
        refine ⟨_,(hset _ _ haddress).send ?_,fun hsome => absurd hnone hsome⟩
        rw [hd]
        exact congrArg some haddress.symm

theorem sendAddress_none {data : Userdata} : sendAddress data = none ↔
    data.deviceType ≠ .fsr14 ∧ data.deviceType ≠ .fud14 ∧ data.deviceType ≠ .fsb14 := by
  cases data with
  | plain type => cases type <;> simp [sendAddress,Userdata.deviceType]
  | _ => simp [sendAddress,Userdata.deviceType]

theorem silent_actuator {data : Userdata} (h : sendAddress data = none) :
    actuatorAddress data = none ∧ Fud14Limits data := by
  cases data <;> simp [sendAddress,actuatorAddress,Fud14Limits] at h ⊢

theorem ActionFrames.silent (hsend : sendAddress (w.userdata action.device) = none)
    (hframe : ExecFrame action.device w w') (hf : w'.frames = w.frames) :
    ActionFrames action w w' := by
  have hsend' : sendAddress (w'.userdata action.device) = none := by
    rw [sendAddress_none,hframe.deviceType]
    exact sendAddress_none.mp hsend
  obtain ⟨hactuator,-⟩ := silent_actuator hsend
  obtain ⟨hactuator',hlimits'⟩ := silent_actuator hsend'
  exact .quiet hactuator ⟨hframe.other,hsend'.trans hsend.symm,hactuator'.trans hactuator.symm,
    fun _ => hlimits',by simpa using hf,by simp⟩

theorem silent_frames {event : Option Event} (hsend : sendAddress (w.userdata action.device) = none)
    (h : deviceSet untriggered action.device action event w = some w') : w'.frames = w.frames := by
  unfold deviceSet at h
  simp only at h
  split at h
  · cases hd : w.userdata action.device with
    | fsr14 fsr14 | fud14 fud14 | fsb14 fsb14 =>
      rw [hd] at hsend
      cases hsend
    | bool b =>
      simp only [hd,boolExec,deviceTriggerEvent,untriggered,ite_self] at h
      cases h
      rfl
    | timer tmr =>
      simp only [hd,timerDeviceExec] at h
      cases h
      cases action.type <;> cases tmr.timer <;> rfl
    | gpo gpio =>
      simp only [hd,gpioOutputExec] at h
      cases h
      cases action.type <;> rfl
    | veluxKlf200 klf200 =>
      simp only [hd,veluxKlf200DeviceExec] at h
      cases h
      cases action.type <;> rfl
    | schedule schedule | sunriset sr | plain type =>
      simp only [hd] at h
      cases h
      rfl
  · cases h
    rfl

theorem deviceSet_frames {event : Option Event}
    (h : deviceSet untriggered action.device action event w = some w') :
    ActionFrames action w w' := by
  obtain ⟨w₁,raised,hresume,hframe,-⟩ := deviceSet_spec action.device action event w
  have hw₁ : w₁ = w' := deviceSet_unique hresume h
  subst hw₁
  by_cases hsend : sendAddress (w.userdata action.device) = none
  · exact .silent hsend hframe (silent_frames hsend h)
  · unfold deviceSet at h
    simp only at h
    split at h
    · cases hd : w.userdata action.device with
      | fsr14 fsr14 =>
        simp only [hd] at h
        exact fsr14DeviceExec_frames hd h
      | fud14 fud14 =>
        simp only [hd] at h
        exact fud14DeviceExec_frames hd h
      | fsb14 fsb14 =>
        simp only [hd] at h
        cases h
        exact fsb14DeviceExec_frames hd
      | _ =>
        rw [hd] at hsend
        exact absurd rfl hsend
    · rename_i hmask
      cases h
      exact ⟨[],.refl action.device w,fun _ hsupported => absurd hsupported hmask⟩

end Exec

/-- What holds at every moment of a run: the last frame of an actuator that has acted, sent or
still waiting, encodes its state. -/
structure FramesTold (tr : List Occasion) (w : World) : Prop where
  distinct : DistinctAddresses w
  limits : ∀ d, Fud14Limits (w.userdata d)
  told : ∀ d address, actuatorAddress (w.userdata d) = some address → HasActed tr d →
    ∃ msg, (framesFor address w.frames).getLast? = some msg ∧ Encodes msg (w.userdata d)

section Told
variable {tr : List Occasion} {w w' : World}

theorem FramesTold.agree (h : FramesTold tr w) : FramesAgree tr w := by
  intro hqueue d address hd hacted
  have htold := h.told d address hd hacted
  rwa [World.frames,hqueue,List.append_nil] at htold

theorem FramesTold.same (h : FramesTold tr w) (hu : w'.userdata = w.userdata)
    (hf : w'.frames = w.frames) : FramesTold tr w' := by
  refine ⟨?_,?_,?_⟩
  · unfold DistinctAddresses
    rw [hu]
    exact h.distinct
  · rw [hu]
    exact h.limits
  · rw [hu,hf]
    exact h.told

theorem HasActed.of_raise {event : Event} {d : DeviceId} (h : HasActed (tr ++ [.raise w event]) d) :
    HasActed tr d := by
  obtain ⟨v,action,hmem,hdevice⟩ := h
  refine ⟨v,action,?_,hdevice⟩
  simpa using hmem

theorem HasActed.of_exec {action : Action} {d : DeviceId}
    (h : HasActed (tr ++ [.exec w action]) d) :
    HasActed tr d ∨ (action.device = d ∧
      action.type ∈ (deviceTypeInfo (w.userdata d).deviceType).actions) := by
  obtain ⟨v,action',hmem,hdevice,hmask⟩ := h
  rcases List.mem_append.mp hmem with hmem | hmem
  · exact .inl ⟨v,action',hmem,hdevice,hmask⟩
  · cases List.mem_singleton.mp hmem
    exact .inr ⟨hdevice,hmask⟩

theorem sendAddress_of_actuator {data : Userdata} {address : UInt32}
    (h : actuatorAddress data = some address) : sendAddress data = some address := by
  cases data <;> first | exact h | cases h

theorem framesFor_append (address : UInt32) (msgs msgs' : List EltakoMessage) :
    framesFor address (msgs ++ msgs') = framesFor address msgs ++ framesFor address msgs' :=
  List.filter_append _ _

section Step
variable {device : DeviceId} {msgs : List EltakoMessage} (h : FrameStep device w w' msgs)
include h

theorem FrameStep.sendAddress_eq (d : DeviceId) :
    sendAddress (w'.userdata d) = sendAddress (w.userdata d) := by
  by_cases hd : d = device
  · rw [hd,h.address]
  · rw [h.other d hd]

theorem FrameStep.actuatorAddress_eq (d : DeviceId) :
    actuatorAddress (w'.userdata d) = actuatorAddress (w.userdata d) := by
  by_cases hd : d = device
  · rw [hd,h.actuator]
  · rw [h.other d hd]

theorem FrameStep.distinct (hdistinct : DistinctAddresses w) : DistinctAddresses w' := by
  intro d d' address hd hd'
  rw [h.sendAddress_eq] at hd hd'
  exact hdistinct d d' address hd hd'

theorem FrameStep.keepsLimits (hlimits : ∀ d, Fud14Limits (w.userdata d)) (d : DeviceId) :
    Fud14Limits (w'.userdata d) := by
  by_cases hd : d = device
  · rw [hd]
    exact h.limits (hlimits device)
  · rw [h.other d hd]
    exact hlimits d

theorem FrameStep.framesFor_other (hdistinct : DistinctAddresses w) {d : DeviceId}
    {address : UInt32} (hd : actuatorAddress (w.userdata d) = some address) (hne : d ≠ device) :
    framesFor address msgs = [] := by
  rw [framesFor,List.filter_eq_nil_iff]
  intro msg hmem hto
  have hsend := h.own msg hmem
  rw [of_decide_eq_true hto] at hsend
  exact hne (hdistinct d device address (sendAddress_of_actuator hd) hsend)

end Step

theorem FramesTold.exec {action : Action} {event : Option Event} (h : FramesTold tr w)
    (hok : FrameOk w action)
    (hset : deviceSet untriggered action.device action event w = some w') :
    FramesTold (tr ++ [.exec w action]) w' := by
  obtain ⟨msgs,hstep,hown⟩ := deviceSet_frames hset
  refine ⟨hstep.distinct h.distinct,hstep.keepsLimits h.limits,?_⟩
  intro d address hd hacted
  rw [hstep.actuatorAddress_eq] at hd
  by_cases hsame : d = action.device
  · subst hsame
    by_cases hmask : action.type ∈
        (deviceTypeInfo (w.userdata action.device).deviceType).actions
    · obtain ⟨msg,rfl,hencodes⟩ := hown (by rw [hd]; exact Option.some_ne_none _) hmask
      have hto : messageAddress msg = address := by
        have hsend := hstep.own msg (by simp)
        rw [sendAddress_of_actuator hd] at hsend
        exact (Option.some.inj hsend).symm
      refine ⟨msg,?_,hencodes hok (h.limits _)⟩
      rw [hstep.frames,framesFor_append]
      simp [framesFor,hto]
    · -- The action is left out.
      have hw' : w' = w := by
        unfold deviceSet at hset
        simp only [if_neg hmask] at hset
        exact (Option.some.inj hset).symm
      subst hw'
      rcases HasActed.of_exec hacted with hbefore | ⟨-,hsupported⟩
      · exact h.told _ address hd hbefore
      · exact absurd hsupported hmask
  · rcases HasActed.of_exec hacted with hbefore | ⟨hdevice,-⟩
    · obtain ⟨msg,hlast,hencodes⟩ := h.told d address hd hbefore
      refine ⟨msg,?_,by rw [hstep.other d hsame]; exact hencodes⟩
      rw [hstep.frames,framesFor_append,hstep.framesFor_other h.distinct hd hsame,
        List.append_nil]
      exact hlast
    · exact absurd hdevice.symm hsame

end Told

/-- The runs of the program as far as they send frames: events are raised, actions are
executed, and the timer of the queue ticks. -/
inductive FrameRun (rules : List Rule) (w : World) : List Occasion → World → Prop where
  | start : FrameRun rules w [] w
  | event {w₁ w' : World} {tr tr' : List Occasion} (event : Event) (hrun : FrameRun rules w tr w₁)
      (h : Executes rules (.trigger event) w₁ tr' w') : FrameRun rules w (tr ++ tr') w'
  | command {w₁ w' : World} {tr tr' : List Occasion} (action : Action)
      (hrun : FrameRun rules w tr w₁) (h : Executes rules (.set action none) w₁ tr' w') :
      FrameRun rules w (tr ++ tr') w'
  | tick {w₁ : World} {tr : List Occasion} (hrun : FrameRun rules w tr w₁) :
      FrameRun rules w tr { w₁ with eltako := eltakoCheckSendQueue w₁.eltako }

theorem Executes.framesTold {rules : List Rule} {call : Call} {w w' : World}
    {acc tr : List Occasion} (h : Executes rules call w tr w') (htold : FramesTold acc w)
    (hok : ∀ v action, .exec v action ∈ tr → FrameOk v action) : Along FramesTold acc tr w' := by
  refine Executes.keeps FramesTold FrameOk ?_ ?_ ?_ h acc htold hok
  · exact fun acc w o h => h.same rfl rfl
  · exact fun acc w event h => ⟨h.distinct,h.limits,
      fun d address hd hacted => h.told d address hd hacted.of_raise⟩
  · intro acc w action event w₁ raised h hok hset
    have huntriggered : deviceSet untriggered action.device action event w = some w₁ := by
      rw [hset]
      cases raised <;> rfl
    exact h.exec hok huntriggered

theorem FrameRun.framesTold {rules : List Rule} {w₀ w : World} {tr : List Occasion}
    (hrun : FrameRun rules w₀ tr w) (hstart : FramesTold [] w₀)
    (hok : ∀ v action, .exec v action ∈ tr → FrameOk v action) : Along FramesTold [] tr w := by
  induction hrun with
  | start => exact .nil hstart
  | event event _ h ih =>
    have hbefore := ih (fun v action hmem => hok v action (List.mem_append_left _ hmem))
    exact hbefore.append (h.framesTold hbefore.finish
      (fun v action hmem => hok v action (List.mem_append_right _ hmem)))
  | command action _ h ih =>
    have hbefore := ih (fun v action hmem => hok v action (List.mem_append_left _ hmem))
    exact hbefore.append (h.framesTold hbefore.finish
      (fun v action hmem => hok v action (List.mem_append_right _ hmem)))
  | tick _ ih =>
    have hbefore := ih hok
    exact ⟨hbefore.finish.same rfl (eltakoCheckSendQueue_keeps _),hbefore.at_⟩

/-- In a run whose actions are all in order, the last frame to every actuator encodes its state
whenever the queue is empty, also when an event is raised or an action executed in the middle
of a dispatch. -/
theorem frames_agree (rules : List Rule) (w₀ w : World) (tr : List Occasion)
    (hdistinct : DistinctAddresses w₀) (hstarted : ∀ d, Fud14Started (w₀.userdata d))
    (hrun : FrameRun rules w₀ tr w) (hok : ∀ v action, .exec v action ∈ tr → FrameOk v action) :
    FramesAgree tr w ∧
      ∀ before o after, tr = before ++ o :: after → FramesAgree before o.world := by
  have hstart : FramesTold [] w₀ :=
    ⟨hdistinct,fun d => (hstarted d).limits,fun _ _ _ ⟨_,_,hmem,_⟩ => nomatch hmem⟩
  have hall := hrun.framesTold hstart hok
  exact ⟨hall.finish.agree,fun before o after heq => (hall.at_ before o after heq).agree⟩

def dimmer : DeviceFud14 :=
  { address := 7, dimValue := 0, dimDirection := 1, dimMinValue := 0, dimMaxValue := 100,
    dimInterval := 3 }

def dimmerWorld : World :=
  { World.start (fun d => if d = 0 then .fud14 dimmer else .plain .dht22) with
    eltako := Eltako.start (fun n => UInt64.ofNat (1000*(n+1))) }

theorem dimmerWorld_distinct : DistinctAddresses dimmerWorld := by
  have honly : ∀ d address, sendAddress (dimmerWorld.userdata d) = some address → d = 0 := by
    intro d address h
    by_contra hd
    simp [dimmerWorld,World.start,hd,sendAddress] at h
  intro d d' address h h'
  rw [honly d address h,honly d' address h']

theorem dimmerWorld_started (d : DeviceId) : Fud14Started (dimmerWorld.userdata d) := by
  intro fud14 h
  by_cases hd : d = 0
  · simp only [dimmerWorld,World.start,hd,if_true,Userdata.fud14.injEq] at h
    subst h
    exact ⟨[[],"7".toList],dimmer,rfl,rfl⟩
  · simp [dimmerWorld,World.start,hd] at h

theorem commandRun (w : World) (action : Action) (type : EventType) {w₁ : World}
    (h : ∀ trigger, deviceSet trigger action.device action none w =
      resume trigger action.device w₁ (some type)) :
    FrameRun [] w [.exec w action,.raise w₁ ⟨action.device,type⟩]
      (w₁.record (.raised w₁.history.length ⟨action.device,type⟩)) :=
  .command action .start (.raising h (.trigger .offered))

def landingWorld : World :=
  { World.start (fun d => if d = 0 then .fud14 dimmer else if d = 1 then .fsr14 ⟨8,0⟩
      else .plain .dht22) with
    eltako := Eltako.start (fun n => if n < 3 then 1000 else 1300) }

def landingRules : List Rule := [⟨⟨0,.set⟩,[],[⟨.set,1,[]⟩]⟩]

theorem landingWorld_address {d : DeviceId} {address : UInt32}
    (h : sendAddress (landingWorld.userdata d) = some address) :
    d = 0 ∧ address = 7 ∨ d = 1 ∧ address = 8 := by
  by_cases h₀ : d = 0
  · subst h₀
    exact .inl ⟨rfl,(Option.some.inj h).symm⟩
  · by_cases h₁ : d = 1
    · subst h₁
      exact .inr ⟨rfl,(Option.some.inj h).symm⟩
    · simp [landingWorld,World.start,h₀,h₁,sendAddress] at h

theorem landingWorld_distinct : DistinctAddresses landingWorld := by
  intro d d' address h h'
  rcases landingWorld_address h with ⟨rfl,rfl⟩ | ⟨rfl,rfl⟩ <;>
    rcases landingWorld_address h' with ⟨rfl,hsame⟩ | ⟨rfl,hsame⟩ <;>
    first | rfl | exact absurd hsame (by decide)

theorem landingWorld_started (d : DeviceId) : Fud14Started (landingWorld.userdata d) := by
  intro fud14 h
  by_cases h₀ : d = 0
  · simp only [landingWorld,World.start,h₀,if_true,Userdata.fud14.injEq] at h
    subst h
    exact ⟨[[],"7".toList],dimmer,rfl,rfl⟩
  · by_cases h₁ : d = 1 <;> simp [landingWorld,World.start,h₀,h₁] at h

/-- The dimmer is set to a half, a rule switches on the lamp, whose frame waits for the timer of the
queue. -/
theorem frames_agree_half :
    ∃ tr w, FrameRun landingRules landingWorld tr w ∧ w.eltako.sendQueue = [] ∧ HasActed tr 0 ∧
      HasActed tr 1 ∧ (FramesAgree tr w ∧
        ∀ before o after, tr = before ++ o :: after → FramesAgree before o.world) := by
  obtain ⟨tr,w,hrun,hqueue,hacted₀,hacted₁,hok⟩ : ∃ tr w, FrameRun landingRules landingWorld tr w ∧
      w.eltako.sendQueue = [] ∧ HasActed tr 0 ∧ HasActed tr 1 ∧
      ∀ v action, .exec v action ∈ tr → FrameOk v action := by
    refine ⟨_,_,.tick (.command ⟨.set,0,["50".toList]⟩ .start (.raising (fun _ => rfl)
      (.trigger (.fired rfl rfl (.action (.raising (fun _ => rfl)
        (.trigger (.passed (by decide) .offered))) .executed) .offered)))),rfl,
      ⟨landingWorld,⟨.set,0,["50".toList]⟩,by simp,rfl,by decide⟩,?_,?_⟩
    · exact ⟨_,⟨.set,1,[]⟩,.tail _ (.tail _ (.head _)),rfl,by decide⟩
    · intro v action hmem
      simp only [List.nil_append,List.append_nil,List.mem_cons,Occasion.exec.injEq,
        List.not_mem_nil,or_false,reduceCtorEq,false_or] at hmem
      rcases hmem with ⟨rfl,rfl⟩ | ⟨rfl,rfl⟩
      · have hlevel : UInt8.ofInt (fud14DimValue ⟨.set,0,["50".toList]⟩) ≠ 0 := by decide
        exact hlevel
      · trivial
  exact ⟨tr,w,hrun,hqueue,hacted₀,hacted₁,
    frames_agree landingRules landingWorld w tr landingWorld_distinct landingWorld_started hrun hok⟩

/-- The first step of a dimmer leads to 3 and tells 100; a level of 0 is sent as on. -/
theorem frames_disagree :
    (DistinctAddresses dimmerWorld ∧ ∀ d, Fud14Started (dimmerWorld.userdata d)) ∧
    (∃ tr w, FrameRun [] dimmerWorld tr w ∧ ¬ FramesAgree tr w) ∧
      ∃ tr w, FrameRun [] dimmerWorld tr w ∧
        (∀ v action, .exec v action ∈ tr → action = ⟨.set,0,["0".toList]⟩) ∧
        ¬ FramesAgree tr w := by
  refine ⟨⟨dimmerWorld_distinct,dimmerWorld_started⟩,?_,?_⟩
  · refine ⟨_,_,commandRun dimmerWorld ⟨.dim,0,[]⟩ .set
      (fun _ => rfl),fun h => ?_⟩
    obtain ⟨msg,hlast,hencodes⟩ := h rfl 0 7 rfl
      ⟨dimmerWorld,⟨.dim,0,[]⟩,by simp,rfl,by decide⟩
    cases hlast
    have hlevel : ¬ (DimmerEvent.on = .on ∧ (100 : UInt8) = 3) := by decide
    exact hlevel hencodes
  · refine ⟨_,_,commandRun dimmerWorld ⟨.set,0,["0".toList]⟩ .unset
      (fun _ => rfl),?_,fun h => ?_⟩
    · intro v action hmem
      simp only [List.mem_cons,Occasion.exec.injEq,List.not_mem_nil,or_false,reduceCtorEq] at hmem
      exact hmem.2
    · obtain ⟨msg,hlast,hencodes⟩ := h rfl 0 7 rfl
        ⟨dimmerWorld,⟨.set,0,["0".toList]⟩,by simp,rfl,by decide⟩
      cases hlast
      have hoff : DimmerEvent.on ≠ .off := by decide
      exact hoff hencodes

end DomoticaEngine
