import DomoticaEngine.DeclarationPass
import DomoticaEngine.DeviceData
import DomoticaEngine.Store

/-!
What the store is for: the part of a device's state that a restart keeps, and what is true of
it in every state that the program reaches.
-/

set_option autoImplicit false

namespace DomoticaEngine
open Reads Records

inductive Observation where
  | value (v : Int)
  | motor (locked : Bool) (condition : ConditionType)
  deriving DecidableEq, Repr

def observed : Userdata → Option Observation
  | .bool b => some (.value b.val)
  | .fsr14 fsr14 => some (.value fsr14.val)
  | .fud14 fud14 => some (.value fud14.dimValue.toNat)
  | .fsb14 fsb14 => some (.motor fsb14.locked fsb14.condition)
  | .veluxKlf200 klf200 => some (.value klf200.actualValue)
  | .timer _ | .gpo _ | .schedule _ | .sunriset _ | .plain _ => none

def storableValue (type : DeviceType) (v : Int) : Prop :=
  match type with
  | .bool | .fsr14 => Fits32 v
  | .veluxKlf200 => v = 0 ∨ v = 1
  | _ => True

def Storable (data : Userdata) : Prop :=
  ∀ v, observed data = some (.value v) → storableValue data.deviceType v

@[simp] theorem storable_bool (b : BoolT) : Storable (.bool b) ↔ Fits32 b.val := by
  simp [Storable,observed,storableValue,Userdata.deviceType]

@[simp] theorem storable_fsr14 (fsr14 : DeviceFsr14) :
    Storable (.fsr14 fsr14) ↔ Fits32 fsr14.val := by
  simp [Storable,observed,storableValue,Userdata.deviceType]

@[simp] theorem storable_veluxKlf200 (klf200 : DeviceVeluxKlf200) :
    Storable (.veluxKlf200 klf200) ↔ klf200.actualValue = 0 ∨ klf200.actualValue = 1 := by
  simp [Storable,observed,storableValue,Userdata.deviceType]

theorem storable_observed {data data' : Userdata} (htype : data'.deviceType = data.deviceType)
    (hobserved : observed data' = observed data) (h : Storable data) : Storable data' := by
  unfold Storable
  rw [htype,hobserved]
  exact h

def DeviceType.bounded (type : DeviceType) : Bool :=
  type = .bool || type = .fsr14 || type = .veluxKlf200

theorem storable_free {data : Userdata} (h : data.deviceType.bounded = false) : Storable data := by
  intro v _
  cases htype : data.deviceType <;> rw [htype] at h <;> trivial

structure StoreKept (w w' : World) : Prop where
  type : ∀ d, (w'.userdata d).deviceType = (w.userdata d).deviceType
  storable : ∀ d, Storable (w.userdata d) → Storable (w'.userdata d)

theorem StoreKept.refl (w : World) : StoreKept w w := ⟨fun _ => rfl,fun _ h => h⟩

theorem StoreKept.trans {w₁ w₂ w₃ : World} (h : StoreKept w₁ w₂) (h' : StoreKept w₂ w₃) :
    StoreKept w₁ w₃ :=
  ⟨fun d => (h'.type d).trans (h.type d),fun d hd => h'.storable d (h.storable d hd)⟩

theorem StoreKept.set {w w' : World} {device : DeviceId} {data : Userdata}
    (hw : w'.userdata = Function.update w.userdata device data)
    (htype : data.deviceType = (w.userdata device).deviceType)
    (hstorable : Storable (w.userdata device) → Storable data) : StoreKept w w' := by
  constructor
  · intro d
    rw [hw]
    by_cases hd : d = device
    · subst hd
      simpa using htype
    · simp [hd]
  · intro d
    rw [hw]
    by_cases hd : d = device
    · subst hd
      simpa using hstorable
    · simp [hd]

theorem boolCommand_fits {b : BoolT} (h : Fits32 b.val) (type : ActionType) :
    Fits32 (boolCommand b type) := by
  unfold boolCommand
  split
  · exact fits32_one
  · exact fits32_zero
  · split
    · exact fits32_zero
    · exact fits32_one
  · exact h

theorem fsr14Command_fits {fsr14 : DeviceFsr14} {action : Action} {val : Int} {data : UInt8}
    (h : fsr14Command fsr14 action = some (val,data)) : Fits32 val := by
  unfold fsr14Command at h
  split at h
  · cases h
    exact fits32_one
  · cases h
    exact fits32_zero
  · cases h
    split
    · exact fits32_zero
    · exact fits32_one
  · cases h

section Callbacks
variable {device : DeviceId} {w w₁ : World}

theorem velux_kept {klf200 : DeviceVeluxKlf200} (h : w.userdata device = .veluxKlf200 klf200)
    (action : Action) : StoreKept w (veluxKlf200DeviceExec device klf200 action w) := by
  have hset : ∀ klf200' : DeviceVeluxKlf200,
      (klf200'.actualValue = klf200.actualValue ∨ klf200'.actualValue = 0 ∨
        klf200'.actualValue = 1) →
      StoreKept w (w.setUserdata device (.veluxKlf200 klf200')) := by
    intro klf200' hvalue
    refine StoreKept.set rfl (by rw [h]; rfl) ?_
    rw [h,storable_veluxKlf200,storable_veluxKlf200]
    intro hstorable
    rcases hvalue with hsame | hbit
    · rw [hsame]
      exact hstorable
    · exact hbit
  unfold veluxKlf200DeviceExec
  split
  · exact hset _ (.inr (.inr rfl))
  · exact hset _ (.inr (.inr rfl))
  · exact hset _ (.inr (.inl rfl))
  · exact hset _ (.inr (.inl rfl))
  · refine hset _ (.inr ?_)
    simp only
    split <;> simp
  · exact hset _ (.inl rfl)
  · exact hset _ (.inl rfl)
  · exact StoreKept.refl w

theorem kept_of_frame (hframe : ExecFrame device w w₁)
    (hfree : (w.userdata device).deviceType.bounded = false) : StoreKept w w₁ := by
  refine ⟨hframe.types,fun d hd => ?_⟩
  by_cases heq : d = device
  · exact heq ▸ storable_free (by rw [hframe.deviceType,hfree])
  · rw [hframe.other d heq]
    exact hd

theorem deviceSet_kept {action : Action} {event : Option Event} {raised : Option EventType}
    (h : ∀ trigger, deviceSet trigger device action event w = resume trigger device w₁ raised) :
    StoreKept w w₁ := by
  have hframe := deviceSet_frame h
  have hset := deviceSet_quiet h
  simp only [deviceSet] at hset
  split at hset
  · cases hdata : w.userdata device with
    | bool b =>
      simp only [hdata,boolExec,deviceTriggerEvent,ite_self,Option.some.injEq] at hset
      subst hset
      refine StoreKept.set rfl (by rw [hdata]; rfl) (fun hstorable => ?_)
      rw [hdata,storable_bool] at hstorable
      exact (storable_bool _).mpr (boolCommand_fits hstorable action.type)
    | fsr14 fsr14 =>
      simp only [hdata,fsr14DeviceExec] at hset
      split at hset
      · cases hset
        exact StoreKept.refl w
      · rename_i val data hcommand
        simp only [deviceTriggerEvent,Option.some.injEq] at hset
        subst hset
        exact StoreKept.set rfl (by rw [hdata]; rfl)
          (fun _ => (storable_fsr14 _).mpr (fsr14Command_fits hcommand))
    | veluxKlf200 klf200 =>
      simp only [hdata,Option.some.injEq] at hset
      subst hset
      exact velux_kept hdata action
    | plain type =>
      refine kept_of_frame hframe ?_
      rw [hdata]
      cases type <;> rfl
    | _ =>
      refine kept_of_frame hframe ?_
      rw [hdata]
      rfl
  · cases hset
    exact StoreKept.refl w

end Callbacks

theorem int32_fits (v : Int32) : Fits32 v.toInt := ⟨v.le_toInt,v.toInt_lt⟩

theorem getInt32_fits {state : VariantMap} {key : CString} {v : Int}
    (h : euVariantMapGetInt32 state key = .ok v) : Fits32 v := by
  unfold euVariantMapGetInt32 at h
  split at h
  · cases h
    exact int32_fits _
  · cases h

theorem except_map_ok {α β : Type} {f : α → β} {x : Except Fault α} {b : β}
    (h : x.map f = .ok b) : ∃ a, x = .ok a ∧ f a = b := by
  cases x with
  | error e => cases h
  | ok a => exact ⟨a,rfl,Except.ok.inj h⟩

theorem deviceRestore_kept {data data' : Userdata} {state : VariantMap}
    (h : deviceRestore data state = .ok data') :
    data'.deviceType = data.deviceType ∧ (Storable data → Storable data') := by
  cases data with
  | bool b =>
    obtain ⟨b',hb,rfl⟩ := except_map_ok h
    obtain ⟨v,hv,rfl⟩ := except_map_ok hb
    exact ⟨rfl,fun _ => (storable_bool _).mpr (getInt32_fits hv)⟩
  | fsr14 fsr14 =>
    obtain ⟨fsr14',hfsr14,rfl⟩ := except_map_ok h
    obtain ⟨v,hv,rfl⟩ := except_map_ok hfsr14
    exact ⟨rfl,fun _ => (storable_fsr14 _).mpr (getInt32_fits hv)⟩
  | fud14 fud14 =>
    obtain ⟨fud14',-,rfl⟩ := except_map_ok h
    exact ⟨rfl,fun _ => storable_free rfl⟩
  | fsb14 fsb14 =>
    obtain ⟨fsb14',-,rfl⟩ := except_map_ok h
    exact ⟨rfl,fun _ => storable_free rfl⟩
  | veluxKlf200 klf200 =>
    obtain ⟨klf200',hklf200,rfl⟩ := except_map_ok h
    refine ⟨rfl,fun hstorable => (storable_veluxKlf200 _).mpr ?_⟩
    unfold veluxKlf200DeviceRestore at hklf200
    split at hklf200
    · obtain ⟨v,-,rfl⟩ := except_map_ok hklf200
      by_cases hzero : v = 0
      · simp [hzero]
      · by_cases hone : v = 1 <;> simp [hone]
    · cases hklf200
      exact (storable_veluxKlf200 _).mp hstorable
  | _ =>
    cases h
    exact ⟨rfl,id⟩

section Steps
variable {devices : List Device} {w w' : World}

theorem restore_keeps {R : World → World → Prop} (hrefl : ∀ w, R w w)
    (htrans : ∀ s t u, R s t → R t u → R s u) {s : Serialisation} {file : Option s.File}
    (hset : ∀ (w : World) (device : DeviceId) (data : Userdata) (name : CString)
      (state : VariantMap), deviceListFindByName devices name = some device →
      (∃ found, file = some found ∧ (s.deserialize found).lookup name = some state) →
      deviceRestore (w.userdata device) state = .ok data → R w (w.setUserdata device data))
    (h : restoreDevicesState s devices file w = .ok w') : R w w' := by
  have hdevice : ∀ (pair : Sigma fun _ : CString => VariantMap),
      (∃ found, file = some found ∧ (s.deserialize found).lookup pair.1 = some pair.2) →
      ∀ w w', restoreDevice devices w pair = .ok w' → R w w' := by
    intro pair hpair w w' h
    unfold restoreDevice at h
    split at h
    · cases h
      exact hrefl w
    · rename_i device hfind
      obtain ⟨data,hdata,rfl⟩ := except_map_ok h
      exact hset w device data _ _ hfind hpair hdata
  have hall : ∀ (entries : List (Sigma fun _ : CString => VariantMap)),
      (∀ pair ∈ entries, ∃ found, file = some found ∧
        (s.deserialize found).lookup pair.1 = some pair.2) →
      ∀ w w', entries.foldlM (restoreDevice devices) w = .ok w' → R w w' := by
    intro entries
    induction entries with
    | nil =>
      intro _ w w' h
      cases h
      exact hrefl w
    | cons pair entries ih =>
      intro hentries w w' h
      rw [List.foldlM_cons,bind_eq_ok] at h
      obtain ⟨w₁,h₁,hrest⟩ := h
      exact htrans _ _ _ (hdevice pair (hentries pair (by simp)) w w₁ h₁)
        (ih (fun p hp => hentries p (List.mem_cons_of_mem _ hp)) w₁ w' hrest)
  cases file with
  | none =>
    cases h
    exact hrefl w
  | some file =>
    exact hall _ (fun pair hpair => ⟨file,rfl,AList.mem_lookup_iff.mpr hpair⟩) w w' h

theorem restore_kept {s : Serialisation} {file : Option s.File}
    (h : restoreDevicesState s devices file w = .ok w') : StoreKept w w' := by
  refine restore_keeps StoreKept.refl (fun _ _ _ => StoreKept.trans) ?_ h
  intro w device data _ state _ _ hdata
  obtain ⟨htype,hstorable⟩ := deviceRestore_kept hdata
  exact StoreKept.set rfl htype hstorable

theorem storable_rule :
    DataRule (fun a b => b.deviceType = a.deviceType ∧ (Storable a → Storable b)) where
  refl := fun _ => ⟨rfl,id⟩
  trans := fun h h' => ⟨h'.1.trans h.1,fun ha => h'.2 (h.2 ha)⟩
  action := fun hset => ⟨(deviceSet_kept hset).type _,(deviceSet_kept hset).storable _⟩
  fsb14 := fun _ _ => ⟨rfl,fun _ => storable_free rfl⟩
  timer := fun _ _ => ⟨rfl,fun _ => storable_free rfl⟩
  sunriset := fun _ _ => ⟨rfl,fun _ => storable_free rfl⟩
  veluxKlf200 := fun _ => ⟨rfl,id⟩
  schedule := fun _ _ _ => ⟨rfl,fun _ => storable_free rfl⟩

theorem storeKept_of_related (h : Related (fun a b => b.deviceType = a.deviceType ∧
    (Storable a → Storable b)) w w') : StoreKept w w' :=
  ⟨fun d => (h d).1,fun d => (h d).2⟩

theorem dispatches_kept {rules : List Rule} {event : Event} (h : Dispatches rules event w w') :
    StoreKept w w' := by
  obtain ⟨fuel,h⟩ := h
  exact storeKept_of_related (storable_rule.trigger h)

end Steps

/-- The states that the program reaches: it starts with the devices as they are parsed,
restores them from a file, dispatches events, executes commands, and runs callbacks. -/
inductive Reachable (rules : List Rule) (devices : List Device) : World → Prop where
  | start (userdata : DeviceId → Userdata)
      (h : ∀ (i : Nat) device, devices[i]? = some device → userdata i = device.userdata) :
      Reachable rules devices (World.start userdata)
  | restore {w w' : World} (s : Serialisation) (file : Option s.File)
      (hw : Reachable rules devices w) (h : restoreDevicesState s devices file w = .ok w') :
      Reachable rules devices w'
  | event {w w' : World} (event : Event) (hw : Reachable rules devices w)
      (h : Dispatches rules event w w') : Reachable rules devices w'
  | command {w w' : World} (fuel : Nat) (device : DeviceId) (action : Action)
      (hw : Reachable rules devices w)
      (h : deviceSet (engineTriggerEvent rules fuel) device action none w = some w') :
      Reachable rules devices w'
  | fsb14Timer {w w' : World} (fuel : Nat) (device : DeviceId) (hw : Reachable rules devices w)
      (h : fsb14TimerCallback (engineTriggerEvent rules fuel) device w = some w') :
      Reachable rules devices w'
  -- The callbacks of other devices, and whatever else leaves alone what is stored.
  | other {w w' : World} (hw : Reachable rules devices w)
      (h : ∀ d, (w'.userdata d).deviceType = (w.userdata d).deviceType ∧
        observed (w'.userdata d) = observed (w.userdata d)) : Reachable rules devices w'

theorem Reachable.kept {rules : List Rule} {devices : List Device} {w : World}
    (h : Reachable rules devices w) (hparsed : ∀ device ∈ devices, Storable device.userdata)
    {i : Nat} {device : Device} (hi : devices[i]? = some device) :
    (w.userdata i).deviceType = device.deviceType ∧ Storable (w.userdata i) := by
  have hstep : ∀ {w w' : World}, StoreKept w w' →
      (w.userdata i).deviceType = device.deviceType ∧ Storable (w.userdata i) →
      (w'.userdata i).deviceType = device.deviceType ∧ Storable (w'.userdata i) := by
    rintro w w' hkept ⟨htype,hstorable⟩
    exact ⟨(hkept.type i).trans htype,hkept.storable i hstorable⟩
  induction h with
  | start userdata hstart =>
    have hdata : (World.start userdata).userdata i = device.userdata := hstart i device hi
    rw [hdata]
    exact ⟨rfl,hparsed device (List.mem_of_getElem? hi)⟩
  | restore s file _ hrestore ih => exact hstep (restore_kept hrestore) ih
  | event event _ hevent ih => exact hstep (dispatches_kept hevent) ih
  | command fuel device action _ hcommand ih =>
    obtain ⟨w₁,raised,hresume,-,-⟩ := deviceSet_spec device action none _
    rw [hresume] at hcommand
    exact hstep ((deviceSet_kept hresume).trans
      (storeKept_of_related (storable_rule.resumed hcommand))) ih
  | fsb14Timer fuel device _ hexpired ih =>
    have hcallback : timerCallback (engineTriggerEvent rules fuel) ⟨0,.fsb14Timer,device⟩ _ =
      some _ := hexpired
    exact hstep (storeKept_of_related (storable_rule.timer_callback hcallback)) ih
  | other _ hother ih =>
    exact hstep ⟨fun d => (hother d).1,
      fun d hd => storable_observed (hother d).1 (hother d).2 hd⟩ ih

theorem parseCb_storable {outside : Surroundings} {type : DeviceType} {name : CString}
    {options : List CString} {data : Userdata}
    (h : parseCb outside type name options = .ok (some data)) : Storable data := by
  cases type with
  | bool =>
    simp only [parseCb,Except.ok.injEq,Option.some.injEq] at h
    subst h
    refine (storable_bool _).mpr ?_
    simp only [boolParser]
    split
    · exact fits32_zero
    · split
      · exact fits32_one
      · exact ⟨by decide,by decide⟩
  | fsr14 =>
    simp only [parseCb,Except.ok.injEq,Option.map_eq_some_iff,fsr14DeviceParser] at h
    obtain ⟨_,⟨address,-,rfl⟩,rfl⟩ := h
    exact (storable_fsr14 _).mpr fits32_zero
  | veluxKlf200 =>
    obtain ⟨found,hparser,hdata⟩ := except_map_ok h
    obtain ⟨klf200,rfl,rfl⟩ := Option.map_eq_some_iff.mp hdata
    refine (storable_veluxKlf200 _).mpr (.inl ?_)
    unfold veluxKlf200DeviceParser at hparser
    split at hparser
    · cases hparser
    · obtain ⟨address,-,hklf200⟩ := bind_eq_ok.mp hparser
      cases hklf200
      rfl
  | _ => exact storable_free (by rw [parseCb_type h]; rfl)

theorem finished_storable (now : Tm) {device : Device} (h : Storable device.userdata) :
    Storable (device.scheduleParsingFinished now).userdata := by
  obtain ⟨name,data⟩ := device
  cases data <;> exact h

/-- What every parse callback establishes, and the lines and the end of a schedule keep, holds of
all devices that the first pass declares. -/
theorem declarations_hold {I : Userdata → Prop} {outside : Surroundings}
    {files : List (List Char)} {d : DeclarationReader}
    (hparse : ∀ {type name options data}, parseCb outside type name options = .ok (some data) →
      I data)
    (hentry : ∀ {schedule schedule' line}, scheduleParseLine schedule line = some schedule' →
      I (.schedule schedule) → I (.schedule schedule'))
    (hfinish : ∀ {device : Device}, I device.userdata →
      I (device.scheduleParsingFinished outside.now).userdata)
    (h : rulesReadDir (rulesReadFileDeclarations outside) files .start = .ok (0,d)) :
    ∀ device ∈ d.devices, I device.userdata := by
  have hlines : AcceptsAll (declarationLine outside) (files.flatMap fileLines) .start d :=
    acceptsAll_flatMap.mp (rulesReadDir_accepts.mp h).2
  refine hlines.holds (I := fun s => ∀ device ∈ s.devices, I device.userdata) ?_
    (by simp [DeclarationReader.start])
  intro line _ s s' hline hs
  refine declarationLine_holds hline (fun _ _ _ hparsed _ => ?_) hentry hfinish hs
  obtain ⟨type,options,hparsed⟩ := hparsed
  exact hparse hparsed

theorem declarations_storable {outside : Surroundings} {files : List (List Char)}
    {d : DeclarationReader}
    (h : rulesReadDir (rulesReadFileDeclarations outside) files .start = .ok (0,d)) :
    ∀ device ∈ d.devices, Storable device.userdata :=
  declarations_hold parseCb_storable (fun _ _ => storable_free rfl)
    (finished_storable outside.now) h

end DomoticaEngine
