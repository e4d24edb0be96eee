import DomoticaEngine.Fsb14Motion
import DomoticaEngine.StoredState

/-!
Writing the states of the devices to the file and reading them into devices that have just
been parsed.
-/

set_option autoImplicit false

namespace DomoticaEngine
open Records

def settled : Observation → Observation
  | .motor locked condition => .motor locked (if moving condition then .stopped else condition)
  | o => o

theorem settled_settled (o : Observation) : settled (settled o) = settled o := by
  cases o with
  | value v => rfl
  | motor locked condition => cases condition <;> rfl

def expected (data : Userdata) : Option Observation := (observed data).map settled

/-- The device `data₀` after it has read what was stored of `data`. -/
def reread (data₀ data : Userdata) : Userdata :=
  match deviceStore data with
  | none => data₀
  | some state =>
    match deviceRestore data₀ state with
    | .ok data => data
    | .error _ => data₀

def DeviceType.stored (type : DeviceType) : Bool :=
  type = .bool || type = .fsr14 || type = .fud14 || type = .fsb14 || type = .veluxKlf200

section Device

theorem valueStore_lookup (v : Int) :
    (valueStore v).lookup valueKey = some (.int32 (Int32.ofInt v)) := AList.lookup_insert _

theorem valueStore_get (v : Int) (h : Fits32 v) :
    euVariantMapGetInt32 (valueStore v) valueKey = .ok v := by
  have hback : (Int32.ofInt v).toInt = v := Int32.toInt_ofInt_of_le h.1 h.2
  rw [euVariantMapGetInt32,valueStore_lookup]
  exact congrArg Except.ok hback

theorem fud14_fits (n : UInt8) : Fits32 n.toNat := by
  have hlt := n.toNat_lt
  exact ⟨by simp [signBit],by simp [signBit]; omega⟩

theorem fud14_back (n : UInt8) : UInt8.ofInt n.toNat = n := by
  have hsame : ((n.toNat : Int) % 256).toNat = n.toNat := by
    have hlt := n.toNat_lt
    omega
  exact (congrArg UInt8.ofNat hsame).trans UInt8.ofNat_toNat

theorem fsb14Store_value (fsb14 : DeviceFsb14) :
    (fsb14DeviceStore fsb14).lookup valueKey = some (.char (fsb14StoredName fsb14.condition)) :=
  (AList.lookup_insert_ne (by decide)).trans (AList.lookup_insert _)

/-- The restore callback of the FSB14 takes a device that was down for one that is up, and
every other one for one that is down. -/
theorem fsb14_reread (fsb14₀ fsb14 : DeviceFsb14) :
    fsb14DeviceRestore fsb14₀ (fsb14DeviceStore fsb14) =
      .ok { fsb14₀ with locked := fsb14.locked,
                        condition := if fsb14.condition = .down then .up else .down } := by
  have hlocked : euVariantMapGetBool (fsb14DeviceStore fsb14) lockedKey = .ok fsb14.locked := by
    have hlookup : (fsb14DeviceStore fsb14).lookup lockedKey = some (.bool fsb14.locked) :=
      AList.lookup_insert _
    rw [euVariantMapGetBool,hlookup]
  have hvalue : euVariantMapGetChar (fsb14DeviceStore fsb14) valueKey =
      .ok (fsb14StoredName fsb14.condition) := by
    rw [euVariantMapGetChar,fsb14Store_value]
  have hcondition : fsb14RestoredCondition fsb14₀.condition (fsb14StoredName fsb14.condition) =
      if fsb14.condition = .down then .up else .down := by
    unfold fsb14StoredName
    by_cases hdown : fsb14.condition = .down
    · simp only [hdown,if_true]
      rfl
    · by_cases hup : fsb14.condition = .up
      · simp only [hup,reduceCtorEq,if_true,if_false]
        rfl
      · simp only [hdown,hup,if_false]
        rfl
  simp only [fsb14DeviceRestore,hlocked,hvalue,ok_bind,hcondition]
  rfl

theorem unstored_of {data : Userdata} (h : data.deviceType.stored = false) :
    deviceStore data = none ∧ observed data = none := by
  cases data <;> first | exact ⟨rfl,rfl⟩ | cases h

inductive SameKind : Userdata → Userdata → Prop where
  | bool (b₀ b : BoolT) : SameKind (.bool b₀) (.bool b)
  | fsr14 (fsr14₀ fsr14 : DeviceFsr14) : SameKind (.fsr14 fsr14₀) (.fsr14 fsr14)
  | fud14 (fud14₀ fud14 : DeviceFud14) : SameKind (.fud14 fud14₀) (.fud14 fud14)
  | fsb14 (fsb14₀ fsb14 : DeviceFsb14) : SameKind (.fsb14 fsb14₀) (.fsb14 fsb14)
  | veluxKlf200 (klf200₀ klf200 : DeviceVeluxKlf200) :
      SameKind (.veluxKlf200 klf200₀) (.veluxKlf200 klf200)
  | unstored {data₀ data : Userdata} (h₀ : data₀.deviceType.stored = false)
      (h : data.deviceType.stored = false) : SameKind data₀ data

theorem sameKind {data₀ data : Userdata} (htype : data₀.deviceType = data.deviceType) :
    SameKind data₀ data := by
  cases data with
  | bool b => cases data₀ with
    | bool b₀ => exact .bool b₀ b
    | plain type => cases type <;> cases htype
    | _ => cases htype
  | fsr14 fsr14 => cases data₀ with
    | fsr14 fsr14₀ => exact .fsr14 fsr14₀ fsr14
    | plain type => cases type <;> cases htype
    | _ => cases htype
  | fud14 fud14 => cases data₀ with
    | fud14 fud14₀ => exact .fud14 fud14₀ fud14
    | plain type => cases type <;> cases htype
    | _ => cases htype
  | fsb14 fsb14 => cases data₀ with
    | fsb14 fsb14₀ => exact .fsb14 fsb14₀ fsb14
    | plain type => cases type <;> cases htype
    | _ => cases htype
  | veluxKlf200 klf200 => cases data₀ with
    | veluxKlf200 klf200₀ => exact .veluxKlf200 klf200₀ klf200
    | plain type => cases type <;> cases htype
    | _ => cases htype
  | plain type =>
    have hunstored : (Userdata.plain type).deviceType.stored = false := by cases type <;> rfl
    exact .unstored (by rw [htype,hunstored]) hunstored
  | _ => exact .unstored (by rw [htype]; rfl) rfl

/-- What a device makes of its own stored state: all types but the FSB14 get back what was
stored, and store it again. -/
structure Rereads (data₀ data : Userdata) : Prop where
  restored : ∀ state, deviceStore data = some state →
    deviceRestore data₀ state = .ok (reread data₀ data)
  observed_iff : observed (reread data₀ data) = expected data ↔ data.deviceType ≠ .fsb14
  stored_iff : deviceStore (reread data₀ data) = deviceStore data ↔ data.deviceType ≠ .fsb14

theorem reread_of {data₀ data data' : Userdata} {state : VariantMap}
    (hstore : deviceStore data = some state) (hrestore : deviceRestore data₀ state = .ok data') :
    reread data₀ data = data' := by
  simp [reread,hstore,hrestore]

theorem Rereads.number (data' : Userdata) {data₀ data : Userdata} {v : Int}
    (hstore : deviceStore data = some (valueStore v)) (hobserved : observed data = some (.value v))
    (hrestore : deviceRestore data₀ (valueStore v) = .ok data')
    (hstore' : deviceStore data' = some (valueStore v))
    (hobserved' : observed data' = some (.value v)) (htype : data.deviceType ≠ .fsb14) :
    Rereads data₀ data := by
  have hreread := reread_of hstore hrestore
  refine ⟨fun state hstate => ?_,iff_of_true ?_ htype,iff_of_true ?_ htype⟩
  · rw [hstore] at hstate
    cases hstate
    rw [hreread,hrestore]
  · rw [hreread,hobserved',expected,hobserved]
    rfl
  · rw [hreread,hstore',hstore]

theorem Rereads.bool (b₀ : BoolT) {b : BoolT} (h : Storable (.bool b)) :
    Rereads (.bool b₀) (.bool b) := by
  have hvalue := valueStore_get b.val ((storable_bool b).mp h)
  refine .number (.bool { b₀ with val := b.val }) rfl rfl ?_ rfl rfl
    (by simp [Userdata.deviceType])
  simp [deviceRestore,boolRestore,hvalue,Except.map]

theorem Rereads.fsr14 (fsr14₀ : DeviceFsr14) {fsr14 : DeviceFsr14} (h : Storable (.fsr14 fsr14)) :
    Rereads (.fsr14 fsr14₀) (.fsr14 fsr14) := by
  have hvalue := valueStore_get fsr14.val ((storable_fsr14 fsr14).mp h)
  refine .number (.fsr14 { fsr14₀ with val := fsr14.val }) rfl rfl ?_ rfl rfl
    (by simp [Userdata.deviceType])
  simp [deviceRestore,fsr14DeviceRestore,hvalue,Except.map]

theorem Rereads.fud14 (fud14₀ fud14 : DeviceFud14) : Rereads (.fud14 fud14₀) (.fud14 fud14) := by
  have hvalue := valueStore_get fud14.dimValue.toNat (fud14_fits _)
  refine .number (.fud14 { fud14₀ with dimValue := fud14.dimValue }) rfl rfl ?_ rfl rfl
    (by simp [Userdata.deviceType])
  simp [deviceRestore,fud14DeviceRestore,hvalue,Except.map,fud14_back]

theorem Rereads.veluxKlf200 (klf200₀ : DeviceVeluxKlf200) {klf200 : DeviceVeluxKlf200}
    (h : Storable (.veluxKlf200 klf200)) :
    Rereads (.veluxKlf200 klf200₀) (.veluxKlf200 klf200) := by
  have hbit := (storable_veluxKlf200 klf200).mp h
  have hvalue : euVariantMapGetInt32 (valueStore klf200.actualValue) valueKey =
      .ok klf200.actualValue := by
    apply valueStore_get
    rcases hbit with hbit | hbit <;> rw [hbit]
    · exact fits32_zero
    · exact fits32_one
  have hhas : euVariantMapHas (valueStore klf200.actualValue) valueKey = true := by
    rw [euVariantMapHas,valueStore_lookup]
    rfl
  refine .number (.veluxKlf200 { klf200₀ with actualValue := klf200.actualValue }) rfl rfl ?_
    rfl rfl (by simp [Userdata.deviceType])
  simp only [deviceRestore,veluxKlf200DeviceRestore,hhas,hvalue,Except.map,if_true]
  rcases hbit with hbit | hbit <;> simp [hbit]

/-- An FSB14 always comes back in another condition than it is expected in, and is then stored
under another name. -/
theorem Rereads.fsb14 (fsb14₀ fsb14 : DeviceFsb14) : Rereads (.fsb14 fsb14₀) (.fsb14 fsb14) := by
  have hstore : deviceStore (.fsb14 fsb14) = some (fsb14DeviceStore fsb14) := rfl
  have hrestore : deviceRestore (.fsb14 fsb14₀) (fsb14DeviceStore fsb14) =
      .ok (.fsb14 { fsb14₀ with
        locked := fsb14.locked,
        condition := if fsb14.condition = .down then .up else .down }) := by
    rw [deviceRestore,fsb14_reread]
    rfl
  have hreread := reread_of hstore hrestore
  refine ⟨fun state hstate => ?_,iff_of_false ?_ (by simp [Userdata.deviceType]),
    iff_of_false ?_ (by simp [Userdata.deviceType])⟩
  · cases hstate
    rw [hreread,hrestore]
  · rw [hreread]
    intro heq
    simp only [observed,expected,settled,Option.map_some,Option.some.injEq,
      Observation.motor.injEq,true_and] at heq
    cases hcondition : fsb14.condition <;> simp [hcondition,moving] at heq
  · rw [hreread]
    intro heq
    have hvalue := congrArg (fun state => state.bind (fun m => m.lookup valueKey)) heq
    simp only [deviceStore,Option.bind_some,fsb14Store_value,Option.some.injEq,
      Variant.char.injEq] at hvalue
    revert hvalue
    cases fsb14.condition <;> decide

theorem Rereads.unstored {data₀ data : Userdata} (h₀ : data₀.deviceType.stored = false)
    (h : data.deviceType.stored = false) : Rereads data₀ data := by
  obtain ⟨hstore₀,hobserved₀⟩ := unstored_of h₀
  obtain ⟨hstore,hobserved⟩ := unstored_of h
  have hreread : reread data₀ data = data₀ := by simp [reread,hstore]
  have hother : data.deviceType ≠ .fsb14 := by
    intro hfsb14
    rw [hfsb14] at h
    cases h
  refine ⟨fun state hstate => ?_,iff_of_true ?_ hother,iff_of_true ?_ hother⟩
  · rw [hstore] at hstate
    cases hstate
  · rw [hreread,hobserved₀,expected,hobserved]
    rfl
  · rw [hreread,hstore₀,hstore]

theorem reread_spec {data₀ data : Userdata} (htype : data₀.deviceType = data.deviceType)
    (h : Storable data) : Rereads data₀ data := by
  cases sameKind htype with
  | bool b₀ b => exact .bool b₀ h
  | fsr14 fsr14₀ fsr14 => exact .fsr14 fsr14₀ h
  | fud14 fud14₀ fud14 => exact .fud14 fud14₀ fud14
  | veluxKlf200 klf200₀ klf200 => exact .veluxKlf200 klf200₀ h
  | fsb14 fsb14₀ fsb14 => exact .fsb14 fsb14₀ fsb14
  | unstored h₀ h => exact .unstored h₀ h

end Device

section Files
variable {devices : List Device} {w : World}

theorem storedItems_names (devices : List Device) (w : World) :
    (storedItems devices w).map Prod.fst = devices.map Device.name := by
  have hnames := congrArg (List.map Device.name) (List.zipIdx_map_fst 0 devices)
  rw [List.map_map] at hnames
  rw [storedItems,List.map_map]
  exact hnames

theorem storedItems_lookup (hnodup : (devices.map Device.name).Nodup) {i : Nat} {device : Device}
    (hi : devices[i]? = some device) :
    (writeTo ∅ (storedItems devices w)).lookup device.name = deviceStore (w.userdata i) := by
  have hkeys : ((storedItems devices w).map Prod.fst).Nodup := by rwa [storedItems_names]
  have hitem : (device.name,deviceStore (w.userdata i)) ∈ storedItems devices w :=
    List.mem_map.mpr ⟨(device,i),List.mk_mem_zipIdx_iff_getElem?.mpr hi,rfl⟩
  exact writeTo_empty hkeys hitem

theorem entries_distinct {pair : Sigma fun _ : CString => VariantMap}
    {entries : List (Sigma fun _ : CString => VariantMap)} (hhead : pair.1 ∉ entries.keys)
    {k : DeviceId} (hfind : deviceListFindByName devices pair.1 = some k) :
    ∀ p ∈ entries, deviceListFindByName devices p.1 ≠ some k := by
  intro p hp hpk
  obtain ⟨device,hk,hname⟩ := deviceListFindByName_some hfind
  obtain ⟨device',hk',hname'⟩ := deviceListFindByName_some hpk
  rw [hk] at hk'
  cases hk'
  exact hhead (List.mem_keys.mpr ⟨p.2,by rw [← hname,hname']; exact hp⟩)

theorem restore_entries (w : World) {entries : List (Sigma fun _ : CString => VariantMap)}
    (hkeys : entries.NodupKeys) (target : DeviceId → Userdata)
    (h : ∀ pair ∈ entries, ∀ i, deviceListFindByName devices pair.1 = some i →
      deviceRestore (w.userdata i) pair.2 = .ok (target i)) :
    ∃ w', entries.foldlM (restoreDevice devices) w = .ok w' ∧
      (∀ pair ∈ entries, ∀ i, deviceListFindByName devices pair.1 = some i →
        w'.userdata i = target i) ∧
      (∀ i, (∀ pair ∈ entries, deviceListFindByName devices pair.1 ≠ some i) →
        w'.userdata i = w.userdata i) := by
  induction entries generalizing w with
  | nil => exact ⟨w,rfl,by simp,fun _ _ => rfl⟩
  | cons pair entries ih =>
    obtain ⟨hhead,htail⟩ := List.nodupKeys_cons.mp hkeys
    cases hfind : deviceListFindByName devices pair.1 with
    | none =>
      obtain ⟨w',hfold,htarget,hother⟩ := ih w htail (fun p hp => h p (List.mem_cons_of_mem _ hp))
      refine ⟨w',?_,fun p hp i hi => ?_,fun i hi => ?_⟩
      · simp only [List.foldlM_cons,restoreDevice,hfind,ok_bind]
        exact hfold
      · rcases List.mem_cons.mp hp with rfl | hp
        · rw [hfind] at hi
          cases hi
        · exact htarget p hp i hi
      · exact hother i (fun p hp => hi p (List.mem_cons_of_mem _ hp))
    | some k =>
      have hrestore := h pair (by simp) k hfind
      have hdistinct := entries_distinct hhead hfind
      have hrest : ∀ p ∈ entries, ∀ i, deviceListFindByName devices p.1 = some i →
          deviceRestore ((w.setUserdata k (target k)).userdata i) p.2 = .ok (target i) := by
        intro p hp i hi
        have hne : i ≠ k := by
          rintro rfl
          exact hdistinct p hp hi
        rw [setUserdata_other hne]
        exact h p (List.mem_cons_of_mem _ hp) i hi
      obtain ⟨w',hfold,htarget,hother⟩ := ih _ htail hrest
      refine ⟨w',?_,fun p hp i hi => ?_,fun i hi => ?_⟩
      · simp only [List.foldlM_cons,restoreDevice,hfind,hrestore,Except.map,ok_bind]
        exact hfold
      · rcases List.mem_cons.mp hp with rfl | hp
        · rw [hfind] at hi
          cases hi
          rw [hother k hdistinct,setUserdata_same]
        · exact htarget p hp i hi
      · have hne : i ≠ k := by
          rintro rfl
          exact hi pair (by simp) hfind
        rw [hother i (fun p hp => hi p (List.mem_cons_of_mem _ hp)),setUserdata_other hne]

variable {s : Serialisation}

theorem store_restore (hnodup : (devices.map Device.name).Nodup) {w₀ : World}
    (hrereads : ∀ (i : Nat) device, devices[i]? = some device →
      Rereads (w₀.userdata i) (w.userdata i)) :
    ∃ w', restoreDevicesState s devices (some (storeDevicesState s devices w)) w₀ = .ok w' ∧
      ∀ (i : Nat) device, devices[i]? = some device →
        w'.userdata i = reread (w₀.userdata i) (w.userdata i) := by
  have hlookup : ∀ (i : Nat) device, devices[i]? = some device →
      (s.deserialize (storeDevicesState s devices w)).lookup device.name =
        deviceStore (w.userdata i) := by
    intro i device hi
    rw [storeDevicesState,s.lossless,storedItems_lookup hnodup hi]
  have hentry : ∀ pair ∈ (s.deserialize (storeDevicesState s devices w)).entries, ∀ i,
      deviceListFindByName devices pair.1 = some i →
      ∃ device, devices[i]? = some device ∧ deviceStore (w.userdata i) = some pair.2 := by
    intro pair hpair i hfind
    obtain ⟨device,hi,hname⟩ := deviceListFindByName_some hfind
    refine ⟨device,hi,?_⟩
    rw [← hlookup i device hi,hname]
    exact AList.mem_lookup_iff.mpr hpair
  obtain ⟨w',hfold,htarget,hother⟩ := restore_entries w₀
    (s.deserialize (storeDevicesState s devices w)).nodupKeys
    (fun i => reread (w₀.userdata i) (w.userdata i)) (fun pair hpair i hfind => by
      obtain ⟨device,hi,hstored⟩ := hentry pair hpair i hfind
      exact (hrereads i device hi).restored _ hstored)
  refine ⟨w',hfold,fun i device hi => ?_⟩
  have hfind := deviceListFindByName_name hnodup hi
  cases hstored : deviceStore (w.userdata i) with
  | some state =>
    have hpair : (⟨device.name,state⟩ : Sigma fun _ : CString => VariantMap) ∈
        (s.deserialize (storeDevicesState s devices w)).entries := by
      apply AList.mem_lookup_iff.mp
      rw [hlookup i device hi,hstored]
      rfl
    exact htarget _ hpair i hfind
  | none =>
    have huntouched : w'.userdata i = w₀.userdata i := by
      apply hother
      intro pair hpair hpi
      obtain ⟨device',-,hsome⟩ := hentry pair hpair i hpi
      rw [hstored] at hsome
      cases hsome
    rw [huntouched,reread,hstored]

end Files

def Fresh (devices : List Device) (w : World) : Prop :=
  ∀ (i : Nat) device, devices[i]? = some device → w.userdata i = device.userdata

def BroughtBack (devices : List Device) (w w' : World) : Prop :=
  ∀ (i : Nat) device, devices[i]? = some device →
    observed (w'.userdata i) = expected (w.userdata i)

def RoundTrips (s : Serialisation) (devices : List Device) (w : World) : Prop :=
  ∀ w₀, Fresh devices w₀ →
    ∃ w', restoreDevicesState s devices (some (storeDevicesState s devices w)) w₀ = .ok w' ∧
      BroughtBack devices w w'

def Restarts (s : Serialisation) (devices : List Device) : s.File → s.File → Prop :=
  Relation.ReflTransGen (fun file file' => ∃ w₀ w', Fresh devices w₀ ∧
    storeInit s devices (some file) w₀ = .ok (w',file'))

/-- Restarts change nothing: not the file that was stored of `w`, and not the devices. -/
def Idempotent (s : Serialisation) (devices : List Device) (w : World) : Prop :=
  ∀ file, Restarts s devices (storeDevicesState s devices w) file → ∀ w₀, Fresh devices w₀ →
    ∃ w', storeInit s devices (some file) w₀ = .ok (w',storeDevicesState s devices w) ∧
      BroughtBack devices w w'

structure Configured (outside : Surroundings) (files : List (List Char)) (devices : List Device)
    (rules : List Rule) (w : World) : Prop where
  declared : ∃ d, rulesReadDir (rulesReadFileDeclarations outside) files .start = .ok (0,d) ∧
    d.devices = devices
  names : (devices.map Device.name).Nodup
  reachable : Reachable rules devices w

section Restart
variable {outside : Surroundings} {files : List (List Char)} {devices : List Device}
  {rules : List Rule} {w w₀ : World}

/-- The devices as they are parsed. The value for other numbers does not matter. -/
def parsedWorld (devices : List Device) : World :=
  World.start fun i => (devices[i]?.map Device.userdata).getD (.plain .dht22)

theorem parsedWorld_fresh (devices : List Device) : Fresh devices (parsedWorld devices) :=
  fun i device hi => by simp [parsedWorld,World.start,hi]

theorem Configured.kept (h : Configured outside files devices rules w) {i : Nat} {device : Device}
    (hi : devices[i]? = some device) :
    (w.userdata i).deviceType = device.deviceType ∧ Storable (w.userdata i) := by
  obtain ⟨d,hd,rfl⟩ := h.declared
  exact h.reachable.kept (declarations_storable hd) hi

/-- In reachable states every device can reread what is stored of it. -/
theorem Configured.rereads (h : Configured outside files devices rules w)
    (hfresh : Fresh devices w₀) (i : Nat) (device : Device) (hi : devices[i]? = some device) :
    Rereads (w₀.userdata i) (w.userdata i) := by
  obtain ⟨htype,hstorable⟩ := h.kept hi
  exact reread_spec (by rw [hfresh i device hi,htype]; rfl) hstorable

variable {s : Serialisation}

theorem roundTrips_fsb14 (h : Configured outside files devices rules w)
    (htrips : RoundTrips s devices w) : ∀ device ∈ devices, device.deviceType ≠ .fsb14 := by
  intro device hdevice
  obtain ⟨i,hi⟩ := List.getElem?_of_mem hdevice
  have hfresh := parsedWorld_fresh devices
  obtain ⟨w',hrestore,hall⟩ := htrips _ hfresh
  obtain ⟨w'',hrestore',hreread⟩ := store_restore (s := s) h.names (h.rereads hfresh)
  rw [hrestore] at hrestore'
  cases hrestore'
  have hobserved := hall i device hi
  rw [hreread i device hi,(h.rereads hfresh i device hi).observed_iff,(h.kept hi).1] at hobserved
  exact hobserved

theorem roundTrips_other (h : Configured outside files devices rules w)
    (hother : ∀ device ∈ devices, device.deviceType ≠ .fsb14) : RoundTrips s devices w := by
  intro w₀ hfresh
  obtain ⟨w',hrestore,hreread⟩ := store_restore (s := s) h.names (h.rereads hfresh)
  refine ⟨w',hrestore,fun i device hi => ?_⟩
  rw [hreread i device hi,(h.rereads hfresh i device hi).observed_iff,(h.kept hi).1]
  exact hother device (List.mem_of_getElem? hi)

/-- A start from the file of `w`: the devices are restored, and stored and restored again. -/
theorem storeInit_spec (h : Configured outside files devices rules w)
    (hfresh : Fresh devices w₀) :
    ∃ w₁ w₂, storeInit s devices (some (storeDevicesState s devices w)) w₀ =
        .ok (w₂,storeDevicesState s devices w₁) ∧
      ∀ (i : Nat) device, devices[i]? = some device →
        w₁.userdata i = reread (w₀.userdata i) (w.userdata i) ∧
        w₂.userdata i = reread (w₁.userdata i) (w₁.userdata i) ∧
        Rereads (w₁.userdata i) (w₁.userdata i) ∧
        (w₁.userdata i).deviceType = device.deviceType := by
  obtain ⟨w₁,hrestore,hreread⟩ := store_restore (s := s) h.names (h.rereads hfresh)
  have hagain : ∀ (i : Nat) device, devices[i]? = some device →
      Rereads (w₁.userdata i) (w₁.userdata i) := by
    intro i device hi
    obtain ⟨d,hd,rfl⟩ := h.declared
    have hstorable : Storable (w₀.userdata i) := by
      rw [hfresh i device hi]
      exact declarations_storable hd device (List.mem_of_getElem? hi)
    exact reread_spec rfl ((restore_kept hrestore).storable i hstorable)
  obtain ⟨w₂,hrestore₂,hreread₂⟩ := store_restore (s := s) h.names hagain
  refine ⟨w₁,w₂,?_,fun i device hi => ⟨hreread i device hi,hreread₂ i device hi,hagain i device hi,
    ?_⟩⟩
  rotate_left
  · rw [(restore_kept hrestore).type i,hfresh i device hi]
    rfl
  simp only [storeInit,hrestore,ok_bind,hrestore₂]
  rfl

theorem storeDevicesState_congr {w' : World}
    (h : ∀ (i : Nat) device, devices[i]? = some device →
      deviceStore (w'.userdata i) = deviceStore (w.userdata i)) :
    storeDevicesState s devices w' = storeDevicesState s devices w := by
  have hitems : storedItems devices w' = storedItems devices w := by
    unfold storedItems
    apply List.map_congr_left
    rintro ⟨device,i⟩ hmem
    exact congrArg (Prod.mk device.name) (h i device (List.mk_mem_zipIdx_iff_getElem?.mp hmem))
  rw [storeDevicesState,hitems]
  rfl

theorem idempotent_fsb14 (h : Configured outside files devices rules w)
    (hidempotent : Idempotent s devices w) : ∀ device ∈ devices, device.deviceType ≠ .fsb14 := by
  intro device hdevice
  obtain ⟨i,hi⟩ := List.getElem?_of_mem hdevice
  have hfresh := parsedWorld_fresh devices
  obtain ⟨w',hinit,-⟩ := hidempotent _ .refl _ hfresh
  obtain ⟨w₁,w₂,hinit',hall⟩ := storeInit_spec (s := s) h hfresh
  rw [hinit] at hinit'
  have hfile : storeDevicesState s devices w = storeDevicesState s devices w₁ :=
    (Prod.mk.inj (Except.ok.inj hinit')).2
  have hlookup := congrArg (fun file => (s.deserialize file).lookup device.name) hfile
  simp only [storeDevicesState,s.lossless,storedItems_lookup h.names hi] at hlookup
  have hstored := hlookup.symm
  rw [(hall i device hi).1,(h.rereads hfresh i device hi).stored_iff,(h.kept hi).1] at hstored
  exact hstored

theorem idempotent_other (h : Configured outside files devices rules w)
    (hother : ∀ device ∈ devices, device.deviceType ≠ .fsb14) : Idempotent s devices w := by
  have hstart : ∀ w₀, Fresh devices w₀ → ∃ w',
      storeInit s devices (some (storeDevicesState s devices w)) w₀ =
        .ok (w',storeDevicesState s devices w) ∧ BroughtBack devices w w' := by
    intro w₀ hfresh
    obtain ⟨w₁,w₂,hinit,hall⟩ := storeInit_spec (s := s) h hfresh
    have hfile : storeDevicesState s devices w₁ = storeDevicesState s devices w := by
      refine storeDevicesState_congr (fun i device hi => ?_)
      rw [(hall i device hi).1,(h.rereads hfresh i device hi).stored_iff,(h.kept hi).1]
      exact hother device (List.mem_of_getElem? hi)
    refine ⟨w₂,by rw [hinit,hfile],fun i device hi => ?_⟩
    obtain ⟨hfirst,hsecond,hagain,htype⟩ := hall i device hi
    have hne := hother device (List.mem_of_getElem? hi)
    have hrestored : observed (w₁.userdata i) = expected (w.userdata i) := by
      rw [hfirst,(h.rereads hfresh i device hi).observed_iff,(h.kept hi).1]
      exact hne
    have hkept : observed (w₂.userdata i) = expected (w₁.userdata i) := by
      rw [hsecond,hagain.observed_iff,htype]
      exact hne
    rw [hkept,expected,hrestored,expected,Option.map_map]
    exact congrArg (fun f => (observed (w.userdata i)).map f) (funext settled_settled)
  intro file hrestarts w₀ hfresh
  have hsame : file = storeDevicesState s devices w := by
    induction hrestarts with
    | refl => rfl
    | tail _ hlast ih =>
      obtain ⟨w₁,w',hfresh',hinit⟩ := hlast
      obtain ⟨w'',hinit',-⟩ := hstart w₁ hfresh'
      rw [ih,hinit'] at hinit
      exact (Prod.mk.inj (Except.ok.inj hinit)).2.symm
  rw [hsame]
  exact hstart w₀ hfresh

end Restart

def plainSerialisation : Serialisation :=
  { File := DevicesState, serialize := id, deserialize := id, lossless := fun _ _ => rfl }

def roomFile : List Char := "BOOL s 1\nOUTPUT lamp FUD14 2\n".toList

def roomDevices : List Device :=
  [⟨"s".toList,.bool ⟨1⟩⟩, ⟨"lamp".toList,.fud14 ⟨2,0,1,0,100,3⟩⟩]

def blindFile : List Char := "OUTPUT blind FSB14 1 30\n".toList

def blindDevices : List Device := [⟨"blind".toList,.fsb14 blind⟩]

theorem parsedWorld_reachable (rules : List Rule) (devices : List Device) :
    Reachable rules devices (parsedWorld devices) :=
  .start _ (fun i device hi => by simp [hi])

def roomRules : List Rule := [⟨⟨0,.unset⟩,[],[⟨.set,1,["40".toList]⟩]⟩]

theorem room_configured : ∃ w, Configured quietHouse [roomFile] roomDevices roomRules w ∧
    w.userdata 0 = .bool ⟨0⟩ ∧ w.userdata 1 = .fud14 ⟨2,40,0,0,100,3⟩ := by
  obtain ⟨w,hset,hswitch,hlamp⟩ : ∃ w, deviceSet (engineTriggerEvent roomRules 2) 0 ⟨.unset,0,[]⟩
      none (parsedWorld roomDevices) = some w ∧ w.userdata 0 = .bool ⟨0⟩ ∧
        w.userdata 1 = .fud14 ⟨2,40,0,0,100,3⟩ := ⟨_,rfl,rfl,rfl⟩
  exact ⟨w,⟨⟨⟨roomDevices,none⟩,rfl,rfl⟩,by decide,
    .command 2 0 ⟨.unset,0,[]⟩ (parsedWorld_reachable _ _) hset⟩,hswitch,hlamp⟩

theorem blind_configured :
    Configured quietHouse [blindFile] blindDevices [] (parsedWorld blindDevices) :=
  ⟨⟨⟨blindDevices,none⟩,rfl,rfl⟩,by decide,parsedWorld_reachable _ _⟩

/-- The states of the devices survive a restart exactly when none of them is an FSB14. -/
theorem store_roundtrip_iff (s : Serialisation) (outside : Surroundings)
    (files : List (List Char)) (devices : List Device) (rules : List Rule) (w : World)
    (h : Configured outside files devices rules w) :
    RoundTrips s devices w ↔ ∀ device ∈ devices, device.deviceType ≠ .fsb14 :=
  ⟨roundTrips_fsb14 h,roundTrips_other h⟩

theorem store_roundtrip_room : ∃ w, Configured quietHouse [roomFile] roomDevices roomRules w ∧
    w.userdata 1 = .fud14 ⟨2,40,0,0,100,3⟩ ∧ RoundTrips plainSerialisation roomDevices w := by
  obtain ⟨w,hconfigured,-,hlamp⟩ := room_configured
  refine ⟨w,hconfigured,hlamp,?_⟩
  exact (store_roundtrip_iff plainSerialisation quietHouse [roomFile] roomDevices roomRules w
    hconfigured).mpr (by decide)

/-- A blind that has just been parsed is stored as stopped, and comes back as down. -/
theorem store_roundtrip_blind :
    Configured quietHouse [blindFile] blindDevices [] (parsedWorld blindDevices) ∧
      ¬ RoundTrips plainSerialisation blindDevices (parsedWorld blindDevices) := by
  refine ⟨blind_configured,fun htrips => ?_⟩
  exact roundTrips_fsb14 blind_configured htrips ⟨"blind".toList,.fsb14 blind⟩ (by decide) rfl

/-- Any number of restarts leaves the file and the devices alone exactly when none of the
devices is an FSB14. -/
theorem store_init_idempotent_iff (s : Serialisation) (outside : Surroundings)
    (files : List (List Char)) (devices : List Device) (rules : List Rule) (w : World)
    (h : Configured outside files devices rules w) :
    Idempotent s devices w ↔ ∀ device ∈ devices, device.deviceType ≠ .fsb14 :=
  ⟨idempotent_fsb14 h,idempotent_other h⟩

theorem store_init_idempotent_room :
    ∃ w, Configured quietHouse [roomFile] roomDevices roomRules w ∧
      w.userdata 1 = .fud14 ⟨2,40,0,0,100,3⟩ ∧ Idempotent plainSerialisation roomDevices w := by
  obtain ⟨w,hconfigured,-,hlamp⟩ := room_configured
  refine ⟨w,hconfigured,hlamp,?_⟩
  exact (store_init_idempotent_iff plainSerialisation quietHouse [roomFile] roomDevices roomRules w
    hconfigured).mpr (by decide)

/-- The first start takes the blind for one that is down, and writes that to the file. -/
theorem store_init_blind :
    Configured quietHouse [blindFile] blindDevices [] (parsedWorld blindDevices) ∧
      ¬ Idempotent plainSerialisation blindDevices (parsedWorld blindDevices) := by
  refine ⟨blind_configured,fun hidempotent => ?_⟩
  exact idempotent_fsb14 blind_configured hidempotent ⟨"blind".toList,.fsb14 blind⟩ (by decide) rfl

end DomoticaEngine
