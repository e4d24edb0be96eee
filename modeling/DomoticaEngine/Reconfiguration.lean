import DomoticaEngine.Outputs
import DomoticaEngine.Recovery

/-!
A program that stops and is started again with another configuration, from the file that it left.
-/

set_option autoImplicit false

namespace DomoticaEngine
open Records

def TypesKept (devices devices' : List Device) : Prop :=
  ∀ device ∈ devices, ∀ device' ∈ devices', device.name = device'.name →
    device'.deviceType = device.deviceType

section Files
variable {s : Serialisation} {devices devices' : List Device} {w w₀ : World}

theorem entry_stored (hnodup : (devices.map Device.name).Nodup)
    {pair : Sigma fun _ : CString => VariantMap}
    (hpair : pair ∈ (s.deserialize (storeDevicesState s devices w)).entries) :
    ∃ (k : Nat) (device : Device), devices[k]? = some device ∧ device.name = pair.1 ∧
      deviceStore (w.userdata k) = some pair.2 := by
  have hlookup : (writeTo ∅ (storedItems devices w)).lookup pair.1 = some pair.2 := by
    rw [← s.lossless]
    exact AList.mem_lookup_iff.mpr hpair
  by_cases hmem : pair.1 ∈ devices.map Device.name
  · obtain ⟨device,hdevice,hname⟩ := List.mem_map.mp hmem
    obtain ⟨k,hk⟩ := List.getElem?_of_mem hdevice
    refine ⟨k,device,hk,hname,?_⟩
    rw [← storedItems_lookup hnodup hk,hname,hlookup]
  · rw [writeTo_other (by rwa [storedItems_names])] at hlookup
    cases hlookup

def carried (devices devices' : List Device) (w w₀ : World) (i : DeviceId) : Userdata :=
  match (devices'[i]?).bind (fun device' => deviceListFindByName devices device'.name) with
  | some k => reread (w₀.userdata i) (w.userdata k)
  | none => w₀.userdata i

theorem carried_kept (hnodup : (devices.map Device.name).Nodup) {i k : Nat}
    {device device' : Device} (hi : devices'[i]? = some device') (hk : devices[k]? = some device)
    (hname : device.name = device'.name) :
    carried devices devices' w w₀ i = reread (w₀.userdata i) (w.userdata k) := by
  have hfind := deviceListFindByName_name hnodup hk
  rw [hname] at hfind
  simp only [carried,hi,Option.bind_some,hfind]

theorem carried_new {i : Nat} {device' : Device} (hi : devices'[i]? = some device')
    (hnew : device'.name ∉ devices.map Device.name) :
    carried devices devices' w w₀ i = w₀.userdata i := by
  cases hfind : deviceListFindByName devices device'.name with
  | none => simp only [carried,hi,Option.bind_some,hfind]
  | some k =>
    obtain ⟨device,hk,hname⟩ := deviceListFindByName_some hfind
    exact absurd (List.mem_map.mpr ⟨device,List.mem_of_getElem? hk,hname⟩) hnew

/-- The devices of the new configuration read the file of the old one, each what was stored under
its name. -/
theorem restore_carried (hnodup : (devices.map Device.name).Nodup)
    (hnodup' : (devices'.map Device.name).Nodup)
    (hrereads : ∀ (k i : Nat) device device', devices[k]? = some device →
      devices'[i]? = some device' → device.name = device'.name →
      Rereads (w₀.userdata i) (w.userdata k)) :
    ∃ w', restoreDevicesState s devices' (some (storeDevicesState s devices w)) w₀ = .ok w' ∧
      ∀ (i : Nat) device', devices'[i]? = some device' →
        w'.userdata i = carried devices devices' w w₀ i := by
  obtain ⟨w',hfold,htarget,hother⟩ := restore_entries w₀
    (s.deserialize (storeDevicesState s devices w)).nodupKeys (carried devices devices' w w₀)
    (fun pair hpair i hfind => by
      obtain ⟨k,device,hk,hname,hstored⟩ := entry_stored hnodup hpair
      obtain ⟨device',hi,hname'⟩ := deviceListFindByName_some hfind
      have hsame := hname.trans hname'.symm
      rw [carried_kept hnodup hi hk hsame]
      exact (hrereads k i device device' hk hi hsame).restored _ hstored)
  refine ⟨w',hfold,fun i device' hi => ?_⟩
  by_cases hpair : ∃ pair ∈ (s.deserialize (storeDevicesState s devices w)).entries,
      deviceListFindByName devices' pair.1 = some i
  · obtain ⟨pair,hmem,hfind⟩ := hpair
    exact htarget pair hmem i hfind
  · -- Nothing is stored under the name.
    rw [hother i (fun pair hmem hfind => hpair ⟨pair,hmem,hfind⟩)]
    by_cases hnew : device'.name ∈ devices.map Device.name
    · obtain ⟨device,hdevice,hname⟩ := List.mem_map.mp hnew
      obtain ⟨k,hk⟩ := List.getElem?_of_mem hdevice
      have hnone : deviceStore (w.userdata k) = none := by
        cases hstored : deviceStore (w.userdata k) with
        | none => rfl
        | some state =>
          refine absurd ?_ hpair
          refine ⟨⟨device.name,state⟩,AList.mem_lookup_iff.mp ?_,?_⟩
          · rw [storeDevicesState,s.lossless,storedItems_lookup hnodup hk,hstored]
            rfl
          · rw [hname]
            exact deviceListFindByName_name hnodup' hi
      rw [carried_kept hnodup hi hk hname,reread,hnone]
    · rw [carried_new hi hnew]

end Files

inductive Reconfigures {s : Serialisation} (outside : Surroundings) (files : List (List Char))
    (devices : List Device) (i : Installation s) : Installation s → Prop where
  | again {d : DeclarationReader} {w₁ w₂ : World} {stored : s.File}
      (ct et : DeviceId → SunrisetEvent → Int)
      (hdeclared : rulesReadDir (rulesReadFileDeclarations outside) files .start = .ok (0,d))
      (hdevices : d.devices = devices)
      (hrestored : restoreDevicesState s devices (some i.file) (parsedWorld devices) = .ok w₁)
      (hinit : storeInit s devices (some i.file) (parsedWorld devices) = .ok (w₂,stored)) :
      Reconfigures outside files devices i ⟨Program.start devices w₂ ct et,stored,w₁,0⟩

section Histories
variable {s : Serialisation} {execdir : CString} {devices devices' : List Device}
  {rules rules' : List Rule} {outside outside' : Surroundings} {files files' : List (List Char)}
  {i j k : Installation s} {w : World}

theorem Reconfigures.installed (h : Reconfigures outside files devices i j) :
    Installed s devices outside files j := by
  cases h with
  | again ct et hdeclared hdevices hrestored hinit =>
    exact .installed ct et hdeclared hdevices hrestored hinit

theorem Reconfigures.boots (h : Reconfigures outside files devices i j) :
    Boots outside files s (some i.file) devices j.program := by
  cases h with
  | again ct et hdeclared hdevices hrestored hinit =>
    subst hdevices
    exact .boots ct et hdeclared hinit

/-- The old states as the new devices read them: once when the program finds the file, and once
more when it has written its own. -/
theorem storeInit_carried (h : Configured outside files devices rules w)
    (h' : ∃ d, rulesReadDir (rulesReadFileDeclarations outside') files' .start = .ok (0,d) ∧
      d.devices = devices')
    (hnames' : (devices'.map Device.name).Nodup) (htypes : TypesKept devices devices') :
    ∃ w₁ w₂, restoreDevicesState s devices' (some (storeDevicesState s devices w))
        (parsedWorld devices') = .ok w₁ ∧
      storeInit s devices' (some (storeDevicesState s devices w)) (parsedWorld devices') =
        .ok (w₂,storeDevicesState s devices' w₁) ∧
      ∀ (n : Nat) device', devices'[n]? = some device' →
        observed (w₂.userdata n) = (observed (w₁.userdata n)).map turned ∧
        (∀ (m : Nat) device, devices[m]? = some device → device.name = device'.name →
          observed (w₁.userdata n) = (observed (w.userdata m)).map turned) ∧
        (device'.name ∉ devices.map Device.name → w₁.userdata n = device'.userdata) := by
  have hfresh := parsedWorld_fresh devices'
  have htype : ∀ (m n : Nat) device device', devices[m]? = some device →
      devices'[n]? = some device' → device.name = device'.name →
      ((parsedWorld devices').userdata n).deviceType = (w.userdata m).deviceType := by
    intro m n device device' hm hn hname
    rw [hfresh n device' hn,(h.kept hm).1]
    exact htypes device (List.mem_of_getElem? hm) device' (List.mem_of_getElem? hn) hname
  obtain ⟨w₁,hrestore,hcarried⟩ := restore_carried (s := s) h.names hnames'
    (fun m n device device' hm hn hname =>
      reread_spec (htype m n device device' hm hn hname) (h.kept hm).2)
  have hw₁ : Configured outside' files' devices' [] w₁ :=
    ⟨h',hnames',.restore s _ (parsedWorld_reachable [] devices') hrestore⟩
  obtain ⟨w₂,hrestore₂,hreread₂⟩ := store_restore (s := s) hnames'
    (fun n device' hn => reread_spec rfl (hw₁.kept hn).2)
  refine ⟨w₁,w₂,hrestore,?_,fun n device' hn => ⟨?_,fun m device hm hname => ?_,fun hnew => ?_⟩⟩
  · simp only [storeInit,hrestore,ok_bind,hrestore₂]
    rfl
  · rw [hreread₂ n device' hn]
    exact observed_reread rfl (hw₁.kept hn).2
  · rw [hcarried n device' hn,carried_kept h.names hn hm hname]
    exact observed_reread (htype m n device device' hm hn hname) (h.kept hm).2
  · rw [hcarried n device' hn,carried_new hn hnew]
    exact hfresh n device' hn

/-- Whatever has happened, the program can be started with other files, and goes on as with the
first ones. A device that keeps its name and type shows what was stored of it, with the address and
the options of its new declaration; a new one shows what it is declared with. -/
theorem reconfigured_keeps (hinstalled : Installed s devices outside files i)
    (hnames : (devices.map Device.name).Nodup)
    (hrun : Relation.ReflTransGen (Happens s execdir devices rules) i j)
    (hdeclared : ∃ d, rulesReadDir (rulesReadFileDeclarations outside') files' .start = .ok (0,d) ∧
      d.devices = devices')
    (hnames' : (devices'.map Device.name).Nodup) (htypes : TypesKept devices devices') :
    (∃ k, Reconfigures outside' files' devices' j k) ∧
      ∀ k, Reconfigures outside' files' devices' j k →
        Installed s devices' outside' files' k ∧
        ∀ (n : Nat) device', devices'[n]? = some device' →
          configuration (k.program.world.userdata n) = configuration device'.userdata ∧
          (∀ (m : Nat) device, devices[m]? = some device → device.name = device'.name →
            observed (k.program.world.userdata n) =
              (observed (j.saved.userdata m)).map turned^[j.restarts+2] ∧
            (device'.deviceType ≠ .fsb14 →
              observed (k.program.world.userdata n) = observed (j.saved.userdata m))) ∧
          (device'.name ∉ devices.map Device.name →
            observed (k.program.world.userdata n) = (observed device'.userdata).map turned) := by
  obtain ⟨w,hj⟩ := hinstalled.history hnames hrun
  have hconfigured : Configured outside files devices rules w :=
    ⟨hinstalled.declared,hnames,hj.stored⟩
  have hsaved : Configured outside files devices rules j.saved :=
    ⟨hinstalled.declared,hnames,hj.before⟩
  obtain ⟨w₁,w₂,hrestore,hinit,hall⟩ :=
    storeInit_carried (s := s) hconfigured hdeclared hnames' htypes
  rw [← hj.file] at hrestore hinit
  obtain ⟨d,hread,hdevices⟩ := hdeclared
  refine ⟨⟨_,.again (fun _ _ => 0) (fun _ _ => 0) hread hdevices hrestore hinit⟩,
    fun k hagain => ⟨hagain.installed,fun n device' hn => ?_⟩⟩
  have houtputs : ProgramOutputs execdir (declared devices') k.program := hagain.boots.outputs
  have hconfiguration := houtputs.world.kept n
  rw [declared_device hn] at hconfiguration
  cases hagain with
  | again ct et _ _ _ hinit' =>
    rw [hinit] at hinit'
    obtain ⟨rfl,-⟩ := Prod.mk.inj (Except.ok.inj hinit')
    obtain ⟨hsecond,hkept,hnew⟩ := hall n device' hn
    have hstart : observed ((Program.start devices' w₂ ct et).world.userdata n) =
        (observed (w₁.userdata n)).map turned := (start_observed devices' w₂ ct et n).trans hsecond
    refine ⟨hconfiguration,fun m device hm hname => ?_,fun hother => ?_⟩
    · have hturns : observed ((Program.start devices' w₂ ct et).world.userdata n) =
          (observed (j.saved.userdata m)).map turned^[j.restarts+2] := by
        rw [hstart,hkept m device hm hname,hj.saved m device hm,map_iterate,map_iterate]
      refine ⟨hturns,fun hnumber => ?_⟩
      have hsame := htypes device (List.mem_of_getElem? hm) device' (List.mem_of_getElem? hn) hname
      rw [hturns]
      refine turned_number ?_ (j.restarts+2)
      rw [(hsaved.kept hm).1,← hsame]
      exact hnumber
    · rw [hstart,hnew hother]

def movedFile : List Char := "OUTPUT lamp FUD14 5\nBOOL t 1\n".toList

def movedDevices : List Device :=
  [⟨"lamp".toList,.fud14 ⟨5,0,1,0,100,3⟩⟩, ⟨"t".toList,.bool ⟨1⟩⟩]

/-- The dimmer of a room that is on gets another address and another place in the file, and is on
after the next start. -/
theorem reconfigured_keeps_room :
    ∃ i j : Installation plainSerialisation,
      Installed plainSerialisation roomDevices quietHouse [roomFile] i ∧
      Relation.ReflTransGen (Happens plainSerialisation [] roomDevices []) i j ∧
      ∀ k, Reconfigures quietHouse [movedFile] movedDevices j k →
        observed (k.program.world.userdata 0) = some (.value 100) ∧
        configuration (k.program.world.userdata 0) = .fud14 ⟨5,0,0,0,100,3⟩ := by
  obtain ⟨i,p,hinstalled,hstep,hlamp⟩ :
      ∃ (i : Installation plainSerialisation) (p : Program),
        Installed plainSerialisation roomDevices quietHouse [roomFile] i ∧
        ProgramSteps [] [] (.house (.command ⟨.set,1,[]⟩)) i.program p ∧
        observed (p.world.userdata 1) = some (.value 100) :=
    ⟨_,_,@Installed.installed plainSerialisation roomDevices quietHouse [roomFile]
      ⟨roomDevices,none⟩ _ _ none _ (fun _ _ => 0) (fun _ _ => 0) rfl rfl rfl rfl,⟨1,rfl⟩,rfl⟩
  have hrun : Relation.ReflTransGen (Happens plainSerialisation [] roomDevices []) i
      (storeDeviceStatesTimerCb plainSerialisation roomDevices { i with program := p }) :=
    .tail (.single (.callback hstep)) .stored
  obtain ⟨-,hall⟩ := @reconfigured_keeps plainSerialisation [] roomDevices movedDevices []
    quietHouse quietHouse [roomFile] [movedFile] i _ hinstalled (by decide) hrun
    ⟨⟨movedDevices,none⟩,rfl,rfl⟩ (by decide) (by unfold TypesKept; decide)
  refine ⟨i,_,hinstalled,hrun,fun k hagain => ?_⟩
  obtain ⟨hconfiguration,hkept,-⟩ := (hall k hagain).2 0 _ rfl
  refine ⟨?_,hconfiguration⟩
  rw [(hkept 1 _ rfl rfl).2 (by decide)]
  exact hlamp

end Histories

end DomoticaEngine
