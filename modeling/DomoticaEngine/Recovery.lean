import DomoticaEngine.Program

/-!
The timer that stores the states of the devices, and a program that stops between two callbacks
and is started again from the file, any number of times.
-/

set_option autoImplicit false

namespace DomoticaEngine

def turned : Observation → Observation
  | .motor locked condition => .motor locked (if condition = .down then .up else .down)
  | o => o

/-- The program and its file. What the timer stored last, and the starts since then, are only
written down. -/
structure Installation (s : Serialisation) where
  program : Program
  file : s.File
  saved : World
  restarts : Nat

section Steps
variable (s : Serialisation) (execdir : CString) (devices : List Device) (rules : List Rule)

/-- `store_device_states_timer_cb`, every 300 seconds. -/
def storeDeviceStatesTimerCb (i : Installation s) : Installation s :=
  { i with
    file := storeDevicesState s devices i.program.world,
    saved := i.program.world,
    restarts := 0 }

inductive StartsAgain (i : Installation s) : Installation s → Prop where
  | again {w : World} {file : s.File} (ct et : DeviceId → SunrisetEvent → Int)
      (hrestored : storeInit s devices (some i.file) (parsedWorld devices) = .ok (w,file)) :
      StartsAgain i ⟨Program.start devices w ct et,file,i.saved,i.restarts+1⟩

inductive Happens (i : Installation s) : Installation s → Prop where
  | callback {input : ProgramInput} {p : Program}
      (hstep : ProgramSteps execdir rules input i.program p) : Happens i { i with program := p }
  | stored : Happens i (storeDeviceStatesTimerCb s devices i)
  | again {j : Installation s} (h : StartsAgain s devices i j) : Happens i j

/-- The first start, from whatever file is found. Its state is stored at once. -/
inductive Installed (outside : Surroundings) (files : List (List Char)) :
    Installation s → Prop where
  | installed {d : DeclarationReader} {w₁ w₂ : World} {file : Option s.File} {stored : s.File}
      (ct et : DeviceId → SunrisetEvent → Int)
      (hdeclared : rulesReadDir (rulesReadFileDeclarations outside) files .start = .ok (0,d))
      (hdevices : d.devices = devices)
      (hrestored : restoreDevicesState s devices file (parsedWorld devices) = .ok w₁)
      (hinit : storeInit s devices file (parsedWorld devices) = .ok (w₂,stored)) :
      Installed outside files ⟨Program.start devices w₂ ct et,stored,w₁,0⟩

end Steps

section Device

theorem observed_fsb14 {data : Userdata} (h : data.deviceType = .fsb14) :
    ∃ fsb14, data = .fsb14 fsb14 := by
  cases data with
  | fsb14 fsb14 => exact ⟨fsb14,rfl⟩
  | plain type => cases type <;> cases h
  | _ => cases h

theorem observed_number {data : Userdata} (h : data.deviceType ≠ .fsb14) :
    (observed data).map turned = observed data ∧ expected data = observed data := by
  cases data with
  | fsb14 fsb14 => exact absurd rfl h
  | _ => exact ⟨rfl,rfl⟩

theorem observed_reread {data₀ data : Userdata} (htype : data₀.deviceType = data.deviceType)
    (h : Storable data) : observed (reread data₀ data) = (observed data).map turned := by
  by_cases hfsb14 : data.deviceType = .fsb14
  · obtain ⟨fsb14,rfl⟩ := observed_fsb14 hfsb14
    obtain ⟨fsb14₀,rfl⟩ := observed_fsb14 (htype.trans hfsb14)
    have hrestore : deviceRestore (.fsb14 fsb14₀) (fsb14DeviceStore fsb14) =
        .ok (.fsb14 { fsb14₀ with
          locked := fsb14.locked,
          condition := if fsb14.condition = .down then .up else .down }) := by
      rw [deviceRestore,fsb14_reread]
      rfl
    have hstore : deviceStore (.fsb14 fsb14) = some (fsb14DeviceStore fsb14) := rfl
    rw [reread_of hstore hrestore]
    rfl
  · obtain ⟨hturned,hexpected⟩ := observed_number hfsb14
    rw [(reread_spec htype h).observed_iff.mpr hfsb14,hturned,hexpected]

/-- After the first reading an FSB14 goes back and forth between its two ends. -/
theorem turned_even (n : Nat) (locked : Bool) (condition : ConditionType) :
    turned^[2 * n + 2] (.motor locked condition) =
      .motor locked (if condition = .down then .down else .up) := by
  induction n with
  | zero => cases condition <;> rfl
  | succ n ih =>
    have hsplit : 2 * (n+1) + 2 = (2 * n + 2) + 1 + 1 := by omega
    rw [hsplit,Function.iterate_succ_apply',Function.iterate_succ_apply',ih]
    cases condition <;> rfl

theorem turned_odd (n : Nat) (locked : Bool) (condition : ConditionType) :
    turned^[2 * n + 3] (.motor locked condition) =
      .motor locked (if condition = .down then .up else .down) := by
  rw [Function.iterate_succ_apply',turned_even]
  cases condition <;> rfl

theorem map_iterate (n : Nat) (o : Option Observation) :
    (o.map turned^[n]).map turned = o.map turned^[n+1] := by
  rw [Option.map_map]
  exact congrArg (fun f => o.map f) (Function.iterate_succ' turned n).symm

theorem turned_number {data : Userdata} (h : data.deviceType ≠ .fsb14) (n : Nat) :
    (observed data).map turned^[n] = observed data := by
  induction n with
  | zero => rw [Function.iterate_zero,Option.map_id]; rfl
  | succ n ih => rw [← map_iterate,ih,(observed_number h).1]

end Device

section Histories
variable {s : Serialisation} {execdir : CString} {devices : List Device} {rules : List Rule}
  {outside : Surroundings} {files : List (List Char)} {i j k : Installation s} {w : World}

/-- The file is that of a state `w`, which is what was saved, read again at each start. -/
structure Holding (rules : List Rule) (devices : List Device) (i : Installation s) (w : World) :
    Prop where
  file : i.file = storeDevicesState s devices w
  now : Reachable rules devices i.program.world
  stored : Reachable rules devices w
  before : Reachable rules devices i.saved
  saved : ∀ (d : Nat) device, devices[d]? = some device →
    observed (w.userdata d) = (observed (i.saved.userdata d)).map turned^[i.restarts]

theorem start_observed (devices : List Device) (w : World) (ct et : DeviceId → SunrisetEvent → Int)
    (d : DeviceId) :
    observed ((Program.start devices w ct et).world.userdata d) = observed (w.userdata d) := by
  obtain ⟨htype,hother⟩ := start_userdata devices w ct et d
  by_cases hsunriset : (w.userdata d).deviceType = .sunriset
  · rw [observed_sunriset hsunriset,observed_sunriset (htype.trans hsunriset)]
  · rw [hother _ (fun heq => hsunriset (htype.symm.trans heq)) rfl]

theorem Reachable.started (h : Reachable rules devices w)
    (ct et : DeviceId → SunrisetEvent → Int) :
    Reachable rules devices (Program.start devices w ct et).world :=
  h.other (fun d => ⟨(start_userdata devices w ct et d).1,start_observed devices w ct et d⟩)

/-- A start from the file of `w`, which cannot fail: each device reads its state twice, and its
state in between is the one that is stored. -/
theorem storeInit_turned (h : Configured outside files devices rules w) :
    ∃ w₁ w₂, storeInit s devices (some (storeDevicesState s devices w)) (parsedWorld devices) =
        .ok (w₂,storeDevicesState s devices w₁) ∧
      Reachable rules devices w₁ ∧ Reachable rules devices w₂ ∧
      ∀ (d : Nat) device, devices[d]? = some device →
        observed (w₁.userdata d) = (observed (w.userdata d)).map turned ∧
        observed (w₂.userdata d) = (observed (w₁.userdata d)).map turned := by
  have hfresh := parsedWorld_fresh devices
  obtain ⟨w₁,hrestore,hreread⟩ := store_restore (s := s) h.names (h.rereads hfresh)
  have hw₁ : Configured outside files devices rules w₁ :=
    ⟨h.declared,h.names,.restore s _ (parsedWorld_reachable rules devices) hrestore⟩
  obtain ⟨w₂,hrestore₂,hreread₂⟩ := store_restore (s := s) h.names
    (fun d device hd => reread_spec rfl (hw₁.kept hd).2)
  refine ⟨w₁,w₂,?_,hw₁.reachable,.restore s _ hw₁.reachable hrestore₂,fun d device hd => ⟨?_,?_⟩⟩
  · simp only [storeInit,hrestore,ok_bind,hrestore₂]
    rfl
  · rw [hreread d device hd]
    refine observed_reread ?_ (h.kept hd).2
    rw [hfresh d device hd,(h.kept hd).1]
    rfl
  · rw [hreread₂ d device hd]
    exact observed_reread rfl (hw₁.kept hd).2

theorem Installed.holding (h : Installed s devices outside files i) :
    ∃ w, Holding rules devices i w := by
  cases h with
  | @installed d w₁ w₂ file stored ct et hdeclared hdevices hrestored hinit =>
    obtain ⟨w,hfirst,hinit⟩ := bind_eq_ok.mp hinit
    obtain ⟨w',hsecond,hw'⟩ := bind_eq_ok.mp hinit
    obtain ⟨rfl,rfl⟩ := Prod.mk.inj (Except.ok.inj hw')
    rw [hrestored] at hfirst
    obtain rfl := Except.ok.inj hfirst
    have hw₁ : Reachable rules devices w₁ :=
      .restore s file (parsedWorld_reachable rules devices) hrestored
    refine ⟨w₁,rfl,(Reachable.restore s _ hw₁ hsecond).started ct et,hw₁,hw₁,
      fun d device hd => ?_⟩
    rw [Function.iterate_zero,Option.map_id]
    rfl

theorem Holding.again (h : Holding rules devices i w)
    (hconfigured : Configured outside files devices rules w) (hagain : StartsAgain s devices i j) :
    (∃ w, Holding rules devices j w) ∧ ∀ (d : Nat) device, devices[d]? = some device →
      observed (j.program.world.userdata d) =
        (observed (i.saved.userdata d)).map turned^[i.restarts+2] := by
  obtain ⟨w₁,w₂,hinit,hw₁,hw₂,hall⟩ := storeInit_turned (s := s) hconfigured
  cases hagain with
  | again ct et hrestored =>
    rw [h.file,hinit] at hrestored
    obtain ⟨rfl,rfl⟩ := Prod.mk.inj (Except.ok.inj hrestored)
    refine ⟨⟨w₁,rfl,hw₂.started ct et,hw₁,h.before,fun d device hd => ?_⟩,fun d device hd => ?_⟩
    · rw [(hall d device hd).1,h.saved d device hd,map_iterate]
    · have hstart : observed ((Program.start devices w₂ ct et).world.userdata d) =
          observed (w₂.userdata d) := start_observed devices w₂ ct et d
      rw [hstart,(hall d device hd).2,(hall d device hd).1,h.saved d device hd,map_iterate,
        map_iterate]

theorem Happens.holding (h : Happens s execdir devices rules i j)
    (hdeclared : ∃ d, rulesReadDir (rulesReadFileDeclarations outside) files .start = .ok (0,d) ∧
      d.devices = devices) (hnames : (devices.map Device.name).Nodup)
    (hi : ∃ w, Holding rules devices i w) : ∃ w, Holding rules devices j w := by
  obtain ⟨w,hi⟩ := hi
  cases h with
  | callback hstep => exact ⟨w,hi.file,hi.now.programSteps hstep,hi.stored,hi.before,hi.saved⟩
  | stored =>
    refine ⟨i.program.world,rfl,hi.now,hi.now,hi.now,fun d device hd => ?_⟩
    rw [storeDeviceStatesTimerCb,Function.iterate_zero,Option.map_id]
    rfl
  | again hagain => exact (hi.again ⟨hdeclared,hnames,hi.stored⟩ hagain).1

theorem Installed.declared (h : Installed s devices outside files i) :
    ∃ d, rulesReadDir (rulesReadFileDeclarations outside) files .start = .ok (0,d) ∧
      d.devices = devices := by
  cases h with
  | installed ct et hdeclared hdevices => exact ⟨_,hdeclared,hdevices⟩

/-- Induction on the history. -/
theorem Installed.history (h : Installed s devices outside files i)
    (hnames : (devices.map Device.name).Nodup)
    (hrun : Relation.ReflTransGen (Happens s execdir devices rules) i j) :
    ∃ w, Holding rules devices j w := by
  induction hrun with
  | refl => exact h.holding
  | tail _ hstep ih => exact hstep.holding h.declared hnames ih

/-- Whatever has happened, the next start finds its file in order, and each device shows what was
stored of it, turned once for each reading. -/
theorem Installed.restart (h : Installed s devices outside files i)
    (hnames : (devices.map Device.name).Nodup)
    (hrun : Relation.ReflTransGen (Happens s execdir devices rules) i j) :
    (∃ k, StartsAgain s devices j k) ∧ ∀ k, StartsAgain s devices j k →
      ∀ (d : Nat) device, devices[d]? = some device →
        (j.saved.userdata d).deviceType = device.deviceType ∧
        observed (k.program.world.userdata d) =
          (observed (j.saved.userdata d)).map turned^[j.restarts+2] := by
  obtain ⟨w,hj⟩ := h.history hnames hrun
  have hconfigured : Configured outside files devices rules w := ⟨h.declared,hnames,hj.stored⟩
  have hsaved : Configured outside files devices rules j.saved := ⟨h.declared,hnames,hj.before⟩
  refine ⟨?_,fun k hagain d device hd => ?_⟩
  rotate_left
  · exact ⟨(hsaved.kept hd).1,(hj.again hconfigured hagain).2 d device hd⟩
  obtain ⟨w₁,w₂,hinit,-⟩ := storeInit_turned (s := s) hconfigured
  exact ⟨_,.again (fun _ _ => 0) (fun _ _ => 0) (by rw [hj.file]; exact hinit)⟩

/-- A start after any history succeeds, and brings back what the timer stored last of every device
that is no FSB14, however often the program was started since. -/
theorem restart_recovers (hinstalled : Installed s devices outside files i)
    (hnames : (devices.map Device.name).Nodup)
    (hrun : Relation.ReflTransGen (Happens s execdir devices rules) i j) :
    (∃ k, StartsAgain s devices j k) ∧ ∀ k, StartsAgain s devices j k →
      ∀ (d : Nat) device, devices[d]? = some device → device.deviceType ≠ .fsb14 →
        observed (k.program.world.userdata d) = observed (j.saved.userdata d) := by
  obtain ⟨hsucceeds,hall⟩ := hinstalled.restart hnames hrun
  refine ⟨hsucceeds,fun k hagain d device hd hother => ?_⟩
  obtain ⟨htype,hobserved⟩ := hall k hagain d device hd
  rw [hobserved]
  exact turned_number (htype ▸ hother) (j.restarts+2)

/-- The dimmer of a room is switched on, and the timer stores that it is. -/
theorem restart_recovers_room :
    ∃ i j : Installation plainSerialisation,
      Installed plainSerialisation roomDevices quietHouse [roomFile] i ∧
      Relation.ReflTransGen (Happens plainSerialisation [] roomDevices []) i j ∧
      ∀ k, StartsAgain plainSerialisation roomDevices j k →
        observed (k.program.world.userdata 1) = some (.value 100) := by
  obtain ⟨i,p,hinstalled,hstep,hlamp⟩ :
      ∃ (i : Installation plainSerialisation) (p : Program),
        Installed plainSerialisation roomDevices quietHouse [roomFile] i ∧
        ProgramSteps [] [] (.house (.command ⟨.set,1,[]⟩)) i.program p ∧
        observed (p.world.userdata 1) = some (.value 100) :=
    ⟨_,_,@Installed.installed plainSerialisation roomDevices quietHouse [roomFile]
      ⟨roomDevices,none⟩ _ _ none _ (fun _ _ => 0) (fun _ _ => 0) rfl rfl rfl rfl,⟨1,rfl⟩,rfl⟩
  have hrun : Relation.ReflTransGen (Happens plainSerialisation [] roomDevices []) i
      (storeDeviceStatesTimerCb plainSerialisation roomDevices { i with program := p }) :=
    .tail (.single (.callback hstep)) .stored
  refine ⟨i,_,hinstalled,hrun,fun k hagain => ?_⟩
  rw [(restart_recovers hinstalled (by decide) hrun).2 k hagain 1 _ rfl (by decide)]
  exact hlamp

/-- The lock of an FSB14 comes back after every start. Its condition comes back exactly when it was
at one of its ends, and the number of starts since it was stored is odd. -/
theorem restart_fsb14 (hinstalled : Installed s devices outside files i)
    (hnames : (devices.map Device.name).Nodup)
    (hrun : Relation.ReflTransGen (Happens s execdir devices rules) i j)
    (hagain : StartsAgain s devices j k) (d : Nat) (device : Device)
    (hd : devices[d]? = some device) (hfsb14 : device.deviceType = .fsb14) :
    ∃ locked condition condition', observed (j.saved.userdata d) = some (.motor locked condition) ∧
      observed (k.program.world.userdata d) = some (.motor locked condition') ∧
      (condition' = .up ∨ condition' = .down) ∧
      (condition' = condition ↔ (condition = .up ∨ condition = .down) ∧ Odd k.restarts) := by
  obtain ⟨htype,hobserved⟩ := (hinstalled.restart hnames hrun).2 k hagain d device hd
  obtain ⟨fsb14,hdata⟩ := observed_fsb14 (htype.trans hfsb14)
  have hrestarts : k.restarts = j.restarts+1 := by cases hagain; rfl
  have hsaved : observed (j.saved.userdata d) = some (.motor fsb14.locked fsb14.condition) := by
    rw [hdata]
    rfl
  rw [hsaved,Option.map_some] at hobserved
  rcases Nat.even_or_odd' j.restarts with ⟨n,heven | hodd⟩
  · have hodd : Odd k.restarts := ⟨n,by rw [hrestarts,heven]⟩
    rw [heven,turned_even] at hobserved
    refine ⟨_,_,_,hsaved,hobserved,?_,?_⟩
    · cases fsb14.condition <;> simp
    · simp only [hodd,and_true]
      cases fsb14.condition <;> simp
  · have heven : ¬ Odd k.restarts := by
      rw [hrestarts,hodd,Nat.not_odd_iff_even]
      exact ⟨n+1,by omega⟩
    have hturns : j.restarts+2 = 2 * n + 3 := by omega
    rw [hturns,turned_odd] at hobserved
    refine ⟨_,_,_,hsaved,hobserved,?_,?_⟩
    · cases fsb14.condition <;> simp
    · simp only [heven,and_false,iff_false]
      cases fsb14.condition <;> simp

/-- A blind is stored as down after the first start, and is down again after the next one. -/
theorem restart_fsb14_blind :
    ∃ i j k : Installation plainSerialisation,
      Installed plainSerialisation blindDevices quietHouse [blindFile] i ∧
      Relation.ReflTransGen (Happens plainSerialisation [] blindDevices []) i j ∧
      StartsAgain plainSerialisation blindDevices j k ∧
      observed (k.program.world.userdata 0) = some (.motor false .down) := by
  obtain ⟨i,hinstalled,hblind⟩ : ∃ i : Installation plainSerialisation,
      Installed plainSerialisation blindDevices quietHouse [blindFile] i ∧
        observed (i.program.world.userdata 0) = some (.motor false .down) :=
    ⟨_,@Installed.installed plainSerialisation blindDevices quietHouse [blindFile]
      ⟨blindDevices,none⟩ _ _ none _ (fun _ _ => 0) (fun _ _ => 0) rfl rfl rfl rfl,rfl⟩
  have hrun : Relation.ReflTransGen (Happens plainSerialisation [] blindDevices []) i
      (storeDeviceStatesTimerCb plainSerialisation blindDevices i) := .single .stored
  obtain ⟨k,hagain⟩ := (hinstalled.restart (by decide) hrun).1
  obtain ⟨locked,condition,condition',hsaved,hback,-,hiff⟩ :=
    restart_fsb14 hinstalled (by decide) hrun hagain 0 _ rfl rfl
  have hdown : (locked,condition) = (false,.down) := by
    have hsame : observed ((storeDeviceStatesTimerCb plainSerialisation blindDevices
        i).saved.userdata 0) = some (.motor false .down) := hblind
    rw [hsaved] at hsame
    cases hsame
    rfl
  obtain ⟨rfl,rfl⟩ := Prod.mk.inj hdown
  have hodd : Odd k.restarts := by cases hagain; exact ⟨0,rfl⟩
  rw [hiff.mpr ⟨.inr rfl,hodd⟩] at hback
  exact ⟨i,_,k,hinstalled,hrun,hagain,hback⟩

end Histories

end DomoticaEngine
