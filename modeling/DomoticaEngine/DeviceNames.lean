import DomoticaEngine.DeclarationPass
import DomoticaEngine.StoreRoundtrip

/-!
The names of the declared devices.
-/

set_option autoImplicit false

namespace DomoticaEngine
open Reads Records

/-- A name stands for the device that was declared under it, for those who look devices up
and in the file with the stored states. -/
structure NamesDevices (devices : List Device) : Prop where
  found : ∀ (i : Nat) device, devices[i]? = some device →
    deviceListFindByName devices device.name = some i
  stored : ∀ (w : World) (i : Nat) device, devices[i]? = some device →
    (writeTo ∅ (storedItems devices w)).lookup device.name = deviceStore (w.userdata i)

theorem namesDevices_iff (devices : List Device) :
    NamesDevices devices ↔ (devices.map Device.name).Nodup := by
  constructor
  · intro h
    refine List.nodup_iff_getElem?_ne_getElem?.mpr (fun i j hij hj hsame => ?_)
    rw [List.length_map] at hj
    have hi : i < devices.length := Nat.lt_trans hij hj
    rw [List.getElem?_map,List.getElem?_map,List.getElem?_eq_getElem hi,
      List.getElem?_eq_getElem hj] at hsame
    have hname : devices[i].name = devices[j].name := by simpa using hsame
    have hfirst := h.found i _ (List.getElem?_eq_getElem hi)
    rw [hname,h.found j _ (List.getElem?_eq_getElem hj)] at hfirst
    exact absurd (Option.some.inj hfirst) (Nat.ne_of_gt hij)
  · intro hnodup
    exact ⟨fun i device hi => deviceListFindByName_name hnodup hi,
      fun w i device hi => storedItems_lookup hnodup hi⟩

def declares (statement : Statement) : Bool :=
  match statement with
  | .input | .output | .sunriset | .soltracker | .timer | .bool | .schedule => true
  | _ => false

def lineNames (c : Context) (strline : CString) : List CString :=
  match lineParse strline with
  | .ok (some ln) => if !c.schedule && declares ln.statement then [ln.name] else []
  | _ => []

def declaredNames : List CString → Context → List CString
  | [], _ => []
  | line :: lines, c => lineNames c line ++ declaredNames lines (lineContext line c)

section Names
variable {outside : Surroundings} {s s' : DeclarationReader}

theorem names_modify (devices : List Device) (k : Nat) (now : Tm) :
    (devices.modify k (Device.scheduleParsingFinished now)).map Device.name =
      devices.map Device.name := by
  apply List.ext_getElem?
  intro j
  have hname : ∀ device, (Device.scheduleParsingFinished now device).name = device.name := by
    intro device
    unfold Device.scheduleParsingFinished
    split <;> rfl
  rw [List.getElem?_map,List.getElem?_modify,List.getElem?_map]
  cases devices[j]? with
  | none => rfl
  | some device =>
    by_cases hkj : k = j
    · simp [hkj,hname]
    · simp [hkj]

theorem names_finish (s : DeclarationReader) (now : Tm) :
    (s.finish now).devices.map Device.name = s.devices.map Device.name := by
  unfold DeclarationReader.finish
  split
  · rfl
  · exact names_modify _ _ _

theorem declarationStatement_names {ln : Line}
    (h : declarationStatement outside ln s = .ok (0,s')) :
    s'.devices.map Device.name =
      s.devices.map Device.name ++ (if declares ln.statement then [ln.name] else []) := by
  have hdeclare : declareDevice outside ln s = .ok (0,s') →
      s'.devices.map Device.name = s.devices.map Device.name ++ [ln.name] := by
    intro h
    obtain ⟨devtype,type,data,-,-,-,rfl⟩ := declareDevice_created h
    simp
  unfold declarationStatement at h
  cases hst : ln.statement with
  | if_ | and_ | do_ =>
    simp only [hst,Except.ok.injEq,Prod.mk.injEq,true_and] at h
    simp [declares,h]
  | state | logs | invalid => simp [hst] at h
  | _ =>
    rw [hst] at h
    exact hdeclare h

theorem declarationLine_names {line : CString} {c : Context}
    (hc : c.schedule = s.schedule.isSome) (h : Accepts (declarationLine outside) line s s') :
    s'.devices.map Device.name = s.devices.map Device.name ++ lineNames c line := by
  cases declarationLine_step h with
  | blank hparse hs' =>
    rw [hs',names_finish]
    simp [lineNames,hparse]
  | entry ln k name schedule schedule' hparse hopen hdevice hentry hs' =>
    have hset : (s.devices.set k ⟨name,.schedule schedule'⟩).map Device.name =
        s.devices.map Device.name := by
      obtain ⟨hk,hget⟩ := List.getElem?_eq_some_iff.mp hdevice
      have hlength : k < (s.devices.map Device.name).length := by simpa using hk
      have hself : (s.devices.map Device.name).set k (s.devices.map Device.name)[k] =
          s.devices.map Device.name := List.set_getElem_self hlength
      simpa [List.map_set,hget] using hself
    simp [hs',hset,lineNames,hparse,hc,hopen]
  | rule ln hparse hopen | declaration ln _ hparse hopen =>
    have hstatement : declarationStatement outside ln s = .ok (0,s') := by
      simpa [Accepts,declarationLine,hparse,hopen] using h
    rw [declarationStatement_names hstatement]
    simp [lineNames,hparse,hc,hopen]

theorem declarations_names {lines : List CString} {c : Context}
    (hc : c.schedule = s.schedule.isSome)
    (h : AcceptsAll (declarationLine outside) lines s s') :
    s'.devices.map Device.name = s.devices.map Device.name ++ declaredNames lines c := by
  induction lines generalizing s c with
  | nil =>
    rw [acceptsAll_nil] at h
    simp [h,declaredNames]
  | cons line lines ih =>
    obtain ⟨s₁,h₁,hrest⟩ := acceptsAll_cons.mp h
    rw [ih (declarationLine_context hc h₁) hrest,declarationLine_names hc h₁,declaredNames,
      List.append_assoc]

end Names

/-- Nothing in the parser or in the list compares a new name with those that are there. -/
theorem declared_names_iff (outside : Surroundings) (files : List (List Char))
    (d : DeclarationReader)
    (h : AcceptsAll (rulesReadFileDeclarations outside) files .start d) :
    NamesDevices d.devices ↔ (declaredNames (files.flatMap fileLines) ⟨false,false⟩).Nodup := by
  have hlines : AcceptsAll (declarationLine outside) (files.flatMap fileLines) .start d :=
    acceptsAll_flatMap.mp h
  rw [namesDevices_iff,declarations_names (c := ⟨false,false⟩) rfl hlines]
  rfl

def lampFiles : List (List Char) := ["BOOL lamp 0\n".toList,"BOOL light 1\n".toList]

def lampReader : DeclarationReader :=
  { devices := [⟨"lamp".toList,.bool ⟨0⟩⟩,⟨"light".toList,.bool ⟨1⟩⟩], schedule := none }

theorem declared_names_lamps :
    NamesDevices lampReader.devices ↔
      (declaredNames (lampFiles.flatMap fileLines) ⟨false,false⟩).Nodup :=
  declared_names_iff quietHouse lampFiles lampReader (by rfl)

def twoLamps : List (List Char) := ["BOOL lamp 0\n".toList,"BOOL lamp 1\n".toList]

theorem lamp_shadowed :
    ∃ d, AcceptsAll (rulesReadFileDeclarations quietHouse) twoLamps .start d ∧
      d.devices[1]? = some ⟨"lamp".toList,.bool ⟨1⟩⟩ ∧ ¬ NamesDevices d.devices := by
  refine ⟨{ devices := [⟨"lamp".toList,.bool ⟨0⟩⟩,⟨"lamp".toList,.bool ⟨1⟩⟩], schedule := none },
    by rfl,by rfl,?_⟩
  intro h
  have hfound : some 0 = some 1 := h.found 1 ⟨"lamp".toList,.bool ⟨1⟩⟩ rfl
  cases hfound

end DomoticaEngine
