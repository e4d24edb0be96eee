import DomoticaEngine.DeviceParser

/-!
The options that the parse callbacks need. The callbacks that look for a place on the earth, for a
MusicCast or for an input pin are here.
-/

set_option autoImplicit false

namespace DomoticaEngine

/-- What the callbacks learn from outside. `scanDouble` is the `%lf` of `sscanf`, for what it
leaves of the text; `sunrisetCalculate` is where the sun stands at a place, given by its texts. -/
structure Outside where
  now : Tm
  scanDouble : CString → Option CString
  sunrisetCalculate : CString → CString → Sunriset
  musiccastInit : CString → Bool

/-- A conversion of an option that may be missing. -/
def scanOption {α : Type} (option : Option CString) (scan : CString → α) : Except Fault α :=
  match option with
  | some s => .ok (scan s)
  | none => .error .nullPointer

section Parsers
variable (outside : Outside)

/-- `2 == sscanf(option, "%lf%1[Nn]", ..)`, for any two letters. -/
def scanHemisphere (letters : List Char) (s : CString) : Bool :=
  match outside.scanDouble s with
  | some (c :: _) => c ∈ letters
  | _ => false

/-- `1 == sscanf(option, "%lf%", ..)`, and the last character is an E. -/
def scanEast (s : CString) : Bool :=
  (outside.scanDouble s).isSome && (s.getLast? = some 'E' || s.getLast? = some 'e')

def sunrisetParser (options : List CString) : Except Fault (Option Sunriset) := do
  let _ ← scanOption options[0]? (scanHemisphere outside ['N','n'])
  let _ ← scanOption options[0]? (scanHemisphere outside ['S','s'])
  let _ ← scanOption options[1]? (scanHemisphere outside ['W','w'])
  let _ ← scanOption options[1]? (scanEast outside)
  return some (outside.sunrisetCalculate (options[0]?.getD []) (options[1]?.getD []))

/-- `option && scan(option) || scanElse(option)`: without an option the second one is reached. -/
def scanEither (option : Option CString) (scan scanElse : CString → Bool) : Except Fault Bool :=
  if (option.map scan).getD false then .ok true else scanOption option scanElse

def soltrackerParser (options : List CString) : Except Fault (Option PlainType) := do
  let lat ← scanEither options[0]? (scanHemisphere outside ['N','n'])
    (scanHemisphere outside ['S','s'])
  if !lat then return none
  let lon ← scanEither options[1]? (scanHemisphere outside ['W','w']) (scanEast outside)
  if !lon then return none
  -- The view angle is scanned too, but not checked.
  match options[2]? with
  | some angle => return if (outside.scanDouble angle).isSome then some .soltracker else none
  | none => return some .soltracker

def musiccastDeviceParser (options : List CString) : Option PlainType := do
  let ip ← options[1]?
  if outside.musiccastInit ip then return .musiccast else none

def gpioInputParser (options : List CString) : Option PlainType :=
  options[1]?.map (fun _ => .gpi)

def outsideParse (type : DeviceType) (_name : CString) (options : List CString) :
    Except Fault (Option Userdata) :=
  match type with
  | .sunriset => (sunrisetParser outside options).map (fun sr => sr.map .sunriset)
  | .soltracker => (soltrackerParser outside options).map (fun type => type.map .plain)
  | .musiccast => .ok ((musiccastDeviceParser outside options).map .plain)
  | .gpi => .ok ((gpioInputParser options).map .plain)
  | _ => .ok none

end Parsers

section Typed
variable {outside : Outside} {options : List CString}

theorem soltrackerParser_type {type : PlainType}
    (h : soltrackerParser outside options = .ok (some type)) : type = .soltracker := by
  obtain ⟨lat,-,h⟩ := bind_eq_ok.mp h
  cases lat with
  | false => cases h
  | true =>
    obtain ⟨lon,-,h⟩ := bind_eq_ok.mp h
    cases lon with
    | false => cases h
    | true =>
      simp only [Bool.not_true,Bool.false_eq_true,if_false] at h
      split at h
      · split at h
        · cases h
          rfl
        · cases h
      · cases h
        rfl

theorem outsideParse_typed (type : DeviceType) (name : CString) (options : List CString)
    (data : Userdata) (h : outsideParse outside type name options = .ok (some data)) :
    data.deviceType = type := by
  cases type with
  | sunriset =>
    cases hparse : sunrisetParser outside options with
    | error e => simp [outsideParse,hparse,Except.map] at h
    | ok sr =>
      simp only [outsideParse,hparse,Except.map,Except.ok.injEq,Option.map_eq_some_iff] at h
      obtain ⟨sr,-,rfl⟩ := h
      rfl
  | soltracker =>
    cases hparse : soltrackerParser outside options with
    | error e => simp [outsideParse,hparse,Except.map] at h
    | ok type =>
      simp only [outsideParse,hparse,Except.map,Except.ok.injEq,Option.map_eq_some_iff] at h
      obtain ⟨type,rfl,rfl⟩ := h
      rw [soltrackerParser_type hparse]
      rfl
  | musiccast =>
    simp only [outsideParse,musiccastDeviceParser,Except.ok.injEq,Option.map_eq_some_iff] at h
    obtain ⟨type,htype,rfl⟩ := h
    obtain ⟨ip,-,htype⟩ := Option.bind_eq_some_iff.mp htype
    split at htype
    · cases htype
      rfl
    · cases htype
  | gpi =>
    simp only [outsideParse,gpioInputParser,Except.ok.injEq,Option.map_eq_some_iff] at h
    obtain ⟨type,⟨-,-,rfl⟩,rfl⟩ := h
    rfl
  | _ => cases h

end Typed

def Outside.surroundings (outside : Outside) : Surroundings :=
  { now := outside.now, parse := outsideParse outside, typed := outsideParse_typed }

def readsLatitude (outside : Outside) (option : CString) : Bool :=
  scanHemisphere outside ['N','n'] option || scanHemisphere outside ['S','s'] option

/-- The options that a type needs for its callback to have a result. The first one is there. -/
def Suffices (outside : Outside) (type : DeviceType) (options : List CString) : Prop :=
  match type with
  | .fsb14 => options.length ≠ 2
  | .veluxKlf200 => options.length = 1 ∨ 4 ≤ options.length
  | .dht22 | .sunriset => 2 ≤ options.length
  | .soltracker => 2 ≤ options.length ∨ readsLatitude outside (options.headD []) = false
  | _ => True

def Returns (outside : Outside) (type : DeviceType) (name : CString) (options : List CString) :
    Prop :=
  ∃ data, parseCb outside.surroundings type name options = .ok data

section Returns
variable {outside : Outside} {name option : CString} {options : List CString}

theorem fsb14_returns : Returns outside .fsb14 name (option :: options) ↔
    Suffices outside .fsb14 (option :: options) := by
  unfold Returns Suffices
  cases options with
  | nil => simp [parseCb,fsb14DeviceParser,Except.map]
  | cons address options =>
    cases options with
    | nil => simp [parseCb,fsb14DeviceParser,strtollOption,Except.map]
    | cons duration options =>
      simp [parseCb,fsb14DeviceParser,strtollOption,pure,Except.pure,Except.map]

theorem veluxKlf200_returns : Returns outside .veluxKlf200 name (option :: options) ↔
    Suffices outside .veluxKlf200 (option :: options) := by
  unfold Returns Suffices
  rcases options with _ | ⟨hostname,_ | ⟨password,_ | ⟨address,options⟩⟩⟩
  · simp [parseCb,veluxKlf200DeviceParser,Except.map]
  · simp [parseCb,veluxKlf200DeviceParser,strtollOption,Except.map]
  · simp [parseCb,veluxKlf200DeviceParser,strtollOption,Except.map]
  · simp [parseCb,veluxKlf200DeviceParser,strtollOption,pure,Except.pure,Except.map]

theorem dht22_returns : Returns outside .dht22 name (option :: options) ↔
    Suffices outside .dht22 (option :: options) := by
  unfold Returns Suffices
  cases options with
  | nil => simp [parseCb,dht22Parser,strtollOption,Except.map]
  | cons gpio options =>
    simp [parseCb,dht22Parser,strtollOption,pure,Except.pure,Except.map]

theorem sunriset_returns : Returns outside .sunriset name (option :: options) ↔
    Suffices outside .sunriset (option :: options) := by
  unfold Returns Suffices
  cases options with
  | nil =>
    simp [parseCb,Outside.surroundings,outsideParse,sunrisetParser,scanOption,Except.map]
  | cons lon options =>
    simp [parseCb,Outside.surroundings,outsideParse,sunrisetParser,scanOption,pure,Except.pure,
      Except.map]

theorem soltracker_returns : Returns outside .soltracker name (option :: options) ↔
    Suffices outside .soltracker (option :: options) := by
  have hlat : scanEither (some option) (scanHemisphere outside ['N','n'])
      (scanHemisphere outside ['S','s']) = .ok (readsLatitude outside option) := by
    unfold scanEither readsLatitude
    cases hnorth : scanHemisphere outside ['N','n'] option <;> simp [scanOption,hnorth]
  unfold Returns Suffices
  simp only [parseCb,Outside.surroundings,outsideParse,soltrackerParser,List.getElem?_cons_zero,
    hlat,ok_bind]
  cases hreads : readsLatitude outside option with
  | false => simp [hreads,pure,Except.pure,Except.map]
  | true =>
    cases options with
    | nil => simp [hreads,scanEither,scanOption,Except.map]
    | cons lon options =>
      obtain ⟨found,hlon⟩ : ∃ found, scanEither (some lon) (scanHemisphere outside ['W','w'])
          (scanEast outside) = .ok found := by
        unfold scanEither
        split
        · exact ⟨true,rfl⟩
        · exact ⟨_,rfl⟩
      refine iff_of_true ?_ (.inl (by simp))
      cases found with
      | false => simp [hlon,pure,Except.pure,Except.map]
      | true =>
        cases options with
        | nil => simp [hlon,pure,Except.pure,Except.map]
        | cons angle options => simp [hlon,pure,Except.pure,Except.map]

theorem parseCb_returns (type : DeviceType) : Returns outside type name (option :: options) ↔
    Suffices outside type (option :: options) := by
  cases type with
  | fsb14 => exact fsb14_returns
  | veluxKlf200 => exact veluxKlf200_returns
  | dht22 => exact dht22_returns
  | sunriset => exact sunriset_returns
  | soltracker => exact soltracker_returns
  | _ => exact iff_of_true ⟨_,rfl⟩ trivial

/-- What `device_create` does with the answer changes nothing about whether there is one. -/
theorem deviceCreate_returns {devtype : CString} {type : DeviceType}
    (htype : deviceTypeLookup devtype = some type) :
    (∃ device, deviceCreate outside.surroundings name devtype (option :: options) = .ok device) ↔
      Returns outside type name (option :: options) := by
  unfold deviceCreate Returns
  simp only [htype,reduceCtorEq,if_false]
  cases parseCb outside.surroundings type name (option :: options) <;> simp [Except.map]

theorem declared_option {s devtype : CString} {ln : Line} (hline : lineParse s = .ok (some ln))
    (hdeclared : declaredType ln = some devtype) : ln.options ≠ [] := by
  intro hnil
  have hmin := lineParse_options hline
  rw [hnil,List.length_nil] at hmin
  unfold declaredType at hdeclared
  rw [hnil] at hdeclared
  cases hstatement : ln.statement <;> rw [hstatement] at hmin hdeclared <;>
    first | exact absurd hmin (by decide) | cases hdeclared

end Returns

/-- A declaration with a registered type has an answer, a device or none, exactly when it has the
options that the callback of the type takes for granted. -/
theorem declaration_returns_iff (outside : Outside) (s devtype : CString) (ln : Line)
    (type : DeviceType) (hline : lineParse s = .ok (some ln))
    (hdeclared : declaredType ln = some devtype) (htype : deviceTypeLookup devtype = some type) :
    (∃ device, deviceCreate outside.surroundings ln.name devtype ln.options = .ok device) ↔
      Suffices outside type ln.options := by
  obtain ⟨option,options,hoptions⟩ :=
    List.exists_cons_of_ne_nil (declared_option hline hdeclared)
  rw [hoptions,deviceCreate_returns htype]
  exact parseCb_returns type

def nowhere : Outside :=
  { now := ⟨1,8,30⟩, scanDouble := fun _ => none,
    sunrisetCalculate := fun _ _ => ⟨false,false,false,false⟩, musiccastInit := fun _ => false }

def blindLine : Line :=
  ⟨.output,"OUTPUT b FSB14 1 30".toList,"b".toList,["FSB14".toList,"1".toList,"30".toList],
    by decide⟩

theorem declaration_returns_blind :
    (∃ device, deviceCreate nowhere.surroundings blindLine.name "FSB14".toList blindLine.options =
      .ok device) ↔ Suffices nowhere .fsb14 blindLine.options :=
  declaration_returns_iff nowhere "OUTPUT b FSB14 1 30".toList "FSB14".toList blindLine .fsb14
    rfl rfl rfl

def shortLine : Line :=
  ⟨.output,"OUTPUT b FSB14 1".toList,"b".toList,["FSB14".toList,"1".toList],by decide⟩

/-- Without a duration, strtoll gets a null pointer. -/
theorem declaration_crashes :
    lineParse "OUTPUT b FSB14 1".toList = .ok (some shortLine) ∧
      shortLine.options.length < lineMaxOptions ∧
      declaredType shortLine = some "FSB14".toList ∧
      deviceTypeLookup "FSB14".toList = some .fsb14 ∧
      deviceCreate nowhere.surroundings shortLine.name "FSB14".toList shortLine.options =
        .error .nullPointer :=
  ⟨rfl,by decide,rfl,rfl,rfl⟩

end DomoticaEngine
