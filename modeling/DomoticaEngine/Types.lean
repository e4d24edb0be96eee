import Mathlib.Data.List.Basic

set_option autoImplicit false

namespace DomoticaEngine

/-- A C string, without the NUL that ends it. A character stands for a byte. -/
abbrev CString := List Char

/-- What the C program leaves undefined: a run that gets here has no result. -/
inductive Fault where
  | outOfBounds | nullPointer
  deriving DecidableEq, Repr

section Faults
variable {α β : Type}

@[simp] theorem ok_bind (a : α) (f : α → Except Fault β) : (Except.ok a >>= f) = f a := rfl

@[simp] theorem error_bind (e : Fault) (f : α → Except Fault β) :
    (Except.error e >>= f) = .error e := rfl

theorem bind_eq_ok {x : Except Fault α} {f : α → Except Fault β} {b : β} :
    x >>= f = .ok b ↔ ∃ a, x = .ok a ∧ f a = .ok b := by
  cases x with
  | error e => simp
  | ok a => simp

end Faults

/-- Devices are compared by pointer. The position in the device list stands for it. -/
abbrev DeviceId := Nat

inductive ActionType where
  | set | unset | toggle | dim | up | down | stop | toggleUp | toggleDown | lock | unlock
  deriving DecidableEq, Repr

/-- `ACTION_TYPE_TABLE`. -/
def actionTypeTable : List (ActionType × CString) :=
  [(.set,"SET".toList), (.unset,"UNSET".toList), (.toggle,"TOGGLE".toList),
   (.dim,"DIM".toList), (.up,"UP".toList), (.down,"DOWN".toList), (.stop,"STOP".toList),
   (.toggleUp,"TOGGLE_UP".toList), (.toggleDown,"TOGGLE_DOWN".toList),
   (.lock,"LOCK".toList), (.unlock,"UNLOCK".toList)]

/-- `invalid` is the −1 that `event_type_from_char` gives for an unknown name. -/
inductive EventType where
  | press | set | unset | reset | release | shortPress | longPress | dim | timeout
  | sunrise | sunriseCiv | sunriseNaut | sunriseAstro
  | sunset | sunsetCiv | sunsetNaut | sunsetAstro
  | sunPosition | temperature | humidity | up | down | invalid
  deriving DecidableEq, Repr

/-- `EVENT_TYPE_TABLE`. -/
def eventTypeTable : List (EventType × CString) :=
  [(.press,"PRESS".toList), (.set,"SET".toList), (.unset,"UNSET".toList),
   (.reset,"RESET".toList), (.release,"RELEASE".toList),
   (.shortPress,"SHORT_PRESS".toList), (.longPress,"LONG_PRESS".toList),
   (.dim,"DIM".toList), (.timeout,"TIMEOUT".toList), (.sunrise,"SUNRISE".toList),
   (.sunriseCiv,"SUNRISE_CIVIL".toList), (.sunriseNaut,"SUNRISE_NAUTICAL".toList),
   (.sunriseAstro,"SUNRISE_ASTRONOMICAL".toList), (.sunset,"SUNSET".toList),
   (.sunsetCiv,"SUNSET_CIVIL".toList), (.sunsetNaut,"SUNSET_NAUTICAL".toList),
   (.sunsetAstro,"SUNSET_ASTRONOMICAL".toList), (.sunPosition,"SUN_POSITION".toList),
   (.temperature,"TEMPERATURE".toList), (.humidity,"HUMIDITY".toList),
   (.up,"UP".toList), (.down,"DOWN".toList)]

inductive ConditionType where
  | unset | set | up | down | stopped | rising | descending | locked | unlocked
  | sunrise | sunriseCiv | sunriseNaut | sunriseAstro
  | sunset | sunsetCiv | sunsetNaut | sunsetAstro
  deriving DecidableEq, Repr

/-- `CONDITION_TYPE_TABLE`. -/
def conditionTypeTable : List (ConditionType × CString) :=
  [(.unset,"UNSET".toList), (.set,"SET".toList), (.up,"UP".toList), (.down,"DOWN".toList),
   (.stopped,"STOPPED".toList), (.rising,"RISING".toList),
   (.descending,"DESCENDING".toList), (.locked,"LOCKED".toList),
   (.unlocked,"UNLOCKED".toList), (.sunrise,"SUNRISE".toList),
   (.sunriseCiv,"SUNRISE_CIVIL".toList), (.sunriseNaut,"SUNRISE_NAUTICAL".toList),
   (.sunriseAstro,"SUNRISE_ASTRONOMICAL".toList), (.sunset,"SUNSET".toList),
   (.sunsetCiv,"SUNSET_CIVIL".toList), (.sunsetNaut,"SUNSET_NAUTICAL".toList),
   (.sunsetAstro,"SUNSET_ASTRONOMICAL".toList)]

section Tables
variable {α : Type}

/-- The first entry with this name. `none` is the −1 of the C functions. -/
def typeFromChar (table : List (α × CString)) (str : CString) : Option α :=
  (table.find? (fun entry => entry.2 == str)).map Prod.fst

def typeToChar [DecidableEq α] (table : List (α × CString)) (type : α) : Option CString :=
  (table.find? (fun entry => entry.1 == type)).map Prod.snd

end Tables

def actionTypeFromChar (str : CString) : Option ActionType := typeFromChar actionTypeTable str
def actionTypeToChar (type : ActionType) : Option CString := typeToChar actionTypeTable type

def eventTypeFromChar (str : CString) : Option EventType := typeFromChar eventTypeTable str
def eventGetName (type : EventType) : Option CString := typeToChar eventTypeTable type

def conditionTypeFromChar (str : CString) : Option ConditionType :=
  typeFromChar conditionTypeTable str
def conditionTypeToChar (type : ConditionType) : Option CString :=
  typeToChar conditionTypeTable type

theorem actionType_roundtrip (type : ActionType) :
    ∃ name, actionTypeToChar type = some name ∧ actionTypeFromChar name = some type := by
  cases type <;> exact ⟨_,rfl,rfl⟩

theorem conditionType_roundtrip (type : ConditionType) :
    ∃ name, conditionTypeToChar type = some name ∧
      conditionTypeFromChar name = some type := by
  cases type <;> exact ⟨_,rfl,rfl⟩

theorem eventType_roundtrip {type : EventType} (h : type ≠ .invalid) :
    ∃ name, eventGetName type = some name ∧ eventTypeFromChar name = some type := by
  cases type <;> first | exact ⟨_,rfl,rfl⟩ | contradiction

end DomoticaEngine
