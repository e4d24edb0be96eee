import DomoticaEngine.CLib

/-!
Strings in memory: an access outside of it has no result.
-/

set_option autoImplicit false

namespace DomoticaEngine

/-- The memory from a pointer on, up to where its object ends. -/
abbrev Memory := List Char

def charAt (mem : Memory) (i : Int) : Except Fault Char :=
  if 0 ≤ i then
    match mem[i.toNat]? with
    | some c => .ok c
    | none => .error .outOfBounds
  else .error .outOfBounds

def storeByte (mem : Memory) (i : Nat) (c : Char) : Except Fault Memory :=
  if i < mem.length then .ok (mem.set i c) else .error .outOfBounds

def strlen : Memory → Except Fault Nat
  | [] => .error .outOfBounds
  | c :: mem => if c = nul then .ok 0 else (strlen mem).map (·+1)

/-- The characters that `strdup` copies in front of the NUL. -/
def strdup (mem : Memory) : Except Fault CString := (strlen mem).map (fun n => mem.take n)

/-- `strncmp(mem, name, strlen(name)) == 0`. It stops at the first difference. -/
def strncmpEqual : Memory → CString → Except Fault Bool
  | _, [] => .ok true
  | [], _ => .error .outOfBounds
  | c :: mem, d :: name => if c = d then strncmpEqual mem name else .ok false

/-- A string as it lies in an object of just its size. -/
def terminated (s : CString) : Memory := s ++ [nul]

theorem charAt_nat (mem : Memory) (i : Nat) : charAt mem i =
    match mem[i]? with
    | some c => .ok c
    | none => .error .outOfBounds := by
  simp [charAt]

theorem charAt_append (before : Memory) (c : Char) (after : Memory) :
    charAt (before ++ c :: after) before.length = .ok c := by
  simp [charAt_nat]

theorem storeByte_append (before : Memory) (c d : Char) (after : Memory) :
    storeByte (before ++ c :: after) before.length d = .ok (before ++ d :: after) := by
  simp [storeByte]

theorem strlen_append {s : CString} (h : nul ∉ s) (after : Memory) :
    strlen (s ++ nul :: after) = .ok s.length := by
  induction s with
  | nil => simp [strlen]
  | cons c s ih =>
    simp only [List.mem_cons,not_or] at h
    simp [strlen,Ne.symm h.1,ih h.2,Except.map]

theorem strdup_append {s : CString} (h : nul ∉ s) (after : Memory) :
    strdup (s ++ nul :: after) = .ok s := by
  simp [strdup,strlen_append h,Except.map]

theorem strncmp_append {s name : CString} (h : nul ∉ name) (after : Memory) :
    strncmpEqual (s ++ nul :: after) name = .ok (name.isPrefixOf s) := by
  induction name generalizing s with
  | nil => cases s <;> rfl
  | cons d name ih =>
    simp only [List.mem_cons,not_or] at h
    cases s with
    | nil => simp [strncmpEqual,h.1]
    | cons c s =>
      by_cases hcd : c = d
      · simp [strncmpEqual,hcd,ih h.2]
      · simp [strncmpEqual,hcd,List.isPrefixOf,Ne.symm hcd]

end DomoticaEngine
