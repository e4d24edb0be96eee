import DomoticaEngine.Types
import DomoticaEngine.Library.Words
import Mathlib.Data.List.Find

set_option autoImplicit false

namespace DomoticaEngine

inductive Statement where
  | input | output | timer | if_ | and_ | do_ | sunriset | soltracker | schedule | bool
  | state | logs | invalid
  deriving DecidableEq, Repr

/-- `STATEMENT_TABLE`, without the entry for the end of the table. -/
def statementTable : List (Statement × CString) :=
  [(.input,"INPUT".toList), (.output,"OUTPUT".toList), (.timer,"TIMER".toList),
   (.if_,"IF".toList), (.and_,"AND".toList), (.do_,"DO".toList),
   (.sunriset,"SUNRISET".toList), (.soltracker,"SOLTRACKER".toList),
   (.schedule,"SCHEDULE".toList), (.bool,"BOOL".toList), (.state,"STATE".toList),
   (.logs,"LOGS".toList)]

def lineMaxOptions : Nat := 10

structure Line where
  statement : Statement
  raw : CString
  name : CString
  options : List CString
  fits : options.length ≤ lineMaxOptions
  deriving DecidableEq, Repr

/-- The characters that line_parse overwrites with NUL. -/
def isBlank (c : Char) : Bool := c = ' ' || c = '\t' || c = '\n'

/-- `line[strlen(line)-1]` lies before the buffer when the string is empty. -/
def lineCleanup (line : CString) : Except Fault CString :=
  if line = [] then .error .outOfBounds
  else if line.getLast? = some '\n' then .ok line.dropLast
  else .ok line

def lineIsComment (line : CString) : Bool := line = [] || line.head? = some '#'

/-- `strncmp` with the length of the name: a longer first word also matches. -/
def lineGetStatement (line : CString) : Statement :=
  match statementTable.find? (fun entry => entry.2.isPrefixOf line) with
  | some (statement,_) => statement
  | none => .invalid

def minOptions (statement : Statement) : Nat :=
  if statement = .state ∨ statement = .logs then 0 else 1

/-- `line_parse`. The first word after a blank is the name, and the others go to the
options; the write of an eleventh one is out of bounds. -/
def lineParse (strline : CString) : Except Fault (Option Line) := do
  let line ← lineCleanup strline
  if lineIsComment line then return none
  let statement := lineGetStatement line
  match Words.following isBlank line with
  | [] => return none
  | name :: options =>
    if fits : options.length ≤ lineMaxOptions then
      if options.length < minOptions statement then return none
      else return some ⟨statement,line,name,options,fits⟩
    else .error .outOfBounds

theorem lineParse_some {strline : CString} {ln : Line}
    (h : lineParse strline = .ok (some ln)) :
    lineCleanup strline = .ok ln.raw ∧ ln.statement = lineGetStatement ln.raw ∧
      Words.following isBlank ln.raw = ln.name :: ln.options ∧
      minOptions ln.statement ≤ ln.options.length := by
  unfold lineParse at h
  cases hclean : lineCleanup strline with
  | error e => simp [hclean] at h
  | ok line =>
    simp only [hclean,ok_bind] at h
    split at h
    · cases h
    · cases hwords : Words.following isBlank line with
      | nil =>
        rw [hwords] at h
        cases h
      | cons name options =>
        simp only [hwords] at h
        split at h
        · split at h
          · cases h
          · rename_i henough
            cases h
            exact ⟨rfl,rfl,hwords,Nat.le_of_not_lt henough⟩
        · cases h

theorem lineParse_statement {strline : CString} {ln : Line}
    (h : lineParse strline = .ok (some ln)) : ln.statement = lineGetStatement ln.raw :=
  (lineParse_some h).2.1

theorem lineParse_options {strline : CString} {ln : Line}
    (h : lineParse strline = .ok (some ln)) : minOptions ln.statement ≤ ln.options.length :=
  (lineParse_some h).2.2.2

theorem lineCleanup_length {strline line : CString} (h : lineCleanup strline = .ok line) :
    line.length ≤ strline.length := by
  unfold lineCleanup at h
  split at h
  · cases h
  · split at h <;> cases h <;> simp

theorem lineParse_unended {line : CString} (hne : line ≠ []) (h : ∀ c ∈ line, c ≠ '\n') :
    lineParse line = lineParse (line ++ ['\n']) := by
  have hlast : line.getLast? ≠ some '\n' := fun hlast => h _ (List.mem_of_getLast? hlast) rfl
  have hclean : lineCleanup line = lineCleanup (line ++ ['\n']) := by
    simp [lineCleanup,hne,hlast]
  simp only [lineParse,hclean]

theorem lineParse_comment (text : CString) : lineParse ('#' :: text) = .ok none := by
  have hclean : ∃ rest, lineCleanup ('#' :: text) = .ok ('#' :: rest) := by
    unfold lineCleanup
    rw [if_neg (by simp)]
    cases text with
    | nil => exact ⟨[],rfl⟩
    | cons c text =>
      split
      · exact ⟨_,rfl⟩
      · exact ⟨_,rfl⟩
  obtain ⟨rest,hrest⟩ := hclean
  rw [lineParse,hrest]
  rfl

def lineText (statement name : CString) (options : List CString) : CString :=
  statement ++ Words.spaced ' ' (name :: options)

theorem isPrefixOf_word {w v rest : CString} (hw : ∀ c ∈ w, c ≠ ' ') :
    w.isPrefixOf (v ++ ' ' :: rest) = w.isPrefixOf v := by
  induction w generalizing v with
  | nil => simp
  | cons c w ih =>
    have hc := hw c (by simp)
    cases v with
    | nil => simp [List.isPrefixOf,hc]
    | cons d v => simp [List.isPrefixOf,ih (fun x hx => hw x (by simp [hx]))]

theorem lineGetStatement_word (v rest : CString) :
    lineGetStatement (v ++ ' ' :: rest) = lineGetStatement v := by
  have hnames : statementTable.all (fun entry => entry.2.all (fun c => c != ' ')) = true := rfl
  have hfind : statementTable.find? (fun entry => entry.2.isPrefixOf (v ++ ' ' :: rest)) =
      statementTable.find? (fun entry => entry.2.isPrefixOf v) := by
    apply List.find?_congr
    intro entry hentry
    refine isPrefixOf_word (fun c hc => ?_)
    simpa using List.all_eq_true.mp (List.all_eq_true.mp hnames entry hentry) c hc
  simp [lineGetStatement,hfind]

section Text
variable {statement name : CString} {options : List CString}

theorem lineText_following (hs : ∀ c ∈ statement, isBlank c = false)
    (hname : Words.IsWord isBlank name) (hoptions : ∀ w ∈ options, Words.IsWord isBlank w) :
    Words.following isBlank (lineText statement name options) = name :: options := by
  rw [lineText,Words.following_word isBlank hs]
  apply Words.following_spaced isBlank (by decide)
  intro w hw
  rcases List.mem_cons.mp hw with rfl | hw
  · exact hname
  · exact hoptions w hw

theorem lineParse_text (hs : Words.IsWord isBlank statement) (hc : statement.head? ≠ some '#')
    (hname : Words.IsWord isBlank name) (hoptions : ∀ w ∈ options, Words.IsWord isBlank w)
    (hfits : options.length ≤ lineMaxOptions)
    (hmin : minOptions (lineGetStatement statement) ≤ options.length) :
    lineParse (lineText statement name options ++ ['\n']) =
      .ok (some
        ⟨lineGetStatement statement,lineText statement name options,name,options,hfits⟩) := by
  have hclean : lineCleanup (lineText statement name options ++ ['\n']) =
      .ok (lineText statement name options) := by
    simp [lineCleanup]
  have hcomment : lineIsComment (lineText statement name options) = false := by
    obtain ⟨c,rest,rfl⟩ := List.exists_cons_of_ne_nil hs.1
    simpa [lineIsComment,lineText] using hc
  have hstatement : lineGetStatement (lineText statement name options) =
      lineGetStatement statement := by
    rw [lineText,Words.spaced_cons,lineGetStatement_word]
  have hwords := lineText_following hs.2 hname hoptions
  simp only [lineParse,hclean,ok_bind,hcomment,hstatement,hwords]
  simp [hfits,Nat.not_lt.mpr hmin]
  rfl

end Text

end DomoticaEngine
