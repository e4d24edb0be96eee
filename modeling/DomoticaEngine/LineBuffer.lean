import DomoticaEngine.Memory
import DomoticaEngine.RuleParser

/-!
line_parse and the walk over the options in memory.
-/

set_option autoImplicit false

namespace DomoticaEngine

/-- A `line_t`, with its slots for the options. -/
structure LineT where
  statement : Statement
  raw : CString
  name : Option CString
  options : List (Option CString)
  optionsCount : Nat
  deriving DecidableEq, Repr

def lineCleanupMem (line : Memory) : Except Fault Memory := do
  let len ← strlen line
  let c ← charAt line ((len : Int)-1)
  if c = '\n' then
    let len ← strlen line
    storeByte line (len-1) nul
  else return line

def lineIsCommentMem (line : Memory) : Except Fault Bool := do
  let len ← strlen line
  if len = 0 then return true
  let c ← charAt line 0
  return c = '#'

def lineGetStatementFrom (line : Memory) : List (Statement × CString) → Except Fault Statement
  | [] => .ok .invalid
  | (statement,name) :: table => do
    if ← strncmpEqual line name then return statement
    else lineGetStatementFrom line table

def lineGetStatementMem (line : Memory) : Except Fault Statement :=
  lineGetStatementFrom line statementTable

/-- The first loop of line_parse, for the `k` characters from `i` on. -/
def blankLoop (ln : Memory) (i : Nat) : Nat → Except Fault Memory
  | 0 => .ok ln
  | k+1 => do
    let c ← charAt ln i
    let ln ← if isBlank c then storeByte ln i nul else .ok ln
    blankLoop ln (i+1) k

def storeOption (options : List (Option CString)) (i : Nat) (option : CString) :
    Except Fault (List (Option CString)) :=
  if i < options.length then .ok (options.set i (some option)) else .error .outOfBounds

/-- The `n`+1st word goes to the name or to its slot. -/
def lineAddWord (line : LineT) (n : Nat) (word : CString) : Except Fault LineT :=
  if n = 0 then .ok { line with name := some word }
  else do
    let options ← storeOption line.options (n-1) word
    return { line with options := options, optionsCount := line.optionsCount+1 }

/-- The second loop, for the `k` characters from `i` on. -/
def wordLoop (ln : Memory) (i : Nat) : Nat → LineT × Nat → Except Fault (LineT × Nat)
  | 0, state => .ok state
  | k+1, (line,n) => do
    let c ← charAt ln i
    if c = nul then
      let d ← charAt ln ((i+1 : Nat) : Int)
      if d = nul then wordLoop ln (i+1) k (line,n)
      else
        let word ← strdup (ln.drop (i+1))
        let line ← lineAddWord line n word
        wordLoop ln (i+1) k (line,n+1)
    else wordLoop ln (i+1) k (line,n)

/-- `line_parse`, on a string in memory. -/
def lineParseMem (strline : Memory) : Except Fault (Option LineT) := do
  let strline ← lineCleanupMem strline
  if ← lineIsCommentMem strline then return none
  let ln ← strdup strline
  let raw ← strdup strline
  let statement ← lineGetStatementMem strline
  let line : LineT := ⟨statement,raw,none,List.replicate lineMaxOptions none,0⟩
  let len ← strlen (terminated ln)
  let ln ← blankLoop (terminated ln) 0 len
  let (line,n) ← wordLoop ln 0 len (line,0)
  if n < 1+minOptions line.statement then return none
  else return some line

/-- The loop of `action_create`, from a slot on: the options up to the null pointer. -/
def optionsWalk : List (Option CString) → Except Fault (List CString)
  | [] => .error .outOfBounds
  | none :: _ => .ok []
  | some option :: options => (optionsWalk options).map (option :: ·)

/-- No access of line_parse is outside the string and the slots, and with a DO line action_create
finds a null pointer in the slots after the first one. -/
def LineSafe (s : CString) : Prop :=
  ∃ result, lineParseMem (terminated s) = .ok result ∧
    ∀ line, result = some line → line.statement = .do_ →
      ∃ options, optionsWalk (line.options.drop 1) = .ok options

def withoutNewline (s : CString) : CString := if s.getLast? = some '\n' then s.dropLast else s

/-- The words after the first blank: a name and options, and for a DO line one slot left. -/
def LineFits (s : CString) : Prop :=
  s ≠ [] ∧ (lineIsComment (withoutNewline s) = true ∨
    (Words.following isBlank (withoutNewline s)).length ≤ 1+lineMaxOptions ∧
      (lineGetStatement (withoutNewline s) = .do_ →
        (Words.following isBlank (withoutNewline s)).length < 1+lineMaxOptions))

section Cleanup
variable {s : CString} {after : Memory}

theorem withoutNewline_nul (h : nul ∉ s) : nul ∉ withoutNewline s := by
  unfold withoutNewline
  split
  · exact fun hmem => h (List.dropLast_subset s hmem)
  · exact h

theorem lineCleanup_eq (h : s ≠ []) : lineCleanup s = .ok (withoutNewline s) := by
  unfold lineCleanup withoutNewline
  rw [if_neg h]
  split <;> rfl

theorem lineCleanupMem_empty : lineCleanupMem (terminated []) = .error .outOfBounds := by
  simp [lineCleanupMem,terminated,strlen,charAt]

theorem lineCleanupMem_spec (h : nul ∉ s) (hne : s ≠ []) :
    ∃ after, lineCleanupMem (terminated s) = .ok (withoutNewline s ++ nul :: after) := by
  obtain ⟨front,c,rfl⟩ := (List.eq_nil_or_concat' s).resolve_left hne
  have hlen : strlen (terminated (front ++ [c])) = .ok (front.length+1) := by
    have hstr := strlen_append h []
    rwa [List.length_append,List.length_singleton] at hstr
  have hmem : terminated (front ++ [c]) = front ++ c :: [nul] := by simp [terminated]
  have hlast : charAt (terminated (front ++ [c])) ((front.length+1 : Nat)-1 : Int) = .ok c := by
    rw [hmem]
    simpa using charAt_append front c [nul]
  unfold lineCleanupMem
  rw [hlen,ok_bind,hlast,ok_bind]
  by_cases hnewline : c = '\n'
  · subst hnewline
    refine ⟨[nul],?_⟩
    rw [if_pos rfl,ok_bind,hmem]
    simpa [withoutNewline] using storeByte_append front '\n' nul [nul]
  · refine ⟨[],?_⟩
    rw [if_neg hnewline]
    simp [withoutNewline,hnewline,terminated]
    rfl

theorem lineIsCommentMem_spec (h : nul ∉ s) :
    lineIsCommentMem (s ++ nul :: after) = .ok (lineIsComment s) := by
  unfold lineIsCommentMem lineIsComment
  rw [strlen_append h]
  cases s with
  | nil => rfl
  | cons c s => simp [charAt]

theorem lineGetStatement_find (line : CString) : lineGetStatement line =
    (statementTable.find? (fun entry => entry.2.isPrefixOf line)).elim .invalid Prod.fst := by
  unfold lineGetStatement
  cases statementTable.find? (fun entry => entry.2.isPrefixOf line) with
  | none => rfl
  | some entry => rfl

theorem lineGetStatementFrom_spec (line : CString) (after : Memory)
    (table : List (Statement × CString)) (htable : ∀ entry ∈ table, nul ∉ entry.2) :
    lineGetStatementFrom (line ++ nul :: after) table = .ok
      ((table.find? (fun entry => entry.2.isPrefixOf line)).elim .invalid Prod.fst) := by
  induction table with
  | nil => rfl
  | cons entry table ih =>
    obtain ⟨statement,name⟩ := entry
    have hname := strncmp_append (s := line) (htable (statement,name) (by simp)) after
    simp only [lineGetStatementFrom,hname,ok_bind]
    cases hbegins : name.isPrefixOf line with
    | true =>
      simp only [hbegins,if_true,List.find?_cons_of_pos]
      rfl
    | false => simpa [hbegins] using ih (fun entry hentry => htable entry (by simp [hentry]))

theorem lineGetStatementMem_spec (line : CString) (after : Memory) :
    lineGetStatementMem (line ++ nul :: after) = .ok (lineGetStatement line) := by
  have hnames : ∀ entry ∈ statementTable, nul ∉ entry.2 := by decide
  rw [lineGetStatement_find]
  exact lineGetStatementFrom_spec line after statementTable hnames

end Cleanup

section Loops

def blanked (c : Char) : Char := if isBlank c then nul else c

theorem blankLoop_spec (before : Memory) (line : CString) :
    blankLoop (before ++ (line ++ [nul])) before.length line.length =
      .ok (before ++ (line.map blanked ++ [nul])) := by
  induction line generalizing before with
  | nil => rfl
  | cons c line ih =>
    have hnext := ih (before ++ [blanked c])
    simp only [List.length_append,List.length_singleton,List.append_assoc,
      List.singleton_append] at hnext
    simp only [List.length_cons,blankLoop,List.cons_append,charAt_append,ok_bind]
    cases hblank : isBlank c with
    | true =>
      simp only [if_true,storeByte_append,ok_bind]
      simpa [blanked,hblank] using hnext
    | false =>
      simp only [Bool.false_eq_true,if_false]
      simpa [blanked,hblank] using hnext

theorem blanked_nul {c : Char} (hc : c ≠ nul) : blanked c = nul ↔ isBlank c = true := by
  unfold blanked
  split <;> simp_all

theorem blanked_front (line : CString) : ∃ after,
    line.map blanked ++ [nul] = Words.front isBlank line ++ nul :: after := by
  induction line with
  | nil => exact ⟨[],rfl⟩
  | cons c line ih =>
    cases hblank : isBlank c with
    | true => exact ⟨line.map blanked ++ [nul],by simp [Words.front,blanked,hblank]⟩
    | false =>
      obtain ⟨after,hafter⟩ := ih
      refine ⟨after,?_⟩
      simp only [Words.front] at hafter
      simp [Words.front,blanked,hblank,hafter]

theorem front_nul {line : CString} (h : nul ∉ line) : nul ∉ Words.front isBlank line :=
  fun hmem => h (List.takeWhile_subset _ hmem)

/-- The word that a blanked line starts with is what `strdup` copies. -/
theorem strdup_blanked {line : CString} (h : nul ∉ line) :
    strdup (line.map blanked ++ [nul]) = .ok (Words.front isBlank line) := by
  obtain ⟨after,hafter⟩ := blanked_front line
  rw [hafter]
  exact strdup_append (front_nul h) after

def lineAddWords (line : LineT) (n : Nat) : List CString → Except Fault (LineT × Nat)
  | [] => .ok (line,n)
  | word :: words => do
    let line ← lineAddWord line n word
    lineAddWords line (n+1) words

/-- Induction on what is left of the line: the loop adds the words that follow a blank. -/
theorem wordLoop_spec (before : Memory) {text : CString} (h : nul ∉ text) (line : LineT) (n : Nat) :
    wordLoop (before ++ (text.map blanked ++ [nul])) before.length text.length (line,n) =
      lineAddWords line n (Words.following isBlank text) := by
  induction text generalizing before line n with
  | nil => rfl
  | cons c text ih =>
    simp only [List.mem_cons,not_or] at h
    have hnext := ih (before ++ [blanked c]) h.2
    simp only [List.length_append,List.length_singleton,List.append_assoc,
      List.singleton_append] at hnext
    have hdrop : (before ++ blanked c :: (text.map blanked ++ [nul])).drop (before.length+1) =
        text.map blanked ++ [nul] := by
      rw [List.drop_append]
      simp
    have hchar := blanked_nul (Ne.symm h.1)
    simp only [List.length_cons,wordLoop,List.map_cons,List.cons_append,charAt_append,ok_bind]
    cases hblank : isBlank c with
    | false =>
      rw [if_neg (by simp [hchar,hblank]),hnext]
      simp [Words.following,hblank]
    | true =>
      have hahead : ∀ d after, charAt (before ++ blanked c :: d :: after)
          ((before.length+1 : Nat) : Int) = .ok d := by
        intro d after
        simpa using charAt_append (before ++ [blanked c]) d after
      rw [if_pos (hchar.mpr hblank)]
      cases text with
      | nil =>
        simp only [List.map_nil,List.nil_append] at hnext ⊢
        rw [hahead,ok_bind,if_pos rfl,hnext]
        simp [Words.following,Words.front,hblank]
      | cons d text =>
        have hword := strdup_blanked h.2
        simp only [List.map_cons,List.cons_append] at hnext hdrop hword ⊢
        rw [hahead,ok_bind]
        have hd := blanked_nul (fun hd => h.2 (List.mem_cons.mpr (.inl hd.symm)) : d ≠ nul)
        cases hblank' : isBlank d with
        | true =>
          rw [if_pos (hd.mpr hblank'),hnext]
          simp [Words.following,Words.front,hblank,hblank']
        | false =>
          have hfront : Words.front isBlank (d :: text) = d :: Words.front isBlank text := by
            simp [Words.front,hblank']
          have hfollowing : Words.following isBlank (c :: d :: text) =
              (d :: Words.front isBlank text) :: Words.following isBlank (d :: text) := by
            rw [Words.following,if_pos hblank,hfront]
          rw [if_neg (by simp [hd,hblank']),hdrop,hword,ok_bind,hfollowing,hfront,lineAddWords]
          cases lineAddWord line n (d :: Words.front isBlank text) with
          | error e => rfl
          | ok line => exact hnext line (n+1)

theorem lineAddOptions (line : LineT) (filled words : List CString) (free : Nat)
    (h : line.options = filled.map some ++ List.replicate free none) :
    lineAddWords line (filled.length+1) words =
      if words.length ≤ free then
        .ok ({ line with
          options := (filled ++ words).map some ++ List.replicate (free-words.length) none
          optionsCount := line.optionsCount+words.length },filled.length+1+words.length)
      else .error .outOfBounds := by
  induction words generalizing line filled free with
  | nil => simp [lineAddWords,← h]
  | cons word words ih =>
    have hlength : line.options.length = filled.length+free := by simp [h]
    have hadd : lineAddWord line (filled.length+1) word =
        (storeOption line.options filled.length word).map (fun options =>
          { line with options := options, optionsCount := line.optionsCount+1 }) := by
      unfold lineAddWord
      rw [if_neg (Nat.succ_ne_zero _),Nat.add_sub_cancel]
      cases storeOption line.options filled.length word <;> rfl
    cases free with
    | zero =>
      have hfull : ¬ filled.length < line.options.length := by omega
      simp [lineAddWords,hadd,storeOption,hfull,Except.map]
    | succ free =>
      have hroom : filled.length < line.options.length := by omega
      have hset : line.options.set filled.length (some word) =
          (filled ++ [word]).map some ++ List.replicate free none := by
        rw [h,List.replicate_succ,List.map_append,List.append_assoc]
        simp
      have hrest := ih { line with
        options := (filled ++ [word]).map some ++ List.replicate free none
        optionsCount := line.optionsCount+1 } (filled ++ [word]) free rfl
      rw [List.length_append,List.length_singleton] at hrest
      simp only [lineAddWords,hadd,storeOption,if_pos hroom,Except.map,ok_bind,hset,hrest,
        List.length_cons]
      by_cases hfits : words.length ≤ free
      · rw [if_pos hfits,if_pos (Nat.succ_le_succ hfits)]
        have hcount : line.optionsCount+1+words.length = line.optionsCount+(words.length+1) := by
          omega
        have hnext : filled.length+1+1+words.length = filled.length+1+(words.length+1) := by omega
        simp only [List.append_assoc,List.singleton_append,Nat.add_sub_add_right,hcount,hnext]
      · rw [if_neg hfits,if_neg (fun hle => hfits (Nat.le_of_succ_le_succ hle))]

end Loops

def Line.lineT (ln : Line) : LineT :=
  { statement := ln.statement, raw := ln.raw, name := some ln.name,
    options := ln.options.map some ++ List.replicate (lineMaxOptions-ln.options.length) none,
    optionsCount := ln.options.length }

/-- In memory, line_parse does what it does on texts, and nothing is accessed outside as long as
there is a character and the options fit. -/
theorem lineParseMem_eq {s : CString} (h : nul ∉ s) :
    lineParseMem (terminated s) = (lineParse s).map (fun ln => ln.map Line.lineT) := by
  by_cases hne : s = []
  · subst hne
    simp [lineParseMem,lineCleanupMem_empty,lineParse,lineCleanup,Except.map]
  · obtain ⟨after,hclean⟩ := lineCleanupMem_spec h hne
    have hline := withoutNewline_nul h
    have hlen : strlen (terminated (withoutNewline s)) = .ok (withoutNewline s).length :=
      strlen_append hline []
    have hblank : blankLoop (terminated (withoutNewline s)) 0 (withoutNewline s).length =
        .ok ((withoutNewline s).map blanked ++ [nul]) := blankLoop_spec [] (withoutNewline s)
    have hwords : ∀ line n, wordLoop ((withoutNewline s).map blanked ++ [nul]) 0
        (withoutNewline s).length (line,n) =
        lineAddWords line n (Words.following isBlank (withoutNewline s)) :=
      wordLoop_spec [] hline
    simp only [lineParseMem,hclean,ok_bind,lineIsCommentMem_spec hline,strdup_append hline,
      lineGetStatementMem_spec,hlen,hblank,hwords,lineParse,lineCleanup_eq hne]
    cases lineIsComment (withoutNewline s) with
    | true => rfl
    | false =>
      simp only [Bool.false_eq_true,if_false]
      cases Words.following isBlank (withoutNewline s) with
      | nil =>
        have hfew : 0 < 1+minOptions (lineGetStatement (withoutNewline s)) := by omega
        simp only [lineAddWords,ok_bind,if_pos hfew]
        rfl
      | cons name options =>
        have hname : ∀ line : LineT, lineAddWord line 0 name =
            .ok { line with name := some name } := fun _ => rfl
        have hoptions := lineAddOptions
          ⟨lineGetStatement (withoutNewline s),withoutNewline s,some name,
            List.replicate lineMaxOptions none,0⟩ [] options lineMaxOptions rfl
        simp only [List.length_nil,Nat.zero_add,List.nil_append] at hoptions
        simp only [lineAddWords,hname,ok_bind,Nat.zero_add,hoptions]
        by_cases hfits : options.length ≤ lineMaxOptions
        · simp only [if_pos hfits,dif_pos hfits,ok_bind]
          by_cases hfew : options.length < minOptions (lineGetStatement (withoutNewline s))
          · rw [if_pos hfew,if_pos (by omega)]
            rfl
          · rw [if_neg hfew,if_neg (by omega)]
            rfl
        · simp only [if_neg hfits,dif_neg hfits]
          rfl

theorem optionsWalk_filled (options : List CString) (free : Nat) :
    optionsWalk (options.map some ++ List.replicate free none) =
      if 0 < free then .ok options else .error .outOfBounds := by
  induction options with
  | nil => cases free <;> rfl
  | cons option options ih =>
    simp only [List.map_cons,List.cons_append,optionsWalk,ih]
    split <;> rfl

theorem optionsWalk_line (ln : Line) : optionsWalk (ln.lineT.options.drop 1) =
    if ln.options.length < lineMaxOptions then .ok (ln.options.drop 1)
    else .error .outOfBounds := by
  have hfits := ln.fits
  have hmax : lineMaxOptions = 10 := rfl
  unfold Line.lineT
  cases hoptions : ln.options with
  | nil => rfl
  | cons option options =>
    rw [hoptions,List.length_cons] at hfits
    simp only [List.map_cons,List.cons_append,List.drop_succ_cons,List.drop_zero,List.length_cons,
      optionsWalk_filled]
    by_cases hroom : options.length+1 < lineMaxOptions
    · rw [if_pos hroom,if_pos (by omega)]
    · rw [if_neg hroom,if_neg (by omega)]

theorem lineParse_cases {s : CString} (hne : s ≠ []) :
    lineParse s =
      if lineIsComment (withoutNewline s) then .ok none
      else
        match Words.following isBlank (withoutNewline s) with
        | [] => .ok none
        | name :: options =>
          if fits : options.length ≤ lineMaxOptions then
            if options.length < minOptions (lineGetStatement (withoutNewline s)) then .ok none
            else .ok (some
              ⟨lineGetStatement (withoutNewline s),withoutNewline s,name,options,fits⟩)
          else .error .outOfBounds := by
  unfold lineParse
  rw [lineCleanup_eq hne,ok_bind]
  rfl

theorem lineSafe_parse {s : CString} (h : nul ∉ s) :
    LineSafe s ↔ ∃ result, lineParse s = .ok result ∧
      ∀ ln, result = some ln → ln.statement = .do_ → ln.options.length < lineMaxOptions := by
  have hwalk : ∀ ln : Line, (∃ options, optionsWalk (ln.lineT.options.drop 1) = .ok options) ↔
      ln.options.length < lineMaxOptions := by
    intro ln
    rw [optionsWalk_line]
    split <;> simp_all
  unfold LineSafe
  rw [lineParseMem_eq h]
  cases lineParse s with
  | error e => simp [Except.map]
  | ok result =>
    cases result with
    | none => simp [Except.map]
    | some ln =>
      have hln := hwalk ln
      simp only [Except.map,Option.map_some,Except.ok.injEq,exists_eq_left',Option.some.injEq,
        forall_eq',hln]
      rfl

/-- line_parse stays in the string and in the slots, and action_create in the slots, exactly for
strings that are not empty and have no more options than fit. -/
theorem line_safe_iff (s : CString) (h : nul ∉ s) : LineSafe s ↔ LineFits s := by
  rw [lineSafe_parse h]
  unfold LineFits
  by_cases hne : s = []
  · subst hne
    simp [lineParse,lineCleanup]
  · rw [lineParse_cases hne]
    cases lineIsComment (withoutNewline s) with
    | true => simp [hne]
    | false =>
      cases Words.following isBlank (withoutNewline s) with
      | nil => simp [hne,lineMaxOptions]
      | cons name options =>
        simp only [hne,Bool.false_eq_true,if_false,List.length_cons,ne_eq,not_false_eq_true,
          true_and,false_or]
        by_cases hfits : options.length ≤ lineMaxOptions
        · rw [dif_pos hfits]
          by_cases hfew : options.length < minOptions (lineGetStatement (withoutNewline s))
          · have hnone : options.length < 1 :=
              Nat.lt_of_lt_of_le hfew (by unfold minOptions; split <;> omega)
            have hmax : lineMaxOptions = 10 := rfl
            rw [if_pos hfew]
            exact iff_of_true ⟨none,rfl,fun ln heq => by cases heq⟩ ⟨by omega,fun _ => by omega⟩
          · rw [if_neg hfew]
            simp only [Except.ok.injEq,exists_eq_left',Option.some.injEq,forall_eq']
            constructor
            · intro hslots
              refine ⟨by omega,fun hdo => ?_⟩
              have hroom := hslots hdo
              omega
            · rintro ⟨-,hslots⟩ hdo
              have hroom := hslots hdo
              omega
        · rw [dif_neg hfits]
          refine iff_of_false ?_ (by omega)
          rintro ⟨result,hresult,-⟩
          cases hresult

/-- A line that lights a lamp. -/
theorem line_safe_lamp : LineSafe "DO lamp SET 50\n".toList ↔ LineFits "DO lamp SET 50\n".toList :=
  line_safe_iff _ (by decide)

/-- An empty string is read in front of it; an eleventh option is stored behind the slots; and ten
options of a DO line leave no null pointer. -/
theorem line_unsafe :
    ¬ LineSafe [] ∧ ¬ LineSafe "INPUT a 1 2 3 4 5 6 7 8 9 10 11".toList ∧
      ¬ LineSafe "DO a 1 2 3 4 5 6 7 8 9 10".toList := by
  have hfails : ∀ s, nul ∉ s → lineParse s = .error .outOfBounds → ¬ LineSafe s := by
    intro s hs herror hsafe
    obtain ⟨result,hresult,-⟩ := (lineSafe_parse hs).mp hsafe
    rw [herror] at hresult
    cases hresult
  refine ⟨hfails _ (by decide) rfl,hfails _ (by decide) rfl,fun hsafe => ?_⟩
  obtain ⟨result,hresult,hslots⟩ := (lineSafe_parse (by decide)).mp hsafe
  cases hresult
  have hroom := hslots _ rfl rfl
  revert hroom
  decide

end DomoticaEngine
