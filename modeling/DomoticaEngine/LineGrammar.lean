import DomoticaEngine.LineBuffer
import Mathlib.Data.List.Infix

/-!
The words of a line: what line_parse returns for them, and when it tells a statement exactly.
-/

set_option autoImplicit false

namespace DomoticaEngine

def wordsOf (s : CString) : List CString := (s.splitOnP isBlank).filter (fun w => !w.isEmpty)

theorem wordsOf_eq (s : CString) : wordsOf s = Words.words isBlank s :=
  Words.split_words isBlank s

theorem withoutNewline_cases (s : CString) :
    s = withoutNewline s ∨ s = withoutNewline s ++ ['\n'] := by
  unfold withoutNewline
  split
  · rename_i hlast
    exact .inr (List.dropLast_append_getLast? _ hlast).symm
  · exact .inl rfl

theorem wordsOf_withoutNewline (s : CString) : wordsOf (withoutNewline s) = wordsOf s := by
  rw [wordsOf_eq,wordsOf_eq]
  rcases withoutNewline_cases s with heq | heq
  · rw [← heq]
  · have hwords := Words.words_append_sep isBlank (by decide : isBlank '\n' = true)
      (withoutNewline s)
    rw [← heq] at hwords
    exact hwords.symm

theorem withoutNewline_head {s : CString} (h : withoutNewline s ≠ []) :
    (withoutNewline s).head? = s.head? := by
  obtain ⟨c,text,hline⟩ := List.exists_cons_of_ne_nil h
  rcases withoutNewline_cases s with heq | heq
  · exact congrArg List.head? heq.symm
  · rw [hline] at heq ⊢
    rw [heq]
    rfl

theorem following_withoutNewline (s : CString) :
    Words.following isBlank (withoutNewline s) = Words.following isBlank s := by
  rcases withoutNewline_cases s with heq | heq
  · rw [← heq]
  · have hwords := Words.following_append_sep isBlank (by decide : isBlank '\n' = true)
      (withoutNewline s)
    rw [← heq] at hwords
    exact hwords.symm

section Keywords
variable {statement : Statement} {keyword s : CString}

theorem statementTable_apart {a b : Statement × CString} (ha : a ∈ statementTable)
    (hb : b ∈ statementTable) (h : a.2 <+: b.2) : a = b := by
  have hall : statementTable.all (fun a => statementTable.all (fun b =>
      !a.2.isPrefixOf b.2 || a = b)) = true := rfl
  have hone := List.all_eq_true.mp (List.all_eq_true.mp hall a ha) b hb
  simpa [List.isPrefixOf_iff_prefix.mpr h] using hone

theorem statementTable_once {a b : Statement × CString} (ha : a ∈ statementTable)
    (hb : b ∈ statementTable) (h : a.1 = b.1) : a = b := by
  have hall : statementTable.all (fun a => statementTable.all (fun b =>
      !(a.1 = b.1) || a = b)) = true := rfl
  have hone := List.all_eq_true.mp (List.all_eq_true.mp hall a ha) b hb
  simpa [h] using hone

theorem keyword_word (h : (statement,keyword) ∈ statementTable) :
    Words.IsWord isBlank keyword ∧ keyword.head? ≠ some '#' := by
  have hall : statementTable.all (fun entry =>
      Words.IsWord isBlank entry.2 && entry.2.head? != some '#') = true := rfl
  have hone := List.all_eq_true.mp hall _ h
  simpa using hone

theorem statementTable_valid {entry : Statement × CString} (h : entry ∈ statementTable) :
    entry.1 ≠ .invalid := by
  have hall : statementTable.all (fun entry => entry.1 != .invalid) = true := rfl
  simpa using List.all_eq_true.mp hall entry h

theorem lineGetStatement_iff (h : (statement,keyword) ∈ statementTable) :
    lineGetStatement s = statement ↔ keyword <+: s := by
  rw [lineGetStatement_find]
  cases hfind : statementTable.find? (fun entry => entry.2.isPrefixOf s) with
  | none =>
    have hnone := List.find?_eq_none.mp hfind _ h
    have hvalid := statementTable_valid h
    exact iff_of_false hvalid.symm (fun hbegins => hnone (List.isPrefixOf_iff_prefix.mpr hbegins))
  | some entry =>
    have hfound := List.find?_some (p := fun entry : Statement × CString =>
      entry.2.isPrefixOf s) hfind
    have hbegins := List.isPrefixOf_iff_prefix.mp hfound
    have hmem := List.mem_of_find?_eq_some hfind
    constructor
    · intro hstatement
      have heq := statementTable_once hmem h hstatement
      rw [heq] at hbegins
      exact hbegins
    · intro hkeyword
      rcases List.prefix_or_prefix_of_prefix hbegins hkeyword with hle | hle
      · exact congrArg Prod.fst (statementTable_apart hmem h hle)
      · exact congrArg Prod.fst (statementTable_apart h hmem hle).symm

theorem keyword_withoutNewline (h : (statement,keyword) ∈ statementTable) :
    keyword <+: withoutNewline s ↔ keyword <+: s := by
  rcases withoutNewline_cases s with heq | heq
  · rw [← heq]
  · constructor
    · intro hbegins
      rw [heq]
      exact hbegins.trans (List.prefix_append _ _)
    · intro hbegins
      rw [heq,List.prefix_concat_iff] at hbegins
      refine hbegins.resolve_left (fun hwhole => ?_)
      have hblank := (keyword_word h).1.2 '\n' (hwhole ▸ by simp)
      exact absurd hblank (by decide)

end Keywords

theorem wordsOf_front {s : CString} (hne : s ≠ []) (hstart : ∀ c ∈ s.head?, isBlank c = false) :
    wordsOf s = Words.front isBlank s :: Words.following isBlank s := by
  obtain ⟨c,text,rfl⟩ := List.exists_cons_of_ne_nil hne
  rw [wordsOf_eq]
  exact Words.words_cons isBlank (hstart c rfl) text

def fewestWords (s : CString) : Nat :=
  if "STATE".toList <+: s ∨ "LOGS".toList <+: s then 2 else 3

theorem fewestWords_eq (s : CString) : fewestWords s = 2+minOptions (lineGetStatement s) := by
  have hstate := @lineGetStatement_iff .state "STATE".toList s (by simp [statementTable])
  have hlogs := @lineGetStatement_iff .logs "LOGS".toList s (by simp [statementTable])
  simp only [fewestWords,minOptions,hstate,hlogs]
  split <;> rfl

theorem lineIsComment_iff {s : CString} : lineIsComment s = true ↔ s = [] ∨ s.head? = some '#' := by
  simp [lineIsComment]

def WordsFit (s : CString) : Prop :=
  s.head? = some '#' ∨ (Words.following isBlank s).length ≤ 1+lineMaxOptions

/-- What line_parse returns for options that fit, in terms of the words behind a blank. -/
theorem lineParseMem_fits {s : CString} (h : nul ∉ s) (hne : s ≠ []) (hfit : WordsFit s) :
    ∃ result, lineParseMem (terminated s) = .ok result ∧
      (result = none ↔ lineIsComment (withoutNewline s) = true ∨
        (Words.following isBlank s).length < 1+minOptions (lineGetStatement (withoutNewline s))) ∧
      ∀ line, result = some line → ∃ ln : Line, line = ln.lineT ∧
        ln.statement = lineGetStatement (withoutNewline s) ∧ ln.raw = withoutNewline s ∧
        Words.following isBlank s = ln.name :: ln.options := by
  rw [lineParseMem_eq h,lineParse_cases hne,following_withoutNewline]
  cases hcomment : lineIsComment (withoutNewline s) with
  | true => exact ⟨none,rfl,iff_of_true rfl (.inl rfl),fun line hline => by cases hline⟩
  | false =>
    simp only [Bool.false_eq_true,if_false,false_or]
    cases hrest : Words.following isBlank s with
    | nil =>
      refine ⟨none,rfl,iff_of_true rfl ?_,fun line hline => by cases hline⟩
      rw [List.length_nil]
      omega
    | cons name options =>
      have hstart : ¬ (withoutNewline s = [] ∨ (withoutNewline s).head? = some '#') := by
        rw [← lineIsComment_iff,hcomment]
        exact Bool.false_ne_true
      have hfits : options.length ≤ lineMaxOptions := by
        rcases hfit with hhash | hlength
        · by_cases hempty : withoutNewline s = []
          · exact absurd (.inl hempty) hstart
          · rw [← withoutNewline_head hempty] at hhash
            exact absurd (.inr hhash) hstart
        · rw [hrest,List.length_cons] at hlength
          omega
      simp only [dif_pos hfits,List.length_cons]
      by_cases hfew : options.length < minOptions (lineGetStatement (withoutNewline s))
      · rw [if_pos hfew]
        exact ⟨none,rfl,iff_of_true rfl (by omega),fun line hline => by cases hline⟩
      · rw [if_neg hfew]
        refine ⟨_,rfl,iff_of_false (by simp) (by omega),fun line hline => ?_⟩
        cases hline
        exact ⟨_,rfl,rfl,rfl,rfl⟩

/-- Words are cut at blanks: the second one is the name and the others are the options, in order,
and a line is refused for its length or as a comment only. -/
theorem line_tokens (s : CString) (h : nul ∉ s) (hne : s ≠ [])
    (hstart : ∀ c ∈ s.head?, isBlank c = false) (hwords : (wordsOf s).length ≤ 12) :
    ∃ result, lineParseMem (terminated s) = .ok result ∧
      (result = none ↔ withoutNewline s = [] ∨ (withoutNewline s).head? = some '#' ∨
        (wordsOf (withoutNewline s)).length < fewestWords (withoutNewline s)) ∧
      ∀ line, result = some line → ∃ first name options,
        wordsOf s = first :: name :: options ∧ line.name = some name ∧
        line.options = options.map some ++ List.replicate (lineMaxOptions-options.length) none ∧
        line.optionsCount = options.length ∧ line.raw = withoutNewline s := by
  have hfront := wordsOf_front hne hstart
  have hlength : (wordsOf s).length = (Words.following isBlank s).length+1 := by
    rw [hfront,List.length_cons]
  have hfit : WordsFit s := by
    refine .inr ?_
    unfold lineMaxOptions
    omega
  obtain ⟨result,hresult,hnone,hsome⟩ := lineParseMem_fits h hne hfit
  refine ⟨result,hresult,?_,fun line hline => ?_⟩
  · have hfew : (wordsOf s).length < fewestWords (withoutNewline s) ↔
        (Words.following isBlank s).length <
          1+minOptions (lineGetStatement (withoutNewline s)) := by
      rw [fewestWords_eq]
      omega
    rw [hnone,wordsOf_withoutNewline,← or_assoc,← lineIsComment_iff,hfew]
  · obtain ⟨ln,rfl,-,hraw,hrest⟩ := hsome line hline
    exact ⟨_,ln.name,ln.options,hrest ▸ hfront,rfl,rfl,rfl,hraw⟩

/-- A line with blanks of all three kinds, and at its end. -/
theorem line_tokens_lamp :
    ∃ line, lineParseMem (terminated "DO \tlamp\n\tSET  50 \n\n".toList) = .ok (some line) ∧
      line.name = some "lamp".toList ∧ line.optionsCount = 2 ∧
      line.raw = "DO \tlamp\n\tSET  50 \n".toList := by
  have hstart : ∀ c ∈ "DO \tlamp\n\tSET  50 \n\n".toList.head?, isBlank c = false := by
    intro c hc
    cases hc
    rfl
  obtain ⟨result,hresult,hnone,hsome⟩ := line_tokens "DO \tlamp\n\tSET  50 \n\n".toList
    (by decide) (by decide) hstart (by decide)
  have hwords : wordsOf "DO \tlamp\n\tSET  50 \n\n".toList =
      ["DO".toList,"lamp".toList,"SET".toList,"50".toList] := rfl
  cases result with
  | none =>
    exact absurd (hnone.mp rfl) (by decide)
  | some line =>
    obtain ⟨first,name,options,hsplit,hname,-,hcount,hraw⟩ := hsome line rfl
    rw [hwords] at hsplit
    cases hsplit
    exact ⟨line,hresult,hname,hcount,hraw⟩

def IsStatement (statement : Statement) (s : CString) : Prop :=
  (∀ c ∈ s.head?, isBlank c = false) ∧ ∃ keyword words, wordsOf s = keyword :: words ∧
    (statement,keyword) ∈ statementTable ∧ 1+minOptions statement ≤ words.length

/-- line_parse returns a line with a statement for the strings of the grammar, and for no others. -/
def RecognisedExactly (s : CString) : Prop :=
  ∃ result, lineParseMem (terminated s) = .ok result ∧ ∀ statement, statement ≠ .invalid →
    ((∃ line, result = some line ∧ line.statement = statement) ↔ IsStatement statement s)

def KeywordsEnd (s : CString) : Prop :=
  ∀ entry ∈ statementTable, ∀ c rest, s = entry.2 ++ c :: rest → isBlank c = false →
    (wordsOf s).length < 2+minOptions entry.1

section Recognition
variable {statement : Statement} {keyword s : CString}

theorem keyword_start (h : (statement,keyword) ∈ statementTable) (hbegins : keyword <+: s) :
    s ≠ [] ∧ (∀ c ∈ s.head?, isBlank c = false) ∧ s.head? ≠ some '#' := by
  obtain ⟨rest,rfl⟩ := hbegins
  obtain ⟨⟨hne,hletters⟩,hhash⟩ := keyword_word h
  obtain ⟨c,text,rfl⟩ := List.exists_cons_of_ne_nil hne
  refine ⟨by simp,fun d hd => ?_,hhash⟩
  cases hd
  exact hletters c (by simp)

theorem wordsOf_keyword (h : (statement,keyword) ∈ statementTable) (hbegins : keyword <+: s) :
    (wordsOf s).length = 1+(Words.following isBlank s).length := by
  obtain ⟨hne,hstart,-⟩ := keyword_start h hbegins
  rw [wordsOf_front hne hstart,List.length_cons,Nat.add_comm]

theorem isStatement_iff (h : (statement,keyword) ∈ statementTable) :
    IsStatement statement s ↔ keyword <+: s ∧ 2+minOptions statement ≤ (wordsOf s).length ∧
      ∀ c rest, s = keyword ++ c :: rest → isBlank c = true := by
  have hfront := @Words.front_iff _ isBlank _ (keyword_word h).1.2 s
  constructor
  · rintro ⟨hstart,word,words,hwords,hword,henough⟩
    have hentry := statementTable_once hword h rfl
    cases hentry
    have hne : s ≠ [] := by
      rintro rfl
      cases hwords
    have hkeyword := (List.cons.inj ((wordsOf_front hne hstart).symm.trans hwords)).1
    obtain ⟨hbegins,hends⟩ := hfront.mp hkeyword
    refine ⟨hbegins,?_,hends⟩
    rw [hwords,List.length_cons]
    omega
  · rintro ⟨hbegins,henough,hends⟩
    obtain ⟨hne,hstart,-⟩ := keyword_start h hbegins
    have hwords := wordsOf_front hne hstart
    rw [hfront.mpr ⟨hbegins,hends⟩] at hwords
    refine ⟨hstart,keyword,_,hwords,h,?_⟩
    rw [hwords,List.length_cons] at henough
    omega

/-- What line_parse tells a statement by: the characters in front and the number of words. -/
theorem lineParseMem_recognises (h : nul ∉ s) (hne : s ≠ []) (hfit : WordsFit s) :
    ∃ result, lineParseMem (terminated s) = .ok result ∧ ∀ entry ∈ statementTable,
      ((∃ line, result = some line ∧ line.statement = entry.1) ↔
        entry.2 <+: s ∧ 2+minOptions entry.1 ≤ (wordsOf s).length) := by
  obtain ⟨result,hresult,hnone,hsome⟩ := lineParseMem_fits h hne hfit
  refine ⟨result,hresult,fun entry hentry => ?_⟩
  have htold := lineGetStatement_iff (s := withoutNewline s) hentry
  rw [keyword_withoutNewline hentry] at htold
  constructor
  · rintro ⟨line,rfl,hstatement⟩
    obtain ⟨ln,rfl,htype,-,-⟩ := hsome line rfl
    have henough := mt hnone.mpr (by simp)
    have hkeyword := htype.symm.trans hstatement
    have hbegins := htold.mp hkeyword
    rw [not_or,hkeyword] at henough
    refine ⟨hbegins,?_⟩
    rw [wordsOf_keyword hentry hbegins]
    omega
  · rintro ⟨hbegins,henough⟩
    have hkeyword := htold.mpr hbegins
    cases result with
    | none =>
      have hstart := keyword_start hentry ((keyword_withoutNewline hentry).mpr hbegins)
      rcases hnone.mp rfl with hcomment | hfew
      · rcases lineIsComment_iff.mp hcomment with hempty | hhash
        · exact absurd hempty hstart.1
        · exact absurd hhash hstart.2.2
      · rw [wordsOf_keyword hentry hbegins] at henough
        rw [hkeyword] at hfew
        omega
    | some line =>
      obtain ⟨ln,rfl,htype,-,-⟩ := hsome line rfl
      exact ⟨_,rfl,htype.trans hkeyword⟩

theorem lineParseMem_long (h : nul ∉ s) (hne : s ≠ []) (hlong : ¬ WordsFit s) :
    lineParseMem (terminated s) = .error .outOfBounds := by
  unfold WordsFit at hlong
  rw [not_or] at hlong
  have hcomment : lineIsComment (withoutNewline s) = false := by
    rw [← Bool.not_eq_true,lineIsComment_iff]
    rintro (hempty | hhash)
    · have hnone := following_withoutNewline s
      rw [hempty] at hnone
      rw [← hnone] at hlong
      exact hlong.2 (Nat.zero_le _)
    · refine hlong.1 ?_
      rw [← withoutNewline_head (by rintro heq; simp [heq] at hhash)]
      exact hhash
  rw [lineParseMem_eq h,lineParse_cases hne,following_withoutNewline,hcomment]
  cases hrest : Words.following isBlank s with
  | nil =>
    rw [hrest] at hlong
    exact absurd (Nat.zero_le _) hlong.2
  | cons name options =>
    rw [hrest,List.length_cons] at hlong
    rw [if_neg Bool.false_ne_true]
    simp only [dif_neg (by omega : ¬ options.length ≤ lineMaxOptions)]
    rfl

theorem statement_entry (h : statement ≠ .invalid) :
    ∃ keyword, (statement,keyword) ∈ statementTable := by
  cases statement <;> first | exact absurd rfl h | exact ⟨_,by simp [statementTable]; rfl⟩

/-- line_parse leaves its memory for an empty string and for options that do not fit. -/
theorem recognised_fits (h : nul ∉ s) (hexact : RecognisedExactly s) : s ≠ [] ∧ WordsFit s := by
  obtain ⟨result,hresult,-⟩ := hexact
  have hne : s ≠ [] := by
    rintro rfl
    cases hresult
  refine ⟨hne,?_⟩
  by_contra hlong
  rw [lineParseMem_long h hne hlong] at hresult
  cases hresult

theorem recognised_ends (h : nul ∉ s) (hexact : RecognisedExactly s) : KeywordsEnd s := by
  obtain ⟨hne,hfit⟩ := recognised_fits h hexact
  obtain ⟨result,hresult,htold⟩ := lineParseMem_recognises h hne hfit
  obtain ⟨result',hresult',hgrammar⟩ := hexact
  cases hresult.symm.trans hresult'
  intro entry hentry c rest hs hc
  by_contra henough
  have hline := (htold entry hentry).mpr ⟨⟨_,hs.symm⟩,Nat.le_of_not_lt henough⟩
  have hstatement := (hgrammar entry.1 (statementTable_valid hentry)).mp hline
  have hblank := ((isStatement_iff hentry).mp hstatement).2.2 c rest hs
  rw [hc] at hblank
  cases hblank

/-- Statements are told exactly for strings in which no word that is longer than a keyword passes
for it, and that line_parse reads without leaving its memory. -/
theorem line_recognised_iff (s : CString) (h : nul ∉ s) :
    RecognisedExactly s ↔ s ≠ [] ∧ WordsFit s ∧ KeywordsEnd s := by
  constructor
  · intro hexact
    obtain ⟨hne,hfit⟩ := recognised_fits h hexact
    exact ⟨hne,hfit,recognised_ends h hexact⟩
  · rintro ⟨hne,hfit,hends⟩
    obtain ⟨result,hresult,htold⟩ := lineParseMem_recognises h hne hfit
    refine ⟨result,hresult,fun statement hvalid => ?_⟩
    obtain ⟨keyword,hentry⟩ := statement_entry hvalid
    rw [htold (statement,keyword) hentry,isStatement_iff hentry]
    constructor
    · rintro ⟨hbegins,henough⟩
      refine ⟨hbegins,henough,fun c rest hs => ?_⟩
      by_contra hc
      have hfew := hends (statement,keyword) hentry c rest hs (Bool.eq_false_of_not_eq_true hc)
      exact absurd henough (Nat.not_le_of_lt hfew)
    · rintro ⟨hbegins,henough,-⟩
      exact ⟨hbegins,henough⟩

/-- A line whose first word is a keyword. -/
theorem line_recognised_lamp : RecognisedExactly "DO lamp SET\n".toList := by
  refine (line_recognised_iff _ (by decide)).mpr ⟨by decide,.inr (by decide),?_⟩
  intro entry hentry c rest hs hc
  have hall : statementTable.all (fun entry =>
      !entry.2.isPrefixOf "DO lamp SET\n".toList || entry.2 = "DO".toList) = true := rfl
  have hbegins : entry.2.isPrefixOf "DO lamp SET\n".toList = true := by
    rw [hs,List.isPrefixOf_iff_prefix]
    exact List.prefix_append _ _
  have hdo := List.all_eq_true.mp hall entry hentry
  rw [hbegins,Bool.not_true,Bool.false_or,decide_eq_true_eq] at hdo
  rw [hdo] at hs
  cases hs
  cases hc

/-- A longer word passes for the keyword it starts with. -/
theorem line_recognised_door : ¬ RecognisedExactly "DOOR lamp SET\n".toList := by
  intro hexact
  have hfew := recognised_ends (by decide) hexact (.do_,"DO".toList) (by decide) 'O'
    "R lamp SET\n".toList rfl rfl
  revert hfew
  decide

end Recognition

end DomoticaEngine
