import DomoticaEngine.RuleParser

/-!
The lines of a rule file and the strings that the passes parse.
-/

set_option autoImplicit false

namespace DomoticaEngine
open Reads

/-- The strings that a pass hands to `line_parse`, up to the one at which it stops. -/
def parsedStrings {σ : Type} (read : Read Fault CString σ) (content : List Char) (s : σ) :
    List CString :=
  (visits read (fileLines content) s).map Prod.fst

structure ParsesLines {σ : Type} (read : Read Fault CString σ) (content : List Char) (s : σ) :
    Prop where
  inOrder : parsedStrings read content s <+: Pieces.lines isNewline content
  complete : ∀ s', AcceptsAll read (fileLines content) s s' →
    parsedStrings read content s = Pieces.lines isNewline content

def FitsBuffer (line : CString) : Prop := line.length ≤ lineBuffer-1

section Lines
variable {σ : Type} {content : List Char}

theorem cString_self {s : List Char} (h : nul ∉ s) : cString s = s := by
  refine List.takeWhile_eq_self_iff.mpr (fun c hc => ?_)
  have hne : c ≠ nul := fun heq => h (heq ▸ hc)
  simpa using hne

/-- Without a NUL the strings in the buffer are the pieces of the lines. -/
theorem fileLines_pieces (h : nul ∉ content) :
    fileLines content =
      (Pieces.lines isNewline content).flatMap (Pieces.pieces isNewline (lineBuffer-1)) := by
  rw [← Pieces.pieces_lines]
  have hflat := Pieces.pieces_flatten isNewline (lineBuffer-1) content
  refine (List.map_congr_left (fun p hp => cString_self (fun hnul => h ?_))).trans (List.map_id _)
  rw [← hflat]
  exact List.mem_flatten.mpr ⟨p,hp,hnul⟩

theorem parses_lines_iff (read : Read Fault CString σ) (s : σ) (h : nul ∉ content) :
    ParsesLines read content s ↔
      AllRead read FitsBuffer (Pieces.lines isNewline content) s := by
  have hwhole : ∀ line ∈ Pieces.lines isNewline content, FitsBuffer line →
      Pieces.pieces isNewline (lineBuffer-1) line = [line] :=
    fun line hline hfits => Pieces.pieces_whole isNewline hline hfits
  have hpart : ∀ line ∈ Pieces.lines isNewline content, ¬ FitsBuffer line →
      ∃ p ps, Pieces.pieces isNewline (lineBuffer-1) line = p :: ps ∧ p ≠ line :=
    fun line hline hlong => Pieces.pieces_part isNewline (by decide) hline hlong
  constructor
  · rintro ⟨hbegins,-⟩
    rw [parsedStrings,fileLines_pieces h] at hbegins
    exact allRead_parts hwhole hpart hbegins
  · intro hfits
    obtain ⟨hvisits,haccepts⟩ := visits_parts hwhole hfits
    refine ⟨?_,fun s' hs' => ?_⟩
    · rw [parsedStrings,fileLines_pieces h,hvisits]
      exact visits_prefix
    · rw [fileLines_pieces h] at hs'
      rw [parsedStrings,fileLines_pieces h,hvisits]
      exact (haccepts s' hs').visits_items

end Lines

/-- The line a pass comes to has to fit into the buffer with its newline: what does not fit is
read in parts. -/
theorem passes_lines_iff (outside : Surroundings) (devices : List Device) (content : List Char)
    (d : DeclarationReader) (r : RuleReader) (hnul : nul ∉ content) :
    (ParsesLines (declarationLine outside) content d ↔
        AllRead (declarationLine outside) FitsBuffer (Pieces.lines isNewline content) d) ∧
      (ParsesLines (ruleLine devices) content r ↔
        AllRead (ruleLine devices) FitsBuffer (Pieces.lines isNewline content) r) :=
  ⟨parses_lines_iff _ d hnul,parses_lines_iff _ r hnul⟩

def stairsFile : List Char :=
  "BOOL lamp 0\n# upstairs\n\nIF lamp SET\nDO lamp UNSET\n".toList

theorem passes_lines_lamp :
    ParsesLines (declarationLine quietHouse) stairsFile .start ∧
      ParsesLines (ruleLine [⟨"lamp".toList,.bool ⟨0⟩⟩]) stairsFile .start := by
  have hfits : ∀ line ∈ Pieces.lines isNewline stairsFile, FitsBuffer line := by
    unfold FitsBuffer
    decide
  obtain ⟨hdeclarations,hrules⟩ := passes_lines_iff quietHouse [⟨"lamp".toList,.bool ⟨0⟩⟩]
    stairsFile .start .start (by decide)
  exact ⟨hdeclarations.mpr (fun _ line _ _ hlines _ => hfits line (by simp [hlines])),
    hrules.mpr (fun _ line _ _ hlines _ => hfits line (by simp [hlines]))⟩

def commentFront : CString := '#' :: List.replicate 254 'x'

def longComment : CString := commentFront ++ "BOOL lamp 0".toList ++ ['\n']

theorem commentFront_length : commentFront.length = 255 := by
  rw [commentFront,List.length_cons,List.length_replicate]

theorem commentFront_plain : ∀ c ∈ commentFront, isNewline c = false ∧ c ≠ nul := by
  intro c hc
  rcases List.mem_cons.mp hc with rfl | hc
  · decide
  · rw [List.eq_of_mem_replicate hc]
    decide

theorem longComment_strings :
    fileLines longComment = [commentFront,"BOOL lamp 0\n".toList] := by
  have hcut := Pieces.cut_full isNewline (n := 255) commentFront "BOOL lamp 0\n".toList
    (fun c hc => (commentFront_plain c hc).1) 255 commentFront_length (by decide)
  have hfront : cString commentFront = commentFront :=
    cString_self (fun hmem => (commentFront_plain nul hmem).2 rfl)
  have hpieces : Pieces.pieces isNewline (lineBuffer-1) longComment =
      commentFront :: Pieces.cut isNewline 255 255 "BOOL lamp 0\n".toList := by
    rw [longComment,List.append_assoc]
    exact hcut
  rw [fileLines,hpieces,List.map_cons,hfront]
  exact congrArg (commentFront :: ·) (by decide)

theorem longComment_line : Pieces.lines isNewline longComment = [longComment] := by
  refine Pieces.lines_line isNewline (by decide) (commentFront ++ "BOOL lamp 0".toList) ?_
  intro c hc
  rcases List.mem_append.mp hc with hc | hc
  · exact (commentFront_plain c hc).1
  · have hplain : ("BOOL lamp 0".toList.all fun c => !isNewline c) = true := by decide
    simpa using List.all_eq_true.mp hplain c hc

/-- The whole file is a comment, and it declares a lamp. -/
theorem comment_parsed : Pieces.lines isNewline longComment = [longComment] ∧
    lineParse longComment = .ok none ∧
    AcceptsAll (declarationLine quietHouse) (fileLines longComment) .start
      { devices := [⟨"lamp".toList,.bool ⟨0⟩⟩], schedule := none } ∧
    ¬ ParsesLines (declarationLine quietHouse) longComment .start := by
  have hcomment : Accepts (declarationLine quietHouse) commentFront .start .start := by
    have hparse : lineParse commentFront = .ok none := lineParse_comment _
    simp [Accepts,declarationLine,hparse,DeclarationReader.start]
  have haccepts : AcceptsAll (declarationLine quietHouse) (fileLines longComment) .start
      { devices := [⟨"lamp".toList,.bool ⟨0⟩⟩], schedule := none } := by
    rw [longComment_strings,acceptsAll_cons]
    exact ⟨_,hcomment,by rfl⟩
  refine ⟨longComment_line,lineParse_comment _,haccepts,fun hparses => ?_⟩
  have hlines := hparses.complete _ haccepts
  rw [parsedStrings,haccepts.visits_items,longComment_strings,longComment_line] at hlines
  exact absurd (congrArg List.length hlines) (by decide)

end DomoticaEngine
