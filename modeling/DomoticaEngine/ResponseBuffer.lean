import Mathlib.Data.List.Induction
import DomoticaEngine.Memory
import DomoticaEngine.VeluxWorker

/-!
The buffer of a command's response, byte by byte.
-/

set_option autoImplicit false

namespace DomoticaEngine

/-- `resp` is the memory that is allocated for the response. -/
structure RespBuffer where
  resp : List Char
  respBufSize : Nat
  respSize : Nat
  deriving DecidableEq, Repr

/-- The fields as calloc leaves them. -/
def RespBuffer.start : RespBuffer := ⟨[],0,0⟩

section Incoming
variable (junk : Nat → Char)

/-- What lies in memory that is new is not known: `junk` gives it. -/
def realloc (mem : List Char) (size : Nat) : List Char :=
  mem.take size ++ (List.range' mem.length (size-mem.length)).map junk

def respStore (buffer : RespBuffer) (c : Char) : Except Fault RespBuffer := do
  let resp ← storeByte buffer.resp buffer.respSize c
  let resp ← storeByte resp (buffer.respSize+1) nul
  return { buffer with resp := resp, respSize := buffer.respSize+1 }

/-- The last part of `cmd_incoming_data`, in the memory. -/
def respIncoming (buffer : RespBuffer) (c : Char) : Except Fault RespBuffer :=
  if buffer.respSize+1 ≥ buffer.respBufSize then
    let buffer := { buffer with respBufSize := buffer.respBufSize+1024 }
    if buffer.respBufSize ≥ maxResSize then .ok buffer
    else respStore { buffer with resp := realloc junk buffer.resp buffer.respBufSize } c
  else respStore buffer c

def respAfter (output : List Char) : Except Fault RespBuffer :=
  output.foldlM (respIncoming junk) .start

/-- The response is a prefix of the output, with a NUL behind it in the allocated memory. -/
def RespBuffer.Holds (buffer : RespBuffer) (output : List Char) : Prop :=
  buffer.resp.take buffer.respSize <+: output ∧ buffer.respSize+1 ≤ buffer.resp.length ∧
    buffer.resp[buffer.respSize]? = some nul

/-- What one more byte does: it is stored in front of the last byte that is allocated, or nothing
is written. Nothing is written when the limit is reached. -/
def ByteSafe (buffer buffer' : RespBuffer) : Prop :=
  (buffer'.respSize = buffer.respSize+1 ∧ buffer.respSize+1 < buffer'.resp.length ∨
    buffer'.respSize = buffer.respSize ∧ buffer'.resp = buffer.resp) ∧
  (buffer.respBufSize ≥ maxResSize → buffer'.respSize = buffer.respSize)

/-- At every point of the run, nothing has been written outside the buffer, and it holds a prefix
of what has come. -/
def ResponseSafe (output : List Char) : Prop :=
  ∀ before c, before ++ [c] <+: output →
    ∃ buffer buffer', respAfter junk before = .ok buffer ∧
      respAfter junk (before ++ [c]) = .ok buffer' ∧ buffer'.Holds (before ++ [c]) ∧
      ByteSafe buffer buffer'

end Incoming

/-- So much is allocated for a response of `n` bytes. -/
def respCapacity (n : Nat) : Nat := if n = 0 then 0 else 1024*(n/1024+1)

structure RespBuffer.Filled (buffer : RespBuffer) (output : List Char) : Prop where
  respSize : buffer.respSize = output.length
  respBufSize : buffer.respBufSize = respCapacity output.length
  allocated : buffer.resp.length = respCapacity output.length
  stored : buffer.resp.take output.length = output
  ended : output ≠ [] → buffer.resp[output.length]? = some nul

section Bytes
variable {junk : Nat → Char} {buffer : RespBuffer} {output : List Char}

theorem start_filled : RespBuffer.start.Filled [] :=
  ⟨rfl,rfl,rfl,rfl,fun h => absurd rfl h⟩

theorem realloc_length (mem : List Char) (size : Nat) : (realloc junk mem size).length = size := by
  simp only [realloc,List.length_append,List.length_take,List.length_map,List.length_range']
  omega

theorem realloc_take {mem : List Char} {n size : Nat} (hn : n ≤ mem.length) (hsize : n ≤ size) :
    (realloc junk mem size).take n = mem.take n := by
  have hmin : n ≤ (mem.take size).length := by
    rw [List.length_take]
    omega
  rw [realloc,List.take_append_of_le_length hmin,List.take_take,Nat.min_eq_left hsize]

/-- Both bytes of a store are in the buffer exactly when the second one is. -/
theorem respStore_eq (buffer : RespBuffer) (c : Char) :
    respStore buffer c =
      if buffer.respSize+1 < buffer.resp.length then
        .ok { buffer with
          resp := (buffer.resp.set buffer.respSize c).set (buffer.respSize+1) nul,
          respSize := buffer.respSize+1 }
      else .error .outOfBounds := by
  unfold respStore storeByte
  by_cases hsecond : buffer.respSize+1 < buffer.resp.length
  · have hfirst : buffer.respSize < buffer.resp.length := by omega
    simp only [if_pos hfirst,if_pos hsecond,ok_bind,List.length_set]
    rfl
  · rw [if_neg hsecond]
    by_cases hfirst : buffer.respSize < buffer.resp.length
    · simp [hfirst,hsecond]
    · simp [hfirst]

theorem capacity_bounds (n : Nat) : n ≠ 0 → n < respCapacity n := by
  intro hn
  unfold respCapacity
  rw [if_neg hn]
  omega

theorem capacity_succ (n : Nat) : respCapacity (n+1) =
    if n+1 ≥ respCapacity n then respCapacity n+1024 else respCapacity n := by
  unfold respCapacity
  split_ifs <;> omega

/-- What the store of a byte leaves in a buffer that has room for it. -/
theorem store_filled {c : Char} (hsize : buffer.respSize = output.length)
    (hcapacity : buffer.respBufSize = respCapacity (output.length+1))
    (hlength : buffer.resp.length = respCapacity (output.length+1))
    (hstored : buffer.resp.take output.length = output) :
    ∃ buffer', respStore buffer c = .ok buffer' ∧ buffer'.Filled (output ++ [c]) ∧
      buffer'.respSize = buffer.respSize+1 ∧ buffer.respSize+1 < buffer'.resp.length := by
  have hroom := capacity_bounds (output.length+1) (by omega)
  have hfirst : buffer.respSize+1 < buffer.resp.length := by omega
  have hsecond : output.length < buffer.resp.length := by omega
  refine ⟨_,by rw [respStore_eq,if_pos hfirst],⟨?_,?_,?_,?_,fun _ => ?_⟩,rfl,?_⟩
  · simp [hsize]
  · simp [hcapacity]
  · simp [hlength]
  · rw [List.length_append,List.length_singleton,List.take_add_one,hsize,
      List.take_set_of_le (by omega),List.take_set_of_le (Nat.le_refl _),hstored]
    simp [hsecond]
  · simp only [List.length_append,List.length_singleton,hsize]
    rw [List.getElem?_set_self (by simpa [hsize] using hfirst)]
  · simpa using hfirst

/-- Below the limit, a complete response takes one more byte, and the buffer has grown to what it
needs. -/
theorem filled_step {c : Char} (h : buffer.Filled output)
    (hlimit : respCapacity (output.length+1) < maxResSize) :
    ∃ buffer', respIncoming junk buffer c = .ok buffer' ∧ buffer'.Filled (output ++ [c]) ∧
      buffer'.respSize = buffer.respSize+1 ∧ buffer.respSize+1 < buffer'.resp.length := by
  have hsucc : respCapacity (output.length+1) =
      if buffer.respSize+1 ≥ buffer.respBufSize then buffer.respBufSize+1024
      else buffer.respBufSize := by
    rw [h.respSize,h.respBufSize]
    exact capacity_succ output.length
  unfold respIncoming
  by_cases hfull : buffer.respSize+1 ≥ buffer.respBufSize
  · rw [if_pos hfull] at hsucc ⊢
    rw [hsucc] at hlimit
    simp only [if_neg (Nat.not_le.mpr hlimit)]
    have hold : output.length ≤ buffer.resp.length := by
      have hlength := congrArg List.length h.stored
      rw [List.length_take] at hlength
      omega
    refine @store_filled { buffer with
      respBufSize := buffer.respBufSize+1024
      resp := realloc junk buffer.resp (buffer.respBufSize+1024) } output c h.respSize ?_ ?_ ?_
    · exact hsucc.symm
    · exact (realloc_length _ _).trans hsucc.symm
    · rw [realloc_take hold]
      · exact h.stored
      · rw [h.respBufSize,← h.allocated]
        omega
  · rw [if_neg hfull] at hsucc ⊢
    exact store_filled h.respSize hsucc.symm (by rw [hsucc,h.respBufSize,h.allocated]) h.stored

theorem capacity_limit (n : Nat) : respCapacity n < maxResSize ↔ n < 130*1024 := by
  unfold respCapacity maxResSize
  split_ifs <;> omega

/-- The byte that would need memory beyond the limit is dropped, but the recorded size has grown. -/
theorem filled_limit {c : Char} (h : buffer.Filled output) (hlength : output.length+1 = 130*1024) :
    respIncoming junk buffer c = .ok { buffer with respBufSize := 131*1024 } := by
  have hcapacity : buffer.respBufSize = 130*1024 := by
    rw [h.respBufSize]
    unfold respCapacity
    rw [if_neg (by omega)]
    omega
  unfold respIncoming
  rw [if_pos (by rw [h.respSize,hcapacity]; omega),hcapacity]
  have hmax : 130*1024+1024 ≥ maxResSize := by decide
  exact if_pos hmax

/-- The byte after that is stored at the end of the memory, and its NUL behind the end. -/
theorem limit_outOfBounds {c : Char} (h : buffer.Filled output)
    (hlength : output.length+1 = 130*1024) :
    respIncoming junk { buffer with respBufSize := 131*1024 } c = .error .outOfBounds := by
  have hallocated : buffer.resp.length = 130*1024 := by
    rw [h.allocated]
    unfold respCapacity
    rw [if_neg (by omega)]
    omega
  unfold respIncoming
  simp only [h.respSize,hlength]
  rw [if_neg (by decide),respStore_eq]
  exact if_neg (by simp only [hlength,hallocated]; omega)

theorem respAfter_append (output more : List Char) :
    respAfter junk (output ++ more) =
      respAfter junk output >>= fun buffer => more.foldlM (respIncoming junk) buffer :=
  List.foldlM_append

theorem respAfter_concat (output : List Char) (c : Char) :
    respAfter junk (output ++ [c]) =
      respAfter junk output >>= fun buffer => respIncoming junk buffer c := by
  simp [respAfter,List.foldlM_append]

/-- Induction on the output, from its end. -/
theorem filled_run (h : output.length < 130*1024) :
    ∃ buffer, respAfter junk output = .ok buffer ∧ buffer.Filled output := by
  induction output using List.reverseRecOn with
  | nil => exact ⟨_,rfl,start_filled⟩
  | append_singleton output c ih =>
    rw [List.length_append,List.length_singleton] at h
    obtain ⟨buffer,hrun,hfilled⟩ := ih (by omega)
    obtain ⟨buffer',hstep,hfilled',-,-⟩ := @filled_step junk _ _ c hfilled
      ((capacity_limit _).mpr h)
    exact ⟨buffer',by rw [respAfter_concat,hrun]; exact hstep,hfilled'⟩

theorem RespBuffer.Filled.holds (h : buffer.Filled output) (hne : output ≠ []) :
    buffer.Holds output := by
  have hroom := capacity_bounds output.length (by simpa using hne)
  refine ⟨?_,?_,?_⟩
  · have hstored : buffer.resp.take buffer.respSize = output := by rw [h.respSize,h.stored]
    exact hstored.symm ▸ List.prefix_refl output
  · rw [h.respSize,h.allocated]
    omega
  · rw [h.respSize]
    exact h.ended hne

/-- One byte fewer than the limit, and the dropped one: the next byte has no room. -/
theorem respAfter_full (h : output.length = 130*1024) :
    ∃ buffer, respAfter junk output = .ok buffer ∧ buffer.respBufSize = 131*1024 ∧
      ∀ c, respIncoming junk buffer c = .error .outOfBounds := by
  obtain ⟨full,c,rfl⟩ := (List.eq_nil_or_concat' output).resolve_left (by rintro rfl; cases h)
  rw [List.length_append,List.length_singleton] at h
  obtain ⟨buffer,hbuffer,hfilled⟩ := @filled_run junk full (by omega)
  refine ⟨{ buffer with respBufSize := 131*1024 },?_,rfl,fun c => limit_outOfBounds hfilled h⟩
  rw [respAfter_concat,hbuffer,ok_bind,filled_limit hfilled h]

theorem respAfter_overruns (h : 130*1024 < output.length) :
    respAfter junk output = .error .outOfBounds := by
  obtain ⟨front,c,more,rfl,hfront⟩ : ∃ front c more, output = front ++ c :: more ∧
      front.length = 130*1024 :=
    ⟨_,_,_,by rw [← List.drop_eq_getElem_cons h,List.take_append_drop],
      by rw [List.length_take]; omega⟩
  obtain ⟨buffer,hbuffer,-,hfull⟩ := @respAfter_full junk front hfront
  rw [List.append_cons,respAfter_append,respAfter_concat,hbuffer,ok_bind,hfull]
  rfl

theorem response_overruns (h : 130*1024 < output.length) : ¬ ResponseSafe junk output := by
  intro hsafe
  obtain ⟨front,c,rfl⟩ := (List.eq_nil_or_concat' output).resolve_left (by rintro rfl; cases h)
  obtain ⟨-,buffer',-,hrun,-⟩ := hsafe front c (List.prefix_refl _)
  rw [respAfter_overruns h] at hrun
  cases hrun

theorem respAfter_below {buffer : RespBuffer} (h : respAfter junk output = .ok buffer)
    (hlimit : buffer.respBufSize < maxResSize) :
    output.length < 130*1024 ∧ buffer.Filled output := by
  have hshort : output.length < 130*1024 := by
    by_contra hlong
    rcases Nat.lt_or_eq_of_le (Nat.le_of_not_lt hlong) with hlonger | hfull
    · rw [respAfter_overruns hlonger] at h
      cases h
    · obtain ⟨buffer',hbuffer',hsize,-⟩ := @respAfter_full junk output hfull.symm
      rw [hbuffer'] at h
      cases h
      rw [hsize] at hlimit
      exact absurd hlimit (by decide)
  obtain ⟨buffer',hbuffer',hfilled⟩ := @filled_run junk output hshort
  rw [h] at hbuffer'
  cases hbuffer'
  exact ⟨hshort,hfilled⟩

/-- Below the limit, one more byte is taken. -/
theorem filled_takes {buffer : RespBuffer} (h : buffer.Filled output)
    (hshort : output.length < 130*1024) (c : Char) :
    ∃ buffer', respIncoming junk buffer c = .ok buffer' := by
  by_cases hlast : output.length+1 = 130*1024
  · exact ⟨_,filled_limit h hlast⟩
  · obtain ⟨buffer',hstep,-⟩ := @filled_step junk _ _ c h ((capacity_limit _).mpr (by omega))
    exact ⟨buffer',hstep⟩

theorem response_fits (h : output.length ≤ 130*1024) : ResponseSafe junk output := by
  intro before c hbegins
  have hbefore := hbegins.length_le
  rw [List.length_append,List.length_singleton] at hbefore
  obtain ⟨buffer,hrun,hfilled⟩ := @filled_run junk before (by omega)
  have hlimit : buffer.respBufSize < maxResSize := by
    rw [hfilled.respBufSize]
    exact (capacity_limit _).mpr (by omega)
  rw [respAfter_concat,hrun]
  by_cases hlast : before.length+1 = 130*1024
  · refine ⟨buffer,_,rfl,filled_limit hfilled hlast,?_,.inr ⟨rfl,rfl⟩,by omega⟩
    obtain ⟨hbegins,hroom,hnul⟩ := hfilled.holds (by intro hnil; simp [hnil] at hlast)
    exact ⟨hbegins.trans (List.prefix_append before [c]),hroom,hnul⟩
  · obtain ⟨buffer',hstep,hfilled',hsize,hroom⟩ := @filled_step junk _ _ c hfilled
      ((capacity_limit _).mpr (by omega))
    exact ⟨buffer,buffer',rfl,hstep,hfilled'.holds (by simp),.inl ⟨hsize,hroom⟩,by omega⟩

end Bytes

/-- The response stays in its buffer exactly up to 130 times 1024 bytes of output: the last of them
is dropped at the limit, and the next one is stored as if the buffer had grown. -/
theorem response_safe_iff (junk : Nat → Char) (output : List Char) :
    ResponseSafe junk output ↔ output.length ≤ 130*1024 := by
  constructor
  · intro hsafe
    by_contra hlong
    exact response_overruns (Nat.lt_of_not_le hlong) hsafe
  · exact response_fits

theorem response_overrun :
    ¬ ResponseSafe (fun _ => nul) (List.replicate (130*1024+1) 'x') :=
  response_overruns (by rw [List.length_replicate]; omega)

structure Cmd.HasBuffer (cmd : Cmd) (buffer : RespBuffer) : Prop where
  resp : cmd.resp = buffer.resp.take buffer.respSize
  respAlloc : cmd.respAlloc = buffer.resp.length
  respBufSize : cmd.respBufSize = buffer.respBufSize
  within : buffer.respSize ≤ buffer.resp.length
  allocated : buffer.resp.length ≤ buffer.respBufSize

theorem Cmd.HasBuffer.of_same {cmd cmd' : Cmd} {buffer : RespBuffer} (h : cmd.HasBuffer buffer)
    (hresp : cmd'.resp = cmd.resp) (halloc : cmd'.respAlloc = cmd.respAlloc)
    (hsize : cmd'.respBufSize = cmd.respBufSize) : cmd'.HasBuffer buffer :=
  ⟨hresp.trans h.resp,halloc.trans h.respAlloc,hsize.trans h.respBufSize,h.within,h.allocated⟩

theorem cmdCreate_hasBuffer (consoleCmd : CString) (arg : DeviceId) :
    (cmdCreate consoleCmd arg).HasBuffer .start :=
  ⟨rfl,rfl,rfl,Nat.le_refl _,Nat.le_refl _⟩

section Refines
variable {junk : Nat → Char} {cmd : Cmd} {buffer : RespBuffer} {c : Char}

theorem Cmd.HasBuffer.length (h : cmd.HasBuffer buffer) : cmd.resp.length = buffer.respSize := by
  rw [h.resp,List.length_take,Nat.min_eq_left h.within]

/-- The worker's command takes a character as its buffer does: both or neither have a result. -/
theorem cmdStoreChar_refines (h : cmd.HasBuffer buffer) :
    (∀ buffer', respStore buffer c = .ok buffer' →
        ∃ cmd', cmdStoreChar cmd c = some cmd' ∧ cmd'.HasBuffer buffer') ∧
      ∀ e, respStore buffer c = .error e → cmdStoreChar cmd c = none := by
  unfold cmdStoreChar
  rw [respStore_eq,h.length,h.respAlloc]
  by_cases hroom : buffer.respSize+1 < buffer.resp.length
  · simp only [if_pos hroom]
    refine ⟨fun buffer' hstore => ?_,fun e herror => by cases herror⟩
    cases hstore
    refine ⟨_,rfl,?_,?_,h.respBufSize,?_,?_⟩
    · have hfirst : buffer.respSize < buffer.resp.length := by omega
      simp only
      rw [List.take_add_one,List.take_set_of_le (by omega),List.take_set_of_le (Nat.le_refl _),
        ← h.resp]
      simp [hfirst]
    · simp
    · simp only [List.length_set]
      omega
    · simpa using h.allocated
  · rw [if_neg hroom,if_neg hroom]
    exact ⟨fun buffer' hstore => (by cases hstore),fun _ _ => rfl⟩

theorem cmdAppend_refines (h : cmd.HasBuffer buffer) :
    (∀ buffer', respIncoming junk buffer c = .ok buffer' →
        ∃ cmd', cmdAppend cmd c = some cmd' ∧ cmd'.HasBuffer buffer') ∧
      ∀ e, respIncoming junk buffer c = .error e → cmdAppend cmd c = none := by
  unfold respIncoming cmdAppend
  rw [h.length,h.respBufSize]
  by_cases hfull : buffer.respSize+1 ≥ buffer.respBufSize
  · simp only [if_pos hfull]
    by_cases hmax : buffer.respBufSize+1024 ≥ maxResSize
    · simp only [if_pos hmax]
      refine ⟨fun buffer' hstep => ?_,fun e herror => by cases herror⟩
      cases hstep
      exact ⟨_,rfl,h.resp,h.respAlloc,rfl,h.within,Nat.le_trans h.allocated (by simp)⟩
    · simp only [if_neg hmax]
      have hallocated := h.allocated
      have hwithin := h.within
      refine cmdStoreChar_refines ⟨?_,?_,rfl,?_,?_⟩
      · simp only
        rw [realloc_take hwithin (by omega)]
        exact h.resp
      · simp only [realloc_length]
      · simp only [realloc_length]
        omega
      · simp only [realloc_length]
        exact Nat.le_refl _
  · simp only [if_neg hfull]
    exact cmdStoreChar_refines h

end Refines

end DomoticaEngine
