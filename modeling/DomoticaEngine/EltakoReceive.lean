import DomoticaEngine.Library.Drain
import DomoticaEngine.PressAgreement

/-!
The serial port of the Eltako devices: its handler, and the frames that come in.
-/

set_option autoImplicit false

namespace DomoticaEngine

/-- The functions of libeltako that the handler calls. `ρ` is the state of a receiver, `φ` a frame
and `μ` a message. -/
structure Libeltako (ρ φ μ : Type) where
  addData : ρ → List UInt8 → ρ
  parseBuffer : ρ → Option φ × ρ
  messageCreateFromFrame : φ → Option μ
  messageAddress : μ → UInt32
  messageStatus : μ → Nat

/-- What the handling of a frame meets outside: what an event of the device at a place of the list
sets off; the names in the directory of the scripts, with whether they are executable, or none when
it cannot be opened; and what comes of a script that is run with a prefix and a message. -/
structure EltakoOutside (μ σ : Type) where
  around : Nat → Around σ
  readdir : σ → Option (List (CString × Bool))
  runScript : CString → CString → Option μ → σ → Option σ

/-- The list of devices: the data of those whose type is FTS14EM. -/
structure EltakoDevices (σ : Type) where
  devices : List (Option Fts14emDevice)
  outside : σ
  deriving DecidableEq, Repr

def bufSize : Nat := 1024

/-- EWOULDBLOCK, of errno. -/
def eWouldBlock : Nat := 11

structure Chunk where
  bytes : List UInt8
  nonempty : bytes ≠ []
  fits : bytes.length ≤ bufSize

inductive ReadResult where
  | data (chunk : Chunk)
  | endOfFile
  | error (errno : Nat)

def scriptsdir : CString := "/etc/domotica-engine/eltako.d".toList

section Handler
variable {ρ φ μ σ : Type} (eltako : Libeltako ρ φ μ) (out : EltakoOutside μ σ)

def eltakodExecuteScript (frame : φ) (pre : CString) (outside : σ) (entry : CString × Bool) :
    Option σ :=
  if entry.1.head? = some '.' then some outside
  else if entry.2 then
    out.runScript (scriptsdir ++ '/' :: entry.1) pre (eltako.messageCreateFromFrame frame) outside
  else some outside

def eltakodExecuteScripts (frame : φ) (pre : CString) (outside : σ) : Option σ :=
  match out.readdir outside with
  | some entries => entries.foldlM (eltakodExecuteScript eltako out frame pre) outside
  | none => some outside

def eltakoDeviceListFindCb (msg : μ) : Option Fts14emDevice → Bool
  | some device => device.address = eltako.messageAddress msg
  | none => false

def incomingEltakoMsg (msg : μ) (s : EltakoDevices σ) : Option (EltakoDevices σ) :=
  match s.devices.findIdx? (eltakoDeviceListFindCb eltako msg) with
  | some i =>
    match s.devices[i]? with
    | some (some device) => do
      let after ← eltakoFts14emIncomingData (out.around i) (eltako.messageStatus msg)
        ⟨device,s.outside⟩
      return ⟨s.devices.set i (some after.device),after.outside⟩
    | _ => some s
  | none => some s

/-- The body of the inner loop. -/
def incomingEltakoFrame (frame : φ) (s : EltakoDevices σ) : Option (EltakoDevices σ) := do
  let s ← match eltako.messageCreateFromFrame frame with
    | some msg => incomingEltakoMsg eltako out msg s
    | none => some s
  let outside ← eltakodExecuteScripts eltako out frame "RX".toList s.outside
  return { s with outside := outside }

/-- `incoming_eltako_data`, with the number of reads it makes from the `n`th on and a limit on the
turns of its loops. Only a read that would block ends the loop. -/
def incomingEltakoData (read : Nat → ReadResult) :
    Nat → Nat → ρ → EltakoDevices σ → Option (Nat × ρ × EltakoDevices σ)
  | 0, _, _, _ => none
  | turns+1, n, receiver, s =>
    match read n with
    | .error errno =>
      -- Every other error is only printed.
      if errno = eWouldBlock then some (n+1,receiver,s)
      else incomingEltakoData read turns (n+1) receiver s
    | .data chunk => do
      let (receiver,s) ← Drain.drain eltako.parseBuffer (incomingEltakoFrame eltako out) turns
        (eltako.addData receiver chunk.bytes) s
      incomingEltakoData read turns (n+1) receiver s
    -- A read of 0 bytes is in neither branch of the source.
    | .endOfFile => incomingEltakoData read turns (n+1) receiver s

end Handler

structure Port where
  chunks : List Chunk
  silence : Nat → ReadResult
  silent : ∀ n chunk, silence n ≠ .data chunk

def Port.read (port : Port) (n : Nat) : ReadResult :=
  match port.chunks[n]? with
  | some chunk => .data chunk
  | none => port.silence (n-port.chunks.length)

section Frames
variable {ρ φ μ σ : Type} (eltako : Libeltako ρ φ μ) (buffered : ρ → List φ)

def receive (receiver : ρ) (chunk : Chunk) : ρ :=
  Drain.emptied eltako.parseBuffer buffered (eltako.addData receiver chunk.bytes)

def completeFrames : ρ → List Chunk → List φ
  | _, [] => []
  | receiver, chunk :: chunks =>
    buffered (eltako.addData receiver chunk.bytes) ++
      completeFrames (receive eltako buffered receiver chunk) chunks

/-- The handler returns after some number of reads. Each frame that is complete has been handled
once, in order, and a receiver without frames is left without frames. -/
def Yields (out : EltakoOutside μ σ) (port : Port) (receiver : ρ) (s : EltakoDevices σ) : Prop :=
  ∃ turns reads receiver' s',
    incomingEltakoData eltako out port.read turns 0 receiver s = some (reads,receiver',s') ∧
      Runs.after (incomingEltakoFrame eltako out)
        (completeFrames eltako buffered receiver port.chunks) s = some s' ∧
      (buffered receiver = [] → buffered receiver' = [])

end Frames

section Port
variable {ρ φ μ σ : Type} {eltako : Libeltako ρ φ μ} {out : EltakoOutside μ σ}
variable {read : Nat → ReadResult} {n turns reads : Nat} {receiver receiver' : ρ}
variable {s s' : EltakoDevices σ}

theorem incomingEltakoData_silent (hsilent : ∀ m chunk, n ≤ m → read m ≠ .data chunk)
    (h : incomingEltakoData eltako out read turns n receiver s = some (reads,receiver',s')) :
    receiver' = receiver ∧ s' = s ∧ ∃ m, n ≤ m ∧ read m = .error eWouldBlock := by
  induction turns generalizing n with
  | zero => cases h
  | succ turns ih =>
    have hlater := fun h => @ih (n+1) (fun m chunk hm => hsilent m chunk (Nat.le_of_succ_le hm)) h
    rw [incomingEltakoData] at h
    cases hread : read n with
    | data chunk => exact absurd hread (hsilent n chunk (Nat.le_refl n))
    | endOfFile =>
      rw [hread] at h
      obtain ⟨hreceiver,hs,m,hm,hblock⟩ := hlater h
      exact ⟨hreceiver,hs,m,Nat.le_of_succ_le hm,hblock⟩
    | error errno =>
      simp only [hread] at h
      split at h
      · rename_i hblock
        cases h
        exact ⟨rfl,rfl,n,Nat.le_refl n,hblock ▸ hread⟩
      · obtain ⟨hreceiver,hs,m,hm,hblock⟩ := hlater h
        exact ⟨hreceiver,hs,m,Nat.le_of_succ_le hm,hblock⟩

theorem incomingEltakoData_blocks (hsilent : ∀ m chunk, n ≤ m → read m ≠ .data chunk) {wait : Nat}
    (hblock : read (n+wait) = .error eWouldBlock) (hturns : wait < turns) :
    ∃ reads, incomingEltakoData eltako out read turns n receiver s =
      some (reads,receiver,s) := by
  induction turns generalizing n wait with
  | zero => exact absurd hturns (Nat.not_lt_zero _)
  | succ turns ih =>
    have hlater : read n ≠ .error eWouldBlock →
        ∃ reads, incomingEltakoData eltako out read turns (n+1) receiver s =
          some (reads,receiver,s) := by
      intro hnot
      cases wait with
      | zero => exact absurd hblock hnot
      | succ wait =>
        refine ih (fun m chunk hm => hsilent m chunk (Nat.le_of_succ_le hm)) ?_
          (Nat.lt_of_succ_lt_succ hturns)
        rw [← hblock]
        congr 1
        omega
    rw [incomingEltakoData]
    cases hread : read n with
    | data chunk => exact absurd hread (hsilent n chunk (Nat.le_refl n))
    | endOfFile => exact hlater (by rw [hread]; simp)
    | error errno =>
      by_cases herrno : errno = eWouldBlock
      · exact ⟨n+1,by simp [herrno]⟩
      · simp only [if_neg herrno]
        exact hlater (by rw [hread]; simpa using herrno)

structure Delivers (read : Nat → ReadResult) (n : Nat) (chunks : List Chunk) : Prop where
  data : ∀ i chunk, chunks[i]? = some chunk → read (n+i) = .data chunk
  silent : ∀ m chunk, n+chunks.length ≤ m → read m ≠ .data chunk

theorem Delivers.tail {chunk : Chunk} {chunks : List Chunk}
    (h : Delivers read n (chunk :: chunks)) : Delivers read (n+1) chunks := by
  constructor
  · intro i c hi
    have hread := h.data (i+1) c hi
    rwa [← Nat.add_assoc,Nat.add_right_comm] at hread
  · intro m c hm
    refine h.silent m c ?_
    rw [List.length_cons]
    omega

theorem Port.delivers (port : Port) : Delivers port.read 0 port.chunks := by
  constructor
  · intro i chunk hi
    rw [Nat.zero_add,Port.read,hi]
  · intro m chunk hm
    rw [Nat.zero_add] at hm
    rw [Port.read,List.getElem?_eq_none hm]
    exact port.silent _ chunk

variable {buffered : ρ → List φ} (hlib : Drain.Lawful eltako.parseBuffer buffered)
include hlib

theorem incomingEltakoData_returned {chunks : List Chunk} (hread : Delivers read n chunks)
    (h : incomingEltakoData eltako out read turns n receiver s = some (reads,receiver',s')) :
    receiver' = chunks.foldl (receive eltako buffered) receiver ∧
      Runs.after (incomingEltakoFrame eltako out)
        (completeFrames eltako buffered receiver chunks) s = some s' ∧
      ∃ m, n+chunks.length ≤ m ∧ read m = .error eWouldBlock := by
  induction chunks generalizing n turns receiver s with
  | nil =>
    obtain ⟨rfl,rfl,hblock⟩ := incomingEltakoData_silent hread.silent h
    exact ⟨rfl,rfl,hblock⟩
  | cons chunk chunks ih =>
    cases turns with
    | zero => cases h
    | succ turns =>
      have hdata : read n = .data chunk := hread.data 0 chunk rfl
      simp only [incomingEltakoData,hdata,Option.bind_eq_bind,Option.bind_eq_some_iff] at h
      obtain ⟨⟨receiver₁,s₁⟩,hdrain,hrest⟩ := h
      obtain ⟨rfl,hframes⟩ := hlib.drain_some hdrain
      obtain ⟨hreceiver,hafter,m,hm,hblock⟩ := ih hread.tail hrest
      refine ⟨hreceiver,Runs.after_append.mpr ⟨s₁,hframes,hafter⟩,m,?_,hblock⟩
      rw [List.length_cons]
      omega

theorem incomingEltakoData_returns {chunks : List Chunk} (hread : Delivers read n chunks)
    {wait : Nat} (hblock : read (n+chunks.length+wait) = .error eWouldBlock)
    (hafter : Runs.after (incomingEltakoFrame eltako out)
      (completeFrames eltako buffered receiver chunks) s = some s') :
    ∃ enough, ∀ turns, enough ≤ turns → ∃ reads,
      incomingEltakoData eltako out read turns n receiver s =
        some (reads,chunks.foldl (receive eltako buffered) receiver,s') := by
  induction chunks generalizing n receiver s with
  | nil =>
    cases hafter
    exact ⟨wait+1,fun turns hturns => incomingEltakoData_blocks hread.silent hblock hturns⟩
  | cons chunk chunks ih =>
    obtain ⟨s₁,hframes,hrest⟩ := Runs.after_append.mp hafter
    have hlater : read (n+1+chunks.length+wait) = .error eWouldBlock := by
      rw [← hblock,List.length_cons]
      congr 1
      omega
    obtain ⟨enough,hreturns⟩ := ih hread.tail hlater hrest
    refine ⟨enough+(buffered (eltako.addData receiver chunk.bytes)).length+2,fun turns hturns => ?_⟩
    cases turns with
    | zero => exact absurd hturns (Nat.not_succ_le_zero _)
    | succ turns =>
      have hdata : read n = .data chunk := hread.data 0 chunk rfl
      have hfuel : (buffered (eltako.addData receiver chunk.bytes)).length < turns := by omega
      obtain ⟨reads,hreads⟩ := hreturns turns (by omega)
      refine ⟨reads,?_⟩
      simp only [incomingEltakoData,hdata,hlib.drain_eq hfuel,hframes,Option.map_some,
        Option.bind_eq_bind,Option.bind_some]
      exact hreads

theorem receive_empty (receiver : ρ) (chunks : List Chunk) (hreceiver : buffered receiver = []) :
    buffered (chunks.foldl (receive eltako buffered) receiver) = [] := by
  induction chunks generalizing receiver with
  | nil => exact hreceiver
  | cons chunk chunks ih => exact ih _ (hlib.emptied_items _)

theorem Yields.inv {port : Port} (h : Yields eltako buffered out port receiver s) :
    (∃ n, port.silence n = .error eWouldBlock) ∧
      ∃ s', Runs.after (incomingEltakoFrame eltako out)
        (completeFrames eltako buffered receiver port.chunks) s = some s' := by
  obtain ⟨turns,reads,receiver',s',hreturns,-,-⟩ := h
  obtain ⟨-,hafter,m,hm,hblock⟩ := incomingEltakoData_returned hlib port.delivers hreturns
  rw [Nat.zero_add] at hm
  rw [Port.read,List.getElem?_eq_none hm] at hblock
  exact ⟨⟨_,hblock⟩,s',hafter⟩

/-- The handler yields exactly at ports that end up with a read that would block, as long as what
the frames set off returns. -/
theorem eltako_yields_iff (port : Port) (receiver : ρ) (s : EltakoDevices σ) :
    Yields eltako buffered out port receiver s ↔
      (∃ n, port.silence n = .error eWouldBlock) ∧
        ∃ s', Runs.after (incomingEltakoFrame eltako out)
          (completeFrames eltako buffered receiver port.chunks) s = some s' := by
  constructor
  · intro h
    exact h.inv hlib
  · rintro ⟨⟨wait,hblock⟩,s',hafter⟩
    have hread : port.read (0+port.chunks.length+wait) = .error eWouldBlock := by
      rw [Nat.zero_add,Port.read,List.getElem?_eq_none (Nat.le_add_right _ _),
        Nat.add_sub_cancel_left]
      exact hblock
    obtain ⟨enough,hreturns⟩ := incomingEltakoData_returns hlib port.delivers hread hafter
    obtain ⟨reads,hreads⟩ := hreturns enough (Nat.le_refl enough)
    exact ⟨enough,reads,_,s',hreads,hafter,receive_empty hlib receiver port.chunks⟩

end Port

/-- A receiver that holds bytes, and takes fourteen of them for a frame. -/
def eltakoBytes : Libeltako (List UInt8) (List UInt8) (List UInt8) where
  addData bytes data := bytes ++ data
  parseBuffer bytes :=
    if 14 ≤ bytes.length then (some (bytes.take 14),bytes.drop 14) else (none,bytes)
  messageCreateFromFrame frame := some frame
  messageAddress msg := ((msg.drop 8).take 4).foldl (fun address b => address*256+b.toUInt32) 0
  messageStatus msg := (msg.getD 12 0).toNat

def bytesFrames (bytes : List UInt8) : List (List UInt8) :=
  (List.range (bytes.length/14)).map (fun i => (bytes.drop (14*i)).take 14)

theorem bytesFrames_some {bytes : List UInt8} (h : 14 ≤ bytes.length) :
    bytesFrames bytes = bytes.take 14 :: bytesFrames (bytes.drop 14) := by
  have hcount : bytes.length/14 = (bytes.drop 14).length/14+1 := by
    rw [List.length_drop]
    omega
  unfold bytesFrames
  rw [hcount,List.range_succ_eq_map,List.map_cons,List.map_map]
  congr 1
  refine List.map_congr_left (fun i _ => ?_)
  simp only [Function.comp_apply,List.drop_drop]
  congr 2
  omega

theorem eltakoBytes_lawful : Drain.Lawful eltakoBytes.parseBuffer bytesFrames := by
  have hshort : ∀ bytes : List UInt8, ¬ 14 ≤ bytes.length → bytesFrames bytes = [] := by
    intro bytes h
    unfold bytesFrames
    rw [Nat.div_eq_of_lt (Nat.lt_of_not_le h)]
    rfl
  constructor
  · intro bytes
    by_cases h : 14 ≤ bytes.length
    · simp [eltakoBytes,h,bytesFrames_some h]
    · simp [eltakoBytes,h,hshort bytes h]
  · intro bytes
    by_cases h : 14 ≤ bytes.length
    · simp [eltakoBytes,h,bytesFrames_some h]
    · simp [eltakoBytes,h,hshort bytes h]

def pressChunk : Chunk where
  bytes := [0xa5,0x5a,0x0b,0x05,0x70,0,0,0,0,0,0x10,0x01,0x30,0xc1]
  nonempty := by decide
  fits := by decide

def quietPort : Port := ⟨[pressChunk],fun _ => .error eWouldBlock,fun _ _ h => by cases h⟩

def unpluggedPort : Port := ⟨[pressChunk],fun _ => .endOfFile,fun _ _ h => by cases h⟩

def brokenPort : Port := ⟨[pressChunk],fun _ => .error 5,fun _ _ h => by cases h⟩

def quietOutside : EltakoOutside (List UInt8) (Moment EventType) :=
  ⟨fun _ => Moment.around id (fun _ => 3),fun _ => none,fun _ _ _ outside => some outside⟩

def oneButton : EltakoDevices (Moment EventType) := ⟨[none,some ⟨0x1001,0⟩],⟨1000,[]⟩⟩

theorem eltako_yields_press :
    Yields eltakoBytes bytesFrames quietOutside quietPort [] oneButton :=
  (eltako_yields_iff eltakoBytes_lawful quietPort [] oneButton).mpr ⟨⟨0,rfl⟩,_,rfl⟩

/-- The handler does not return when the adapter is gone. -/
theorem eltako_hangs :
    ¬ Yields eltakoBytes bytesFrames quietOutside unpluggedPort [] oneButton ∧
      ¬ Yields eltakoBytes bytesFrames quietOutside brokenPort [] oneButton := by
  constructor
  · intro h
    obtain ⟨⟨n,hblock⟩,-⟩ := h.inv eltakoBytes_lawful
    cases hblock
  · intro h
    obtain ⟨⟨n,hblock⟩,-⟩ := h.inv eltakoBytes_lawful
    cases hblock

end DomoticaEngine
