import DomoticaEngine.Engine
import DomoticaEngine.Library.Framing
import DomoticaEngine.RuleParser

/-!
The remote connections: commands arrive as a stream of bytes, and every read that has data
is one call of `handle_command`.
-/

set_option autoImplicit false

namespace DomoticaEngine
open Framing

/-- `handle_command`, for what it does to the devices: `STATE` and `LOGS` only read them. -/
def handleCommand (trigger : Trigger) (devices : List Device) (buf : CString) (w : World) :
    Except Fault (Option World) := do
  match ← lineParse buf with
  | none => return some w
  | some ln =>
    if ln.statement = .do_ then
      match lineLookup actionTypeFromChar devices ln with
      | none => return some w
      | some (device,type) =>
        match ← actionCreate devices device type ln.options with
        | none => return some w
        | some action => return actionExecute trigger action none w
    else return some w

/-- The buffer of 128 bytes is cleared before each read, and one byte stays NUL. -/
def remoteBuffer : Nat := 128

section Connection
variable {σ : Type} (handleCommand : CString → σ → σ)

/-- `handle_incoming_conn_event`, for the bytes that `eu_socket_read` gives. Without any the
connection is closed. -/
def handleIncomingConnEvent (read : List Char) (s : σ) : σ :=
  if read = [] then s else handleCommand (cString read) s

def connection (reads : List (List Char)) (s : σ) : σ :=
  reads.foldl (fun s read => handleIncomingConnEvent handleCommand read s) s

end Connection

structure Arrives (bytes : List Char) (reads : List (List Char)) : Prop where
  data : ∀ read ∈ reads, read ≠ []
  fits : ∀ read ∈ reads, read.length ≤ remoteBuffer-1
  all : reads.flatten = bytes

def endsCommand (c : Char) : Bool := c = nul || c = '\n'

structure Command (m : Message Char) : Prop where
  valid : m.Valid endsCommand
  fits : m.text.length ≤ remoteBuffer-2

/-- The text of a command in a buffer: the line parser drops a newline at the end. -/
def commandText (buf : CString) : CString :=
  if buf.getLast? = some '\n' then buf.dropLast else buf

/-- The calls of `handle_command`. -/
def calls (reads : List (List Char)) : List CString :=
  connection (fun buf calls => calls ++ [buf]) reads []

section Reads
variable {σ : Type}

theorem connection_calls (handle : CString → σ → σ) {reads : List (List Char)}
    (hdata : ∀ read ∈ reads, read ≠ []) (s : σ) :
    connection handle reads s = reads.foldl (fun s read => handle (cString read) s) s := by
  induction reads generalizing s with
  | nil => rfl
  | cons read reads ih =>
    have hread := hdata read (by simp)
    simp only [connection,List.foldl_cons,handleIncomingConnEvent,if_neg hread]
    exact ih (fun r hr => hdata r (by simp [hr])) _

theorem calls_eq {reads : List (List Char)} (hdata : ∀ read ∈ reads, read ≠ []) :
    calls reads = reads.map cString := by
  have happend : ∀ (reads : List (List Char)) (done : List CString),
      reads.foldl (fun calls read => calls ++ [cString read]) done = done ++ reads.map cString := by
    intro reads
    induction reads with
    | nil => simp
    | cons read reads ih =>
      intro done
      rw [List.foldl_cons,ih]
      simp
  rw [calls,connection_calls _ hdata,happend]
  rfl

end Reads

section Texts

theorem cString_sent {m : Message Char} (hm : m.Valid endsCommand) :
    commandText (cString m.sent) = m.text := by
  have hnul : ∀ c ∈ m.text, c ≠ nul := by
    rintro c hc rfl
    have hstop := hm.text _ hc
    simp [endsCommand] at hstop
  have htake : cString m.sent = m.text ++ cString [m.stop] := by
    rw [cString,Message.sent,List.takeWhile_append_of_pos (by simpa using hnul)]
    rfl
  rw [htake]
  have hstop := hm.stop
  simp only [endsCommand,Bool.or_eq_true,decide_eq_true_eq] at hstop
  rcases hstop with hstop | hstop
  · have hlast : m.text.getLast? ≠ some '\n' := by
      intro hlast
      have hnewline := hm.text _ (List.mem_of_getLast? hlast)
      simp [endsCommand] at hnewline
    simp [hstop,cString,commandText,hlast]
  · have hne : '\n' ≠ nul := by decide
    simp [hstop,cString,commandText,hne]

theorem commandText_front (buf : CString) : commandText buf <+: buf := by
  unfold commandText
  split
  · exact List.dropLast_prefix buf
  · exact List.prefix_refl buf

theorem texts_start : Starts endsCommand (fun read => commandText (cString read)) :=
  fun _ _ _ => (commandText_front _).trans (List.takeWhile_prefix _)

theorem lineCleanup_text {m : Message Char} (hm : m.Valid endsCommand) (hne : m.text ≠ []) :
    lineCleanup (cString m.sent) = lineCleanup m.text := by
  have htext := cString_sent hm
  have hlast : m.text.getLast? ≠ some '\n' := by
    intro hlast
    have hnewline := hm.text _ (List.mem_of_getLast? hlast)
    simp [endsCommand] at hnewline
  have hbuf : cString m.sent ≠ [] := by
    intro hnil
    rw [hnil] at htext
    exact hne (by simpa [commandText] using htext.symm)
  have hcleanup : ∀ buf : CString, buf ≠ [] → lineCleanup buf = .ok (commandText buf) := by
    intro buf hbuf
    unfold lineCleanup commandText
    rw [if_neg hbuf]
    split <;> rfl
  rw [hcleanup _ hbuf,htext,hcleanup _ hne,commandText,if_neg hlast]

end Texts

/-- Every read is one call, with what the buffer holds. So each command is one call of its
own, in order, when each read is one command with its end; and for commands that are not
empty only then. -/
theorem remote_calls (commands : List (Message Char)) (hcommands : ∀ m ∈ commands, Command m)
    (reads : List (List Char)) (hreads : Arrives (stream commands) reads) :
    (∀ (σ : Type) (handle : CString → σ → σ) (s : σ), connection handle reads s =
        reads.foldl (fun s read => handle (cString read) s) s) ∧
      (reads = commands.map Message.sent →
        (calls reads).map commandText = commands.map Message.text) ∧
      ((∀ m ∈ commands, m.text ≠ []) →
        (calls reads).map commandText = commands.map Message.text →
          reads = commands.map Message.sent) := by
  have htexts : (calls reads).map commandText =
      reads.map (fun read => commandText (cString read)) := by
    rw [calls_eq hreads.data,List.map_map]
    rfl
  refine ⟨fun σ handle s => connection_calls handle hreads.data s,?_,?_⟩
  · intro hsame
    rw [htexts,hsame,List.map_map]
    exact List.map_congr_left (fun m hm => cString_sent (hcommands m hm).valid)
  · intro hne heq
    rw [htexts] at heq
    exact reads_of_texts texts_start (fun m hm => ⟨(hcommands m hm).valid,hne m hm⟩) hreads.data
      hreads.all heq

def setA : Message Char := ⟨"DO a SET".toList,nul⟩
def setB : Message Char := ⟨"DO b SET".toList,'\n'⟩

theorem set_commands : ∀ m ∈ [setA,setB], Command m := by
  intro m hm
  simp only [List.mem_cons,List.not_mem_nil,or_false] at hm
  rcases hm with rfl | rfl
  · have htext : setA.text.all (fun c => !endsCommand c) = true := rfl
    exact ⟨⟨by simpa using htext,rfl⟩,by decide⟩
  · have htext : setB.text.all (fun c => !endsCommand c) = true := rfl
    exact ⟨⟨by simpa using htext,rfl⟩,by decide⟩

theorem remote_calls_set :
    (calls [setA.sent,setB.sent]).map commandText = ["DO a SET".toList,"DO b SET".toList] :=
  (remote_calls [setA,setB] set_commands [setA.sent,setB.sent]
    ⟨by decide,by decide,by decide⟩).2.1 rfl

/-- Two commands in one read are one call, with the text of the first. -/
theorem remote_command_lost :
    (∀ m ∈ [setA,setB], Command m) ∧
      Arrives (stream [setA,setB]) [stream [setA,setB]] ∧
      calls [stream [setA,setB]] = [setA.text] ∧
      (calls [stream [setA,setB]]).map commandText ≠ [setA,setB].map Message.text :=
  ⟨set_commands,⟨by decide,by decide,by decide⟩,by decide,by decide⟩

end DomoticaEngine
