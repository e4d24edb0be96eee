import Mathlib.Logic.Function.Basic
import Mathlib.Data.List.Basic

/-!
Clients that send one request each over a stream of their own and read the reply, and a server
that answers whatever it reads at once. Every client that is done has had its request served as
one step of the server, between the call and the answer.
-/

set_option autoImplicit false

namespace Requests

variable {ι β σ : Type}

/-- A client connects, sends its request, and reads until nothing is left. A stranger does as it
likes. -/
inductive Phase where
  | absent | connected | waiting | reading | finished | stranger | gone
  deriving DecidableEq, Repr

inductive ServerEnd where
  | pending | registered | closed
  deriving DecidableEq, Repr

structure Channel (β : Type) where
  phase : Phase
  request : List β
  pieces : List (List β)
  toServer : List β
  toClient : List β
  server : ServerEnd

def Channel.start : Channel β := ⟨.absent,[],[],[],[],.pending⟩

/-- What the server does with the bytes of one read, what else changes its state, and how many
bytes one read takes on each side. -/
structure Service (β σ : Type) where
  serverSize : Nat
  clientSize : Nat
  serve : σ → List β → List β → σ → Prop
  idle : σ → σ → Prop

structure Network (ι β σ : Type) where
  state : σ
  channel : ι → Channel β

structure Served (ι β : Type) where
  client : ι
  read : List β
  reply : List β

def Channel.send (ch : Channel β) : Channel β :=
  { ch with phase := .waiting, toServer := ch.toServer ++ ch.request }

/-- A channel after the client has read up to `n` bytes. -/
def Channel.receive (ch : Channel β) (n : Nat) : Channel β :=
  { ch with
    phase := .reading,
    pieces := ch.pieces ++ [ch.toClient.take n],
    toClient := ch.toClient.drop n }

inductive Moves (clientSize : Nat) (ch : Channel β) : Channel β → Prop where
  | connect (request : List β) (h : ch.phase = .absent) :
      Moves clientSize ch { ch with phase := .connected, request := request }
  | send (h : ch.phase = .connected) :
      Moves clientSize ch ch.send
  | accept (h : ch.phase ≠ .absent) (hserver : ch.server = .pending) :
      Moves clientSize ch { ch with server := .registered }
  | receive (h : ch.phase = .waiting ∨ ch.phase = .reading) (hdata : ch.toClient ≠ []) :
      Moves clientSize ch (ch.receive clientSize)
  -- The first read waits. The ones after it end the client when there is nothing to read.
  | finish (h : ch.phase = .reading) (hnone : ch.toClient = []) :
      Moves clientSize ch { ch with phase := .finished }
  | refused (h : ch.phase = .waiting) (hnone : ch.toClient = []) (hserver : ch.server = .closed) :
      Moves clientSize ch { ch with phase := .finished }
  | close (h : ch.phase = .finished ∨ ch.phase = .gone) (hserver : ch.server = .registered) :
      Moves clientSize ch { ch with server := .closed }
  | intrude (h : ch.phase = .absent) : Moves clientSize ch { ch with phase := .stranger }
  | write (bytes : List β) (h : ch.phase = .stranger) :
      Moves clientSize ch { ch with toServer := ch.toServer ++ bytes }
  | read (n : Nat) (h : ch.phase = .stranger) :
      Moves clientSize ch { ch with toClient := ch.toClient.drop n }
  | leave (h : ch.phase = .stranger) : Moves clientSize ch { ch with phase := .gone }

section Steps
variable [DecidableEq ι] (service : Service β σ)

def Network.put (net : Network ι β σ) (c : ι) (ch : Channel β) (s : σ) : Network ι β σ :=
  { state := s, channel := Function.update net.channel c ch }

@[simp] theorem put_same {net : Network ι β σ} {c : ι} {ch : Channel β} {s : σ} :
    (net.put c ch s).channel c = ch := by
  simp [Network.put]

@[simp] theorem put_other {net : Network ι β σ} {c d : ι} {ch : Channel β} {s : σ} (h : d ≠ c) :
    (net.put c ch s).channel d = net.channel d := by
  simp [Network.put,h]

/-- A channel after the server has read up to `n` bytes and answered. -/
def Channel.answer (ch : Channel β) (n : Nat) (reply : List β) : Channel β :=
  { ch with toServer := ch.toServer.drop n, toClient := ch.toClient ++ reply }

inductive Step (net : Network ι β σ) : List (Served ι β) → Network ι β σ → Prop where
  | idle {s : σ} (h : service.idle net.state s) : Step net [] { net with state := s }
  | move (c : ι) {ch : Channel β} (h : Moves service.clientSize (net.channel c) ch) :
      Step net [] (net.put c ch net.state)
  | serve (c : ι) {reply : List β} {s : σ} (hserver : (net.channel c).server = .registered)
      (hdata : (net.channel c).toServer ≠ [])
      (h : service.serve net.state ((net.channel c).toServer.take service.serverSize) reply s) :
      Step net [⟨c,(net.channel c).toServer.take service.serverSize,reply⟩]
        (net.put c ((net.channel c).answer service.serverSize reply) s)

inductive Run : Network ι β σ → List (Served ι β) → Network ι β σ → Prop where
  | nil {net : Network ι β σ} : Run net [] net
  | cons {net net₁ net' : Network ι β σ} {served served' : List (Served ι β)}
      (hstep : Step service net served net₁) (hrest : Run net₁ served' net') :
      Run net (served ++ served') net'

end Steps

inductive Atomic (service : Service β σ) : σ → List (Served ι β) → σ → Prop where
  | nil {s : σ} : Atomic service s [] s
  | idle {s s₁ s' : σ} {served : List (Served ι β)} (h : service.idle s s₁)
      (hrest : Atomic service s₁ served s') : Atomic service s served s'
  | serve {s s₁ s' : σ} {op : Served ι β} {served : List (Served ι β)}
      (h : service.serve s op.read op.reply s₁) (hrest : Atomic service s₁ served s') :
      Atomic service s (op :: served) s'

section Points
variable {service : Service β σ} {served served₁ : List (Served ι β)}

theorem Atomic.append {s s₁ s' : σ} (h : Atomic service s served s₁)
    (h' : Atomic service s₁ served₁ s') : Atomic service s (served ++ served₁) s' := by
  induction h with
  | nil => exact h'
  | idle h _ ih => exact .idle h (ih h')
  | serve h _ ih => exact .serve h (ih h')

theorem Atomic.next {s s' : σ} {op : Served ι β} (h : Atomic service s (op :: served) s') :
    ∃ q q', Atomic service s ([] : List (Served ι β)) q ∧ service.serve q op.read op.reply q' ∧
      Atomic service q' served s' := by
  generalize hops : op :: served = ops at h
  induction h with
  | nil => cases hops
  | idle hidle _ ih =>
    obtain ⟨q,q',hbefore,hserve,hrest⟩ := ih hops
    exact ⟨q,q',.idle hidle hbefore,hserve,hrest⟩
  | serve hserve hrest =>
    cases hops
    exact ⟨_,_,.nil,hserve,hrest⟩

end Points

section Ledgers
variable [DecidableEq ι] {n m : Nat} {ch ch' : Channel β} {done : List (List β × List β)}

def mine (c : ι) (served : List (Served ι β)) : List (List β × List β) :=
  (served.filter (fun op => op.client = c)).map (fun op => (op.read,op.reply))

theorem mine_append (c : ι) (served served' : List (Served ι β)) :
    mine c (served ++ served') = mine c served ++ mine c served' := by
  simp [mine]

theorem mine_same (c : ι) (read reply : List β) :
    mine c [⟨c,read,reply⟩] = [(read,reply)] := by simp [mine]

theorem mine_other {c d : ι} (h : d ≠ c) (read reply : List β) :
    mine c [⟨d,read,reply⟩] = [] := by simp [mine,h]

structure Untouched (ch : Channel β) (done : List (List β × List β)) : Prop where
  done : done = []
  toServer : ch.toServer = []
  toClient : ch.toClient = []
  pieces : ch.pieces = []
  server : ch.server ≠ .closed

structure Unserved (ch : Channel β) (done : List (List β × List β)) : Prop where
  done : done = []
  toServer : ch.toServer = ch.request
  toClient : ch.toClient = []

structure Answered (ch : Channel β) (done : List (List β × List β)) : Prop where
  done : done = [(ch.request,ch.pieces.flatten ++ ch.toClient)]
  toServer : ch.toServer = []

/-- What the server has done for a client, by what the client has done. The server takes up to `n`
bytes in one read. -/
def Ledger (n : Nat) (ch : Channel β) (done : List (List β × List β)) : Prop :=
  match ch.phase with
  | .absent | .connected => Untouched ch done
  | .waiting =>
    ch.request.length ≤ n →
      ch.server ≠ .closed ∧ ch.pieces = [] ∧ (Unserved ch done ∨ Answered ch done)
  | .reading => ch.request.length ≤ n → Answered ch done
  | .finished => ch.request.length ≤ n → Answered ch done ∧ ch.toClient = []
  | .stranger | .gone => True

theorem Ledger.of_waiting (h : Ledger n ch done) (hphase : ch.phase = .waiting)
    (hfits : ch.request.length ≤ n) :
    ch.server ≠ .closed ∧ ch.pieces = [] ∧ (Unserved ch done ∨ Answered ch done) := by
  rw [Ledger,hphase] at h
  exact h hfits

theorem Ledger.of_connected (h : Ledger n ch done)
    (hphase : ch.phase = .absent ∨ ch.phase = .connected) :
    Untouched ch done := by
  rcases hphase with hphase | hphase <;>
  · rw [Ledger,hphase] at h
    exact h

theorem Ledger.answered (h : Ledger n ch done)
    (hphase : ch.phase = .waiting ∨ ch.phase = .reading) (hfits : ch.request.length ≤ n)
    (hdata : ch.toClient ≠ []) : Answered ch done := by
  rcases hphase with hphase | hphase
  · obtain ⟨-,-,hunserved | hanswered⟩ := h.of_waiting hphase hfits
    · exact absurd hunserved.toClient hdata
    · exact hanswered
  · rw [Ledger,hphase] at h
    exact h hfits

theorem Ledger.with_server (h : Ledger n ch done) {server : ServerEnd} (hopen : server ≠ .closed) :
    Ledger n { ch with server := server } done := by
  unfold Ledger at h ⊢
  cases hphase : ch.phase with
  | absent | connected =>
    simp only [hphase] at h
    exact ⟨h.done,h.toServer,h.toClient,h.pieces,hopen⟩
  | waiting =>
    simp only [hphase] at h
    intro hfits
    exact ⟨hopen,(h hfits).2.1,(h hfits).2.2.imp (fun h => ⟨h.done,h.toServer,h.toClient⟩)
      (fun h => ⟨h.done,h.toServer⟩)⟩
  | reading =>
    simp only [hphase] at h
    exact fun hfits => ⟨(h hfits).done,(h hfits).toServer⟩
  | finished =>
    simp only [hphase] at h
    exact fun hfits => ⟨⟨(h hfits).1.done,(h hfits).1.toServer⟩,(h hfits).2⟩
  | stranger | gone => trivial

theorem Ledger.moves (h : Ledger n ch done) (hmove : Moves m ch ch') : Ledger n ch' done := by
  cases hmove with
  | connect request hphase =>
    have huntouched := h.of_connected (.inl hphase)
    exact ⟨huntouched.done,huntouched.toServer,huntouched.toClient,huntouched.pieces,
      huntouched.server⟩
  | send hphase =>
    have huntouched := h.of_connected (.inr hphase)
    intro _
    refine ⟨huntouched.server,huntouched.pieces,.inl ⟨huntouched.done,?_,huntouched.toClient⟩⟩
    rw [Channel.send,huntouched.toServer,List.nil_append]
  | accept hphase hserver => exact h.with_server (by simp)
  | receive hphase hdata =>
    intro hfits
    obtain ⟨hdone,hempty⟩ := h.answered hphase hfits hdata
    refine ⟨?_,hempty⟩
    simp [Channel.receive,hdone]
  | finish hphase hnone =>
    rw [Ledger,hphase] at h
    exact fun hfits => ⟨⟨(h hfits).done,(h hfits).toServer⟩,hnone⟩
  | refused hphase hnone hserver =>
    intro hfits
    exact absurd hserver (h.of_waiting hphase hfits).1
  | close hphase hserver =>
    rcases hphase with hphase | hphase
    · rw [Ledger,hphase] at h
      simp only [Ledger,hphase]
      exact fun hfits => ⟨⟨(h hfits).1.done,(h hfits).1.toServer⟩,(h hfits).2⟩
    · simp [Ledger,hphase]
  | intrude hphase => trivial
  | write bytes hphase => simp [Ledger,hphase]
  | read n hphase => simp [Ledger,hphase]
  | leave hphase => trivial

theorem Ledger.served (h : Ledger n ch done) (hdata : ch.toServer ≠ []) (reply : List β) :
    Ledger n (ch.answer n reply) (done ++ [(ch.toServer.take n,reply)]) := by
  unfold Ledger at h ⊢
  unfold Channel.answer
  cases hphase : ch.phase with
  | absent | connected =>
    simp only [hphase] at h
    exact absurd h.toServer hdata
  | waiting =>
    simp only [hphase] at h
    intro hfits
    obtain ⟨hopen,hpieces,hunserved | hanswered⟩ := h hfits
    · refine ⟨hopen,hpieces,.inr ⟨?_,?_⟩⟩
      · simp only [hunserved.done,hunserved.toServer,hunserved.toClient,hpieces,
          List.take_of_length_le hfits,List.nil_append,List.flatten_nil]
      · simp only [hunserved.toServer,List.drop_of_length_le hfits]
    · exact absurd hanswered.toServer hdata
  | reading =>
    simp only [hphase] at h
    exact fun hfits => absurd (h hfits).toServer hdata
  | finished =>
    simp only [hphase] at h
    exact fun hfits => absurd (h hfits).1.toServer hdata
  | stranger | gone => trivial

end Ledgers

section Linearisation
variable [DecidableEq ι] {service : Service β σ} {net net₁ net' : Network ι β σ}
  {served served₁ : List (Served ι β)} {m : Nat} {ch ch' : Channel β}
  {done : List (List β × List β)}

def Network.InOrder (service : Service β σ) (net : Network ι β σ) (served : List (Served ι β)) :
    Prop :=
  ∀ c, Ledger service.serverSize (net.channel c) (mine c served)

theorem inOrder_start (s : σ) :
    (⟨s,fun _ => .start⟩ : Network ι β σ).InOrder service [] :=
  fun _ => ⟨rfl,rfl,rfl,rfl,by simp [Channel.start]⟩

theorem Step.inOrder (hstep : Step service net served₁ net') (h : net.InOrder service served) :
    net'.InOrder service (served ++ served₁) := by
  intro d
  rw [mine_append]
  cases hstep with
  | idle _ =>
    have hsame : mine d ([] : List (Served ι β)) = [] := rfl
    rw [hsame,List.append_nil]
    exact h d
  | move c hmove =>
    have hsame : mine d ([] : List (Served ι β)) = [] := rfl
    rw [hsame,List.append_nil]
    by_cases hd : d = c
    · subst hd
      rw [put_same]
      exact (h d).moves hmove
    · rw [put_other hd]
      exact h d
  | serve c _ hdata _ =>
    by_cases hd : d = c
    · subst hd
      rw [put_same,mine_same]
      exact (h d).served hdata _
    · rw [put_other hd,mine_other (Ne.symm hd),List.append_nil]
      exact h d

/-- Induction on the run. -/
theorem Run.inOrder (hrun : Run service net served₁ net') (h : net.InOrder service served) :
    net'.InOrder service (served ++ served₁) := by
  induction hrun generalizing served with
  | nil => rwa [List.append_nil]
  | cons hstep _ ih =>
    rw [← List.append_assoc]
    exact ih (hstep.inOrder h)

theorem Run.atomic (hrun : Run service net served net') :
    Atomic service net.state served net'.state := by
  induction hrun with
  | nil => exact .nil
  | cons hstep _ ih =>
    cases hstep with
    | idle h => exact .idle h ih
    | move c h => exact ih
    | serve c _ _ h => exact .serve h ih

theorem Run.append (hrun : Run service net served net₁) (hrun' : Run service net₁ served₁ net') :
    Run service net (served ++ served₁) net' := by
  induction hrun with
  | nil => exact hrun'
  | cons hstep _ ih =>
    rw [List.append_assoc]
    exact .cons hstep (ih hrun')

theorem Moves.finished (hmove : Moves m ch ch') (h : ch.phase = .finished) :
    ch'.phase = .finished ∧ ch'.request = ch.request ∧ ch'.pieces = ch.pieces := by
  cases hmove with
  | accept _ _ => exact ⟨h,rfl,rfl⟩
  | close _ _ => exact ⟨h,rfl,rfl⟩
  | receive hphase _ => rcases hphase with hphase | hphase <;> cases h.symm.trans hphase
  | connect _ hphase | send hphase | finish hphase _ | refused hphase _ _ | intrude hphase
  | write _ hphase | read _ hphase | leave hphase => cases h.symm.trans hphase

theorem Step.finished (hstep : Step service net served net') {c : ι}
    (h : (net.channel c).phase = .finished) :
    (net'.channel c).phase = .finished ∧ (net'.channel c).request = (net.channel c).request ∧
      (net'.channel c).pieces = (net.channel c).pieces := by
  cases hstep with
  | idle _ => exact ⟨h,rfl,rfl⟩
  | move d hmove =>
    by_cases hd : c = d
    · subst hd
      rw [put_same]
      exact hmove.finished h
    · rw [put_other hd]
      exact ⟨h,rfl,rfl⟩
  | serve d _ _ _ =>
    by_cases hd : c = d
    · subst hd
      rw [put_same]
      exact ⟨h,rfl,rfl⟩
    · rw [put_other hd]
      exact ⟨h,rfl,rfl⟩

theorem Run.finished (hrun : Run service net served net') {c : ι}
    (h : (net.channel c).phase = .finished) :
    (net'.channel c).phase = .finished ∧ (net'.channel c).request = (net.channel c).request := by
  induction hrun with
  | nil => exact ⟨h,rfl⟩
  | cons hstep _ ih =>
    obtain ⟨hphase,hrequest,-⟩ := hstep.finished h
    obtain ⟨hphase',hrequest'⟩ := ih hphase
    exact ⟨hphase',hrequest'.trans hrequest⟩

theorem Ledger.of_finished (h : Ledger m ch done) (hphase : ch.phase = .finished)
    (hfits : ch.request.length ≤ m) : done = [(ch.request,ch.pieces.flatten)] := by
  rw [Ledger,hphase] at h
  rw [(h hfits).1.done,(h hfits).2,List.append_nil]

theorem Ledger.once (h : Ledger m ch done)
    (hphase : ch.phase ≠ .stranger ∧ ch.phase ≠ .gone) (hfits : ch.request.length ≤ m) :
    done = [] ∨ ∃ reply, done = [(ch.request,reply)] := by
  unfold Ledger at h
  cases hcase : ch.phase with
  | absent | connected =>
    simp only [hcase] at h
    exact .inl h.done
  | waiting =>
    simp only [hcase] at h
    exact (h hfits).2.2.imp Unserved.done (fun hanswered => ⟨_,hanswered.done⟩)
  | reading =>
    simp only [hcase] at h
    exact .inr ⟨_,(h hfits).done⟩
  | finished =>
    simp only [hcase] at h
    exact .inr ⟨_,(h hfits).1.done⟩
  | stranger => exact absurd hcase hphase.1
  | gone => exact absurd hcase hphase.2

/-- The point at which the only request of a client is served. -/
theorem Atomic.point {s s' : σ} (h : Atomic service s served s') {c : ι} {read reply : List β}
    (honce : mine c served = [(read,reply)]) :
    ∃ before after q q', served = before ++ ⟨c,read,reply⟩ :: after ∧ mine c before = [] ∧
      mine c after = [] ∧ Atomic service s before q ∧ service.serve q read reply q' ∧
      Atomic service q' after s' := by
  induction served generalizing s with
  | nil => cases honce
  | cons op served ih =>
    obtain ⟨q,q',hidle,hserve,hrest⟩ := h.next
    obtain ⟨client,read',reply'⟩ := op
    by_cases hc : client = c
    · subst hc
      have hmine : mine client (⟨client,read',reply'⟩ :: served) =
          (read',reply') :: mine client served := by simp [mine]
      obtain ⟨hop,hafter⟩ := List.cons.inj (hmine.symm.trans honce)
      obtain ⟨rfl,rfl⟩ := Prod.mk.inj hop
      exact ⟨[],served,q,q',rfl,rfl,hafter,hidle,hserve,hrest⟩
    · have hmine : mine c (⟨client,read',reply'⟩ :: served) = mine c served := by
        simp [mine,hc]
      obtain ⟨before,after,q₁,q₂,hserved,hbefore,hafter,hfirst,hpoint,hlast⟩ :=
        ih hrest (hmine.symm.trans honce)
      refine ⟨_ :: before,after,q₁,q₂,?_,?_,hafter,hidle.append (.serve hserve hfirst),hpoint,hlast⟩
      · rw [hserved,List.cons_append]
      · rw [← hbefore]
        simp [mine,hc]

/-- In every run the server does nothing but the requests, one after the other. A client's request
is served at most once, not before it is sent and not after the client is done, and what a client
has read when it is done is the whole reply. -/
theorem linearised {s : σ} (hrun₁ : Run service ⟨s,fun _ => .start⟩ served net₁)
    (hrun₂ : Run service net₁ served₁ net') :
    Atomic service s served net₁.state ∧ Atomic service net₁.state served₁ net'.state ∧
    ∀ c, (net'.channel c).phase ≠ .stranger → (net'.channel c).phase ≠ .gone →
      (net'.channel c).request.length ≤ service.serverSize →
      ((net₁.channel c).phase = .absent ∨ (net₁.channel c).phase = .connected →
        mine c served = []) ∧
      ((net₁.channel c).phase = .finished → mine c served₁ = []) ∧
      (mine c (served ++ served₁) = [] ∨
        ∃ reply, mine c (served ++ served₁) = [((net'.channel c).request,reply)]) ∧
      ((net'.channel c).phase = .finished → mine c (served ++ served₁) =
        [((net'.channel c).request,(net'.channel c).pieces.flatten)]) := by
  have hnet₁ : net₁.InOrder service served := hrun₁.inOrder (inOrder_start s)
  have hnet' := hrun₂.inOrder hnet₁
  refine ⟨hrun₁.atomic,hrun₂.atomic,fun c hstranger hgone hfits => ⟨fun hphase => ?_,
    fun hphase => ?_,(hnet' c).once ⟨hstranger,hgone⟩ hfits,fun hphase => ?_⟩⟩
  · exact ((hnet₁ c).of_connected hphase).done
  · obtain ⟨hphase',hrequest⟩ := hrun₂.finished hphase
    have hfirst := (hnet₁ c).of_finished hphase (hrequest ▸ hfits)
    have hall := (hnet' c).of_finished hphase' hfits
    rw [mine_append,hfirst] at hall
    exact (List.cons.inj hall).2
  · exact (hnet' c).of_finished hphase hfits

theorem reads_on (hsize : 0 < service.clientSize) {c : ι}
    (hphase : (net.channel c).phase = .reading) :
    ∃ net', Run service net [] net' ∧ (net'.channel c).phase = .finished := by
  induction hn : (net.channel c).toClient.length using Nat.strongRecOn generalizing net with
  | ind n ih =>
    by_cases hnone : (net.channel c).toClient = []
    · exact ⟨_,.cons (.move c (.finish hphase hnone)) .nil,by rw [put_same]⟩
    · have hless : ((net.channel c).toClient.drop service.clientSize).length < n := by
        have hpos := List.length_pos_iff.mpr hnone
        rw [List.length_drop]
        omega
      have hchannel : (net.put c ((net.channel c).receive service.clientSize)
          net.state).channel c = (net.channel c).receive service.clientSize := put_same
      obtain ⟨net',hrun,hfinished⟩ := ih _ hless (by rw [hchannel]; rfl) (by rw [hchannel]; rfl)
      exact ⟨net',.cons (.move c (.receive (.inr hphase) hnone)) hrun,hfinished⟩

theorem reads_all (hsize : 0 < service.clientSize) {c : ι}
    (hphase : (net.channel c).phase = .waiting) (hdata : (net.channel c).toClient ≠ []) :
    ∃ net', Run service net [] net' ∧ (net'.channel c).phase = .finished := by
  have hreading : ((net.put c ((net.channel c).receive service.clientSize)
      net.state).channel c).phase = .reading := by rw [put_same]; rfl
  obtain ⟨net',hrun,hfinished⟩ := reads_on hsize hreading
  exact ⟨net',.cons (.move c (.receive (.inl hphase) hdata)) hrun,hfinished⟩

theorem accepted {c : ι} (hphase : (net.channel c).phase ≠ .absent)
    (hopen : (net.channel c).server ≠ .closed) :
    ∃ net₁, Run service net [] net₁ ∧ net₁.state = net.state ∧
      net₁.channel c = { net.channel c with server := .registered } := by
  cases hserver : (net.channel c).server with
  | pending => exact ⟨_,.cons (.move c (.accept hphase hserver)) .nil,rfl,put_same⟩
  | registered => exact ⟨net,.nil,rfl,by rw [← hserver]⟩
  | closed => exact absurd hserver hopen

theorem serves_waiting (hsize : 0 < service.clientSize) {c : ι} {reply : List β} {s : σ}
    (hphase : (net.channel c).phase = .waiting) (hopen : (net.channel c).server ≠ .closed)
    (hrequest : (net.channel c).toServer = (net.channel c).request)
    (hdata : (net.channel c).request ≠ [])
    (hfits : (net.channel c).request.length ≤ service.serverSize)
    (hserve : service.serve net.state (net.channel c).request reply s) (hreply : reply ≠ []) :
    ∃ served net', Run service net served net' ∧ (net'.channel c).phase = .finished := by
  have hthere : (net.channel c).phase ≠ .absent := by simp [hphase]
  obtain ⟨net₁,hrun,hstate,hchannel⟩ := @accepted _ _ _ _ service net c hthere hopen
  have hread : (net₁.channel c).toServer.take service.serverSize = (net.channel c).request := by
    rw [hchannel,hrequest,List.take_of_length_le hfits]
  have hstep : Step service net₁ _ _ := .serve c (by rw [hchannel])
    (by rw [hchannel,hrequest]; exact hdata) (by rw [hstate,hread]; exact hserve)
  have hput : (net₁.put c ((net₁.channel c).answer service.serverSize reply) s).channel c =
      (net₁.channel c).answer service.serverSize reply := put_same
  obtain ⟨net',hrest,hfinished⟩ := reads_all hsize (by rw [hput,hchannel]; exact hphase)
    (by rw [hput,Channel.answer]; exact List.append_ne_nil_of_right_ne_nil _ hreply)
  exact ⟨_,net',hrun.append (.cons hstep hrest),hfinished⟩

/-- No request is lost: whatever has happened, a client that is there can be answered and read the
reply to the end, by steps of its own and of the server. -/
theorem completes {s : σ} (hrun : Run service ⟨s,fun _ => .start⟩ served net)
    (hsize : 0 < service.clientSize) {c : ι}
    (hphase : (net.channel c).phase = .connected ∨ (net.channel c).phase = .waiting ∨
      (net.channel c).phase = .reading)
    (hdata : (net.channel c).request ≠ [])
    (hfits : (net.channel c).request.length ≤ service.serverSize)
    (hreplies : ∀ s read reply s', service.serve s read reply s' → reply ≠ [])
    (hserve : mine c served = [] →
      ∃ reply s', service.serve net.state (net.channel c).request reply s') :
    ∃ served' net', Run service net served' net' ∧ (net'.channel c).phase = .finished := by
  have hledger : Ledger service.serverSize (net.channel c) (mine c served) :=
    hrun.inOrder (inOrder_start s) c
  rcases hphase with hphase | hphase | hphase
  · have huntouched := hledger.of_connected (.inr hphase)
    obtain ⟨reply,s',hserve⟩ := hserve huntouched.done
    have hrequest : (net.channel c).send.toServer = (net.channel c).request := by
      rw [Channel.send,huntouched.toServer,List.nil_append]
    have hput : (net.put c (net.channel c).send net.state).channel c = (net.channel c).send :=
      put_same
    obtain ⟨served',net',hrest,hfinished⟩ := serves_waiting hsize (by rw [hput]; rfl)
      (by rw [hput]; exact huntouched.server) (by rw [hput]; exact hrequest)
      (by rw [hput]; exact hdata) (by rw [hput]; exact hfits) (by rw [hput]; exact hserve)
      (hreplies _ _ _ _ hserve)
    exact ⟨_,net',.cons (.move c (.send hphase)) hrest,hfinished⟩
  · obtain ⟨hopen,hpieces,hunserved | hanswered⟩ := hledger.of_waiting hphase hfits
    · obtain ⟨reply,s',hserve⟩ := hserve hunserved.done
      exact serves_waiting hsize hphase hopen hunserved.toServer hdata hfits hserve
        (hreplies _ _ _ _ hserve)
    · obtain ⟨_,_,q,q',-,-,-,-,hserved,-⟩ := hrun.atomic.point hanswered.done
      have hreply := hreplies _ _ _ _ hserved
      rw [hpieces] at hreply
      obtain ⟨net',hrest,hfinished⟩ := reads_all hsize hphase hreply
      exact ⟨[],net',hrest,hfinished⟩
  · obtain ⟨net',hrest,hfinished⟩ := reads_on hsize hphase
    exact ⟨[],net',hrest,hfinished⟩

end Linearisation

end Requests
