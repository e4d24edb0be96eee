import DomoticaEngine.CLib

set_option autoImplicit false

namespace DomoticaEngine

inductive TimerCallback where
  | fsb14Timer | tmrTimeout
  deriving DecidableEq, Repr

structure Timer where
  delay : Nat
  callback : TimerCallback
  arg : DeviceId
  deriving DecidableEq, Repr

inductive LoopCall where
  | create (id : Nat) (timer : Timer)
  | destroy (id : Nat)
  | stop (id : Nat)
  deriving DecidableEq, Repr

def Named : List LoopCall → Prop
  | [] => True
  | .create id _ :: calls => id = calls.length ∧ Named calls
  | _ :: calls => Named calls

/-- What the engine asks of libeu's timers and what becomes of them, newest call
first: `stop` is a callback that returned false. The number of earlier calls names
a new timer, so a name is never used again. -/
structure EventLoop where
  calls : List LoopCall
  named : Named calls

def EventLoop.start : EventLoop := ⟨[],trivial⟩

def euEventTimerCreate (loop : EventLoop) (timer : Timer) : Nat × EventLoop :=
  (loop.calls.length,⟨.create loop.calls.length timer :: loop.calls,rfl,loop.named⟩)

def euEventTimerDestroy (loop : EventLoop) (id : Nat) : EventLoop :=
  ⟨.destroy id :: loop.calls,loop.named⟩

def EventLoop.stop (loop : EventLoop) (id : Nat) : EventLoop :=
  ⟨.stop id :: loop.calls,loop.named⟩

def pendingIn : List LoopCall → Nat → Option Timer
  | [], _ => none
  | .create id timer :: calls, t => if t = id then some timer else pendingIn calls t
  | .destroy id :: calls, t => if t = id then none else pendingIn calls t
  | .stop id :: calls, t => if t = id then none else pendingIn calls t

/-- A timer is pending from its creation until it is destroyed or its callback
returns false. -/
def EventLoop.pending (loop : EventLoop) (t : Nat) : Option Timer := pendingIn loop.calls t

theorem pendingIn_lt {calls : List LoopCall} (h : Named calls) {t : Nat} {timer : Timer}
    (ht : pendingIn calls t = some timer) : t < calls.length := by
  induction calls with
  | nil => simp [pendingIn] at ht
  | cons call calls ih =>
    simp only [List.length_cons]
    cases call with
    | create id tm =>
      obtain ⟨hid,hn⟩ := h
      by_cases heq : t = id
      · omega
      · have hlt := ih hn (by simpa [pendingIn,heq] using ht)
        omega
    | destroy id =>
      by_cases heq : t = id
      · simp [pendingIn,heq] at ht
      · have hlt := ih h (by simpa [pendingIn,heq] using ht)
        omega
    | stop id =>
      by_cases heq : t = id
      · simp [pendingIn,heq] at ht
      · have hlt := ih h (by simpa [pendingIn,heq] using ht)
        omega

theorem EventLoop.pending_lt {loop : EventLoop} {t : Nat} {timer : Timer}
    (h : loop.pending t = some timer) : t < loop.calls.length := pendingIn_lt loop.named h

@[simp] theorem start_pending (t : Nat) : EventLoop.start.pending t = none := rfl

@[simp] theorem create_fst (loop : EventLoop) (timer : Timer) :
    (euEventTimerCreate loop timer).1 = loop.calls.length := rfl

theorem create_pending (loop : EventLoop) (timer : Timer) (t : Nat) :
    (euEventTimerCreate loop timer).2.pending t =
      if t = loop.calls.length then some timer else loop.pending t := rfl

theorem destroy_pending (loop : EventLoop) (id t : Nat) :
    (euEventTimerDestroy loop id).pending t = if t = id then none else loop.pending t := rfl

theorem stop_pending (loop : EventLoop) (id t : Nat) :
    (loop.stop id).pending t = if t = id then none else loop.pending t := rfl

end DomoticaEngine
