import DomoticaEngine.CLib

set_option autoImplicit false

namespace DomoticaEngine

inductive DimmerEvent where
  | on | off
  deriving DecidableEq, Repr

/-- A message is the call of libeltako that makes it. -/
inductive EltakoMessage where
  | message (rorgtype rorg : Nat) (data : List UInt8) (address : UInt32) (status : Nat)
  | dimmer (address : UInt32) (event : DimmerEvent) (value : UInt8) (speed : Nat) (lock : Bool)
  deriving DecidableEq, Repr

/-- `clock` gives the readings of the next calls of `get_current_time_ms`. -/
structure Eltako where
  sendQueue : List EltakoMessage
  sendLast : UInt64
  transmitted : List EltakoMessage
  clock : Nat → UInt64

def getCurrentTimeMs (eltako : Eltako) : UInt64 × Eltako :=
  (eltako.clock 0,{ eltako with clock := fun n => eltako.clock (n+1) })

def eltakoSendReal (eltako : Eltako) (msg : EltakoMessage) : Eltako :=
  let eltako := { eltako with transmitted := eltako.transmitted ++ [msg] }
  let (now,eltako) := getCurrentTimeMs eltako
  { eltako with sendLast := now }

def eltakoCheckSendQueue (eltako : Eltako) : Eltako :=
  let (now,eltako) := getCurrentTimeMs eltako
  match eltako.sendQueue with
  | [] => eltako
  | msg :: queue =>
    -- The difference is taken in 64 bits and wraps around.
    if now - eltako.sendLast < 200-10 then eltako
    else eltakoSendReal { eltako with sendQueue := queue } msg

def eltakoSend (eltako : Eltako) (msg : EltakoMessage) : Eltako :=
  eltakoCheckSendQueue { eltako with sendQueue := eltako.sendQueue ++ [msg] }

end DomoticaEngine
