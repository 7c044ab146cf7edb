import Uubt.ByteBuffer
import Uubt.History
import Uubt.HostLibrary

namespace Uubt.Driver

open ByteBuffer History HostLibrary

def frnumPeriod : Nat := 0x4000

def evtMps : Nat := 16
def aclMps : Nat := 64

def cmdAlignedMaxSize : Nat := 260
def evtAlignedMaxSize : Nat := 272
def aclAlignedMaxSize : Nat := 64

/-- BT_State. The two receive buffers are written by the hardware and read
by the stack only; what they hold is part of the readings of a poll. -/
structure BtState where
  cmdPacket : Buffer cmdAlignedMaxSize
  acloPacket : Buffer aclAlignedMaxSize
  loadingFw : Int
  fwOffset : Int
  cmdBusy : Int
  cmdState : Int
  cmdLen : Nat
  evtState : Int
  evtHcn : Nat
  evtTmo : Nat
  acloBusy : Int
  acloState : Int
  acloLen : Nat
  acloHcn : Nat
  acliState : Int
  acliHcn : Nat

def BtState.zero : BtState :=
  { cmdPacket := .zero _, acloPacket := .zero _, loadingFw := 0, fwOffset := 0,
    cmdBusy := 0, cmdState := 0, cmdLen := 0, evtState := 0, evtHcn := 0, evtTmo := 0,
    acloBusy := 0, acloState := 0, acloLen := 0, acloHcn := 0, acliState := 0, acliHcn := 0 }

/-- The driver, the busy flag of the transport over it, and what has been
seen of both so far. -/
structure Sys where
  bt : BtState
  txBusy : Int
  trace : Trace

def Sys.emit (e : Event) (σ : Sys) : Sys := { σ with trace := σ.trace ++ [e] }

def Sys.write (f : BtState → BtState) (σ : Sys) : Sys := { σ with bt := f σ.bt }

@[simp] theorem emit_bt (e : Event) (σ : Sys) : (σ.emit e).bt = σ.bt := rfl
@[simp] theorem emit_txBusy (e : Event) (σ : Sys) : (σ.emit e).txBusy = σ.txBusy := rfl
@[simp] theorem emit_trace (e : Event) (σ : Sys) : (σ.emit e).trace = σ.trace ++ [e] := rfl
@[simp] theorem write_bt (f : BtState → BtState) (σ : Sys) : (σ.write f).bt = f σ.bt := rfl
@[simp] theorem write_txBusy (f : BtState → BtState) (σ : Sys) : (σ.write f).txBusy = σ.txBusy := rfl
@[simp] theorem write_trace (f : BtState → BtState) (σ : Sys) : (σ.write f).trace = σ.trace := rfl

def uint16 (n : Int) : Nat := (n % 65536).toNat

theorem uint16_natCast {n : Nat} (h : n < 65536) : uint16 n = n := by
  rw [uint16]
  omega

theorem uint16_le (n : Nat) : uint16 n ≤ n := by
  rw [uint16]
  omega

def halUbTxPacket (type : PacketType) (packet : List UInt8) (size : Nat) (bt : BtState) : Int × BtState :=
  match type with
  | .hciCommandDataPacket =>
      if bt.cmdBusy ≠ 0 then (-1, bt)
      else if size > cmdAlignedMaxSize then (-1, bt)
      else (0, { bt with
        cmdLen := size
        cmdPacket := bt.cmdPacket.memcpy (packet.take size)
        cmdState := 0
        cmdBusy := 1 })
  | .hciAclDataPacket =>
      if bt.acloBusy ≠ 0 then (-1, bt)
      else if size > aclAlignedMaxSize then (-1, bt)
      else (0, { bt with
        acloLen := size
        acloPacket := bt.acloPacket.memcpy (packet.take size)
        acloState := 0
        acloBusy := 1 })
  | _ => (-1, bt)

/-- What the user of the driver does inside a callback or between two
polls: it offers a packet, or asks whether it may. -/
inductive Call
  | send (type : PacketType) (packet : List UInt8)
  | canSend (type : PacketType)

/-- The user of the driver: the handlers behind the pointers rx_handler and
tx_end_handler, and the way its calls reach hal_ub_tx_packet. The calls that
a handler makes in one invocation are an input, so a user may decide on them
in any way. -/
structure Client where
  call : Sys → Call → Sys
  rxHandler : PacketType → List UInt8 → Nat → List Call → Sys → Sys
  txEndHandler : PacketType → List Call → Sys → Sys

def halCall (σ : Sys) : Call → Sys
  | .send type packet =>
      let size := uint16 packet.length
      let (ret, bt) := halUbTxPacket type packet size σ.bt
      (σ.write (fun _ => bt)).emit (.txPacket type (packet.take size) ret)
  | .canSend _ => σ

def halClient : Client where
  call := halCall
  rxHandler _ _ _ calls σ := calls.foldl halCall σ
  txEndHandler _ calls σ := calls.foldl halCall σ

def dummyClient : Client where
  call := halCall
  rxHandler _ _ _ _ σ := σ
  txEndHandler _ _ σ := σ

end Uubt.Driver
