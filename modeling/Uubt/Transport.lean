import Uubt.Driver

namespace Uubt.Transport

open HostLibrary Driver

def h2CanSendPacketNow (_type : PacketType) (σ : Sys) : Bool := σ.txBusy = 0

def h2SendPacket (type : PacketType) (packet : List UInt8) (size : Int) (σ : Sys) : Int × Sys :=
  if !h2CanSendPacketNow type σ then (-1, σ)
  else
    let σ := { σ with txBusy := 1 }
    let (ret, bt) := halUbTxPacket type packet (uint16 size) σ.bt
    (ret, σ.write (fun _ => bt))

/-- A call of the stack into the transport, with its result on record. -/
def stackCall (σ : Sys) : Call → Sys
  | .send type packet =>
      let (ret, σ) := h2SendPacket type packet packet.length σ
      σ.emit (.sendPacket type packet ret)
  | .canSend type => σ.emit (.canSend type (h2CanSendPacketNow type σ))

/-- The packet handler that the stack has registered may call back. -/
def packetHandler (e : Event) (calls : List Call) (σ : Sys) : Sys := calls.foldl stackCall (σ.emit e)

/-- The handler gets DAEMON_EVENT_HCI_PACKET_SENT, a packet of one byte. -/
def h2TxEndCb (_type : PacketType) (calls : List Call) (σ : Sys) : Sys :=
  { packetHandler .packetSent calls σ with txBusy := 0 }

def h2RxCb (type : PacketType) (packet : List UInt8) (size : Nat) (calls : List Call) (σ : Sys) : Sys :=
  packetHandler (.packetHandler type packet size) calls σ

def h2Client : Client where
  call := stackCall
  rxHandler := h2RxCb
  txEndHandler := h2TxEndCb

/-- Opening the transport registers its two callbacks with the driver. -/
def h2Open (σ : Sys) : Client × Sys := (h2Client, { σ with txBusy := 0 })

end Uubt.Transport
