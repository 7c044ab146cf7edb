import Mathlib.Data.List.Basic

namespace Uubt.HostLibrary

/-- The packet indicator of the transport interface, a uint8_t. The code
compares it with three values only. -/
inductive PacketType
  | hciCommandDataPacket
  | hciAclDataPacket
  | hciEventPacket
  | other (code : UInt8)
deriving DecidableEq

structure Packet where
  type : PacketType
  bytes : List UInt8
deriving DecidableEq

inductive UsbhStatus
  | ok | busy | fail | notSupported
deriving DecidableEq

inductive Urb
  | idle | done | notReady | error | stall
deriving DecidableEq

/-- A state that a channel keeps until the next submission. -/
def Urb.final : Urb → Bool
  | .idle | .notReady | .error => false
  | .done | .stall => true

inductive Ep
  | evt | aclo | acli
deriving DecidableEq

inductive SetupType
  | typeStandard | typeClass | typeVendor
deriving DecidableEq

inductive Recipient
  | device | interface | endpoint
deriving DecidableEq

/-- The setup packet in phost->Control.setup. The direction is always
USB_H2D here. -/
structure Setup where
  type : SetupType
  recipient : Recipient
  bRequest : Nat
  wValue : Nat
  wIndex : Nat
  wLength : Nat
deriving DecidableEq

inductive EpType
  | intr | bulk
deriving DecidableEq

/-- What can be seen of the driver from outside: every call it makes into
the host library and into the stack, with the answer it got, and every call
that is made into it, with its result. Two events are not its own: the
hardware reports on a transfer, and USBH_Process carries out a control transfer. -/
inductive Event
  | setSetup (setup : Setup)
  | ctlReq (data : List UInt8) (len : Nat) (st : UsbhStatus)
  | clrFeature (ep : Ep) (hcn : Nat) (st : UsbhStatus)
  | currentFrame (frame : Nat)
  | interruptReceive (len hcn : Nat)
  | bulkSend (data : List UInt8) (len hcn : Nat)
  | bulkReceive (len hcn : Nat)
  | urbState (ep : Ep) (hcn : Nat) (urb : Urb)
  | rx (type : PacketType) (data : List UInt8) (size : Nat)
  | rxReturn (type : PacketType)
  | txEnd (type : PacketType)
  | packetHandler (type : PacketType) (data : List UInt8) (size : Nat)
  | packetSent
  | sendPacket (type : PacketType) (packet : List UInt8) (ret : Int)
  | canSend (type : PacketType) (ret : Bool)
  | txPacket (type : PacketType) (packet : List UInt8) (ret : Int)
  | allocChannel (ep : Ep) (hcn : Nat)
  | openChannel (hcn address speed : Nat) (type : EpType) (mps : Nat)
  | haltChannel (hcn : Nat)
  | freeChannel (hcn : Nat)
  | deviceNotSupported
  | powerControl (on : Bool)
  | transferStatus (ep : Ep) (urb : Urb) (data : List UInt8)
  | controlDone (setup : Setup) (data : List UInt8) (st : UsbhStatus)

abbrev Trace := List Event

inductive Owner
  | cmd | evt | aclo | acli | client | callbacks | hardware
deriving DecidableEq

def Ep.owner : Ep → Owner
  | .evt => .evt
  | .aclo => .aclo
  | .acli => .acli

def Event.owner : Event → Owner
  | .setSetup _ | .ctlReq _ _ _ => .cmd
  | .clrFeature ep _ _ | .urbState ep _ _ => ep.owner
  | .currentFrame _ | .interruptReceive _ _ => .evt
  | .bulkSend _ _ _ => .aclo
  | .bulkReceive _ _ => .acli
  | .rx type _ _ | .rxReturn type => if type = .hciEventPacket then .evt else .acli
  | .txEnd type => if type = .hciCommandDataPacket then .cmd else .aclo
  | .packetHandler _ _ _ | .packetSent | .sendPacket _ _ _ | .canSend _ _ | .txPacket _ _ _ => .client
  | .allocChannel _ _ | .openChannel _ _ _ _ _ | .haltChannel _ | .freeChannel _
  | .deviceNotSupported | .powerControl _ => .callbacks
  | .transferStatus _ _ _ | .controlDone _ _ _ => .hardware

def Event.submits : Event → Option Ep
  | .interruptReceive _ _ => some .evt
  | .bulkSend _ _ _ => some .aclo
  | .bulkReceive _ _ => some .acli
  | _ => none

end Uubt.HostLibrary
