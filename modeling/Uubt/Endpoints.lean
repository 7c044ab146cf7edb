import Uubt.Driver

namespace Uubt.Endpoints

open HostLibrary Driver

structure CmdReadings where
  st : UsbhStatus
  calls : List Call

/-- The received bytes are those the transfer has left at the start of the
buffer; HCD_GetXferCnt is their number. -/
structure EvtReadings where
  frame : Nat
  urb : Urb
  received : List UInt8
  clr : UsbhStatus
  calls : List Call

structure AcloReadings where
  urb : Urb
  clr : UsbhStatus
  calls : List Call

structure AcliReadings where
  urb : Urb
  received : List UInt8
  clr : UsbhStatus
  calls : List Call

/-- The call of *rx_handler, whose size argument is a uint16_t. -/
def callRxHandler (c : Client) (type : PacketType) (packet : List UInt8) (len : Nat)
    (calls : List Call) (σ : Sys) : Sys :=
  let size := uint16 len
  let σ := σ.emit (.rx type (packet.take size) size)
  (c.rxHandler type (packet.take size) size calls σ).emit (.rxReturn type)

def callTxEndHandler (c : Client) (type : PacketType) (calls : List Call) (σ : Sys) : Sys :=
  c.txEndHandler type calls (σ.emit (.txEnd type))

def cmdSetup (cmdLen : Nat) : Setup :=
  { type := .typeClass, recipient := .interface, bRequest := 0, wValue := 0, wIndex := 0, wLength := cmdLen }

def usbBtCmdProcess (c : Client) (rd : CmdReadings) (σ : Sys) : Int × Sys :=
  if σ.bt.cmdBusy = 0 then (0, σ)
  else
    let σ :=
      if σ.bt.cmdState = 0 then
        (σ.emit (.setSetup (cmdSetup σ.bt.cmdLen))).write ({ · with cmdState := 1 })
      else σ
    let σ := σ.emit (.ctlReq (σ.bt.cmdPacket.read σ.bt.cmdLen) σ.bt.cmdLen rd.st)
    if rd.st = .ok then
      let σ := callTxEndHandler c .hciCommandDataPacket rd.calls σ
      (0, σ.write ({ · with cmdState := 0, cmdBusy := 0 }))
    else if rd.st = .fail then
      (0, σ.write ({ · with cmdState := 0, cmdBusy := 0 }))
    else (0, σ)

/-- The frames since evt_tmo modulo the period. The subtraction is one of
ints, and % truncates. -/
def fnDiff (frame evtTmo : Nat) : Nat :=
  uint16 (((frnumPeriod : Int) + frame - evtTmo).tmod frnumPeriod)

def usbBtEvtProcess (c : Client) (rd : EvtReadings) (σ : Sys) : Int × Sys :=
  let curFn := uint16 rd.frame
  let diff := fnDiff curFn σ.bt.evtTmo
  let σ := σ.emit (.currentFrame rd.frame)
  if σ.bt.evtState = 0 then
    let σ := σ.emit (.interruptReceive evtAlignedMaxSize σ.bt.evtHcn)
    (0, σ.write ({ · with evtTmo := (2 + curFn) % frnumPeriod, evtState := 1 }))
  else if σ.bt.evtState = 1 then
    if diff < frnumPeriod / 2 then (0, σ.write ({ · with evtState := 0 }))
    else
      let σ := σ.emit (.urbState .evt σ.bt.evtHcn rd.urb)
      match rd.urb with
      | .done =>
          let σ := callRxHandler c .hciEventPacket rd.received rd.received.length rd.calls σ
          (0, σ.write ({ · with evtState := 2 }))
      | .stall =>
          let σ := σ.emit (.clrFeature .evt σ.bt.evtHcn rd.clr)
          if rd.clr = .ok then (0, σ.write ({ · with evtState := 0 })) else (0, σ)
      | _ => (0, σ)
  else if σ.bt.evtState = 2 then
    if diff < frnumPeriod / 2 then (0, σ.write ({ · with evtState := 0 })) else (0, σ)
  else (-1, σ)

/-- The tx-end handler is called only without a buffer of the caller's. -/
def usbBtAcloProcess (c : Client) (buf : Option (List UInt8)) (rd : AcloReadings) (σ : Sys) : Int × Sys :=
  if σ.bt.acloBusy = 0 then (0, σ)
  else if σ.bt.acloState = 0 then
    let data := match buf with
      | some buf => buf.take σ.bt.acloLen
      | none => σ.bt.acloPacket.read σ.bt.acloLen
    let σ := σ.emit (.bulkSend data σ.bt.acloLen σ.bt.acloHcn)
    (0, σ.write ({ · with acloState := 1 }))
  else if σ.bt.acloState = 1 then
    let σ := σ.emit (.urbState .aclo σ.bt.acloHcn rd.urb)
    match rd.urb with
    | .done =>
        let σ := match buf with
          | some _ => σ
          | none => callTxEndHandler c .hciAclDataPacket rd.calls σ
        (0, σ.write ({ · with acloState := 0, acloBusy := 0 }))
    | .stall =>
        let σ := σ.emit (.clrFeature .aclo σ.bt.acloHcn rd.clr)
        if rd.clr = .ok then (0, σ.write ({ · with acloState := 0 })) else (0, σ)
    | _ => (0, σ)
  else (-1, σ)

def usbBtAcliProcess (c : Client) (rd : AcliReadings) (σ : Sys) : Int × Sys :=
  if σ.bt.acliState = 0 then
    let σ := σ.emit (.bulkReceive aclAlignedMaxSize σ.bt.acliHcn)
    (0, σ.write ({ · with acliState := 1 }))
  else if σ.bt.acliState = 1 then
    let σ := σ.emit (.urbState .acli σ.bt.acliHcn rd.urb)
    match rd.urb with
    | .done =>
        let σ := callRxHandler c .hciAclDataPacket rd.received rd.received.length rd.calls σ
        (0, σ.write ({ · with acliState := 0 }))
    | .stall =>
        let σ := σ.emit (.clrFeature .acli σ.bt.acliHcn rd.clr)
        if rd.clr = .ok then (0, σ.write ({ · with acliState := 0 })) else (0, σ)
    | _ => (0, σ)
  else (-1, σ)

end Uubt.Endpoints
