import Uubt.Endpoints
import Uubt.Runs
import Uubt.Transport

namespace Uubt.ClassDriver

open HostLibrary Driver Endpoints Transport Runs

def wirelessClass : Nat := 0xe0
def atherosIdVendor : Nat := 0x0cf3
def ar3011IdProduct : Nat := 0x3000
def usbReqDfuDnload : Nat := 1

structure Device where
  bInterfaceClass : Nat
  idVendor : Nat
  idProduct : Nat
  address : Nat
  speed : Nat

structure Firmware where
  ath3kFwCmd : List UInt8
  ath3kFwData : List UInt8

/-- What the build decides: the firmware is there if INCLUDE_FIRMWARE is
defined, and the variable n of the download loop either keeps its stack slot
from one iteration to the next or has no value until it is assigned. -/
structure Build where
  firmware : Option Firmware
  keepsN : Bool

/-- The numbers that USBH_Alloc_Channel returns. -/
structure Channels where
  evt : Nat
  aclo : Nat
  acli : Nat

def allocChannels (ch : Channels) (σ : Sys) : Sys :=
  let σ := (σ.emit (.allocChannel .evt ch.evt)).write ({ · with evtHcn := ch.evt })
  let σ := (σ.emit (.allocChannel .aclo ch.aclo)).write ({ · with acloHcn := ch.aclo })
  (σ.emit (.allocChannel .acli ch.acli)).write ({ · with acliHcn := ch.acli })

def openChannels (dev : Device) (σ : Sys) : Sys :=
  let σ :=
    if σ.bt.loadingFw = 0 then
      (σ.emit (.openChannel σ.bt.evtHcn dev.address dev.speed .intr evtMps)).emit
        (.openChannel σ.bt.acliHcn dev.address dev.speed .bulk aclMps)
    else σ
  σ.emit (.openChannel σ.bt.acloHcn dev.address dev.speed .bulk aclMps)

/-- The part of USBH_BT_InterfaceInit behind the device check. -/
def attach (dev : Device) (ch : Channels) (σ : Sys) : Sys :=
  (openChannels dev (allocChannels ch σ)).write
    ({ · with cmdBusy := 0, cmdState := 0, evtState := 0, acloBusy := 0, acloState := 0, acliState := 0 })

def usbhBtInterfaceInit (b : Build) (dev : Device) (ch : Channels) (σ : Sys) : UsbhStatus × Sys :=
  if dev.bInterfaceClass = wirelessClass then
    (.ok, attach dev ch (σ.write ({ · with loadingFw := 0 })))
  else if b.firmware.isSome ∧ dev.idVendor = atherosIdVendor ∧ dev.idProduct = ar3011IdProduct then
    (.ok, attach dev ch (σ.write ({ · with loadingFw := 1, fwOffset := 0 })))
  else (.notSupported, σ.emit .deviceNotSupported)

/-- The macro bt_free_ch. -/
def btFreeCh (hcn : BtState → Nat) (reset : BtState → BtState) (σ : Sys) : Sys :=
  if hcn σ.bt ≠ 0 then
    ((σ.emit (.haltChannel (hcn σ.bt))).emit (.freeChannel (hcn σ.bt))).write reset
  else σ

def usbhBtInterfaceDeInit (σ : Sys) : Sys :=
  let σ := if σ.bt.loadingFw = 0 then σ.emit (.powerControl false) else σ
  let σ := btFreeCh (·.evtHcn) ({ · with evtHcn := 0 }) σ
  let σ := btFreeCh (·.acloHcn) ({ · with acloHcn := 0 }) σ
  btFreeCh (·.acliHcn) ({ · with acliHcn := 0 }) σ

def usbhBtClassRequest (σ : Sys) : UsbhStatus × Sys :=
  (.ok, if σ.bt.loadingFw = 0 then σ.emit (.powerControl true) else σ)

def dfuSetup (cmdLen : Nat) : Setup :=
  { type := .typeVendor, recipient := .device, bRequest := usbReqDfuDnload, wValue := 0, wIndex := 0,
    wLength := cmdLen }

def fwSetup (img : Firmware) (rd : CmdReadings) (σ : Sys) : Sys :=
  let σ :=
    if σ.bt.cmdState = 0 then
      let cmdLen := uint16 img.ath3kFwCmd.length
      (σ.emit (.setSetup (dfuSetup cmdLen))).write (fun bt => { bt with
        cmdLen := cmdLen
        cmdPacket := bt.cmdPacket.memcpy (img.ath3kFwCmd.take cmdLen)
        cmdState := 1 })
    else σ
  let σ := σ.emit (.ctlReq (σ.bt.cmdPacket.read σ.bt.cmdLen) σ.bt.cmdLen rd.st)
  if rd.st = .ok then σ.write ({ · with cmdState := 0, loadingFw := 2 })
  else if rd.st = .fail then σ.write ({ · with cmdState := 0 })
  else σ

def int32 (n : Int) : Int := n.bmod 4294967296

/-- The answers that one iteration of the download loop gets, and the value
that an unassigned n happens to have. -/
structure FwReadings where
  aclo : AcloReadings
  stale : Int

inductive Pass
  | leave (σ : Sys)
  | again (n : Option Int) (σ : Sys)

/-- Staging of the next chunk, none at the end of the image. The variable n
has no value while it is none. -/
def fwStage (img : Firmware) (n : Option Int) (σ : Sys) : Option (Option Int × Sys) :=
  if σ.bt.acloBusy = 0 then
    let n := int32 (img.ath3kFwData.length - σ.bt.fwOffset)
    let n := if n > aclMps then (aclMps : Int) else n
    if n ≤ 0 then none
    else some (n, σ.write ({ · with acloLen := uint16 n, acloState := 0, acloBusy := 1 }))
  else some (n, σ)

def fwPass (img : Firmware) (c : Client) (rd : FwReadings) (n : Option Int) (σ : Sys) : Pass :=
  match fwStage img n σ with
  | none => .leave (σ.write ({ · with loadingFw := 3 }))
  | some (n, σ) =>
      let σ := (usbBtAcloProcess c (some (img.ath3kFwData.drop σ.bt.fwOffset.toNat)) rd.aclo σ).2
      .again n (if σ.bt.acloBusy = 0 then
        σ.write (fun bt => { bt with fwOffset := bt.fwOffset + n.getD rd.stale }) else σ)

/-- A call of the polling callback that has not come back within the
readings it was given is not returned. -/
structure PollResult where
  sys : Sys
  returned : Bool

/-- The while(1) of the download, one reading for each iteration. -/
def fwLoop (b : Build) (img : Firmware) (c : Client) : List FwReadings → Option Int → Sys → PollResult
  | [], _, σ => ⟨σ, false⟩
  | rd :: rds, n, σ =>
      match fwPass img c rd n σ with
      | .leave σ => ⟨σ, true⟩
      | .again n σ => fwLoop b img c rds (if b.keepsN then n else none) σ

structure PollReadings where
  cmd : CmdReadings
  evt : EvtReadings
  aclo : AcloReadings
  acli : AcliReadings
  loop : List FwReadings

def pollEndpoints (c : Client) (rd : PollReadings) (σ : Sys) : Sys :=
  let σ := (usbBtCmdProcess c rd.cmd σ).2
  let σ := (usbBtEvtProcess c rd.evt σ).2
  let σ := (usbBtAcloProcess c none rd.aclo σ).2
  (usbBtAcliProcess c rd.acli σ).2

def usbhBtStMachine (b : Build) (c : Client) (rd : PollReadings) (σ : Sys) : PollResult :=
  match b.firmware with
  | some img =>
      if σ.bt.loadingFw ≠ 0 then
        if σ.bt.loadingFw = 1 then ⟨fwSetup img rd.cmd σ, true⟩
        else if σ.bt.loadingFw = 2 then fwLoop b img c rd.loop none σ
        else ⟨σ, true⟩
      else ⟨pollEndpoints c rd σ, true⟩
  | none => ⟨pollEndpoints c rd σ, true⟩

/-- A step of a session in normal mode: the user calls in between two polls,
or one of the four machines is polled. -/
inductive Step
  | call (x : Call)
  | cmd (rd : CmdReadings)
  | evt (rd : EvtReadings)
  | aclo (rd : AcloReadings)
  | acli (rd : AcliReadings)

def step (c : Client) (σ : Sys) : Step → Sys
  | .call x => c.call σ x
  | .cmd rd => (usbBtCmdProcess c rd σ).2
  | .evt rd => (usbBtEvtProcess c rd σ).2
  | .aclo rd => (usbBtAcloProcess c none rd σ).2
  | .acli rd => (usbBtAcliProcess c rd σ).2

def pollSteps (rd : PollReadings) : List Step := [.cmd rd.cmd, .evt rd.evt, .aclo rd.aclo, .acli rd.acli]

/-- In normal mode a call of USBH_BT_StMachine is four steps, so whatever
holds along all sequences of steps holds along all sequences of polls. -/
theorem usbhBtStMachine_normal (b : Build) (c : Client) (rd : PollReadings) (σ : Sys)
    (h : σ.bt.loadingFw = 0) : usbhBtStMachine b c rd σ = ⟨run (step c) σ (pollSteps rd), true⟩ := by
  unfold usbhBtStMachine
  cases b.firmware with
  | none => rfl
  | some img =>
      simp only [h, ne_eq, not_true_eq_false, if_false]
      rfl

/-- The state right after USBH_BT_InterfaceInit has accepted a device, with
the record of the session starting there. -/
def started (b : Build) (dev : Device) (ch : Channels) (bt : BtState) (txBusy : Int) : Sys :=
  (usbhBtInterfaceInit b dev ch ⟨bt, txBusy, []⟩).2

def opened (b : Build) (dev : Device) (ch : Channels) (bt : BtState) (txBusy : Int) : Sys :=
  (h2Open (started b dev ch bt txBusy)).2

def attachedBt (ch : Channels) (bt : BtState) : BtState :=
  { bt with
    evtHcn := ch.evt, acloHcn := ch.aclo, acliHcn := ch.acli
    cmdBusy := 0, cmdState := 0, evtState := 0, acloBusy := 0, acloState := 0, acliState := 0 }

def allocTrace (ch : Channels) : Trace :=
  [.allocChannel .evt ch.evt, .allocChannel .aclo ch.aclo, .allocChannel .acli ch.acli]

def openAcloTrace (dev : Device) (ch : Channels) : Trace :=
  [.openChannel ch.aclo dev.address dev.speed .bulk aclMps]

def openTrace (dev : Device) (ch : Channels) : Trace :=
  [.openChannel ch.evt dev.address dev.speed .intr evtMps,
    .openChannel ch.acli dev.address dev.speed .bulk aclMps] ++ openAcloTrace dev ch

theorem attach_events (dev : Device) (ch : Channels) {P : Event → Prop} (ha : ∀ ep hcn, P (.allocChannel ep hcn))
    (ho : ∀ hcn address speed type mps, P (.openChannel hcn address speed type mps)) :
    ∀ e ∈ allocTrace ch ++ openTrace dev ch, P e := by
  simp [allocTrace, openTrace, openAcloTrace, ha, ho]

theorem attach_wireless (dev : Device) (ch : Channels) (σ : Sys) (h : σ.bt.loadingFw = 0) :
    attach dev ch σ = ⟨attachedBt ch σ.bt, σ.txBusy, σ.trace ++ allocTrace ch ++ openTrace dev ch⟩ := by
  have hl : (allocChannels ch σ).bt.loadingFw = 0 := h
  simp only [attach, openChannels, hl, if_true]
  simp [allocChannels, attachedBt, allocTrace, openTrace, openAcloTrace, Sys.write, Sys.emit]

theorem attach_loader (dev : Device) (ch : Channels) (σ : Sys) (h : σ.bt.loadingFw ≠ 0) :
    attach dev ch σ = ⟨attachedBt ch σ.bt, σ.txBusy, σ.trace ++ allocTrace ch ++ openAcloTrace dev ch⟩ := by
  have hl : ¬(allocChannels ch σ).bt.loadingFw = 0 := h
  simp only [attach, openChannels, hl, if_false]
  simp [allocChannels, attachedBt, allocTrace, openAcloTrace, Sys.write, Sys.emit]

theorem opened_wireless (b : Build) {dev : Device} (ch : Channels) (bt : BtState) (txBusy : Int)
    (hdev : dev.bInterfaceClass = wirelessClass) :
    opened b dev ch bt txBusy =
      ⟨attachedBt ch { bt with loadingFw := 0 }, 0, allocTrace ch ++ openTrace dev ch⟩ := by
  simp only [opened, h2Open, started, usbhBtInterfaceInit, hdev, if_true]
  rw [attach_wireless _ _ _ (by rfl)]
  rfl

theorem started_loader {b : Build} (hb : b.firmware.isSome) {dev : Device} (ch : Channels) (bt : BtState)
    (txBusy : Int) (hclass : dev.bInterfaceClass ≠ wirelessClass) (hvendor : dev.idVendor = atherosIdVendor)
    (hproduct : dev.idProduct = ar3011IdProduct) :
    started b dev ch bt txBusy =
      ⟨attachedBt ch { bt with loadingFw := 1, fwOffset := 0 }, txBusy, allocTrace ch ++ openAcloTrace dev ch⟩ := by
  simp only [started, usbhBtInterfaceInit, hclass, hb, hvendor, hproduct, if_false, and_self, if_true]
  rw [attach_loader _ _ _ (show ¬(1 : Int) = 0 by decide)]
  rfl

end Uubt.ClassDriver
