import Uubt.FirmwareLoading
import Uubt.Matching
import Uubt.Sessions

namespace Uubt.Independence

open ByteBuffer HostLibrary Driver Transport Endpoints Clients ClassDriver Moves Frames Sessions Runs
  LoaderMoves Matching FirmwareLoading

/-- Two driver states that differ in dead fields only: a buffer and its
length while its busy flag is down, and the deadline before a submission. -/
structure AlikeBt (bt bt' : BtState) : Prop where
  cmdBusy : bt'.cmdBusy = bt.cmdBusy
  cmdState : bt'.cmdState = bt.cmdState
  evtState : bt'.evtState = bt.evtState
  evtHcn : bt'.evtHcn = bt.evtHcn
  acloBusy : bt'.acloBusy = bt.acloBusy
  acloState : bt'.acloState = bt.acloState
  acloHcn : bt'.acloHcn = bt.acloHcn
  acliState : bt'.acliState = bt.acliState
  acliHcn : bt'.acliHcn = bt.acliHcn
  cmd : bt.cmdBusy ≠ 0 →
    bt'.cmdLen = bt.cmdLen ∧ bt'.cmdPacket.read bt'.cmdLen = bt.cmdPacket.read bt.cmdLen
  aclo : bt.acloBusy ≠ 0 →
    bt'.acloLen = bt.acloLen ∧ bt'.acloPacket.read bt'.acloLen = bt.acloPacket.read bt.acloLen
  evtTmo : bt.evtState ≠ 0 → bt'.evtTmo = bt.evtTmo

structure Alike (σ τ : Sys) : Prop where
  trace : τ.trace = σ.trace
  txBusy : τ.txBusy = σ.txBusy
  bt : AlikeBt σ.bt τ.bt

variable {σ τ : Sys}

theorem Alike.emit (h : Alike σ τ) (e : Event) : Alike (σ.emit e) (τ.emit e) :=
  ⟨congrArg (· ++ [e]) h.trace, h.txBusy, h.bt⟩

theorem Alike.write (h : Alike σ τ) {f : BtState → BtState} (hf : AlikeBt σ.bt τ.bt → AlikeBt (f σ.bt) (f τ.bt)) :
    Alike (σ.write f) (τ.write f) :=
  ⟨h.trace, h.txBusy, hf h.bt⟩

theorem halUbTxPacket_alike {bt bt' : BtState} (h : AlikeBt bt bt') (type : PacketType) (packet : List UInt8)
    {size : Nat} (hs : size ≤ packet.length) :
    (halUbTxPacket type packet size bt').1 = (halUbTxPacket type packet size bt).1 ∧
      AlikeBt (halUbTxPacket type packet size bt).2 (halUbTxPacket type packet size bt').2 := by
  cases type with
  | hciCommandDataPacket =>
      simp only [halUbTxPacket, h.cmdBusy]
      split_ifs
      · exact ⟨rfl, h⟩
      · exact ⟨rfl, h⟩
      · refine ⟨rfl, { h with cmdBusy := rfl, cmdState := rfl, cmd := fun _ => ⟨rfl, ?_⟩ }⟩
        exact (Buffer.read_memcpy_take _ packet hs).trans (Buffer.read_memcpy_take _ packet hs).symm
  | hciAclDataPacket =>
      simp only [halUbTxPacket, h.acloBusy]
      split_ifs
      · exact ⟨rfl, h⟩
      · exact ⟨rfl, h⟩
      · refine ⟨rfl, { h with acloBusy := rfl, acloState := rfl, aclo := fun _ => ⟨rfl, ?_⟩ }⟩
        exact (Buffer.read_memcpy_take _ packet hs).trans (Buffer.read_memcpy_take _ packet hs).symm
  | hciEventPacket | other code => exact ⟨rfl, h⟩

theorem stackCall_alike (h : Alike σ τ) (x : Call) : Alike (stackCall σ x) (stackCall τ x) := by
  cases x with
  | canSend type =>
      simp only [stackCall, h2CanSendPacketNow, h.txBusy]
      exact h.emit _
  | send type packet =>
      by_cases ht : σ.txBusy = 0
      · obtain ⟨hret, hbt⟩ := halUbTxPacket_alike h.bt type packet (uint16_le packet.length)
        simp only [stackCall, h2SendPacket, h2CanSendPacketNow, h.txBusy, ht, decide_true, Bool.not_true,
          Bool.false_eq_true, if_false, hret]
        have hw : Alike ⟨(halUbTxPacket type packet (uint16 packet.length) σ.bt).2, 1, σ.trace⟩
            ⟨(halUbTxPacket type packet (uint16 packet.length) τ.bt).2, 1, τ.trace⟩ := ⟨h.trace, rfl, hbt⟩
        exact hw.emit _
      · simp only [stackCall, h2SendPacket, h2CanSendPacketNow, h.txBusy, ht, decide_false, Bool.not_false, if_true]
        exact h.emit _

theorem stackCalls_alike (h : Alike σ τ) (calls : List Call) :
    Alike (calls.foldl stackCall σ) (calls.foldl stackCall τ) := by
  induction calls generalizing σ τ with
  | nil => exact h
  | cons x xs ih => exact ih (stackCall_alike h x)

theorem rxHandler_alike (h : Alike σ τ) (type : PacketType) (packet : List UInt8) (len : Nat) (calls : List Call) :
    Alike (callRxHandler h2Client type packet len calls σ) (callRxHandler h2Client type packet len calls τ) :=
  (stackCalls_alike ((h.emit _).emit _) calls).emit _

theorem txEndHandler_alike (h : Alike σ τ) (type : PacketType) (calls : List Call) :
    Alike (callTxEndHandler h2Client type calls σ) (callTxEndHandler h2Client type calls τ) := by
  have hs := stackCalls_alike ((h.emit (.txEnd type)).emit .packetSent) calls
  exact ⟨hs.trace, rfl, hs.bt⟩

theorem cmdRequest_alike (h : Alike σ τ) (hb : σ.bt.cmdBusy ≠ 0) (st : UsbhStatus) :
    Alike (cmdRequest st σ) (cmdRequest st τ) := by
  obtain ⟨hlen, hread⟩ := h.bt.cmd hb
  have hstart : Alike (cmdStart σ) (cmdStart τ) := by
    simp only [cmdStart, h.bt.cmdState, hlen]
    split
    · exact (h.emit _).write fun hbt => { hbt with cmdState := rfl }
    · exact h
  rw [cmdRequest, cmdRequest, hread, hlen]
  exact hstart.emit _

theorem cmdDone_alike (h : Alike σ τ) : Alike (cmdDone σ) (cmdDone τ) :=
  h.write fun hbt => { hbt with cmdBusy := rfl, cmdState := rfl, cmd := fun hb => absurd rfl hb }

theorem cmd_alike (h : Alike σ τ) (rd : CmdReadings) :
    Alike (usbBtCmdProcess h2Client rd σ).2 (usbBtCmdProcess h2Client rd τ).2 := by
  rw [cmd_eq, cmd_eq, h.bt.cmdBusy]
  by_cases hb : σ.bt.cmdBusy = 0
  · rw [if_pos hb, if_pos hb]
    exact h
  have hreq := cmdRequest_alike h hb rd.st
  rw [if_neg hb, if_neg hb]
  split_ifs
  · exact cmdDone_alike (txEndHandler_alike hreq _ _)
  · exact cmdDone_alike hreq
  · exact hreq

theorem setAcloState_alike (h : Alike σ τ) (n : Int) :
    Alike (σ.write ({ · with acloState := n })) (τ.write ({ · with acloState := n })) :=
  h.write fun hbt => { hbt with acloState := rfl }

theorem evt_alike : EvtMatch h2Client h2Client id Alike where
  state h := h.bt.evtState
  tmo h := h.bt.evtTmo
  hcn h := h.bt.evtHcn
  emit h e := h.emit e
  submit h _ := h.write fun hbt => { hbt with evtState := rfl, evtTmo := fun _ => rfl }
  set h h0 _ := h.write fun hbt => { hbt with evtState := rfl, evtTmo := fun _ => hbt.evtTmo h0 }
  rx h packet len calls := rxHandler_alike h _ packet len calls

theorem acli_alike : AcliMatch h2Client h2Client id Alike where
  state h := h.bt.acliState
  hcn h := h.bt.acliHcn
  emit h e := h.emit e
  set h _ := h.write fun hbt => { hbt with acliState := rfl }
  rx h packet len calls := rxHandler_alike h _ packet len calls

theorem aclo_alike (h : Alike σ τ) (rd : AcloReadings) :
    Alike (usbBtAcloProcess h2Client none rd σ).2 (usbBtAcloProcess h2Client none rd τ).2 := by
  have hm := aclo_moves h2Client none rd σ
  generalize (usbBtAcloProcess h2Client none rd σ).2 = σ' at hm ⊢
  have hbusy (hb : σ.bt.acloBusy ≠ 0) : τ.bt.acloBusy ≠ 0 := h.bt.acloBusy.trans_ne hb
  have hstate {n : Int} (hn : σ.bt.acloState = n) : τ.bt.acloState = n := h.bt.acloState.trans hn
  have hr : Alike (acloRead rd σ) (acloRead rd τ) := by
    rw [acloRead, acloRead, h.bt.acloHcn]
    exact h.emit _
  have hk := hr.emit (.clrFeature .aclo σ.bt.acloHcn rd.clr)
  cases hm with
  | idle hb =>
      rw [(AcloMove.idle (h.bt.acloBusy.trans hb)).eq]
      exact h
  | submit hb h0 =>
      obtain ⟨hlen, hread⟩ := h.bt.aclo hb
      rw [(AcloMove.submit (hbusy hb) (hstate h0)).eq, acloData, acloData, hread, hlen, h.bt.acloHcn]
      exact setAcloState_alike (h.emit _) 1
  | done hb h1 hu =>
      rw [(AcloMove.done (hbusy hb) (hstate h1) hu).eq]
      refine (txEndHandler_alike hr .hciAclDataPacket rd.calls).write fun hbt => ?_
      exact { hbt with acloState := rfl, acloBusy := rfl, aclo := fun h0 => absurd rfl h0 }
  | clear hb h1 hu hc =>
      rw [(AcloMove.clear (hbusy hb) (hstate h1) hu hc).eq, h.bt.acloHcn]
      exact setAcloState_alike hk 0
  | stalled hb h1 hu hc =>
      rw [(AcloMove.stalled (hbusy hb) (hstate h1) hu hc).eq, h.bt.acloHcn]
      exact hk
  | wait hb h1 hn hs =>
      rw [(AcloMove.wait (hbusy hb) (hstate h1) hn hs).eq]
      exact hr
  | lost hb h0 h1 =>
      rw [(AcloMove.lost (hbusy hb) (h.bt.acloState.trans_ne h0) (h.bt.acloState.trans_ne h1)).eq]
      exact h

theorem step_alike (s : Step) (h : Alike σ τ) : Alike (step h2Client σ s) (step h2Client τ s) := by
  cases s with
  | call x => exact stackCall_alike h x
  | cmd rd => exact cmd_alike h rd
  | evt rd => exact evt_alike.process h2Client_polite h rd
  | aclo rd => exact aclo_alike h rd
  | acli rd => exact acli_alike.process h rd

theorem opened_alike (b : Build) {dev : Device} (ch : Channels) (bt bt' : BtState) (txBusy txBusy' : Int)
    (hdev : dev.bInterfaceClass = wirelessClass) :
    Alike (opened b dev ch bt txBusy) (opened b dev ch bt' txBusy') := by
  rw [opened_wireless b ch bt txBusy hdev, opened_wireless b ch bt' txBusy' hdev]
  refine ⟨rfl, rfl, ⟨rfl, rfl, rfl, rfl, rfl, rfl, rfl, rfl, rfl, ?_, ?_, ?_⟩⟩ <;> exact fun h => absurd rfl h

/-- Two states of a download that differ in dead fields only. The stack and
the other three machines have no part in it. -/
structure AlikeLoader (σ τ : Sys) : Prop where
  trace : τ.trace = σ.trace
  loadingFw : τ.bt.loadingFw = σ.bt.loadingFw
  fwOffset : τ.bt.fwOffset = σ.bt.fwOffset
  cmdState : τ.bt.cmdState = σ.bt.cmdState
  acloBusy : τ.bt.acloBusy = σ.bt.acloBusy
  acloState : τ.bt.acloState = σ.bt.acloState
  acloHcn : τ.bt.acloHcn = σ.bt.acloHcn
  cmd : σ.bt.cmdState ≠ 0 →
    τ.bt.cmdLen = σ.bt.cmdLen ∧ τ.bt.cmdPacket.read τ.bt.cmdLen = σ.bt.cmdPacket.read σ.bt.cmdLen
  aclo : σ.bt.acloBusy ≠ 0 → τ.bt.acloLen = σ.bt.acloLen

variable {img : Firmware} {c : Client}

theorem AlikeLoader.emit (h : AlikeLoader σ τ) (e : Event) : AlikeLoader (σ.emit e) (τ.emit e) :=
  { h with trace := congrArg (· ++ [e]) h.trace }

theorem fwHeader_alike (img : Firmware) (h : AlikeLoader σ τ) :
    AlikeLoader (fwHeader img σ) (fwHeader img τ) ∧ (fwHeader img σ).bt.cmdState ≠ 0 := by
  rw [fwHeader, fwHeader]
  by_cases h0 : σ.bt.cmdState = 0
  · rw [if_pos h0, if_pos (h.cmdState.trans h0)]
    have hs := uint16_le img.ath3kFwCmd.length
    have hcmd := (Buffer.read_memcpy_take τ.bt.cmdPacket img.ath3kFwCmd hs).trans
      (Buffer.read_memcpy_take σ.bt.cmdPacket img.ath3kFwCmd hs).symm
    exact ⟨{ h.emit _ with cmdState := rfl, cmd := fun _ => ⟨rfl, hcmd⟩ }, show ¬(1 : Int) = 0 by decide⟩
  · rw [if_neg h0, if_neg (h.cmdState.trans_ne h0)]
    exact ⟨h, h0⟩

theorem fwSetup_alike (h : AlikeLoader σ τ) (rd : CmdReadings) :
    AlikeLoader (fwSetup img rd σ) (fwSetup img rd τ) := by
  obtain ⟨hh, h0⟩ := fwHeader_alike img h
  obtain ⟨hlen, hread⟩ := hh.cmd h0
  have hreq : AlikeLoader (fwRequest img rd.st σ) (fwRequest img rd.st τ) := by
    rw [fwRequest, fwRequest, hread, hlen]
    exact hh.emit _
  rw [fwSetup_eq, fwSetup_eq]
  split_ifs
  · exact { hreq with loadingFw := rfl, cmdState := rfl, cmd := fun h0 => absurd rfl h0 }
  · exact { hreq with cmdState := rfl, cmd := fun h0 => absurd rfl h0 }
  · exact hreq

theorem AlikeLoader.submitted (h : AlikeLoader σ τ) (hb : σ.bt.acloBusy ≠ 0) :
    AlikeLoader (submitted img σ) (submitted img τ) := by
  rw [LoaderMoves.submitted, LoaderMoves.submitted, h.fwOffset, h.aclo hb, h.acloHcn]
  exact { h.emit _ with acloState := rfl }

theorem AlikeLoader.staged (h : AlikeLoader σ τ) : AlikeLoader (staged img σ) (staged img τ) := by
  rw [LoaderMoves.staged, LoaderMoves.staged, h.fwOffset]
  exact { h with acloState := rfl, acloBusy := rfl, aclo := fun _ => rfl }

theorem AlikeLoader.read (h : AlikeLoader σ τ) (rd : AcloReadings) : AlikeLoader (acloRead rd σ) (acloRead rd τ) := by
  rw [acloRead, acloRead, h.acloHcn]
  exact h.emit _

theorem AlikeLoader.cleared (h : AlikeLoader σ τ) (rd : FwReadings) (stale : Int) :
    AlikeLoader (cleared rd σ) (cleared { rd with stale := stale } τ) := by
  rw [LoaderMoves.cleared, LoaderMoves.cleared, h.acloHcn]
  exact (h.read rd.aclo).emit _

/-- In the loop the variable n has a value while a piece is in work. -/
def Assigned (n : Option Int) (σ : Sys) : Prop := σ.bt.acloBusy ≠ 0 → n.isSome

structure AtRest (σ τ : Sys) : Prop where
  alike : AlikeLoader σ τ
  free : σ.bt.acloBusy = 0
  loading : σ.bt.loadingFw ≠ 0

structure InLoop (n : Option Int) (σ τ : Sys) : Prop where
  alike : AlikeLoader σ τ
  assigned : Assigned n σ

theorem pass_alike (img : Firmware) {n : Option Int} (h : InLoop n σ τ) (rd : FwReadings) (stale : Int) :
    PassMatch img rd { rd with stale := stale } n AtRest InLoop σ τ where
  aclo := rfl
  busy := h.alike.acloBusy
  offset := h.alike.fwOffset
  state _ := h.alike.acloState
  leave hb := ⟨{ h.alike with loadingFw := rfl }, hb, show ¬(3 : Int) = 0 by decide⟩
  stage := ⟨h.alike.staged.submitted (show ¬(1 : Int) = 0 by decide), fun _ => rfl⟩
  submit hb := ⟨h.alike.submitted hb, fun _ => h.assigned hb⟩
  done hb := by
    obtain ⟨v, rfl⟩ := Option.isSome_iff_exists.mp (h.assigned hb)
    exact ⟨{ h.alike.read rd.aclo with
      fwOffset := congrArg (· + v) h.alike.fwOffset, acloState := rfl, acloBusy := rfl, aclo := fun h0 => absurd rfl h0 },
      fun _ => rfl⟩
  clear hb := ⟨{ h.alike.cleared rd stale with acloState := rfl }, fun _ => h.assigned hb⟩
  stalled hb := ⟨h.alike.cleared rd stale, fun _ => h.assigned hb⟩
  wait hb := ⟨h.alike.read rd.aclo, fun _ => h.assigned hb⟩
  lost hb := h

def AlikeResult (r r' : PollResult) : Prop :=
  r'.returned = r.returned ∧ AlikeLoader r.sys r'.sys ∧ (r.returned = true → AtRest r.sys r'.sys)

def restale (stale : Int) (rd : PollReadings) : PollReadings :=
  { rd with loop := rd.loop.map ({ · with stale := stale }) }

theorem fwLoop_alike {n : Option Int} (h : InLoop n σ τ) (rds : List FwReadings) (stale : Int) :
    AlikeResult (fwLoop ⟨some img, true⟩ img c rds n σ)
      (fwLoop ⟨some img, true⟩ img c (rds.map ({ · with stale := stale })) n τ) := by
  obtain ⟨hret, hleft, hin⟩ := fwLoop_matched (L := AtRest) (A := InLoop) (b := ⟨some img, true⟩)
    (f := ({ · with stale := stale })) (fun rd h => (pass_alike img h rd stale).pass c c) (fun h => h) rds h
  refine ⟨hret, ?_, hleft⟩
  cases hr : (fwLoop ⟨some img, true⟩ img c rds n σ).returned with
  | true => exact (hleft hr).alike
  | false =>
      obtain ⟨_, h'⟩ := hin hr
      exact h'.alike

theorem fwSetup_atRest (h : AtRest σ τ) (rd : CmdReadings) : AtRest (fwSetup img rd σ) (fwSetup img rd τ) := by
  have hreq : (fwRequest img rd.st σ).bt.acloBusy = 0 ∧ (fwRequest img rd.st σ).bt.loadingFw ≠ 0 := by
    rw [fwRequest, fwHeader]
    split <;> exact ⟨h.free, h.loading⟩
  have hs : AlikeLoader (fwSetup img rd σ) (fwSetup img rd τ) := fwSetup_alike h.alike rd
  have hσ := fwSetup_eq img rd σ
  split_ifs at hσ
  · exact ⟨hs, hσ ▸ hreq.1, hσ ▸ show ¬(2 : Int) = 0 by decide⟩
  · exact ⟨hs, hσ ▸ hreq.1, hσ ▸ hreq.2⟩
  · exact ⟨hs, hσ ▸ hreq.1, hσ ▸ hreq.2⟩

theorem poll_alike (h : AtRest σ τ) (rd : PollReadings) (stale : Int) :
    AlikeResult (usbhBtStMachine ⟨some img, true⟩ c rd σ)
      (usbhBtStMachine ⟨some img, true⟩ c (restale stale rd) τ) := by
  simp only [usbhBtStMachine, h.alike.loadingFw, h.loading, ne_eq, not_false_eq_true, if_true]
  split_ifs
  · exact ⟨rfl, fwSetup_alike h.alike rd.cmd, fun _ => fwSetup_atRest h rd.cmd⟩
  · exact fwLoop_alike ⟨h.alike, fun hb => absurd h.free hb⟩ rd.loop stale
  · exact ⟨rfl, h.alike, fun _ => h⟩

theorem session_alike (h : AtRest σ τ) (polls : List PollReadings) (stale : Int) :
    AlikeLoader (session ⟨some img, true⟩ c polls σ) (session ⟨some img, true⟩ c (polls.map (restale stale)) τ) := by
  induction polls generalizing σ τ with
  | nil => exact h.alike
  | cons rd rds ih =>
      have hp : AlikeResult (usbhBtStMachine ⟨some img, true⟩ c rd σ)
          (usbhBtStMachine ⟨some img, true⟩ c (restale stale rd) τ) := poll_alike h rd stale
      obtain ⟨hret, hsys, hrest⟩ := hp
      simp only [List.map_cons, session, hret]
      split_ifs with hr
      · exact ih (hrest hr)
      · exact hsys

theorem started_atRest (img : Firmware) {dev : Device} (ch : Channels) (bt bt' : BtState) (txBusy txBusy' : Int)
    (hclass : dev.bInterfaceClass ≠ wirelessClass) (hvendor : dev.idVendor = atherosIdVendor)
    (hproduct : dev.idProduct = ar3011IdProduct) :
    AtRest (started ⟨some img, true⟩ dev ch bt txBusy) (started ⟨some img, true⟩ dev ch bt' txBusy') := by
  rw [started_loader rfl ch bt txBusy hclass hvendor hproduct]
  rw [started_loader rfl ch bt' txBusy' hclass hvendor hproduct]
  refine ⟨⟨rfl, rfl, rfl, rfl, rfl, rfl, rfl, ?_, ?_⟩, rfl, show ¬(1 : Int) = 0 by decide⟩
  · exact fun h => absurd rfl h
  · exact fun h => absurd rfl h

/-- Nothing of earlier sessions is seen in a session: whatever the driver and
the transport are left with, the same dongle behind the same channels is
served in the same way, and the same download is made. -/
theorem session_independent (dev : Device) (ch : Channels) (bt bt' : BtState) (txBusy txBusy' : Int) :
    (∀ b inputs, dev.bInterfaceClass = wirelessClass →
      (run (react b h2Client) (opened b dev ch bt' txBusy') inputs).trace =
        (run (react b h2Client) (opened b dev ch bt txBusy) inputs).trace) ∧
    (∀ img c polls stale, dev.bInterfaceClass ≠ wirelessClass → dev.idVendor = atherosIdVendor →
      dev.idProduct = ar3011IdProduct →
      (session ⟨some img, true⟩ c (polls.map (restale stale))
          (started ⟨some img, true⟩ dev ch bt' txBusy')).trace =
        (session ⟨some img, true⟩ c polls (started ⟨some img, true⟩ dev ch bt txBusy)).trace) := by
  constructor
  · intro b inputs hdev
    rw [run_react b h2Client_polite (opened_loadingFw b ch bt txBusy hdev)]
    rw [run_react b h2Client_polite (opened_loadingFw b ch bt' txBusy' hdev)]
    have hstart := opened_alike b ch bt bt' txBusy txBusy' hdev
    exact (run_related (fun _ _ s h => step_alike s h) hstart (inputs.flatMap Input.steps)).trace
  · intro img c polls stale hclass hvendor hproduct
    have hstart := started_atRest img ch bt bt' txBusy txBusy' hclass hvendor hproduct
    exact (session_alike hstart polls stale).trace

/-- What a dongle leaves behind that was pulled out while a command, a packet
and an event were on their way. -/
def interrupted : BtState :=
  { BtState.zero with
    cmdPacket := (Buffer.zero _).memcpy [0x03, 0x0c, 0x00], cmdBusy := 1, cmdState := 1, cmdLen := 3
    acloPacket := (Buffer.zero _).memcpy [0xff, 0xff], acloBusy := 1, acloState := 1, acloLen := 2
    evtState := 1, evtTmo := 77, acliState := 1 }

def resetInput : Input := .call (.send .hciCommandDataPacket [0x03, 0x0c, 0x00])

theorem replugged_device_starts_afresh :
    (run (react plain h2Client) (opened plain dongle dongleChannels interrupted 1) [resetInput]).trace =
        (run (react plain h2Client) (opened plain dongle dongleChannels .zero 0) [resetInput]).trace ∧
      (session ⟨some smallImage, true⟩ dummyClient (loaderPolls.map (restale 5))
          (started ⟨some smallImage, true⟩ ar3011 dongleChannels interrupted 1)).trace =
        (session ⟨some smallImage, true⟩ dummyClient loaderPolls
          (started ⟨some smallImage, true⟩ ar3011 dongleChannels .zero 0)).trace :=
  ⟨(session_independent dongle dongleChannels .zero interrupted 0 1).1 plain [resetInput] rfl,
    (session_independent ar3011 dongleChannels .zero interrupted 0 1).2 smallImage dummyClient loaderPolls 5
      (by decide) rfl rfl⟩

end Uubt.Independence
