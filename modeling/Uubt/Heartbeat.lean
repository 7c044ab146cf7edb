import Uubt.HostLibrary
import Uubt.Runs

namespace Uubt.Heartbeat

open HostLibrary Runs

def heartbeatPeriodMs : Nat := 1000

inductive EventCode
  | btstackEventState
  | hciEventCommandComplete
  | hciEventLinkKeyRequest
  | hciEventPinCodeRequest
  | rfcommEventIncomingConnection
  | rfcommEventOpenChannelComplete
  | rfcommEventChannelClosed
deriving DecidableEq

inductive HciCmd
  | hciReadBdAddr | hciWriteLocalName
deriving DecidableEq

/-- What the demo has from btstack: the meaning of the first byte of an
event, and the ways to read the rest of it. The handler does not look at the
channel id of RFCOMM_EVENT_CHANNEL_CLOSED, which is part of that event. -/
structure Btstack where
  eventCode : UInt8 → Option EventCode
  hciStateWorking : UInt8
  commandCompleteEvent : List UInt8 → HciCmd → Bool
  readBt16 : List UInt8 → Nat → UInt16
  btFlipAddr : List UInt8 → List UInt8
  closedCid : List UInt8 → UInt16

inductive BtCall
  | hciWriteLocalName (name : String)
  | hciDiscoverableControl (enable : Nat)
  | hciLinkKeyRequestNegativeReply (addr : List UInt8)
  | hciPinCodeRequestReply (addr : List UInt8) (len : Nat) (pin : String)
  | rfcommAcceptConnection (cid : UInt16)
  | rfcommSend (cid : UInt16) (line : List Char)
  | runLoopSetTimer (ms : Nat)
  | runLoopAddTimer
deriving DecidableEq

/-- The static variables of main.c, and the calls into btstack so far. The
bits of counter are kept as %u shows them. -/
structure App where
  rfcommChannelId : UInt16
  counter : UInt32
  calls : List BtCall

def App.call (app : App) (x : BtCall) : App := { app with calls := app.calls ++ [x] }

/-- A byte of an event. Behind its end the model reads 0; the events are as
long as their cases need them. -/
def octet (packet : List UInt8) (i : Nat) : UInt8 := packet.getD i 0

def packetHandler (bts : Btstack) (type : PacketType) (packet : List UInt8) (app : App) : App :=
  if type = .hciEventPacket then
    match bts.eventCode (octet packet 0) with
    | some .btstackEventState =>
        if octet packet 2 = bts.hciStateWorking then app.call (.hciWriteLocalName "BlueMSP-Demo") else app
    | some .hciEventCommandComplete =>
        if bts.commandCompleteEvent packet .hciReadBdAddr then app
        else if bts.commandCompleteEvent packet .hciWriteLocalName then app.call (.hciDiscoverableControl 1)
        else app
    | some .hciEventLinkKeyRequest => app.call (.hciLinkKeyRequestNegativeReply (bts.btFlipAddr (packet.drop 2)))
    | some .hciEventPinCodeRequest => app.call (.hciPinCodeRequestReply (bts.btFlipAddr (packet.drop 2)) 4 "0000")
    | some .rfcommEventIncomingConnection =>
        let app := { app with rfcommChannelId := bts.readBt16 packet 9 }
        app.call (.rfcommAcceptConnection app.rfcommChannelId)
    | some .rfcommEventOpenChannelComplete =>
        if octet packet 2 ≠ 0 then app else { app with rfcommChannelId := bts.readBt16 packet 12 }
    | some .rfcommEventChannelClosed => { app with rfcommChannelId := 0 }
    | none => app
  else app

def counterLine (counter : UInt32) : List Char :=
  let digits := Nat.toDigits 10 counter.toNat
  "BTstack counter ".toList ++ List.replicate (4 - digits.length) '0' ++ digits ++ "\r\n".toList

/-- lineBuffer holds every line, with the zero behind it. -/
theorem counterLine_fits (counter : UInt32) : (counterLine counter).length + 1 ≤ 30 := by
  have hd : (Nat.toDigits 10 counter.toNat).length ≤ 10 := by
    have hlt := counter.toNat_lt
    rw [Nat.length_toDigits_le_iff (by decide) (by decide)]
    omega
  have hhead : "BTstack counter ".toList.length = 16 := rfl
  have htail : "\r\n".toList.length = 2 := rfl
  unfold counterLine
  generalize Nat.toDigits 10 counter.toNat = digits at hd ⊢
  simp only [List.length_append, List.length_replicate, hhead, htail]
  omega

def heartbeatHandler (app : App) : App :=
  let app :=
    if app.rfcommChannelId ≠ 0 then
      let app := { app with counter := app.counter + 1 }
      app.call (.rfcommSend app.rfcommChannelId (counterLine app.counter))
    else app
  (app.call (.runLoopSetTimer heartbeatPeriodMs)).call .runLoopAddTimer

inductive RfcommEvent
  | incomingConnection (cid : UInt16)
  | openChannelComplete (status : UInt8) (cid : UInt16)
  | channelClosed (cid : UInt16)
deriving DecidableEq

def rfcommEvent (bts : Btstack) (type : PacketType) (packet : List UInt8) : Option RfcommEvent :=
  if type = .hciEventPacket then
    match bts.eventCode (octet packet 0) with
    | some .rfcommEventIncomingConnection => some (.incomingConnection (bts.readBt16 packet 9))
    | some .rfcommEventOpenChannelComplete => some (.openChannelComplete (octet packet 2) (bts.readBt16 packet 12))
    | some .rfcommEventChannelClosed => some (.channelClosed (bts.closedCid packet))
    | _ => none
  else none

def liveAfter (live : Option UInt16) : RfcommEvent → Option UInt16
  | .incomingConnection cid => some cid
  | .openChannelComplete status cid => if status = 0 then some cid else if live = some cid then none else live
  | .channelClosed cid => if live = some cid then none else live

/-- There is one channel at a time, and its id is not 0. -/
def AtMostOne (live : Option UInt16) : RfcommEvent → Prop
  | .incomingConnection cid => cid ≠ 0 ∧ (live = none ∨ live = some cid)
  | .openChannelComplete status cid => status = 0 → cid ≠ 0 ∧ (live = none ∨ live = some cid)
  | .channelClosed cid => live = none ∨ live = some cid

instance (live : Option UInt16) : ∀ e, Decidable (AtMostOne live e)
  | .incomingConnection cid => inferInstanceAs (Decidable (cid ≠ 0 ∧ (live = none ∨ live = some cid)))
  | .openChannelComplete status cid =>
      inferInstanceAs (Decidable (status = 0 → cid ≠ 0 ∧ (live = none ∨ live = some cid)))
  | .channelClosed cid => inferInstanceAs (Decidable (live = none ∨ live = some cid))

def FailsToOpen (live : Option UInt16) : RfcommEvent → Prop
  | .openChannelComplete status cid => status ≠ 0 ∧ live = some cid
  | .incomingConnection _ | .channelClosed _ => False

instance (live : Option UInt16) : ∀ e, Decidable (FailsToOpen live e)
  | .openChannelComplete status cid => inferInstanceAs (Decidable (status ≠ 0 ∧ live = some cid))
  | .incomingConnection _ | .channelClosed _ => inferInstanceAs (Decidable False)

inductive Delivery
  | packet (type : PacketType) (packet : List UInt8)
  | heartbeat

structure World where
  app : App
  live : Option UInt16

def follow (bts : Btstack) (w : World) : Delivery → World
  | .packet type packet =>
      ⟨packetHandler bts type packet w.app, (rfcommEvent bts type packet).elim w.live (liveAfter w.live)⟩
  | .heartbeat => ⟨heartbeatHandler w.app, w.live⟩

def powerUp : World := ⟨⟨0, 0, []⟩, none⟩

def Allowed (bts : Btstack) (w : World) : Delivery → Prop
  | .packet type packet => ∀ e ∈ rfcommEvent bts type packet, AtMostOne w.live e
  | .heartbeat => True

instance (bts : Btstack) (w : World) : ∀ d, Decidable (Allowed bts w d)
  | .packet type packet => inferInstanceAs (Decidable (∀ e ∈ rfcommEvent bts type packet, AtMostOne w.live e))
  | .heartbeat => inferInstanceAs (Decidable True)

def NoFailedOpen (bts : Btstack) (w : World) : Delivery → Prop
  | .packet type packet => ∀ e ∈ rfcommEvent bts type packet, ¬FailsToOpen w.live e
  | .heartbeat => True

instance (bts : Btstack) (w : World) : ∀ d, Decidable (NoFailedOpen bts w d)
  | .packet type packet => inferInstanceAs (Decidable (∀ e ∈ rfcommEvent bts type packet, ¬FailsToOpen w.live e))
  | .heartbeat => inferInstanceAs (Decidable True)

def recipient : BtCall → Option UInt16
  | .rfcommSend cid _ => some cid
  | _ => none

def App.recipients (app : App) : List UInt16 := app.calls.filterMap recipient

def OnTarget (w : World) : Prop := w.app.rfcommChannelId = w.live.getD 0

instance (w : World) : Decidable (OnTarget w) := inferInstanceAs (Decidable (_ = _))

/-- Behind the delivery the variable has the live channel, and a heartbeat
has sent one line, to that channel, or none. -/
def HitsTarget (bts : Btstack) (w : World) (d : Delivery) : Prop :=
  OnTarget (follow bts w d) ∧ match d with
    | .heartbeat => (heartbeatHandler w.app).recipients = w.app.recipients ++ w.live.toList
    | .packet _ _ => True

instance (bts : Btstack) (w : World) : ∀ d, Decidable (HitsTarget bts w d)
  | .heartbeat => inferInstanceAs (Decidable (OnTarget (follow bts w .heartbeat) ∧
      (heartbeatHandler w.app).recipients = w.app.recipients ++ w.live.toList))
  | .packet type packet => inferInstanceAs (Decidable (OnTarget (follow bts w (.packet type packet)) ∧ True))

def idAfter (id : UInt16) : RfcommEvent → UInt16
  | .incomingConnection cid => cid
  | .openChannelComplete status cid => if status = 0 then cid else id
  | .channelClosed _ => 0

@[simp] theorem call_recipients (app : App) (x : BtCall) :
    (app.call x).recipients = app.recipients ++ (recipient x).toList := by
  simp only [App.recipients, App.call, List.filterMap_append, List.filterMap_cons, List.filterMap_nil]
  cases recipient x <;> rfl

variable {bts : Btstack} {w : World}

theorem packetHandler_channelId (bts : Btstack) (type : PacketType) (packet : List UInt8) (app : App) :
    (packetHandler bts type packet app).rfcommChannelId =
      (rfcommEvent bts type packet).elim app.rfcommChannelId (idAfter app.rfcommChannelId) := by
  rw [packetHandler, rfcommEvent]
  split
  · cases bts.eventCode (octet packet 0) with
    | none => rfl
    | some code =>
        cases code with
        | btstackEventState | hciEventCommandComplete => dsimp only; split_ifs <;> rfl
        | rfcommEventOpenChannelComplete =>
            by_cases hs : octet packet 2 = 0 <;> simp [hs, idAfter]
        | _ => rfl
  · rfl

theorem heartbeatHandler_channelId (app : App) :
    (heartbeatHandler app).rfcommChannelId = app.rfcommChannelId := by
  rw [heartbeatHandler]
  split <;> rfl

theorem heartbeatHandler_recipients (app : App) : (heartbeatHandler app).recipients =
    app.recipients ++ if app.rfcommChannelId = 0 then [] else [app.rfcommChannelId] := by
  by_cases h0 : app.rfcommChannelId = 0
  · simp [heartbeatHandler, h0, recipient]
  · simp only [heartbeatHandler, h0, ne_eq, not_false_eq_true, if_true, if_false, call_recipients, recipient,
      Option.toList_none, List.append_nil]
    rfl

structure Tracks (w : World) : Prop where
  onTarget : OnTarget w
  nonzero : ∀ cid, w.live = some cid → cid ≠ 0

theorem tracks_powerUp : Tracks powerUp := ⟨rfl, by simp [powerUp]⟩

theorem Tracks.heartbeat (h : Tracks w) :
    (heartbeatHandler w.app).recipients = w.app.recipients ++ w.live.toList := by
  have hid : w.app.rfcommChannelId = w.live.getD 0 := h.onTarget
  rw [heartbeatHandler_recipients, hid]
  cases hl : w.live with
  | none => rfl
  | some cid =>
      have hn := h.nonzero cid hl
      simp [hn]

/-- The variable follows the live channel through every event but one. -/
theorem idAfter_live {live : Option UInt16} (hn : ∀ cid, live = some cid → cid ≠ 0) {e : RfcommEvent}
    (ho : AtMostOne live e) : idAfter (live.getD 0) e = (liveAfter live e).getD 0 ↔ ¬FailsToOpen live e := by
  cases e with
  | incomingConnection cid => simp [idAfter, liveAfter, FailsToOpen]
  | openChannelComplete status cid =>
      by_cases hs : status = 0
      · simp [idAfter, liveAfter, FailsToOpen, hs]
      · by_cases hl : live = some cid
        · simp [idAfter, liveAfter, FailsToOpen, hs, hl, hn cid hl]
        · simp [idAfter, liveAfter, FailsToOpen, hs, hl]
  | channelClosed cid =>
      rcases ho with hl | hl <;> simp [idAfter, liveAfter, FailsToOpen, hl]

theorem liveAfter_nonzero {live : Option UInt16} (hn : ∀ cid, live = some cid → cid ≠ 0) {e : RfcommEvent}
    (ho : AtMostOne live e) : ∀ cid, liveAfter live e = some cid → cid ≠ 0 := by
  intro cid hl
  cases e with
  | incomingConnection cid' =>
      obtain rfl := Option.some.inj hl
      exact ho.1
  | openChannelComplete status cid' =>
      rw [liveAfter] at hl
      split_ifs at hl with hs
      · obtain rfl := Option.some.inj hl
        exact (ho hs).1
      · exact hn cid hl
  | channelClosed cid' =>
      rw [liveAfter] at hl
      split_ifs at hl
      exact hn cid hl

theorem follow_hitsTarget (h : Tracks w) (d : Delivery) (ho : Allowed bts w d) :
    HitsTarget bts w d ↔ NoFailedOpen bts w d := by
  cases d with
  | heartbeat =>
      refine iff_of_true ⟨?_, h.heartbeat⟩ trivial
      exact (heartbeatHandler_channelId w.app).trans h.onTarget
  | packet type packet =>
      have hid : w.app.rfcommChannelId = w.live.getD 0 := h.onTarget
      rw [HitsTarget, and_true, NoFailedOpen, OnTarget, follow, packetHandler_channelId, hid]
      cases he : rfcommEvent bts type packet with
      | none => simp
      | some e =>
          have hio := idAfter_live h.nonzero (ho e he)
          simpa using hio

theorem follow_tracks (h : Tracks w) (d : Delivery) (ho : Allowed bts w d) (ht : HitsTarget bts w d) :
    Tracks (follow bts w d) := by
  refine ⟨ht.1, ?_⟩
  cases d with
  | heartbeat => exact h.nonzero
  | packet type packet =>
      rw [follow]
      cases he : rfcommEvent bts type packet with
      | none => exact h.nonzero
      | some e => exact liveAfter_nonzero h.nonzero (ho e he)

/-- Along every history of events the variable has the id of the live
channel and each heartbeat goes there, if and only if no live channel fails
to open. -/
theorem heartbeat_on_target_iff (bts : Btstack) (deliveries : List Delivery)
    (h : Along (follow bts) (Allowed bts) powerUp deliveries) :
    Along (follow bts) (HitsTarget bts) powerUp deliveries ↔
      Along (follow bts) (NoFailedOpen bts) powerUp deliveries :=
  along_congr (fun _ d hw ho => follow_hitsTarget hw d ho) (fun _ d hw ho ht => follow_tracks hw d ho ht)
    tracks_powerUp h

def littleEndian (packet : List UInt8) (i : Nat) : UInt16 :=
  (octet packet i).toUInt16 ||| ((octet packet (i + 1)).toUInt16 <<< 8)

def btstack : Btstack where
  eventCode
    | 0x60 => some .btstackEventState
    | 0x0e => some .hciEventCommandComplete
    | 0x17 => some .hciEventLinkKeyRequest
    | 0x16 => some .hciEventPinCodeRequest
    | 0x82 => some .rfcommEventIncomingConnection
    | 0x80 => some .rfcommEventOpenChannelComplete
    | 0x81 => some .rfcommEventChannelClosed
    | _ => none
  hciStateWorking := 2
  commandCompleteEvent packet cmd := littleEndian packet 3 = match cmd with
    | .hciReadBdAddr => 0x1009
    | .hciWriteLocalName => 0x0c13
  readBt16 := littleEndian
  btFlipAddr addr := (addr.take 6).reverse
  closedCid packet := littleEndian packet 2

def incoming (cid : UInt8) : Delivery :=
  .packet .hciEventPacket [0x82, 9, 1, 2, 3, 4, 5, 6, 1, cid, 0]

def openComplete (status cid : UInt8) : Delivery :=
  .packet .hciEventPacket [0x80, 14, status, 1, 2, 3, 4, 5, 6, 0x2a, 0, 1, cid, 0, 100, 0]

def closed (cid : UInt8) : Delivery := .packet .hciEventPacket [0x81, 2, cid, 0]

def reconnection : List Delivery :=
  [.heartbeat, incoming 1, openComplete 0 1, .heartbeat, closed 1, .heartbeat, openComplete 3 0,
    .packet .hciEventPacket [0x60, 1, 2], .packet .hciAclDataPacket [0x82, 0, 0, 0], incoming 2, openComplete 0 2,
    .heartbeat]

theorem reconnection_on_target :
    Along (follow btstack) (HitsTarget btstack) powerUp reconnection ∧
      (run (follow btstack) powerUp reconnection).app.recipients = [1, 2] :=
  ⟨(heartbeat_on_target_iff btstack reconnection (by decide)).mpr (by decide), by decide⟩

/-- A peer is accepted, and then its channel does not open: the next line
goes to a channel that is gone. -/
theorem failed_open_keeps_the_id :
    Along (follow btstack) (Allowed btstack) powerUp [incoming 1, openComplete 1 1, .heartbeat] ∧
      ¬OnTarget (run (follow btstack) powerUp [incoming 1, openComplete 1 1]) ∧
      (run (follow btstack) powerUp [incoming 1, openComplete 1 1]).live = none ∧
      (run (follow btstack) powerUp [incoming 1, openComplete 1 1, .heartbeat]).app.recipients = [1] := by
  decide

end Uubt.Heartbeat
