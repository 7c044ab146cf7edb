import Uubt.Lifecycle

namespace Uubt.Mailboxes

open ByteBuffer History HostLibrary Driver Transport Endpoints Clients ClassDriver Moves LoaderMoves Frames FirmwareLoading Runs
  Lifecycle

/-- What waits in a session: for each kind, the packet that was taken last
and has not ended. A dongle that comes finds both boxes empty. -/
structure Mail where
  wireless : Bool
  cmd : Option (List UInt8)
  acl : Option (List UInt8)

def Mail.put (m : Mail) (packet : List UInt8) : PacketType → Mail
  | .hciCommandDataPacket => { m with cmd := some packet }
  | .hciAclDataPacket => { m with acl := some packet }
  | _ => m

/-- Packets come to the driver from a user of hal_ub_tx_packet, or from the
stack by way of h2_send_packet. -/
inductive Entry
  | hal | transport
deriving DecidableEq

def mailStep (en : Entry) (m : Mail) : Event → Mail
  | .allocChannel .evt _ => ⟨false, none, none⟩
  | .openChannel _ _ _ .intr _ => { m with wireless := true }
  | .txPacket type packet ret => if en = .hal ∧ ret = 0 then m.put packet type else m
  | .sendPacket type packet ret =>
      if en = .transport ∧ ret = 0 then m.put (packet.take (uint16 packet.length)) type else m
  | .ctlReq _ _ .ok | .ctlReq _ _ .fail => { m with cmd := none }
  | .urbState .aclo _ .done => { m with acl := none }
  | _ => m

def mail (en : Entry) : Observer Event Mail := ⟨⟨false, none, none⟩, mailStep en⟩

/-- A packet that goes out to a Bluetooth controller is the one in the
box. -/
def Fresh (en : Entry) (past : Trace) : Event → Prop
  | .ctlReq data len _ =>
      ((mail en).after past).wireless = true → ((mail en).after past).cmd = some data ∧ data.length = len
  | .bulkSend data len _ =>
      ((mail en).after past).wireless = true → ((mail en).after past).acl = some data ∧ data.length = len
  | _ => True

/-- What a user does whose packets all come in by one entry, so that every
one of them is on record. Between these calls it may note what it likes. -/
inductive HalStep (en : Entry) (σ : Sys) : Sys → Prop
  | halCall (h : en = .hal) (x : Call) : HalStep en σ (halCall σ x)
  | stackCall (h : en = .transport) (x : Call) : HalStep en σ (stackCall σ x)
  | note {e : Event} (he : ByClient e) (hn : ∀ m, mailStep en m e = m) : HalStep en σ (σ.emit e)
  | lock (txBusy : Int) : HalStep en σ { σ with txBusy := txBusy }

abbrev HalAct (en : Entry) (σ σ' : Sys) : Prop := Relation.ReflTransGen (HalStep en) σ σ'

structure Recorded (en : Entry) (c : Client) : Prop where
  call : ∀ σ x, HalAct en σ (c.call σ x)
  rxHandler : ∀ type packet size calls σ, HalAct en σ (c.rxHandler type packet size calls σ)
  txEndHandler : ∀ type calls σ, HalAct en σ (c.txEndHandler type calls σ)

def RecordedUser (en : Entry) : Callback → Prop
  | .poll u _ | .call u _ => Recorded en u.client
  | _ => True

def mailOf (en : Entry) (σ : Sys) : Mail := (mail en).after σ.trace

/-- What waits in a buffer is what the box of its kind holds. -/
structure Box (wireless : Bool) (mail : Option (List UInt8)) (busy : Int) {n : Nat} (packet : Buffer n)
    (len : Nat) : Prop where
  full : wireless = true → busy ≠ 0 → mail = some (packet.read len)
  fits : wireless = true → busy ≠ 0 → len ≤ n

abbrev CmdBox (en : Entry) (σ : Sys) : Prop :=
  Box (mailOf en σ).wireless (mailOf en σ).cmd σ.bt.cmdBusy σ.bt.cmdPacket σ.bt.cmdLen

abbrev AclBox (en : Entry) (σ : Sys) : Prop :=
  Box (mailOf en σ).wireless (mailOf en σ).acl σ.bt.acloBusy σ.bt.acloPacket σ.bt.acloLen

structure Orderly (en : Entry) (σ : Sys) : Prop where
  fresh : AtEach (Fresh en) σ.trace
  normal : (mailOf en σ).wireless = true → σ.bt.loadingFw = 0

structure InSession (en : Entry) (σ : Sys) : Prop where
  orderly : Orderly en σ
  cmd : CmdBox en σ
  acl : AclBox en σ

variable {en : Entry} {σ σ' : Sys} {c : Client}

theorem Mail.put_wireless (m : Mail) (packet : List UInt8) (type : PacketType) :
    (m.put packet type).wireless = m.wireless := by
  cases type <;> rfl

theorem mailOf_emit (e : Event) (σ : Sys) : mailOf en (σ.emit e) = mailStep en (mailOf en σ) e :=
  (mail en).after_concat _ _

theorem fresh_client {e : Event} (he : ByClient e) (past : Trace) : Fresh en past e := by
  cases e with
  | ctlReq | bulkSend => cases he
  | _ => trivial

theorem HalAct.act (h : HalAct en σ σ') : ClientAct σ σ' := by
  induction h with
  | refl => exact .refl σ
  | tail _ hs ih =>
      refine ih.trans ?_
      cases hs with
      | halCall _ x => exact halCall_act _ x
      | stackCall _ x => exact stackCall_act _ x
      | note he => exact .emit _ he
      | lock => exact ⟨.refl, .refl _ _⟩

inductive SendMove (en : Entry) (packet : List UInt8) (σ : Sys) : Sys → Prop
  | refused {τ : Sys} (hbt : τ.bt = σ.bt) (hm : mailOf en τ = mailOf en σ) : SendMove en packet σ τ
  | cmd {τ : Sys} {size : Nat} (hn : size ≤ packet.length) (hs : size ≤ cmdAlignedMaxSize)
      (hbt : τ.bt = stageCmd packet size σ.bt)
      (hm : mailOf en τ = { mailOf en σ with cmd := some (packet.take size) }) : SendMove en packet σ τ
  | acl {τ : Sys} {size : Nat} (hn : size ≤ packet.length) (hs : size ≤ aclAlignedMaxSize)
      (hbt : τ.bt = stageAcl packet size σ.bt)
      (hm : mailOf en τ = { mailOf en σ with acl := some (packet.take size) }) : SendMove en packet σ τ

theorem offer_moves {τ : Sys} (type : PacketType) (packet : List UInt8)
    (hbt : τ.bt = (halUbTxPacket type packet (uint16 packet.length) σ.bt).2)
    (hm : mailOf en τ = if (halUbTxPacket type packet (uint16 packet.length) σ.bt).1 = 0 then
      (mailOf en σ).put (packet.take (uint16 packet.length)) type else mailOf en σ) : SendMove en packet σ τ := by
  have hmove := tx_moves type packet (uint16 packet.length) σ.bt
  generalize halUbTxPacket type packet (uint16 packet.length) σ.bt = r at hmove hbt hm
  cases hmove with
  | refused => exact .refused hbt hm
  | cmd hb hs => exact .cmd (uint16_le _) hs hbt hm
  | acl hb hs => exact .acl (uint16_le _) hs hbt hm

theorem halCall_moves (type : PacketType) (packet : List UInt8) (σ : Sys) :
    SendMove .hal packet σ (halCall σ (.send type packet)) := by
  refine offer_moves type packet rfl ?_
  refine ((mail .hal).after_concat _ _).trans ?_
  change (if Entry.hal = .hal ∧ _ = 0 then _ else _) = _
  simp only [true_and]
  rfl

/-- A call of h2_send_packet is no offer to the driver, or one. -/
theorem stackCall_moves (type : PacketType) (packet : List UInt8) (σ : Sys) :
    SendMove .transport packet σ (stackCall σ (.send type packet)) := by
  by_cases ht : σ.txBusy = 0
  · rw [stackCall, send_open ht]
    refine offer_moves type packet rfl ?_
    refine ((mail .transport).after_concat _ _).trans ?_
    change (if Entry.transport = .transport ∧ _ = 0 then _ else _) = _
    simp only [true_and]
    rfl
  · rw [stackCall, send_locked ht]
    exact .refused rfl (mailOf_emit _ _)

theorem step_moves (h : HalStep en σ σ') : ∃ packet, SendMove en packet σ σ' := by
  cases h with
  | halCall h x =>
      subst h
      cases x with
      | send type packet => exact ⟨packet, halCall_moves type packet σ⟩
      | canSend type => exact ⟨[], .refused rfl rfl⟩
  | stackCall h x =>
      subst h
      cases x with
      | send type packet => exact ⟨packet, stackCall_moves type packet σ⟩
      | canSend type => exact ⟨[], .refused rfl (mailOf_emit _ _)⟩
  | note he hn => exact ⟨[], .refused rfl ((mailOf_emit _ _).trans (hn _))⟩
  | lock txBusy => exact ⟨[], .refused rfl rfl⟩

theorem HalAct.induct {I : Sys → Prop} (h : HalAct en σ σ') (hσ : I σ)
    (hmove : ∀ τ τ' packet, I τ → SendMove en packet τ τ' → I τ') : I σ' := by
  induction h with
  | refl => exact hσ
  | tail _ hs ih =>
      obtain ⟨packet, hm⟩ := step_moves hs
      exact hmove _ _ packet ih hm

theorem read_staged {n : Nat} (buf : Buffer n) (packet : List UInt8) {size : Nat} (hn : size ≤ packet.length)
    (hs : size ≤ n) : (buf.memcpy (packet.take size)).read size = packet.take size := by
  rw [Buffer.read_memcpy_take buf packet hn, List.take_take, Nat.min_eq_right hs]

theorem Box.congr {w w' : Bool} {m m' : Option (List UInt8)} {busy busy' : Int} {n : Nat} {buf buf' : Buffer n}
    {len len' : Nat} (h : Box w m busy buf len) (hw : w' = w) (hm : m' = m) (hb : busy' = busy) (hp : buf' = buf)
    (hl : len' = len) : Box w' m' busy' buf' len' := by
  subst hw hm hb hp hl
  exact h

theorem Box.empty {w : Bool} {m : Option (List UInt8)} {busy : Int} {n : Nat} {buf : Buffer n} {len : Nat}
    (hb : busy = 0) : Box w m busy buf len :=
  ⟨fun _ h => absurd hb h, fun _ h => absurd hb h⟩

theorem Box.off {w : Bool} {m : Option (List UInt8)} {busy : Int} {n : Nat} {buf : Buffer n} {len : Nat}
    (hw : w = false) : Box w m busy buf len := by
  subst hw
  exact ⟨fun h => Bool.noConfusion h, fun h => Bool.noConfusion h⟩

theorem Box.staged {w : Bool} {busy : Int} {n size : Nat} (buf : Buffer n) (packet : List UInt8)
    (hn : size ≤ packet.length) (hs : size ≤ n) :
    Box w (some (packet.take size)) busy (buf.memcpy (packet.take size)) size :=
  ⟨fun _ _ => congrArg some (read_staged buf packet hn hs).symm, fun _ _ => hs⟩

theorem CmdBox.emit (h : CmdBox en σ) {e : Event} (hw : (mailStep en (mailOf en σ) e).wireless = (mailOf en σ).wireless)
    (hm : (mailStep en (mailOf en σ) e).cmd = (mailOf en σ).cmd) : CmdBox en (σ.emit e) :=
  h.congr (by rw [mailOf_emit, hw]) (by rw [mailOf_emit, hm]) rfl rfl rfl

theorem AclBox.emit (h : AclBox en σ) {e : Event} (hw : (mailStep en (mailOf en σ) e).wireless = (mailOf en σ).wireless)
    (hm : (mailStep en (mailOf en σ) e).acl = (mailOf en σ).acl) : AclBox en (σ.emit e) :=
  h.congr (by rw [mailOf_emit, hw]) (by rw [mailOf_emit, hm]) rfl rfl rfl

/-- The two boxes do not disturb each other: a packet of one kind may be
taken while the other machine is in the middle of its work. -/
theorem CmdBox.act (h : CmdBox en σ) (ha : HalAct en σ σ') : CmdBox en σ' := by
  refine ha.induct (I := CmdBox en) h fun τ τ' packet hτ hmove => ?_
  cases hmove with
  | refused hbt hm => exact hτ.congr (by rw [hm]) (by rw [hm]) (by rw [hbt]) (by rw [hbt]) (by rw [hbt])
  | acl hn hs hbt hm =>
      exact hτ.congr (by rw [hm]) (by rw [hm]) (by rw [hbt]; rfl) (by rw [hbt]; rfl) (by rw [hbt]; rfl)
  | cmd hn hs hbt hm =>
      rw [CmdBox, hm, hbt]
      exact .staged _ packet hn hs

theorem AclBox.act (h : AclBox en σ) (ha : HalAct en σ σ') : AclBox en σ' := by
  refine ha.induct (I := AclBox en) h fun τ τ' packet hτ hmove => ?_
  cases hmove with
  | refused hbt hm => exact hτ.congr (by rw [hm]) (by rw [hm]) (by rw [hbt]) (by rw [hbt]) (by rw [hbt])
  | cmd hn hs hbt hm =>
      exact hτ.congr (by rw [hm]) (by rw [hm]) (by rw [hbt]; rfl) (by rw [hbt]; rfl) (by rw [hbt]; rfl)
  | acl hn hs hbt hm =>
      rw [AclBox, hm, hbt]
      exact .staged _ packet hn hs

def Plain (en : Entry) (e : Event) : Prop := (∀ m, mailStep en m e = m) ∧ ∀ past, Fresh en past e

theorem Orderly.emit (h : Orderly en σ) {e : Event} (hf : Fresh en σ.trace e)
    (hw : (mailStep en (mailOf en σ) e).wireless = (mailOf en σ).wireless) : Orderly en (σ.emit e) where
  fresh := (atEach_concat _ _ _).mpr ⟨h.fresh, hf⟩
  normal := by
    rw [mailOf_emit, hw]
    exact h.normal

theorem Orderly.act (h : Orderly en σ) (ha : HalAct en σ σ') : Orderly en σ' where
  fresh := ha.act.events.atEach h.fresh fun past _ he => fresh_client he past
  normal := by
    have hwire : (mailOf en σ').wireless = (mailOf en σ).wireless := by
      refine ha.induct (I := fun τ => (mailOf en τ).wireless = (mailOf en σ).wireless) rfl fun τ τ' packet hτ hmove => ?_
      cases hmove with
      | refused _ hm | cmd _ _ _ hm | acl _ _ _ hm => exact (congrArg Mail.wireless hm).trans hτ
    rw [hwire, ha.act.reach.sameReceiver.loadingFw]
    exact h.normal

theorem InSession.act (h : InSession en σ) (ha : HalAct en σ σ') : InSession en σ' :=
  ⟨h.orderly.act ha, h.cmd.act ha, h.acl.act ha⟩

theorem InSession.emit (h : InSession en σ) {e : Event} (he : Plain en e) : InSession en (σ.emit e) :=
  ⟨h.orderly.emit (he.2 _) (by rw [he.1]), h.cmd.emit (by rw [he.1]) (by rw [he.1]),
    h.acl.emit (by rw [he.1]) (by rw [he.1])⟩

theorem InSession.write (h : InSession en σ) {f : BtState → BtState} (hl : (f σ.bt).loadingFw = σ.bt.loadingFw)
    (hc : CmdBox en (σ.write f)) (ha : AclBox en (σ.write f)) : InSession en (σ.write f) :=
  ⟨⟨h.orderly.fresh, fun hw => hl.trans (h.orderly.normal hw)⟩, hc, ha⟩

theorem rxHandler_inSession (hc : Recorded en c) (h : InSession en σ) (type : PacketType) (packet : List UInt8) (len : Nat)
    (calls : List Call) : InSession en (callRxHandler c type packet len calls σ) := by
  have hrx : Plain en (.rx type (packet.take (uint16 len)) (uint16 len)) := ⟨fun _ => rfl, fun _ => trivial⟩
  have hret : Plain en (.rxReturn type) := ⟨fun _ => rfl, fun _ => trivial⟩
  exact ((h.emit hrx).act (hc.rxHandler _ _ _ _ _)).emit hret

theorem Orderly.txEnd (h : Orderly en σ) (hc : Recorded en c) (type : PacketType) (calls : List Call) :
    Orderly en (callTxEndHandler c type calls σ) :=
  have hend : Orderly en (σ.emit (.txEnd type)) := h.emit trivial rfl
  hend.act (hc.txEndHandler _ _ _)

theorem CmdBox.txEnd (h : CmdBox en σ) (hc : Recorded en c) (type : PacketType) (calls : List Call) :
    CmdBox en (callTxEndHandler c type calls σ) :=
  have hend : CmdBox en (σ.emit (.txEnd type)) := h.emit rfl rfl
  hend.act (hc.txEndHandler _ _ _)

theorem AclBox.txEnd (h : AclBox en σ) (hc : Recorded en c) (type : PacketType) (calls : List Call) :
    AclBox en (callTxEndHandler c type calls σ) :=
  have hend : AclBox en (σ.emit (.txEnd type)) := h.emit rfl rfl
  hend.act (hc.txEndHandler _ _ _)

theorem evt_inSession (hc : Recorded en c) (h : InSession en σ) (rd : EvtReadings) :
    InSession en (usbBtEvtProcess c rd σ).2 := by
  have hm := evt_moves c rd σ
  generalize (usbBtEvtProcess c rd σ).2 = σ' at hm ⊢
  have hf : InSession en (σ.emit (.currentFrame rd.frame)) := h.emit ⟨fun _ => rfl, fun _ => trivial⟩
  have hr : InSession en (evtRead rd σ) := hf.emit ⟨fun _ => rfl, fun _ => trivial⟩
  have hclr : InSession en ((evtRead rd σ).emit (.clrFeature .evt σ.bt.evtHcn rd.clr)) :=
    hr.emit ⟨fun _ => rfl, fun _ => trivial⟩
  cases hm with
  | submit =>
      have hs : InSession en ((σ.emit (.currentFrame rd.frame)).emit (.interruptReceive evtAlignedMaxSize σ.bt.evtHcn)) :=
        hf.emit ⟨fun _ => rfl, fun _ => trivial⟩
      exact hs.write rfl hs.cmd hs.acl
  | expire | rearm => exact hf.write rfl hf.cmd hf.acl
  | deliver =>
      have hd := rxHandler_inSession hc hr .hciEventPacket rd.received rd.received.length rd.calls
      exact hd.write rfl hd.cmd hd.acl
  | clear => exact hclr.write rfl hclr.cmd hclr.acl
  | stalled => exact hclr
  | wait => exact hr
  | rest | lost => exact hf

theorem acli_inSession (hc : Recorded en c) (h : InSession en σ) (rd : AcliReadings) :
    InSession en (usbBtAcliProcess c rd σ).2 := by
  have hm := acli_moves c rd σ
  generalize (usbBtAcliProcess c rd σ).2 = σ' at hm ⊢
  have hr : InSession en (acliRead rd σ) := h.emit ⟨fun _ => rfl, fun _ => trivial⟩
  have hclr : InSession en ((acliRead rd σ).emit (.clrFeature .acli σ.bt.acliHcn rd.clr)) :=
    hr.emit ⟨fun _ => rfl, fun _ => trivial⟩
  cases hm with
  | submit =>
      have hs : InSession en (σ.emit (.bulkReceive aclAlignedMaxSize σ.bt.acliHcn)) :=
        h.emit ⟨fun _ => rfl, fun _ => trivial⟩
      exact hs.write rfl hs.cmd hs.acl
  | deliver =>
      have hd := rxHandler_inSession hc hr .hciAclDataPacket rd.received rd.received.length rd.calls
      exact hd.write rfl hd.cmd hd.acl
  | clear => exact hclr.write rfl hclr.cmd hclr.acl
  | stalled => exact hclr
  | wait => exact hr
  | lost => exact h

theorem cmdStart_inSession (h : InSession en σ) : InSession en (cmdStart σ) := by
  rw [cmdStart]
  split
  · have hs : InSession en (σ.emit (.setSetup (cmdSetup σ.bt.cmdLen))) := h.emit ⟨fun _ => rfl, fun _ => trivial⟩
    exact hs.write rfl hs.cmd hs.acl
  · exact h

theorem cmdRequest_inSession (h : InSession en σ) (hb : σ.bt.cmdBusy ≠ 0) (st : UsbhStatus) :
    Orderly en (cmdRequest st σ) ∧ AclBox en (cmdRequest st σ) ∧
      (st ≠ .ok → st ≠ .fail → CmdBox en (cmdRequest st σ)) := by
  have hs := cmdStart_inSession h
  obtain ⟨s, hbt⟩ := cmdStart_bt σ
  rw [cmdRequest_eq]
  have hbusy : (cmdStart σ).bt.cmdBusy ≠ 0 := by rwa [hbt]
  generalize cmdStart σ = τ at hs hbusy ⊢
  have hfresh : Fresh en τ.trace (.ctlReq (τ.bt.cmdPacket.read τ.bt.cmdLen) τ.bt.cmdLen st) := fun hw =>
    ⟨hs.cmd.full hw hbusy, by rw [Buffer.length_read, Nat.min_eq_left (hs.cmd.fits hw hbusy)]⟩
  have hwire : (mailStep en (mailOf en τ) (.ctlReq (τ.bt.cmdPacket.read τ.bt.cmdLen) τ.bt.cmdLen st)).wireless =
      (mailOf en τ).wireless := by cases st <;> rfl
  refine ⟨hs.orderly.emit hfresh hwire, hs.acl.emit hwire (by cases st <;> rfl), fun hok hfail => ?_⟩
  exact hs.cmd.emit hwire (by cases st <;> first | rfl | contradiction)

theorem cmd_inSession (hc : Recorded en c) (h : InSession en σ) (rd : CmdReadings) :
    InSession en (usbBtCmdProcess c rd σ).2 := by
  have hm := cmd_moves c rd σ
  generalize (usbBtCmdProcess c rd σ).2 = σ' at hm ⊢
  cases hm with
  | idle => exact h
  | waiting hb ho hf =>
      obtain ⟨hord, hacl, hcmd⟩ := cmdRequest_inSession h hb rd.st
      exact ⟨hord, hcmd ho hf, hacl⟩
  | failed hb =>
      obtain ⟨hord, hacl, -⟩ := cmdRequest_inSession h hb .fail
      exact ⟨⟨hord.fresh, hord.normal⟩, .empty rfl, hacl⟩
  | sent hb =>
      obtain ⟨hord, hacl, -⟩ := cmdRequest_inSession h hb .ok
      have hord' := hord.txEnd hc .hciCommandDataPacket rd.calls
      have hacl' := hacl.txEnd hc .hciCommandDataPacket rd.calls
      exact ⟨⟨hord'.fresh, hord'.normal⟩, .empty rfl, hacl'⟩

theorem acloRead_inSession (h : InSession en σ) (rd : AcloReadings) :
    Orderly en (acloRead rd σ) ∧ CmdBox en (acloRead rd σ) ∧ (rd.urb ≠ .done → InSession en (acloRead rd σ)) := by
  have hwire : (mailStep en (mailOf en σ) (.urbState .aclo σ.bt.acloHcn rd.urb)).wireless = (mailOf en σ).wireless := by
    cases rd.urb <;> rfl
  have hcmd : (mailStep en (mailOf en σ) (.urbState .aclo σ.bt.acloHcn rd.urb)).cmd = (mailOf en σ).cmd := by
    cases rd.urb <;> rfl
  refine ⟨h.orderly.emit trivial hwire, h.cmd.emit hwire hcmd, fun hu => h.emit ⟨fun m => ?_, fun _ => trivial⟩⟩
  cases hurb : rd.urb <;> first | rfl | contradiction

theorem aclo_inSession (hc : Recorded en c) (h : InSession en σ) (rd : AcloReadings) :
    InSession en (usbBtAcloProcess c none rd σ).2 := by
  have hm := aclo_moves c none rd σ
  generalize (usbBtAcloProcess c none rd σ).2 = σ' at hm ⊢
  obtain ⟨hord, hcmd, hread⟩ := acloRead_inSession h rd
  have hclr (hu : rd.urb = .stall) : InSession en ((acloRead rd σ).emit (.clrFeature .aclo σ.bt.acloHcn rd.clr)) :=
    (hread (hu.trans_ne (by decide))).emit ⟨fun _ => rfl, fun _ => trivial⟩
  cases hm with
  | idle | lost => exact h
  | submit hb =>
      have hfresh : Fresh en σ.trace (.bulkSend (σ.bt.acloPacket.read σ.bt.acloLen) σ.bt.acloLen σ.bt.acloHcn) :=
        fun hw => ⟨h.acl.full hw hb, by rw [Buffer.length_read, Nat.min_eq_left (h.acl.fits hw hb)]⟩
      have hsent : InSession en (σ.emit (.bulkSend (σ.bt.acloPacket.read σ.bt.acloLen) σ.bt.acloLen σ.bt.acloHcn)) :=
        ⟨h.orderly.emit hfresh rfl, h.cmd.emit rfl rfl, h.acl.emit rfl rfl⟩
      exact hsent.write rfl hsent.cmd hsent.acl
  | done hb h1 hu =>
      have hord' := hord.txEnd hc .hciAclDataPacket rd.calls
      have hcmd' := hcmd.txEnd hc .hciAclDataPacket rd.calls
      exact ⟨⟨hord'.fresh, hord'.normal⟩, hcmd', .empty rfl⟩
  | clear hb h1 hu =>
      have hr := hclr hu
      exact hr.write rfl hr.cmd hr.acl
  | stalled hb h1 hu => exact hclr hu
  | wait hb h1 hn => exact hread hn

theorem step_inSession (hc : Recorded en c) (h : InSession en σ) (s : Step) : InSession en (step c σ s) := by
  cases s with
  | call x => exact h.act (hc.call σ x)
  | cmd rd => exact cmd_inSession hc h rd
  | evt rd => exact evt_inSession hc h rd
  | aclo rd => exact aclo_inSession hc h rd
  | acli rd => exact acli_inSession hc h rd

structure Elsewhere (en : Entry) (σ : Sys) : Prop where
  fresh : AtEach (Fresh en) σ.trace
  off : (mailOf en σ).wireless = false

theorem Elsewhere.inSession (h : Elsewhere en σ) : InSession en σ where
  orderly := ⟨h.fresh, fun hw => absurd hw (h.off ▸ (by decide))⟩
  cmd := .off h.off
  acl := .off h.off

theorem mailStep_wireless {e : Event} (he : e.owner ≠ .callbacks) (m : Mail) :
    (mailStep en m e).wireless = m.wireless := by
  cases e with
  | allocChannel | openChannel => exact absurd rfl he
  | txPacket type packet ret | sendPacket type packet ret =>
      rw [mailStep]
      split
      · exact m.put_wireless _ type
      · rfl
  | ctlReq data len st => cases st <;> rfl
  | urbState ep hcn urb => cases ep <;> cases urb <;> rfl
  | _ => rfl

theorem Elsewhere.emit (h : Elsewhere en σ) {e : Event} (he : e.owner ≠ .callbacks) : Elsewhere en (σ.emit e) where
  fresh := by
    refine (atEach_concat _ _ _).mpr ⟨h.fresh, ?_⟩
    have hoff : ((mail en).after σ.trace).wireless = false := h.off
    cases e with
    | ctlReq | bulkSend => exact fun hw => absurd hw (hoff ▸ (by decide))
    | _ => trivial
  off := by rw [mailOf_emit, mailStep_wireless he, h.off]

theorem Elsewhere.extends (h : Elsewhere en σ) (ht : Extends (fun e => e.owner ≠ .callbacks) σ.trace σ'.trace) :
    Elsewhere en σ' := by
  have hall : Elsewhere en { σ with trace := σ'.trace } :=
    ht.concat_induction (fun t => Elsewhere en { σ with trace := t }) h (fun _ _ hg he => hg.emit he)
  exact ⟨hall.fresh, hall.off⟩

theorem Elsewhere.works (h : Elsewhere en σ) {o : Owner} (hw : Works o σ σ') (ho : o ≠ .callbacks) : Elsewhere en σ' := by
  refine h.extends (hw.events.mono fun e he => ?_)
  rcases he with he | he
  · exact he ▸ ho
  · exact he ▸ (by decide)

theorem step_elsewhere (hc : Polite c) (h : Elsewhere en σ) (s : Step) : Elsewhere en (step c σ s) := by
  cases s with
  | call x => exact h.works (clientAct_works (hc.call σ x) .client) (by decide)
  | cmd rd => exact h.works (cmd_works hc rd σ) (by decide)
  | evt rd => exact h.works (evt_works hc rd σ) (by decide)
  | aclo rd => exact h.works (aclo_works hc none rd σ) (by decide)
  | acli rd => exact h.works (acli_works hc rd σ) (by decide)

theorem fwSetup_elsewhere (img : Firmware) (rd : CmdReadings) (h : Elsewhere en σ) : Elsewhere en (fwSetup img rd σ) := by
  have hh : Elsewhere en (fwHeader img σ) := by
    rw [fwHeader]
    split
    · have hs : Elsewhere en (σ.emit (.setSetup (dfuSetup (uint16 img.ath3kFwCmd.length)))) :=
        h.emit (show Owner.cmd ≠ .callbacks by decide)
      exact ⟨hs.fresh, hs.off⟩
    · exact h
  have hreq : Elsewhere en (fwRequest img rd.st σ) := hh.emit (show Owner.cmd ≠ .callbacks by decide)
  rw [fwSetup_eq]
  split_ifs
  · exact ⟨hreq.fresh, hreq.off⟩
  · exact ⟨hreq.fresh, hreq.off⟩
  · exact hreq

theorem pass_elsewhere (h : Elsewhere en σ) {img : Firmware} {rd : FwReadings} {n : Option Int} {p : Pass}
    (hm : PassMove img rd n σ p) : Elsewhere en (after p) := by
  have hread : Elsewhere en (acloRead rd.aclo σ) := h.emit (show Owner.aclo ≠ .callbacks by decide)
  have hclr : Elsewhere en (cleared rd σ) := hread.emit (show Owner.aclo ≠ .callbacks by decide)
  have hsent {τ : Sys} (hτ : Elsewhere en τ) : Elsewhere en (submitted img τ) := by
    have hs : Elsewhere en (τ.emit (.bulkSend ((img.ath3kFwData.drop τ.bt.fwOffset.toNat).take τ.bt.acloLen)
      τ.bt.acloLen τ.bt.acloHcn)) := hτ.emit (show Owner.aclo ≠ .callbacks by decide)
    exact ⟨hs.fresh, hs.off⟩
  cases hm with
  | leave => exact ⟨h.fresh, h.off⟩
  | stage => exact hsent ⟨h.fresh, h.off⟩
  | submit => exact hsent h
  | done => exact ⟨hread.fresh, hread.off⟩
  | clear => exact ⟨hclr.fresh, hclr.off⟩
  | stalled => exact hclr
  | wait => exact hread
  | lost => exact h

theorem poll_inSession (b : Build) (hc : Recorded en c) (hp : Polite c) (h : InSession en σ) (rd : PollReadings) :
    InSession en (usbhBtStMachine b c rd σ).sys := by
  cases hw : (mailOf en σ).wireless with
  | true =>
      rw [usbhBtStMachine_normal b c rd σ (h.orderly.normal hw)]
      exact run_preserves (I := InSession en) (fun _ s hτ => step_inSession hc hτ s) h (pollSteps rd)
  | false =>
      have he : Elsewhere en (usbhBtStMachine b c rd σ).sys :=
        usbhBtStMachine_preserves (I := Elsewhere en) rd (fun _ _ s hτ => step_elsewhere hp hτ s)
          (fun img _ _ => fwSetup_elsewhere img rd.cmd ⟨h.orderly.fresh, hw⟩)
          (fun _ _ _ _ _ _ _ hτ hm => pass_elsewhere hτ hm) ⟨h.orderly.fresh, hw⟩
      exact he.inSession

theorem callbacks_fresh {t t' : Trace} (h : AtEach (Fresh en) t) (ht : Extends (fun e => e.owner = .callbacks) t t') :
    AtEach (Fresh en) t' := by
  refine ht.atEach h fun past e he => ?_
  cases e with
  | ctlReq | bulkSend => cases he
  | _ => trivial

theorem init_inSession (b : Build) (dev : Device) (ch : Channels) (h : AtEach (Fresh en) σ.trace) :
    AtEach (Fresh en) (usbhBtInterfaceInit b dev ch σ).2.trace ∧
      ((usbhBtInterfaceInit b dev ch σ).1 = .ok → InSession en (usbhBtInterfaceInit b dev ch σ).2) := by
  have hnew (new : Trace) (hn : ∀ e ∈ new, e.owner = .callbacks) : AtEach (Fresh en) (σ.trace ++ new) :=
    callbacks_fresh h ⟨new, rfl, hn⟩
  rw [usbhBtInterfaceInit]
  split_ifs
  · rw [attach_wireless _ _ _ (by rfl), List.append_assoc]
    have hf := hnew (allocTrace ch ++ openTrace dev ch) (attach_events dev ch (by intros; rfl) (by intros; rfl))
    exact ⟨hf, fun _ => ⟨⟨hf, fun _ => rfl⟩, .empty rfl, .empty rfl⟩⟩
  · rw [attach_loader _ _ _ (show ¬(1 : Int) = 0 by decide), List.append_assoc]
    have hf := hnew (allocTrace ch ++ openAcloTrace dev ch) (by simp [allocTrace, openAcloTrace, Event.owner])
    have hoff : ((mail en).after (σ.trace ++ (allocTrace ch ++ openAcloTrace dev ch))).wireless = false := by
      rw [Observer.after, List.foldl_append]
      rfl
    have he : Elsewhere en ⟨attachedBt ch { σ.bt with loadingFw := 1, fwOffset := 0 }, σ.txBusy,
      σ.trace ++ (allocTrace ch ++ openAcloTrace dev ch)⟩ := ⟨hf, hoff⟩
    exact ⟨hf, fun _ => he.inSession⟩
  · exact ⟨hnew [.deviceNotSupported] (by simp [Event.owner]), fun hr => by cases hr⟩

theorem btFreeCh_events (hcn : BtState → Nat) (reset : BtState → BtState) (σ : Sys) :
    Extends (fun e => e.owner = .callbacks) σ.trace (btFreeCh hcn reset σ).trace := by
  rw [btFreeCh]
  split
  · exact ((Extends.refl _ _).concat (by rfl)).concat (by rfl)
  · exact .refl _ _

theorem deInit_fresh (h : AtEach (Fresh en) σ.trace) : AtEach (Fresh en) (usbhBtInterfaceDeInit σ).trace := by
  refine callbacks_fresh h ?_
  have hoff : Extends (fun e => e.owner = .callbacks) σ.trace
      (if σ.bt.loadingFw = 0 then σ.emit (.powerControl false) else σ).trace := by
    split
    · exact (Extends.refl _ _).concat rfl
    · exact .refl _ _
  exact ((hoff.trans (btFreeCh_events _ _ _)).trans (btFreeCh_events _ _ _)).trans (btFreeCh_events _ _ _)

theorem classRequest_inSession (h : InSession en σ) : InSession en (usbhBtClassRequest σ).2 := by
  rw [usbhBtClassRequest]
  split
  · exact h.emit ⟨fun _ => rfl, fun _ => trivial⟩
  · exact h

structure Delivered (en : Entry) (w : Core) : Prop where
  fresh : AtEach (Fresh en) w.sys.trace
  attached : w.phase = .attached → InSession en w.sys

variable {b : Build} {p : HostPool}

theorem react_delivered {w : Core} (h : Delivered en w) (x : Callback) (ho : InOrder w x) (hr : RecordedUser en x) :
    Delivered en (react b p w x) := by
  cases x with
  | init dev a =>
      obtain ⟨hf, hs⟩ := init_inSession b dev (a.channels (freeNow p w.sys)) h.fresh
      refine ⟨hf, fun hp => hs ?_⟩
      by_contra hne
      simp [react, hne] at hp
  | classRequest =>
      have hs := classRequest_inSession (h.attached ho)
      exact ⟨hs.orderly.fresh, fun _ => hs⟩
  | poll u rd =>
      have hs := poll_inSession b hr u.polite (h.attached ho) rd
      exact ⟨hs.orderly.fresh, fun _ => hs⟩
  | call u x =>
      have ha := hr.call w.sys x
      exact ⟨ha.act.events.atEach h.fresh fun past _ he => fresh_client he past, fun hp => (h.attached hp).act ha⟩
  | deInit => exact ⟨deInit_fresh h.fresh, fun hp => by cases hp⟩

/-- No packet outlives its session: over any number of dongles that come and
go, each command and each ACL packet that a Bluetooth controller gets is the
one that the driver has taken last since that controller came, whole and with
its own length, and is not sent again once it has ended. -/
theorem mail_stays_in_its_session (en : Entry) (b : Build) (p : HostPool) (callbacks : List Callback)
    (h : Along (react b p) (fun w x => InOrder w x ∧ RecordedUser en x) powerUp callbacks) :
    AtEach (Fresh en) (run (react b p) powerUp callbacks).sys.trace := by
  have hstart : Delivered en powerUp := ⟨atEach_nil _, fun hp => by cases hp⟩
  exact (run_invariant (I := Delivered en) (fun _ x hw hx => react_delivered hw x hx.1 hx.2) hstart h).fresh

theorem halCalls_recorded (σ : Sys) (calls : List Call) : HalAct .hal σ (calls.foldl halCall σ) :=
  run_preserves (I := HalAct .hal σ) (fun _ x hτ => hτ.tail (.halCall rfl x)) .refl calls

theorem halClient_recorded : Recorded .hal halClient where
  call _ x := .single (.halCall rfl x)
  rxHandler _ _ _ calls σ := halCalls_recorded σ calls
  txEndHandler _ calls σ := halCalls_recorded σ calls

theorem packetHandler_recorded {e : Event} (he : ByClient e) (hn : ∀ m, mailStep .transport m e = m)
    (calls : List Call) (σ : Sys) : HalAct .transport σ (packetHandler e calls σ) :=
  run_preserves (I := HalAct .transport σ) (fun _ x hτ => hτ.tail (.stackCall rfl x)) (.single (.note he hn)) calls

theorem h2Client_recorded : Recorded .transport h2Client where
  call _ x := .single (.stackCall rfl x)
  rxHandler type packet size calls σ :=
    packetHandler_recorded (e := .packetHandler type packet size) rfl (fun _ => rfl) calls σ
  txEndHandler _ calls σ :=
    (packetHandler_recorded (e := .packetSent) rfl (fun _ => rfl) calls σ).tail (.lock 0)

def application : User := { client := halClient, polite := halClient_polite }

def stack : User := { client := h2Client, polite := h2Client_polite }

/-- The first dongle is pulled while a command and an ACL packet wait. The
second one gets a command of its own, and nothing of those. -/
def pulledDongle : List Callback :=
  [.init Sessions.dongle lowest, .call application (.send .hciCommandDataPacket [0x03, 0x0c, 0x00]),
    .call application (.send .hciAclDataPacket [0x01, 0x20, 0x00, 0x00]), .deInit, .init Sessions.dongle lowest,
    .poll application (loaderPoll .ok []), .call application (.send .hciCommandDataPacket [0x01, 0x10, 0x00]),
    .poll application (loaderPoll .ok [])]

/-- The stack gets its command through, and loses the dongle with an ACL
packet on its way. -/
def pulledStack : List Callback :=
  [.init Sessions.dongle lowest, .call stack (.send .hciCommandDataPacket [0x03, 0x0c, 0x00]),
    .poll stack (loaderPoll .ok []), .call stack (.send .hciAclDataPacket [0x01, 0x20, 0x00, 0x00]),
    .poll stack (loaderPoll .ok []), .deInit, .init Sessions.dongle lowest, .poll stack (loaderPoll .ok [])]

theorem pulled_dongle_keeps_its_mail :
    AtEach (Fresh .hal) (run (Lifecycle.react Sessions.plain eight) powerUp pulledDongle).sys.trace ∧
      AtEach (Fresh .transport) (run (Lifecycle.react Sessions.plain eight) powerUp pulledStack).sys.trace := by
  have hr : Recorded .hal application.client := halClient_recorded
  have hr' : Recorded .transport stack.client := h2Client_recorded
  constructor
  · refine mail_stays_in_its_session .hal Sessions.plain eight pulledDongle ?_
    exact ⟨⟨by decide, trivial⟩, ⟨by decide, hr⟩, ⟨by decide, hr⟩, ⟨by decide, trivial⟩, ⟨by decide, trivial⟩,
      ⟨by decide +kernel, hr⟩, ⟨by decide +kernel, hr⟩, ⟨by decide +kernel, hr⟩, trivial⟩
  · refine mail_stays_in_its_session .transport Sessions.plain eight pulledStack ?_
    exact ⟨⟨by decide, trivial⟩, ⟨by decide, hr'⟩, ⟨by decide, hr'⟩, ⟨by decide +kernel, hr'⟩, ⟨by decide +kernel, hr'⟩,
      ⟨by decide +kernel, trivial⟩, ⟨by decide +kernel, trivial⟩, ⟨by decide +kernel, hr'⟩, trivial⟩

end Uubt.Mailboxes
