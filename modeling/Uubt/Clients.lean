import Mathlib.Logic.Relation
import Uubt.Endpoints
import Uubt.Transport

namespace Uubt.Clients

open ByteBuffer History HostLibrary Driver Transport Endpoints

def stageCmd (packet : List UInt8) (size : Nat) (bt : BtState) : BtState :=
  { bt with cmdLen := size, cmdPacket := bt.cmdPacket.memcpy (packet.take size), cmdState := 0, cmdBusy := 1 }

def stageAcl (packet : List UInt8) (size : Nat) (bt : BtState) : BtState :=
  { bt with acloLen := size, acloPacket := bt.acloPacket.memcpy (packet.take size), acloState := 0, acloBusy := 1 }

/-- All that one call of hal_ub_tx_packet can do. -/
inductive TxMove (packet : List UInt8) (size : Nat) (bt : BtState) : PacketType → Int × BtState → Prop
  | refused (type : PacketType) : TxMove packet size bt type (-1, bt)
  | cmd (hb : bt.cmdBusy = 0) (hs : size ≤ cmdAlignedMaxSize) :
      TxMove packet size bt .hciCommandDataPacket (0, stageCmd packet size bt)
  | acl (hb : bt.acloBusy = 0) (hs : size ≤ aclAlignedMaxSize) :
      TxMove packet size bt .hciAclDataPacket (0, stageAcl packet size bt)

theorem tx_moves (type : PacketType) (packet : List UInt8) (size : Nat) (bt : BtState) :
    TxMove packet size bt type (halUbTxPacket type packet size bt) := by
  cases type with
  | hciCommandDataPacket =>
      simp only [halUbTxPacket]
      split_ifs with hb hs
      · exact .refused _
      · exact .refused _
      · exact .cmd (not_not.mp hb) (Nat.le_of_not_lt hs)
  | hciAclDataPacket =>
      simp only [halUbTxPacket]
      split_ifs with hb hs
      · exact .refused _
      · exact .refused _
      · exact .acl (not_not.mp hb) (Nat.le_of_not_lt hs)
  | hciEventPacket | other code => exact .refused _

def TxStep (bt bt' : BtState) : Prop := ∃ type packet size, bt' = (halUbTxPacket type packet size bt).2

abbrev TxReach (bt bt' : BtState) : Prop := Relation.ReflTransGen TxStep bt bt'

theorem TxReach.preserves {P : BtState → Prop} {bt bt' : BtState} (h : TxReach bt bt') (hbt : P bt)
    (hc : ∀ b packet size, P b → b.cmdBusy = 0 → size ≤ cmdAlignedMaxSize → P (stageCmd packet size b))
    (ha : ∀ b packet size, P b → b.acloBusy = 0 → size ≤ aclAlignedMaxSize → P (stageAcl packet size b)) :
    P bt' := by
  induction h with
  | refl => exact hbt
  | @tail b b' _ hs ih =>
      obtain ⟨type, packet, size, rfl⟩ := hs
      have hm := tx_moves type packet size b
      generalize halUbTxPacket type packet size b = r at hm ⊢
      cases hm with
      | refused => exact ih
      | cmd hb hs => exact hc b packet size ih hb hs
      | acl hb hs => exact ha b packet size ih hb hs

/-- The fields that hal_ub_tx_packet never writes. -/
structure SameReceiver (bt bt' : BtState) : Prop where
  loadingFw : bt'.loadingFw = bt.loadingFw
  fwOffset : bt'.fwOffset = bt.fwOffset
  evtState : bt'.evtState = bt.evtState
  evtTmo : bt'.evtTmo = bt.evtTmo
  evtHcn : bt'.evtHcn = bt.evtHcn
  acloHcn : bt'.acloHcn = bt.acloHcn
  acliState : bt'.acliState = bt.acliState
  acliHcn : bt'.acliHcn = bt.acliHcn

theorem SameReceiver.refl (bt : BtState) : SameReceiver bt bt := ⟨rfl, rfl, rfl, rfl, rfl, rfl, rfl, rfl⟩

theorem TxReach.sameReceiver {bt bt' : BtState} (h : TxReach bt bt') : SameReceiver bt bt' :=
  h.preserves (.refl bt) (fun _ _ _ hb _ _ => ⟨hb.1, hb.2, hb.3, hb.4, hb.5, hb.6, hb.7, hb.8⟩)
    (fun _ _ _ hb _ _ => ⟨hb.1, hb.2, hb.3, hb.4, hb.5, hb.6, hb.7, hb.8⟩)

structure SameCmd (bt bt' : BtState) : Prop where
  packet : bt'.cmdPacket = bt.cmdPacket
  len : bt'.cmdLen = bt.cmdLen
  busy : bt'.cmdBusy = bt.cmdBusy
  state : bt'.cmdState = bt.cmdState

structure SameAclo (bt bt' : BtState) : Prop where
  packet : bt'.acloPacket = bt.acloPacket
  len : bt'.acloLen = bt.acloLen
  busy : bt'.acloBusy = bt.acloBusy
  state : bt'.acloState = bt.acloState

/-- A staged command is left alone until its busy flag falls. -/
theorem TxReach.sameCmd {bt bt' : BtState} (h : TxReach bt bt') (hb : bt.cmdBusy ≠ 0) : SameCmd bt bt' :=
  h.preserves ⟨rfl, rfl, rfl, rfl⟩ (fun _ _ _ hs h0 _ => absurd (hs.busy ▸ h0) hb)
    (fun _ _ _ hs _ _ => ⟨hs.1, hs.2, hs.3, hs.4⟩)

theorem TxReach.sameAclo {bt bt' : BtState} (h : TxReach bt bt') (hb : bt.acloBusy ≠ 0) : SameAclo bt bt' :=
  h.preserves ⟨rfl, rfl, rfl, rfl⟩ (fun _ _ _ hs _ _ => ⟨hs.1, hs.2, hs.3, hs.4⟩)
    (fun _ _ _ hs h0 _ => absurd (hs.busy ▸ h0) hb)

theorem TxReach.cmdStaged {bt bt' : BtState} (h : TxReach bt bt') (hb : bt.cmdBusy = 0) :
    bt'.cmdBusy = 0 ∨ bt'.cmdState = 0 :=
  h.preserves (P := fun b => b.cmdBusy = 0 ∨ b.cmdState = 0) (.inl hb) (fun _ _ _ _ _ _ => .inr rfl)
    (fun _ _ _ hs _ _ => hs)

theorem TxReach.acloStaged {bt bt' : BtState} (h : TxReach bt bt') (hb : bt.acloBusy = 0) :
    bt'.acloBusy = 0 ∨ bt'.acloState = 0 :=
  h.preserves (P := fun b => b.acloBusy = 0 ∨ b.acloState = 0) (.inl hb) (fun _ _ _ hs _ _ => hs)
    (fun _ _ _ _ _ _ => .inr rfl)

def ByClient (e : Event) : Prop := e.owner = .client

/-- The effect of code that reaches the driver through hal_ub_tx_packet
only, and that calls nothing of the host library. -/
structure ClientAct (σ σ' : Sys) : Prop where
  reach : TxReach σ.bt σ'.bt
  events : Extends ByClient σ.trace σ'.trace

theorem ClientAct.refl (σ : Sys) : ClientAct σ σ := ⟨.refl, .refl _ _⟩

theorem ClientAct.trans {σ σ' σ'' : Sys} (h : ClientAct σ σ') (h' : ClientAct σ' σ'') : ClientAct σ σ'' :=
  ⟨h.reach.trans h'.reach, h.events.trans h'.events⟩

theorem ClientAct.emit (σ : Sys) {e : Event} (he : ByClient e) : ClientAct σ (σ.emit e) :=
  ⟨.refl, (Extends.refl _ _).concat he⟩

theorem ClientAct.foldl {step : Sys → Call → Sys} (hstep : ∀ σ x, ClientAct σ (step σ x)) (σ : Sys)
    (calls : List Call) : ClientAct σ (calls.foldl step σ) := by
  induction calls generalizing σ with
  | nil => exact .refl σ
  | cons x xs ih => exact (hstep σ x).trans (ih _)

/-- A user of the driver that keeps to its interface. -/
structure Polite (c : Client) : Prop where
  call : ∀ σ x, ClientAct σ (c.call σ x)
  rxHandler : ∀ type packet size calls σ, ClientAct σ (c.rxHandler type packet size calls σ)
  txEndHandler : ∀ type calls σ, ClientAct σ (c.txEndHandler type calls σ)

theorem halCall_act (σ : Sys) (x : Call) : ClientAct σ (halCall σ x) := by
  cases x with
  | send type packet => exact ⟨.single ⟨type, packet, _, rfl⟩, (Extends.refl _ _).concat rfl⟩
  | canSend type => exact .refl σ

theorem halClient_polite : Polite halClient where
  call := halCall_act
  rxHandler _ _ _ calls σ := ClientAct.foldl halCall_act σ calls
  txEndHandler _ calls σ := ClientAct.foldl halCall_act σ calls

theorem send_locked {σ : Sys} (ht : σ.txBusy ≠ 0) (type : PacketType) (packet : List UInt8) (size : Int) :
    h2SendPacket type packet size σ = (-1, σ) := by
  simp [h2SendPacket, h2CanSendPacketNow, ht]

theorem send_open {σ : Sys} (ht : σ.txBusy = 0) (type : PacketType) (packet : List UInt8) (size : Int) :
    h2SendPacket type packet size σ = ((halUbTxPacket type packet (uint16 size) σ.bt).1,
      ({ σ with txBusy := 1 } : Sys).write fun _ => (halUbTxPacket type packet (uint16 size) σ.bt).2) := by
  simp [h2SendPacket, h2CanSendPacketNow, ht]

theorem h2SendPacket_reach (type : PacketType) (packet : List UInt8) (size : Int) (σ : Sys) :
    TxReach σ.bt (h2SendPacket type packet size σ).2.bt ∧ (h2SendPacket type packet size σ).2.trace = σ.trace := by
  by_cases ht : σ.txBusy = 0
  · rw [send_open ht]
    exact ⟨.single ⟨type, packet, _, rfl⟩, rfl⟩
  · rw [send_locked ht]
    exact ⟨.refl, rfl⟩

theorem stackCall_act (σ : Sys) (x : Call) : ClientAct σ (stackCall σ x) := by
  cases x with
  | send type packet =>
      obtain ⟨hr, ht⟩ := h2SendPacket_reach type packet packet.length σ
      refine ⟨hr, [.sendPacket type packet (h2SendPacket type packet packet.length σ).1], ?_, ?_⟩
      · exact congrArg (· ++ [.sendPacket type packet (h2SendPacket type packet packet.length σ).1]) ht
      · simp [ByClient, Event.owner]
  | canSend type => exact .emit σ rfl

theorem packetHandler_act {e : Event} (he : ByClient e) (calls : List Call) (σ : Sys) :
    ClientAct σ (packetHandler e calls σ) :=
  (ClientAct.emit σ he).trans (ClientAct.foldl stackCall_act _ calls)

theorem h2Client_polite : Polite h2Client where
  call := stackCall_act
  rxHandler type packet size calls σ :=
    packetHandler_act (rfl : ByClient (.packetHandler type packet size)) calls σ
  txEndHandler _ calls σ :=
    have h := packetHandler_act (rfl : ByClient .packetSent) calls σ
    ⟨h.reach, h.events⟩

/-- What the record of a delivery looks like: the call, the answer of the
user, and the return. -/
theorem rxHandler_answer {c : Client} (hc : Polite c) (type : PacketType) (packet : List UInt8) (len : Nat)
    (calls : List Call) (σ : Sys) :
    ∃ answer, (callRxHandler c type packet len calls σ).trace =
        σ.trace ++ [.rx type (packet.take (uint16 len)) (uint16 len)] ++ answer ++ [.rxReturn type] ∧
      ∀ e ∈ answer, ByClient e := by
  obtain ⟨answer, ha, hn⟩ := (hc.rxHandler type (packet.take (uint16 len)) (uint16 len) calls
    (σ.emit (.rx type (packet.take (uint16 len)) (uint16 len)))).events
  exact ⟨answer, congrArg (· ++ [Event.rxReturn type]) ha, hn⟩

theorem rxHandler_same {c : Client} (hc : Polite c) (type : PacketType) (packet : List UInt8) (len : Nat)
    (calls : List Call) (σ : Sys) : SameReceiver σ.bt (callRxHandler c type packet len calls σ).bt :=
  (hc.rxHandler type (packet.take (uint16 len)) (uint16 len) calls
    (σ.emit (.rx type (packet.take (uint16 len)) (uint16 len)))).reach.sameReceiver

end Uubt.Clients
