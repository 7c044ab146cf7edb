import Uubt.Transmission

namespace Uubt.Sending

open ByteBuffer HostLibrary Driver Transport Endpoints Clients ClassDriver Moves Sessions Runs
  Transmission

def Staged (type : PacketType) (packet : List UInt8) (size : Int) (bt bt' : BtState) : Prop :=
  match type with
  | .hciCommandDataPacket =>
      bt'.cmdLen = size ∧ bt'.cmdPacket.read bt'.cmdLen = packet ∧ bt'.cmdBusy = 1 ∧ SameAclo bt bt'
  | .hciAclDataPacket =>
      bt'.acloLen = size ∧ bt'.acloPacket.read bt'.acloLen = packet ∧ bt'.acloBusy = 1 ∧ SameCmd bt bt'
  | _ => False

def AllOrNothing (type : PacketType) (packet : List UInt8) (size : Int) (σ : Sys) : Prop :=
  let (ret, σ') := h2SendPacket type packet size σ
  (ret = 0 → σ'.txBusy = 1 ∧ Staged type packet size σ.bt σ'.bt) ∧
    (ret ≠ 0 → σ'.txBusy = σ.txBusy ∧ σ'.bt = σ.bt)

def HasRoom (type : PacketType) (size : Int) (bt : BtState) : Prop :=
  match type with
  | .hciCommandDataPacket => bt.cmdBusy = 0 ∧ 0 ≤ size ∧ size ≤ cmdAlignedMaxSize
  | .hciAclDataPacket => bt.acloBusy = 0 ∧ 0 ≤ size ∧ size ≤ aclAlignedMaxSize
  | _ => False

instance (type : PacketType) (size : Int) (bt : BtState) : Decidable (HasRoom type size bt) :=
  match type with
  | .hciCommandDataPacket => inferInstanceAs (Decidable (_ ∧ _ ∧ _))
  | .hciAclDataPacket => inferInstanceAs (Decidable (_ ∧ _ ∧ _))
  | .hciEventPacket | .other _ => inferInstanceAs (Decidable False)

variable {σ : Sys} {packet : List UInt8} {size : Int}

theorem uint16_of_range {limit : Nat} (hl : limit < 65536) (h0 : 0 ≤ size) (hs : size ≤ limit) :
    (uint16 size : Int) = size := by
  rw [uint16]
  omega

theorem allOrNothing_open (ht : σ.txBusy = 0) (type : PacketType) (packet : List UInt8) (size : Int) :
    AllOrNothing type packet size σ ↔ (halUbTxPacket type packet (uint16 size) σ.bt).1 = 0 ∧
      Staged type packet size σ.bt (halUbTxPacket type packet (uint16 size) σ.bt).2 := by
  rw [AllOrNothing, send_open ht]
  constructor
  · rintro ⟨hok, hrefused⟩
    by_cases hr : (halUbTxPacket type packet (uint16 size) σ.bt).1 = 0
    · exact ⟨hr, (hok hr).2⟩
    · obtain ⟨hlock, -⟩ := hrefused hr
      rw [ht] at hlock
      exact absurd hlock (show ¬(1 : Int) = 0 by decide)
  · rintro ⟨hr, hst⟩
    exact ⟨fun _ => ⟨rfl, hst⟩, fun hne => absurd hr hne⟩

theorem uint16_length {limit : Nat} (hl : limit < 65536) (hp : packet.length = size.toNat) (h0 : 0 ≤ size)
    (hs : size ≤ limit) : uint16 size = packet.length ∧ (packet.length : Int) = size ∧ packet.length ≤ limit := by
  have hu := uint16_of_range hl h0 hs
  omega

theorem read_whole {n : Nat} (b : Buffer n) (hfit : packet.length ≤ n) :
    (b.memcpy (packet.take packet.length)).read packet.length = packet := by
  rw [List.take_length, Buffer.read_memcpy _ _ hfit]

theorem stageCmd_staged (bt : BtState) (hp : packet.length = size.toNat) (h0 : 0 ≤ size)
    (hs : size ≤ cmdAlignedMaxSize) :
    Staged .hciCommandDataPacket packet size bt (stageCmd packet (uint16 size) bt) := by
  obtain ⟨hn, hlen, hfit⟩ := uint16_length (by decide) hp h0 hs
  rw [hn]
  exact ⟨hlen, read_whole bt.cmdPacket hfit, rfl, rfl, rfl, rfl, rfl⟩

theorem stageAcl_staged (bt : BtState) (hp : packet.length = size.toNat) (h0 : 0 ≤ size)
    (hs : size ≤ aclAlignedMaxSize) :
    Staged .hciAclDataPacket packet size bt (stageAcl packet (uint16 size) bt) := by
  obtain ⟨hn, hlen, hfit⟩ := uint16_length (by decide) hp h0 hs
  rw [hn]
  exact ⟨hlen, read_whole bt.acloPacket hfit, rfl, rfl, rfl, rfl, rfl⟩

theorem refused_iff {busy : Int} {limit : Nat} {staged : Prop} (hl : limit < 65536)
    (h : busy ≠ 0 ∨ limit < uint16 size) :
    (-1 : Int) = 0 ∧ staged ↔ busy = 0 ∧ 0 ≤ size ∧ size ≤ limit := by
  refine iff_of_false (fun hr => absurd hr.1 (by decide)) ?_
  rintro ⟨hb, h0, hle⟩
  have hu := uint16_of_range hl h0 hle
  rcases h with hn | hlong
  · exact hn hb
  · omega

theorem taken_iff {busy : Int} {limit : Nat} {staged : Prop} (hb : busy = 0) (hs : ¬limit < uint16 size)
    (hlen : staged → (uint16 size : Int) = size) (hst : 0 ≤ size → size ≤ limit → staged) :
    (0 : Int) = 0 ∧ staged ↔ busy = 0 ∧ 0 ≤ size ∧ size ≤ limit := by
  constructor
  · rintro ⟨-, h⟩
    have hu := hlen h
    exact ⟨hb, by omega, by omega⟩
  · rintro ⟨-, h0, hle⟩
    exact ⟨rfl, hst h0 hle⟩

theorem hal_staged_iff (type : PacketType) (bt : BtState) (hp : packet.length = size.toNat) :
    (halUbTxPacket type packet (uint16 size) bt).1 = 0 ∧
        Staged type packet size bt (halUbTxPacket type packet (uint16 size) bt).2 ↔ HasRoom type size bt := by
  cases type with
  | hciCommandDataPacket =>
      simp only [halUbTxPacket, HasRoom]
      split_ifs with hb hs
      · exact refused_iff (by decide) (.inl hb)
      · exact refused_iff (by decide) (.inr hs)
      · exact taken_iff (not_not.mp hb) hs (fun h => h.1) (stageCmd_staged bt hp)
  | hciAclDataPacket =>
      simp only [halUbTxPacket, HasRoom]
      split_ifs with hb hs
      · exact refused_iff (by decide) (.inl hb)
      · exact refused_iff (by decide) (.inr hs)
      · exact taken_iff (not_not.mp hb) hs (fun h => h.1) (stageAcl_staged bt hp)
  | hciEventPacket | other code => exact iff_of_false (fun h => absurd h.1 (show ¬(-1 : Int) = 0 by decide)) id

/-- A send is all or nothing exactly if the transport refuses it itself, or
the driver has room for the packet. -/
theorem send_all_or_nothing_iff (type : PacketType) (packet : List UInt8) (size : Int) (σ : Sys)
    (hp : packet.length = size.toNat) :
    AllOrNothing type packet size σ ↔ σ.txBusy ≠ 0 ∨ HasRoom type size σ.bt := by
  by_cases ht : σ.txBusy = 0
  · rw [allOrNothing_open ht, hal_staged_iff type σ.bt hp]
    exact ⟨.inr, fun h => h.resolve_left (fun hne => hne ht)⟩
  · refine iff_of_true ?_ (.inl ht)
    rw [AllOrNothing, send_locked ht]
    exact ⟨fun h => absurd h (show ¬(-1 : Int) = 0 by decide), fun _ => ⟨rfl, rfl⟩⟩

/-- An ACL packet of one byte too many is refused, and the transport stays
locked. -/
theorem refused_packet_locks :
    (List.replicate 65 (0 : UInt8)).length = (65 : Int).toNat ∧
      ¬AllOrNothing .hciAclDataPacket (List.replicate 65 0) 65 ⟨.zero, 0, []⟩ := by
  refine ⟨by decide, ?_⟩
  rintro ⟨-, h⟩
  exact absurd (h (by decide)).1 (by decide)

theorem reset_is_all_or_nothing :
    AllOrNothing .hciCommandDataPacket [0x03, 0x0c, 0x00] 3 ⟨.zero, 0, []⟩ :=
  (send_all_or_nothing_iff .hciCommandDataPacket [0x03, 0x0c, 0x00] 3 ⟨.zero, 0, []⟩ rfl).mpr (.inr (by decide))

/-- What the stack hopes for when it hears of DAEMON_EVENT_HCI_PACKET_SENT
and has the next packet at hand. -/
structure Woken (type : PacketType) (packet : List UInt8) (σ σ' : Sys) : Prop where
  asked : .canSend type true ∈ σ'.trace.drop σ.trace.length
  accepted : .sendPacket type packet 0 ∈ σ'.trace.drop σ.trace.length
  locked : σ'.txBusy = 1
  staged : match type with
    | .hciCommandDataPacket => σ'.bt.cmdBusy = 1 ∧ σ'.bt.cmdPacket.read σ'.bt.cmdLen = packet
    | .hciAclDataPacket => σ'.bt.acloBusy = 1 ∧ σ'.bt.acloPacket.read σ'.bt.acloLen = packet
    | _ => False

/-- The pending packet has been sent when its machine is polled, and the
handler that is told of it asks whether it may send and then does. -/
def Completes (type : PacketType) (packet : List UInt8) (σ : Sys) : Step → Prop
  | .cmd rd => σ.bt.cmdBusy ≠ 0 ∧ rd.st = .ok ∧ rd.calls = [.canSend type, .send type packet]
  | .aclo rd => σ.bt.acloBusy ≠ 0 ∧ σ.bt.acloState = 1 ∧ rd.urb = .done ∧
      rd.calls = [.canSend type, .send type packet]
  | _ => False

structure Guarded (σ : Sys) : Prop where
  free : σ.txBusy = 0 → σ.bt.cmdBusy = 0 ∧ σ.bt.acloBusy = 0
  exclusive : σ.bt.cmdBusy = 0 ∨ σ.bt.acloBusy = 0

theorem stackCall_guarded (h : Guarded σ) (x : Call) : Guarded (stackCall σ x) := by
  by_cases ht : σ.txBusy = 0
  · obtain ⟨hc, ha⟩ := h.free ht
    cases x with
    | canSend type => exact ⟨h.free, h.exclusive⟩
    | send type packet =>
        have hm := tx_moves type packet (uint16 packet.length) σ.bt
        simp only [stackCall, send_open ht]
        generalize halUbTxPacket type packet (uint16 packet.length) σ.bt = r at hm ⊢
        cases hm with
        | refused => exact ⟨fun _ => ⟨hc, ha⟩, .inl hc⟩
        | cmd => exact ⟨fun h1 => absurd h1 (show ¬(1 : Int) = 0 by decide), .inr ha⟩
        | acl => exact ⟨fun h1 => absurd h1 (show ¬(1 : Int) = 0 by decide), .inl hc⟩
  · obtain ⟨e, he, -⟩ := stackCall_busy ht x
    rw [he]
    exact ⟨h.free, h.exclusive⟩

theorem stackCalls_guarded (h : Guarded σ) (calls : List Call) : Guarded (calls.foldl stackCall σ) :=
  run_preserves (I := Guarded) (fun _ x h => stackCall_guarded h x) h calls

theorem rxHandler_guarded (h : Guarded σ) (type : PacketType) (packet : List UInt8) (len : Nat) (calls : List Call) :
    Guarded (callRxHandler h2Client type packet len calls σ) := by
  have h1 : Guarded ((σ.emit (.rx type (packet.take (uint16 len)) (uint16 len))).emit
      (.packetHandler type (packet.take (uint16 len)) (uint16 len))) := ⟨h.free, h.exclusive⟩
  have h2 := stackCalls_guarded h1 calls
  exact ⟨h2.free, h2.exclusive⟩

theorem cmd_guarded (h : Guarded σ) (rd : CmdReadings) : Guarded (usbBtCmdProcess h2Client rd σ).2 := by
  have hm := cmd_moves h2Client rd σ
  generalize (usbBtCmdProcess h2Client rd σ).2 = σ' at hm ⊢
  obtain ⟨htx, hcb, hab⟩ := cmdRequest_fields rd.st σ
  cases hm with
  | idle => exact h
  | waiting =>
      refine ⟨fun ht => ?_, ?_⟩
      · rw [hcb, hab]
        exact h.free (htx ▸ ht)
      · rw [hcb, hab]
        exact h.exclusive
  | failed hb hs =>
      rw [hs] at hab
      exact ⟨fun _ => ⟨rfl, hab.trans (h.exclusive.resolve_left hb)⟩, .inl rfl⟩
  | sent hb hs =>
      rw [hs] at htx hab
      have ht : (cmdRequest .ok σ).txBusy ≠ 0 := by
        rw [htx]
        exact fun h0 => hb (h.free h0).1
      obtain ⟨tr, htr, -⟩ := txEndHandler_busy ht .hciCommandDataPacket rd.calls
      rw [htr]
      exact ⟨fun _ => ⟨rfl, hab.trans (h.exclusive.resolve_left hb)⟩, .inl rfl⟩

theorem aclo_guarded (h : Guarded σ) (rd : AcloReadings) : Guarded (usbBtAcloProcess h2Client none rd σ).2 := by
  have hm := aclo_moves h2Client none rd σ
  generalize (usbBtAcloProcess h2Client none rd σ).2 = σ' at hm ⊢
  cases hm with
  | idle | submit | clear | stalled | wait | lost => exact ⟨h.free, h.exclusive⟩
  | done hb =>
      have ht : (acloRead rd σ).txBusy ≠ 0 := fun h0 => hb (h.free h0).2
      obtain ⟨tr, htr, -⟩ := txEndHandler_busy ht .hciAclDataPacket rd.calls
      rw [acloNotify, htr]
      exact ⟨fun _ => ⟨h.exclusive.resolve_right hb, rfl⟩, .inr rfl⟩

theorem evt_guarded (h : Guarded σ) (rd : EvtReadings) : Guarded (usbBtEvtProcess h2Client rd σ).2 := by
  have hm := evt_moves h2Client rd σ
  generalize (usbBtEvtProcess h2Client rd σ).2 = σ' at hm ⊢
  cases hm with
  | deliver =>
      have hr := rxHandler_guarded (σ := evtRead rd σ) ⟨h.free, h.exclusive⟩ .hciEventPacket rd.received
        rd.received.length rd.calls
      exact ⟨hr.free, hr.exclusive⟩
  | submit | expire | clear | stalled | wait | rearm | rest | lost => exact ⟨h.free, h.exclusive⟩

theorem acli_guarded (h : Guarded σ) (rd : AcliReadings) : Guarded (usbBtAcliProcess h2Client rd σ).2 := by
  have hm := acli_moves h2Client rd σ
  generalize (usbBtAcliProcess h2Client rd σ).2 = σ' at hm ⊢
  cases hm with
  | deliver =>
      have hr := rxHandler_guarded (σ := acliRead rd σ) ⟨h.free, h.exclusive⟩ .hciAclDataPacket rd.received
        rd.received.length rd.calls
      exact ⟨hr.free, hr.exclusive⟩
  | submit | clear | stalled | wait | lost => exact ⟨h.free, h.exclusive⟩

theorem step_guarded (h : Guarded σ) (s : Step) : Guarded (step h2Client σ s) := by
  cases s with
  | call x => exact stackCall_guarded h x
  | cmd rd => exact cmd_guarded h rd
  | evt rd => exact evt_guarded h rd
  | aclo rd => exact aclo_guarded h rd
  | acli rd => exact acli_guarded h rd

theorem opened_guarded (b : Build) {dev : Device} (ch : Channels) (bt : BtState) (txBusy : Int)
    (hdev : dev.bInterfaceClass = wirelessClass) (steps : List Step) :
    Guarded (run (step h2Client) (opened b dev ch bt txBusy) steps) := by
  refine run_preserves (I := Guarded) (fun _ s h => step_guarded h s) ?_ steps
  rw [opened_wireless b ch bt txBusy hdev]
  exact ⟨fun _ => ⟨rfl, rfl⟩, .inl rfl⟩

theorem notified_locked (ht : σ.txBusy ≠ 0) (done type : PacketType) (packet : List UInt8) :
    callTxEndHandler h2Client done [.canSend type, .send type packet] σ = { σ with
      txBusy := 0
      trace := σ.trace ++ [.txEnd done, .packetSent] ++ [.canSend type false, .sendPacket type packet (-1)] } := by
  simp [callTxEndHandler, h2Client, h2TxEndCb, packetHandler, stackCall, h2SendPacket, h2CanSendPacketNow,
    Sys.emit, ht]

/-- When a completed packet is reported the next one is not accepted: the
machine and the transport clear their flags only after the handler has
returned. -/
theorem completion_refuses (h : Guarded σ) {s : Step} {type : PacketType} {packet : List UInt8}
    (hc : Completes type packet σ s) : (step h2Client σ s).txBusy = 0 ∧ (step h2Client σ s).bt.cmdBusy = 0 ∧
      (step h2Client σ s).bt.acloBusy = 0 ∧
      ∃ past, (step h2Client σ s).trace = past ++ [.canSend type false, .sendPacket type packet (-1)] := by
  cases s with
  | cmd rd =>
      obtain ⟨hb, hs, hcalls⟩ := hc
      obtain ⟨htx, -, hab⟩ := cmdRequest_fields .ok σ
      have ht : (cmdRequest .ok σ).txBusy ≠ 0 := by
        rw [htx]
        exact fun h0 => hb (h.free h0).1
      rw [step, cmd_eq, if_neg hb, if_pos hs, hs, hcalls, notified_locked ht]
      exact ⟨rfl, rfl, hab.trans (h.exclusive.resolve_left hb), _, rfl⟩
  | aclo rd =>
      obtain ⟨hb, h1, hu, hcalls⟩ := hc
      have ht : (acloRead rd σ).txBusy ≠ 0 := fun h0 => hb (h.free h0).2
      have hdone : (usbBtAcloProcess h2Client none rd σ).2 = _ := (AcloMove.done hb h1 hu).eq
      rw [step, hdone, acloNotify, hcalls, notified_locked ht]
      exact ⟨rfl, h.exclusive.resolve_right hb, rfl, _, rfl⟩
  | call | evt | acli => exact hc.elim

/-- The handler of DAEMON_EVENT_HCI_PACKET_SENT can never pass on the next
packet: in whatever state of a session the pending one completes, and
whatever the next one is. -/
theorem next_packet_never_accepted (b : Build) (dev : Device) (ch : Channels) (bt : BtState) (txBusy : Int)
    (hdev : dev.bInterfaceClass = wirelessClass) (steps : List Step) (s : Step) (type : PacketType)
    (packet : List UInt8)
    (hc : Completes type packet (run (step h2Client) (opened b dev ch bt txBusy) steps) s) :
    ¬Woken type packet (run (step h2Client) (opened b dev ch bt txBusy) steps)
      (step h2Client (run (step h2Client) (opened b dev ch bt txBusy) steps) s) := by
  intro hw
  obtain ⟨ht, -⟩ := completion_refuses (opened_guarded b ch bt txBusy hdev steps) hc
  have h1 := hw.locked
  rw [ht] at h1
  exact absurd h1 (by decide)

def sentCommand : Step :=
  .cmd { st := .ok, calls := [.canSend .hciAclDataPacket, .send .hciAclDataPacket [0x01, 0x20, 0x00, 0x00]] }

def resetSession : Sys :=
  run (step h2Client) (opened plain dongle dongleChannels .zero 0)
    [.call (.send .hciCommandDataPacket [0x03, 0x0c, 0x00])]

theorem sentCommand_completes : Completes .hciAclDataPacket [0x01, 0x20, 0x00, 0x00] resetSession sentCommand :=
  ⟨by decide, rfl, rfl⟩

theorem acl_packet_after_reset_is_refused :
    Completes .hciAclDataPacket [0x01, 0x20, 0x00, 0x00] resetSession sentCommand ∧
      ¬Woken .hciAclDataPacket [0x01, 0x20, 0x00, 0x00] resetSession (step h2Client resetSession sentCommand) :=
  ⟨sentCommand_completes, fun hw => absurd hw.locked (by decide +kernel)⟩

theorem nothing_accepted_after_reset :
    ¬Woken .hciAclDataPacket [0x01, 0x20, 0x00, 0x00] resetSession (step h2Client resetSession sentCommand) :=
  next_packet_never_accepted plain dongle dongleChannels .zero 0 rfl
    [.call (.send .hciCommandDataPacket [0x03, 0x0c, 0x00])] sentCommand .hciAclDataPacket [0x01, 0x20, 0x00, 0x00]
    sentCommand_completes

end Uubt.Sending
