import Uubt.OneSlot
import Uubt.Sessions

namespace Uubt.Transmission

open ByteBuffer History HostLibrary Driver Transport Endpoints Moves Clients ClassDriver Sessions Runs OneSlot

def acceptedPacket : Event → Option Packet
  | .sendPacket type packet ret => if ret = 0 then some ⟨type, packet⟩ else none
  | _ => none

/-- The packets for which h2_send_packet returned 0, in order. -/
def accepted (tr : Trace) : List Packet := tr.filterMap acceptedPacket

structure Sent where
  current : List UInt8
  ended : List Packet

/-- The packets whose transfer has ended, each with the bytes that were
handed to the host library for it. -/
def sent : Observer Event Sent where
  init := ⟨[], []⟩
  step s e := match e with
    | .bulkSend data _ _ => { s with current := data }
    | .urbState .aclo _ .done => { s with ended := s.ended ++ [⟨.hciAclDataPacket, s.current⟩] }
    | .ctlReq data _ .ok | .ctlReq data _ .fail =>
        { s with ended := s.ended ++ [⟨.hciCommandDataPacket, data⟩] }
    | _ => s

def ended (tr : Trace) : List Packet := (sent.after tr).ended

/-- Every transfer out carries the one packet that is accepted and not
ended. -/
def Faithful (past : Trace) : Event → Prop
  | .bulkSend data len _ => accepted past = ended past ++ [⟨.hciAclDataPacket, data⟩] ∧ data.length = len
  | .ctlReq data len _ => accepted past = ended past ++ [⟨.hciCommandDataPacket, data⟩] ∧ data.length = len
  | _ => True

def pending (bt : BtState) : Option Packet :=
  if bt.cmdBusy ≠ 0 then some ⟨.hciCommandDataPacket, bt.cmdPacket.read bt.cmdLen⟩
  else if bt.acloBusy ≠ 0 then some ⟨.hciAclDataPacket, bt.acloPacket.read bt.acloLen⟩
  else none

/-- The driver and the transport hold what the books of a one-place store
say. -/
structure TxInv (l : Ledger Packet) (σ : Sys) : Prop where
  accepted : l.accepted = accepted σ.trace
  ended : l.ended = ended σ.trace
  pending : l.pending = pending σ.bt
  cmdFlag : σ.bt.cmdBusy = 0 ∨ σ.bt.cmdBusy = 1
  acloFlag : σ.bt.acloBusy = 0 ∨ σ.bt.acloBusy = 1
  exclusive : σ.bt.cmdBusy = 0 ∨ σ.bt.acloBusy = 0
  locked : σ.bt.cmdBusy ≠ 0 ∨ σ.bt.acloBusy ≠ 0 → σ.txBusy = 1
  cmdLen : σ.bt.cmdBusy ≠ 0 → σ.bt.cmdLen ≤ cmdAlignedMaxSize
  acloLen : σ.bt.acloBusy ≠ 0 → σ.bt.acloLen ≤ aclAlignedMaxSize
  inFlight : σ.bt.acloBusy ≠ 0 → σ.bt.acloState ≠ 0 →
    (sent.after σ.trace).current = σ.bt.acloPacket.read σ.bt.acloLen
  faithful : AtEach Faithful σ.trace

def Silent (e : Event) : Prop :=
  acceptedPacket e = none ∧ (∀ s, sent.step s e = s) ∧ ∀ past, Faithful past e

@[simp]
theorem accepted_concat (tr : Trace) (e : Event) :
    accepted (tr ++ [e]) = accepted tr ++ (acceptedPacket e).toList := by
  cases h : acceptedPacket e <;> simp [accepted, h]

variable {l : Ledger Packet} {σ : Sys}

theorem TxInv.emit (h : TxInv l σ) {e : Event} (he : Silent e) : TxInv l (σ.emit e) := by
  obtain ⟨ha, hs, hf⟩ := he
  have hafter : sent.after (σ.trace ++ [e]) = sent.after σ.trace := by rw [sent.after_concat, hs]
  exact { h with
    accepted := by simpa [ha] using h.accepted
    ended := by simpa only [Transmission.ended, emit_trace, hafter] using h.ended
    inFlight := by simpa only [emit_trace, emit_bt, hafter] using h.inFlight
    faithful := (atEach_concat _ _ _).mpr ⟨h.faithful, hf _⟩ }

theorem TxInv.extends {tr : Trace} (h : TxInv l σ) (he : Extends Silent σ.trace tr) :
    TxInv l { σ with trace := tr } :=
  he.concat_induction (fun g => TxInv l { σ with trace := g }) h (fun _ _ hg he => hg.emit he)

/-- The invariant does not read what the receiving machines assign, nor the
state of the command machine. -/
theorem TxInv.write (h : TxInv l σ) (evtState acliState cmdState : Int) (evtTmo : Nat) :
    TxInv l (σ.write ({ · with
      evtState := evtState, acliState := acliState, cmdState := cmdState, evtTmo := evtTmo })) :=
  ⟨h.accepted, h.ended, h.pending, h.cmdFlag, h.acloFlag, h.exclusive, h.locked, h.cmdLen, h.acloLen,
    h.inFlight, h.faithful⟩

theorem TxInv.idle (h : TxInv l σ) (ht : σ.txBusy = 0) : σ.bt.cmdBusy = 0 ∧ σ.bt.acloBusy = 0 := by
  constructor
  · by_contra hb
    have hl := h.locked (.inl hb)
    omega
  · by_contra hb
    have hl := h.locked (.inr hb)
    omega

theorem TxInv.nothing (h : TxInv l σ) (ht : σ.txBusy = 0) : l.pending = none := by
  obtain ⟨hc, ha⟩ := h.idle ht
  rw [h.pending]
  simp [Transmission.pending, hc, ha]

theorem stageCmd_inv (h : TxInv l σ) (ht : σ.txBusy = 0) (packet : List UInt8)
    (hs : packet.length ≤ cmdAlignedMaxSize) :
    TxInv (l.put ⟨.hciCommandDataPacket, packet⟩ (h.nothing ht))
      (({ σ with txBusy := 1 } : Sys).write (fun _ => stageCmd packet packet.length σ.bt) |>.emit
        (.sendPacket .hciCommandDataPacket packet 0)) := by
  obtain ⟨-, ha⟩ := h.idle ht
  have hsent : sent.after (σ.trace ++ [.sendPacket .hciCommandDataPacket packet 0]) = sent.after σ.trace := by
    rw [sent.after_concat]
    rfl
  exact {
    accepted := by simp [Ledger.put, h.accepted, acceptedPacket]
    ended := by simpa only [Ledger.put, Transmission.ended, emit_trace, write_trace, hsent] using h.ended
    pending := by simpa [Ledger.put, Transmission.pending, stageCmd] using (Buffer.read_memcpy _ packet hs).symm
    cmdFlag := .inr rfl
    acloFlag := .inl ha
    exclusive := .inr ha
    locked := fun _ => rfl
    cmdLen := fun _ => hs
    acloLen := fun hb => absurd ha hb
    inFlight := fun hb => absurd ha hb
    faithful := (atEach_concat _ _ _).mpr ⟨h.faithful, trivial⟩ }

theorem stageAcl_inv (h : TxInv l σ) (ht : σ.txBusy = 0) (packet : List UInt8)
    (hs : packet.length ≤ aclAlignedMaxSize) :
    TxInv (l.put ⟨.hciAclDataPacket, packet⟩ (h.nothing ht))
      (({ σ with txBusy := 1 } : Sys).write (fun _ => stageAcl packet packet.length σ.bt) |>.emit
        (.sendPacket .hciAclDataPacket packet 0)) := by
  obtain ⟨hc, -⟩ := h.idle ht
  have hsent : sent.after (σ.trace ++ [.sendPacket .hciAclDataPacket packet 0]) = sent.after σ.trace := by
    rw [sent.after_concat]
    rfl
  exact {
    accepted := by simp [Ledger.put, h.accepted, acceptedPacket]
    ended := by simpa only [Ledger.put, Transmission.ended, emit_trace, write_trace, hsent] using h.ended
    pending := by simpa [Ledger.put, Transmission.pending, stageAcl, hc] using (Buffer.read_memcpy _ packet hs).symm
    cmdFlag := .inl hc
    acloFlag := .inr rfl
    exclusive := .inl hc
    locked := fun _ => rfl
    cmdLen := fun hb => absurd hc hb
    acloLen := fun _ => hs
    inFlight := fun _ hb => absurd rfl hb
    faithful := (atEach_concat _ _ _).mpr ⟨h.faithful, trivial⟩ }

theorem refused_inv (h : TxInv l σ) (type : PacketType) (packet : List UInt8) :
    TxInv l (({ σ with txBusy := 1 } : Sys).emit (.sendPacket type packet (-1))) := by
  have h1 : TxInv l { σ with txBusy := 1 } := { h with locked := fun _ => rfl }
  exact h1.emit ⟨rfl, fun _ => rfl, fun _ => trivial⟩

def Call.Fits (n : Nat) : Call → Prop
  | .send _ packet => packet.length ≤ n
  | .canSend _ => True

def Step.calls : Step → List Call
  | .call x => [x]
  | .cmd rd => rd.calls
  | .evt rd => rd.calls
  | .aclo rd => rd.calls
  | .acli rd => rd.calls

theorem stackCall_busy {σ : Sys} (ht : σ.txBusy ≠ 0) (x : Call) :
    ∃ e, stackCall σ x = σ.emit e ∧ Silent e ∧ ByClient e := by
  cases x with
  | send type packet =>
      refine ⟨.sendPacket type packet (-1), ?_, ⟨rfl, fun _ => rfl, fun _ => trivial⟩, rfl⟩
      simp [stackCall, h2SendPacket, h2CanSendPacketNow, ht]
  | canSend type => exact ⟨_, rfl, ⟨rfl, fun _ => rfl, fun _ => trivial⟩, rfl⟩

/-- While the transport is busy, calls of the stack change nothing. -/
theorem stackCalls_busy {σ : Sys} (ht : σ.txBusy ≠ 0) (calls : List Call) :
    ∃ tr, calls.foldl stackCall σ = { σ with trace := tr } ∧ Extends Silent σ.trace tr := by
  induction calls generalizing σ with
  | nil => exact ⟨σ.trace, rfl, .refl _ _⟩
  | cons x xs ih =>
      obtain ⟨e, he, hs, -⟩ := stackCall_busy ht x
      have ht' : (σ.emit e).txBusy ≠ 0 := ht
      obtain ⟨tr, htr, hx⟩ := ih ht'
      exact ⟨tr, by rw [List.foldl_cons, he, htr]; rfl, ((Extends.refl _ _).concat hs).trans hx⟩

theorem stackCall_inv (h : TxInv l σ) (x : Call) (hx : Call.Fits 65535 x) :
    ∃ l', Steps l l' ∧ TxInv l' (stackCall σ x) := by
  by_cases ht : σ.txBusy = 0
  · cases x with
    | canSend type => exact ⟨l, .refl, h.emit ⟨rfl, fun _ => rfl, fun _ => trivial⟩⟩
    | send type packet =>
        have hn : uint16 packet.length = packet.length := uint16_natCast (Nat.lt_succ_of_le hx)
        have hm := tx_moves type packet packet.length σ.bt
        simp only [stackCall, h2SendPacket, h2CanSendPacketNow, ht, decide_true, Bool.not_true,
          Bool.false_eq_true, if_false, hn]
        generalize halUbTxPacket type packet packet.length σ.bt = r at hm ⊢
        cases hm with
        | refused => exact ⟨l, .refl, refused_inv h type packet⟩
        | cmd hb hs => exact ⟨_, .single (.put l _ (h.nothing ht)), stageCmd_inv h ht packet hs⟩
        | acl hb hs => exact ⟨_, .single (.put l _ (h.nothing ht)), stageAcl_inv h ht packet hs⟩
  · obtain ⟨e, he, hs, -⟩ := stackCall_busy ht x
    exact ⟨l, .refl, he ▸ h.emit hs⟩

theorem stackCalls_inv (h : TxInv l σ) (calls : List Call) (hx : ∀ x ∈ calls, Call.Fits 65535 x) :
    ∃ l', Steps l l' ∧ TxInv l' (calls.foldl stackCall σ) := by
  induction calls generalizing l σ with
  | nil => exact ⟨l, .refl, h⟩
  | cons x xs ih =>
      obtain ⟨l', hl, h'⟩ := stackCall_inv h x (hx x (by simp))
      obtain ⟨l'', hl', h''⟩ := ih h' (fun y hy => hx y (by simp [hy]))
      exact ⟨l'', hl.trans hl', h''⟩

theorem TxInv.split (h : TxInv l σ) {p : Packet} (hp : Transmission.pending σ.bt = some p) :
    Transmission.accepted σ.trace = Transmission.ended σ.trace ++ [p] := by
  rw [← h.accepted, ← h.ended, l.balanced, h.pending, hp]
  rfl

theorem TxInv.unlock (h : TxInv l σ) (hc : σ.bt.cmdBusy = 0) (ha : σ.bt.acloBusy = 0) :
    TxInv l { σ with txBusy := 0 } :=
  { h with locked := fun hb => hb.elim (absurd hc) (absurd ha) }

theorem txEndHandler_busy {σ : Sys} (ht : σ.txBusy ≠ 0) (type : PacketType) (calls : List Call) :
    ∃ tr, callTxEndHandler h2Client type calls σ = { σ with txBusy := 0, trace := tr } ∧
      Extends Silent σ.trace tr := by
  have ht' : ((σ.emit (.txEnd type)).emit .packetSent).txBusy ≠ 0 := ht
  obtain ⟨tr, htr, hx⟩ := stackCalls_busy ht' calls
  refine ⟨tr, ?_, ?_⟩
  · simp only [callTxEndHandler, h2Client, h2TxEndCb, packetHandler, htr]
    rfl
  · have hs : Extends Silent σ.trace (σ.trace ++ [.txEnd type] ++ [.packetSent]) :=
      ((Extends.refl _ _).concat ⟨rfl, fun _ => rfl, fun _ => trivial⟩).concat
        ⟨rfl, fun _ => rfl, fun _ => trivial⟩
    exact hs.trans hx

theorem pending_cmd {bt : BtState} (hb : bt.cmdBusy ≠ 0) :
    pending bt = some ⟨.hciCommandDataPacket, bt.cmdPacket.read bt.cmdLen⟩ := if_pos hb

theorem TxInv.pending_aclo (h : TxInv l σ) (hb : σ.bt.acloBusy ≠ 0) :
    Transmission.pending σ.bt = some ⟨.hciAclDataPacket, σ.bt.acloPacket.read σ.bt.acloLen⟩ := by
  have hc : σ.bt.cmdBusy = 0 := h.exclusive.resolve_right hb
  simp [Transmission.pending, hc, hb]

theorem cmdStart_inv (h : TxInv l σ) : TxInv l (cmdStart σ) := by
  rw [cmdStart]
  split
  · exact (h.emit (e := .setSetup (cmdSetup σ.bt.cmdLen)) ⟨rfl, fun _ => rfl, fun _ => trivial⟩).write
      σ.bt.evtState σ.bt.acliState 1 σ.bt.evtTmo
  · exact h

theorem ctlReq_faithful (h : TxInv l σ) (hb : σ.bt.cmdBusy ≠ 0) (st : UsbhStatus) :
    Faithful σ.trace (.ctlReq (σ.bt.cmdPacket.read σ.bt.cmdLen) σ.bt.cmdLen st) :=
  ⟨h.split (pending_cmd hb), by rw [Buffer.length_read, Nat.min_eq_left (h.cmdLen hb)]⟩

theorem ctlReq_inv (h : TxInv l σ) (hb : σ.bt.cmdBusy ≠ 0) {st : UsbhStatus} (ho : st ≠ .ok) (hf : st ≠ .fail) :
    TxInv l (σ.emit (.ctlReq (σ.bt.cmdPacket.read σ.bt.cmdLen) σ.bt.cmdLen st)) := by
  have hs : ∀ data len, sent.after (σ.trace ++ [.ctlReq data len st]) = sent.after σ.trace := by
    intro data len
    rw [sent.after_concat]
    cases st <;> first | rfl | contradiction
  exact { h with
    accepted := by simpa [acceptedPacket] using h.accepted
    ended := by simpa only [Transmission.ended, emit_trace, hs] using h.ended
    inFlight := by simpa only [emit_trace, emit_bt, hs] using h.inFlight
    faithful := (atEach_concat _ _ _).mpr ⟨h.faithful, ctlReq_faithful h hb st⟩ }

theorem ctlReq_ends (h : TxInv l σ) (hb : σ.bt.cmdBusy ≠ 0) {st : UsbhStatus} (hst : st = .ok ∨ st = .fail) :
    TxInv (l.take _ (h.pending.trans (pending_cmd hb)))
      (cmdDone (σ.emit (.ctlReq (σ.bt.cmdPacket.read σ.bt.cmdLen) σ.bt.cmdLen st))) := by
  have ha : σ.bt.acloBusy = 0 := h.exclusive.resolve_left hb
  have hs : ∀ data len, sent.after (σ.trace ++ [.ctlReq data len st]) =
      { sent.after σ.trace with
        ended := (sent.after σ.trace).ended ++ [⟨.hciCommandDataPacket, data⟩] } := by
    intro data len
    rw [sent.after_concat]
    rcases hst with rfl | rfl <;> rfl
  exact {
    accepted := by simpa [Ledger.take, acceptedPacket, cmdDone] using h.accepted
    ended := by
      have he := h.ended
      simp only [Transmission.ended] at he ⊢
      simp only [Ledger.take, cmdDone, write_trace, emit_trace, hs, he]
    pending := by simp [Ledger.take, Transmission.pending, cmdDone, ha]
    cmdFlag := .inl rfl
    acloFlag := .inl ha
    exclusive := .inl rfl
    locked := fun hb => hb.elim (absurd rfl) (absurd ha)
    cmdLen := fun hb => absurd rfl hb
    acloLen := fun hb => absurd ha hb
    inFlight := fun hb => absurd ha hb
    faithful := (atEach_concat _ _ _).mpr ⟨h.faithful, ctlReq_faithful h hb st⟩ }

theorem cmd_inv (h : TxInv l σ) (rd : CmdReadings) :
    ∃ l', Steps l l' ∧ TxInv l' (usbBtCmdProcess h2Client rd σ).2 := by
  have hm := cmd_moves h2Client rd σ
  generalize (usbBtCmdProcess h2Client rd σ).2 = σ' at hm ⊢
  obtain ⟨st, hbt⟩ := cmdStart_bt σ
  have h1 := cmdStart_inv h
  have hb1 (hb : σ.bt.cmdBusy ≠ 0) : (cmdStart σ).bt.cmdBusy ≠ 0 := by rwa [hbt]
  cases hm with
  | idle => exact ⟨l, .refl, h⟩
  | waiting hb ho hf => exact ⟨l, .refl, cmdRequest_eq rd.st σ ▸ ctlReq_inv h1 (hb1 hb) ho hf⟩
  | failed hb => exact ⟨_, .single (.take l _ _), cmdRequest_eq .fail σ ▸ ctlReq_ends h1 (hb1 hb) (.inr rfl)⟩
  | sent hb =>
      have ht : (cmdRequest .ok σ).txBusy ≠ 0 := by
        rw [cmdRequest_eq, emit_txBusy, cmdStart_txBusy, h.locked (.inl hb)]
        decide
      obtain ⟨tr, htr, hx⟩ := txEndHandler_busy ht .hciCommandDataPacket rd.calls
      have he := cmdRequest_eq .ok σ ▸ ctlReq_ends h1 (hb1 hb) (.inl (rfl : UsbhStatus.ok = UsbhStatus.ok))
      rw [htr]
      have ha : (cmdStart σ).bt.acloBusy = 0 := by
        rw [hbt]
        exact h.exclusive.resolve_left hb
      exact ⟨_, .single (.take l _ _), (he.extends hx).unlock rfl ha⟩

theorem bulkSend_inv (h : TxInv l σ) (hb : σ.bt.acloBusy ≠ 0) :
    TxInv l ((σ.emit (.bulkSend (σ.bt.acloPacket.read σ.bt.acloLen) σ.bt.acloLen σ.bt.acloHcn)).write
      ({ · with acloState := 1 })) := by
  have hs : ∀ data len hcn, sent.after (σ.trace ++ [.bulkSend data len hcn]) =
      { sent.after σ.trace with current := data } := by
    intro data len hcn
    rw [sent.after_concat]
    rfl
  have hf : Faithful σ.trace (.bulkSend (σ.bt.acloPacket.read σ.bt.acloLen) σ.bt.acloLen σ.bt.acloHcn) :=
    ⟨h.split (h.pending_aclo hb), by rw [Buffer.length_read, Nat.min_eq_left (h.acloLen hb)]⟩
  exact {
    accepted := by simpa [acceptedPacket] using h.accepted
    ended := by simpa only [Transmission.ended, write_trace, emit_trace, hs] using h.ended
    pending := h.pending
    cmdFlag := h.cmdFlag
    acloFlag := h.acloFlag
    exclusive := h.exclusive
    locked := h.locked
    cmdLen := h.cmdLen
    acloLen := h.acloLen
    inFlight := fun _ _ => by rw [write_trace, emit_trace, hs]; rfl
    faithful := (atEach_concat _ _ _).mpr ⟨h.faithful, hf⟩ }

/-- The end of an ACL packet empties the store: what was handed over last is
what the buffer still holds. -/
theorem bulkDone_ends (h : TxInv l σ) (hb : σ.bt.acloBusy ≠ 0) (h1 : σ.bt.acloState = 1) :
    TxInv (l.take _ (h.pending.trans (h.pending_aclo hb)))
      ((σ.emit (.urbState .aclo σ.bt.acloHcn .done)).write ({ · with acloState := 0, acloBusy := 0 })) := by
  have hc : σ.bt.cmdBusy = 0 := h.exclusive.resolve_right hb
  have hcur := h.inFlight hb (by rw [h1]; decide)
  have hs : ∀ hcn, sent.after (σ.trace ++ [.urbState .aclo hcn .done]) =
      { sent.after σ.trace with
        ended := (sent.after σ.trace).ended ++ [⟨.hciAclDataPacket, (sent.after σ.trace).current⟩] } := by
    intro hcn
    rw [sent.after_concat]
    rfl
  exact {
    accepted := by simpa [Ledger.take, acceptedPacket] using h.accepted
    ended := by
      have he := h.ended
      simp only [Transmission.ended] at he ⊢
      simp only [Ledger.take, write_trace, emit_trace, hs, he, hcur]
    pending := by simp [Ledger.take, Transmission.pending, hc]
    cmdFlag := .inl hc
    acloFlag := .inl rfl
    exclusive := .inl hc
    locked := fun hb => hb.elim (absurd hc) (absurd rfl)
    cmdLen := fun hb => absurd hc hb
    acloLen := fun hb => absurd rfl hb
    inFlight := fun hb => absurd rfl hb
    faithful := (atEach_concat _ _ _).mpr ⟨h.faithful, trivial⟩ }

theorem silent_urb {ep : Ep} {urb : Urb} (hcn : Nat) (h : ep = .aclo → urb ≠ .done) :
    Silent (.urbState ep hcn urb) := by
  refine ⟨rfl, ?_, fun _ => trivial⟩
  intro s
  cases ep with
  | evt | acli => rfl
  | aclo =>
      have hu := h rfl
      cases urb with
      | done => contradiction
      | idle | notReady | error | stall => rfl

theorem silent_clrFeature (ep : Ep) (hcn : Nat) (st : UsbhStatus) : Silent (.clrFeature ep hcn st) :=
  ⟨rfl, fun _ => rfl, fun _ => trivial⟩

theorem silent_currentFrame (frame : Nat) : Silent (.currentFrame frame) :=
  ⟨rfl, fun _ => rfl, fun _ => trivial⟩

theorem TxInv.reset_acloState (h : TxInv l σ) : TxInv l (σ.write ({ · with acloState := 0 })) :=
  ⟨h.accepted, h.ended, h.pending, h.cmdFlag, h.acloFlag, h.exclusive, h.locked, h.cmdLen, h.acloLen,
    fun _ hs => absurd rfl hs, h.faithful⟩

theorem aclo_inv (h : TxInv l σ) (rd : AcloReadings) :
    ∃ l', Steps l l' ∧ TxInv l' (usbBtAcloProcess h2Client none rd σ).2 := by
  have hm := aclo_moves h2Client none rd σ
  generalize (usbBtAcloProcess h2Client none rd σ).2 = σ' at hm ⊢
  have hr (hn : rd.urb ≠ .done) : TxInv l (acloRead rd σ) := h.emit (silent_urb _ fun _ => hn)
  cases hm with
  | idle | lost => exact ⟨l, .refl, h⟩
  | submit hb => exact ⟨l, .refl, bulkSend_inv h hb⟩
  | wait _ _ hn => exact ⟨l, .refl, hr hn⟩
  | stalled _ _ hu => exact ⟨l, .refl, (hr (by simp [hu])).emit (silent_clrFeature _ _ _)⟩
  | clear _ _ hu =>
      exact ⟨l, .refl, ((hr (by simp [hu])).emit (silent_clrFeature _ _ _)).reset_acloState⟩
  | done hb h1 hu =>
      have ht : (acloRead rd σ).txBusy ≠ 0 := by
        rw [acloRead, emit_txBusy, h.locked (.inr hb)]
        decide
      obtain ⟨tr, htr, hx⟩ := txEndHandler_busy ht .hciAclDataPacket rd.calls
      have he := bulkDone_ends h hb h1
      rw [acloNotify, htr]
      rw [acloRead, hu] at hx ⊢
      exact ⟨_, .single (.take l _ _), (he.extends hx).unlock (h.exclusive.resolve_right hb) rfl⟩

theorem rxHandler_inv (h : TxInv l σ) (type : PacketType) (packet : List UInt8) (len : Nat)
    (calls : List Call) (hx : ∀ x ∈ calls, Call.Fits 65535 x) :
    ∃ l', Steps l l' ∧ TxInv l' (callRxHandler h2Client type packet len calls σ) := by
  have h1 := (h.emit (e := .rx type (packet.take (uint16 len)) (uint16 len))
    ⟨rfl, fun _ => rfl, fun _ => trivial⟩).emit
      (e := .packetHandler type (packet.take (uint16 len)) (uint16 len)) ⟨rfl, fun _ => rfl, fun _ => trivial⟩
  obtain ⟨l', hl, h'⟩ := stackCalls_inv h1 calls hx
  exact ⟨l', hl, h'.emit ⟨rfl, fun _ => rfl, fun _ => trivial⟩⟩

theorem evt_inv (h : TxInv l σ) (rd : EvtReadings) (hx : ∀ x ∈ rd.calls, Call.Fits 65535 x) :
    ∃ l', Steps l l' ∧ TxInv l' (usbBtEvtProcess h2Client rd σ).2 := by
  have hm := evt_moves h2Client rd σ
  generalize (usbBtEvtProcess h2Client rd σ).2 = σ' at hm ⊢
  have hf : TxInv l (σ.emit (.currentFrame rd.frame)) := h.emit (silent_currentFrame _)
  have hr : TxInv l (evtRead rd σ) := hf.emit (silent_urb _ (by simp))
  cases hm with
  | submit => exact ⟨l, .refl, (hf.emit ⟨rfl, fun _ => rfl, fun _ => by trivial⟩).write _ _ _ _⟩
  | expire | rearm => exact ⟨l, .refl, hf.write _ _ _ _⟩
  | deliver =>
      obtain ⟨l', hl, h'⟩ := rxHandler_inv hr .hciEventPacket rd.received rd.received.length rd.calls hx
      exact ⟨l', hl, h'.write _ _ _ _⟩
  | clear => exact ⟨l, .refl, (hr.emit (silent_clrFeature _ _ _)).write _ _ _ _⟩
  | stalled => exact ⟨l, .refl, hr.emit (silent_clrFeature _ _ _)⟩
  | wait => exact ⟨l, .refl, hr⟩
  | rest | lost => exact ⟨l, .refl, hf⟩

theorem acli_inv (h : TxInv l σ) (rd : AcliReadings) (hx : ∀ x ∈ rd.calls, Call.Fits 65535 x) :
    ∃ l', Steps l l' ∧ TxInv l' (usbBtAcliProcess h2Client rd σ).2 := by
  have hm := acli_moves h2Client rd σ
  generalize (usbBtAcliProcess h2Client rd σ).2 = σ' at hm ⊢
  have hr : TxInv l (acliRead rd σ) := h.emit (silent_urb _ (by simp))
  cases hm with
  | submit => exact ⟨l, .refl, (h.emit ⟨rfl, fun _ => rfl, fun _ => by trivial⟩).write _ _ _ _⟩
  | deliver =>
      obtain ⟨l', hl, h'⟩ := rxHandler_inv hr .hciAclDataPacket rd.received rd.received.length rd.calls hx
      exact ⟨l', hl, h'.write _ _ _ _⟩
  | clear => exact ⟨l, .refl, (hr.emit (silent_clrFeature _ _ _)).write _ _ _ _⟩
  | stalled => exact ⟨l, .refl, hr.emit (silent_clrFeature _ _ _)⟩
  | wait => exact ⟨l, .refl, hr⟩
  | lost => exact ⟨l, .refl, h⟩

def Step.Fits (n : Nat) (s : Step) : Prop := ∀ x ∈ Step.calls s, Call.Fits n x

/-- One step of a session is a few steps of the one-place store. -/
theorem step_refines (h : TxInv l σ) (s : Step) (hs : Step.Fits 65535 s) :
    ∃ l', Steps l l' ∧ TxInv l' (step h2Client σ s) := by
  cases s with
  | call x => exact stackCall_inv h x (hs x (by simp [Step.calls]))
  | cmd rd => exact cmd_inv h rd
  | evt rd => exact evt_inv h rd hs
  | aclo rd => exact aclo_inv h rd
  | acli rd => exact acli_inv h rd hs

theorem run_refines {steps : List Step} (h : TxInv l σ) (hs : ∀ s ∈ steps, Step.Fits 65535 s) :
    ∃ l', Steps l l' ∧ TxInv l' (run (step h2Client) σ steps) := by
  refine run_invariant (I := fun τ => ∃ l', Steps l l' ∧ TxInv l' τ) ?_ ⟨l, .refl, h⟩
    (along_of_forall (step h2Client) (C := fun _ s => Step.Fits 65535 s) (fun s hm _ => hs s hm) σ)
  rintro τ s ⟨l', hl, h'⟩ hc
  obtain ⟨l'', hl', h''⟩ := step_refines h' s hc
  exact ⟨l'', hl.trans hl', h''⟩

theorem opened_inv (b : Build) {dev : Device} (ch : Channels) (bt : BtState) (txBusy : Int)
    (hdev : dev.bInterfaceClass = wirelessClass) : TxInv .empty (opened b dev ch bt txBusy) := by
  have h0 : TxInv .empty ⟨attachedBt ch { bt with loadingFw := 0 }, 0, []⟩ :=
    ⟨rfl, rfl, rfl, .inl rfl, .inl rfl, .inl rfl, fun h => absurd rfl (or_self_iff.mp h),
      fun h => absurd rfl h, fun h => absurd rfl h, fun h => absurd rfl h, atEach_nil _⟩
  have hs : Extends Silent [] (allocTrace ch ++ openTrace dev ch) :=
    ⟨_, rfl, attach_events dev ch (fun _ _ => ⟨rfl, fun _ => rfl, fun _ => trivial⟩)
      (fun _ _ _ _ _ => ⟨rfl, fun _ => rfl, fun _ => trivial⟩)⟩
  rw [opened_wireless b ch bt txBusy hdev]
  exact h0.extends hs

theorem pending_ne_nil (bt : BtState) : (pending bt).toList ≠ [] ↔ bt.cmdBusy ≠ 0 ∨ bt.acloBusy ≠ 0 := by
  by_cases hc : bt.cmdBusy = 0 <;> by_cases ha : bt.acloBusy = 0 <;> simp [pending, hc, ha]

theorem TxInv.busy_iff (h : TxInv l σ) :
    l.pending.toList ≠ [] ↔ σ.bt.cmdBusy = 1 ∨ σ.bt.acloBusy = 1 := by
  have hc := h.cmdFlag
  have ha := h.acloFlag
  rw [h.pending, pending_ne_nil]
  omega

def Input.Fits (n : Nat) (i : Input) : Prop := ∀ s ∈ Input.steps i, Step.Fits n s

theorem session_refines (b : Build) {dev : Device} (ch : Channels) (bt : BtState) (txBusy : Int)
    (hdev : dev.bInterfaceClass = wirelessClass) {inputs : List Input} (hfit : ∀ i ∈ inputs, Input.Fits 65535 i) :
    ∃ l, Steps .empty l ∧ TxInv l (run (react b h2Client) (opened b dev ch bt txBusy) inputs) := by
  rw [run_react b h2Client_polite (opened_loadingFw b ch bt txBusy hdev)]
  apply run_refines (opened_inv b ch bt txBusy hdev)
  intro s hs
  obtain ⟨i, hi, hsi⟩ := List.mem_flatMap.mp hs
  exact hfit i hi s hsi

/-- Every accepted packet is transferred exactly once and in order, in every
state of every session with a wireless device. The stack may call between
two polls and from any callback. -/
theorem transmission_exactly_once (b : Build) (dev : Device) (ch : Channels) (bt : BtState) (txBusy : Int)
    (hdev : dev.bInterfaceClass = wirelessClass) (inputs : List Input)
    (hfit : ∀ i ∈ inputs, Input.Fits 65535 i) :
    let σ := run (react b h2Client) (opened b dev ch bt txBusy) inputs
    ∃ P : List Packet, accepted σ.trace = ended σ.trace ++ P ∧ P.length ≤ 1 ∧
      (P ≠ [] ↔ σ.bt.cmdBusy = 1 ∨ σ.bt.acloBusy = 1) ∧ ¬(σ.bt.cmdBusy = 1 ∧ σ.bt.acloBusy = 1) ∧
      (P ≠ [] → σ.txBusy = 1) ∧
      (σ.bt.cmdBusy = 1 →
        ∃ bytes, P = [⟨.hciCommandDataPacket, bytes⟩] ∧ σ.bt.cmdLen = bytes.length ∧
          σ.bt.cmdPacket.read σ.bt.cmdLen = bytes) ∧
      (σ.bt.acloBusy = 1 →
        ∃ bytes, P = [⟨.hciAclDataPacket, bytes⟩] ∧ σ.bt.acloLen = bytes.length ∧
          σ.bt.acloPacket.read σ.bt.acloLen = bytes) ∧
      AtEach Faithful σ.trace := by
  intro σ
  obtain ⟨l, -, h⟩ := session_refines b ch bt txBusy hdev hfit
  change TxInv l σ at h
  have hbusy : σ.bt.cmdBusy = 1 → σ.bt.cmdBusy ≠ 0 := fun h1 => by rw [h1]; decide
  have hbusy' : σ.bt.acloBusy = 1 → σ.bt.acloBusy ≠ 0 := fun h1 => by rw [h1]; decide
  refine ⟨l.pending.toList, ?_, ?_, ?_, ?_, ?_, ?_, ?_, h.faithful⟩
  · rw [← h.accepted, ← h.ended]
    exact l.balanced
  · cases l.pending <;> simp
  · exact h.busy_iff
  · rintro ⟨hc, ha⟩
    exact h.exclusive.elim (hbusy hc) (hbusy' ha)
  · intro hP
    exact h.locked ((h.busy_iff.mp hP).imp hbusy hbusy')
  · intro h1
    refine ⟨_, by rw [h.pending, pending_cmd (hbusy h1)]; rfl, ?_, rfl⟩
    rw [Buffer.length_read, Nat.min_eq_left (h.cmdLen (hbusy h1))]
  · intro h1
    refine ⟨_, by rw [h.pending, h.pending_aclo (hbusy' h1)]; rfl, ?_, rfl⟩
    rw [Buffer.length_read, Nat.min_eq_left (h.acloLen (hbusy' h1))]

def resetCommand : Call := .send .hciCommandDataPacket [0x03, 0x0c, 0x00]

def helloPacket : List UInt8 := [0x01, 0x20, 0x02, 0x00, 0x48, 0x69]

def inquiryCommand : List UInt8 := [0x01, 0x04, 0x05, 0x33, 0x8b, 0x9e, 0x0a, 0x00]

def offerHello : Call := .send .hciAclDataPacket helloPacket

def offerInquiry : Call := .send .hciCommandDataPacket inquiryCommand

def sendingPoll (cmd : UsbhStatus) (evt aclo : Urb) (answer : List Call) : Input :=
  .poll {
    cmd := { st := cmd, calls := [] }
    evt := { frame := 0, urb := evt, received := [0x0e, 0x04, 0x01, 0x03, 0x0c, 0x00], clr := .ok, calls := answer }
    aclo := { urb := aclo, clr := .ok, calls := [] }
    acli := { urb := .idle, received := [], clr := .ok, calls := [] }
    loop := [] }

/-- The reset ends while an ACL packet is refused. The handler of its event
sends that packet, which stalls and is sent again, and an inquiry is still on
its way. -/
def exchange : List Input :=
  [.call resetCommand, .call offerHello, sendingPoll .busy .idle .idle [], sendingPoll .ok .idle .idle [],
    sendingPoll .busy .done .idle [.canSend .hciAclDataPacket, offerHello, offerInquiry],
    sendingPoll .busy .idle .stall [], sendingPoll .busy .idle .idle [], sendingPoll .busy .idle .done [],
    .call offerInquiry, .call offerHello]

def exchanged : Sys := run (react plain h2Client) (opened plain dongle dongleChannels .zero 0) exchange

theorem accepted_exchanged : accepted exchanged.trace =
    [⟨.hciCommandDataPacket, [0x03, 0x0c, 0x00]⟩, ⟨.hciAclDataPacket, helloPacket⟩,
      ⟨.hciCommandDataPacket, inquiryCommand⟩] := by
  decide +kernel

theorem ended_exchanged : ended exchanged.trace =
    [⟨.hciCommandDataPacket, [0x03, 0x0c, 0x00]⟩, ⟨.hciAclDataPacket, helloPacket⟩] := by
  decide +kernel

theorem exchange_transmitted :
    dongle.bInterfaceClass = wirelessClass ∧ (∀ i ∈ exchange, Input.Fits 65535 i) ∧
      ended exchanged.trace = [⟨.hciCommandDataPacket, [0x03, 0x0c, 0x00]⟩, ⟨.hciAclDataPacket, helloPacket⟩] ∧
      accepted exchanged.trace = ended exchanged.trace ++ [⟨.hciCommandDataPacket, inquiryCommand⟩] ∧
      exchanged.bt.cmdBusy = 1 ∧ exchanged.bt.acloBusy ≠ 1 ∧ exchanged.txBusy = 1 ∧
      exchanged.bt.cmdPacket.read exchanged.bt.cmdLen = inquiryCommand ∧ AtEach Faithful exchanged.trace := by
  have hfit : ∀ i ∈ exchange, Input.Fits 65535 i := by
    simp [exchange, sendingPoll, Input.Fits, Input.steps, pollSteps, Step.Fits, Step.calls, resetCommand, offerHello,
      offerInquiry, helloPacket, inquiryCommand, Call.Fits]
  have hcmd : exchanged.bt.cmdBusy = 1 := by decide +kernel
  obtain ⟨P, hsplit, -, -, hone, hlock, hstaged, -, hfaithful⟩ :=
    transmission_exactly_once plain dongle dongleChannels .zero 0 rfl exchange hfit
  have hP : P = [⟨.hciCommandDataPacket, inquiryCommand⟩] := by
    have hsplit' : accepted exchanged.trace = ended exchanged.trace ++ P := hsplit
    rw [accepted_exchanged, ended_exchanged] at hsplit'
    exact List.append_cancel_left hsplit'.symm
  subst hP
  obtain ⟨bytes, hbytes, -, hread⟩ := hstaged hcmd
  obtain rfl : inquiryCommand = bytes := by simpa using hbytes
  exact ⟨rfl, hfit, ended_exchanged, hsplit, hcmd, fun ha => hone ⟨hcmd, ha⟩, hlock (by simp), hread,
    hfaithful⟩

end Uubt.Transmission
