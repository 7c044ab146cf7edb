import Uubt.Sending
import Uubt.TransportLock

namespace Uubt.Invitations

open History HostLibrary Driver Transport Endpoints Moves Clients ClassDriver Sessions Runs Transmission TransportLock
  Sending

/-- The last word of h2_can_send_packet_now is that the stack may send, and
nothing has been offered since. -/
def invited : Observer Event Bool where
  init := false
  step s e := match e with
    | .canSend _ ret => ret
    | .sendPacket _ _ _ => false
    | _ => s

/-- What is sent on an invitation is taken. -/
def Kept (past : Trace) : Event → Prop
  | .sendPacket type packet ret => invited.after past = true → Sendable (.send type packet) → ret = 0
  | _ => True

structure Honest (σ : Sys) : Prop where
  guarded : Guarded σ
  free : invited.after σ.trace = true → σ.txBusy = 0
  kept : AtEach Kept σ.trace

def Neutral (e : Event) : Prop := (∀ s, invited.step s e = s) ∧ ∀ past, Kept past e

variable {σ : Sys}

theorem invited_emit {e : Event} (he : Neutral e) : invited.after (σ.emit e).trace = invited.after σ.trace := by
  rw [emit_trace, invited.after_concat, he.1]

theorem Honest.emit (h : Honest σ) {e : Event} (he : Neutral e) : Honest (σ.emit e) where
  guarded := ⟨h.guarded.free, h.guarded.exclusive⟩
  free := by
    rw [invited_emit he]
    exact h.free
  kept := (atEach_concat _ _ _).mpr ⟨h.kept, he.2 _⟩

theorem Honest.write (h : Honest σ) {f : BtState → BtState} (hg : Guarded (σ.write f)) : Honest (σ.write f) :=
  ⟨hg, h.free, h.kept⟩

theorem neutral_of_owner {e : Event} (h : e.owner ≠ .client) : Neutral e := by
  cases e <;> first | exact ⟨fun _ => rfl, fun _ => trivial⟩ | exact absurd rfl h

theorem Honest.own (h : Honest σ) {e : Event} {o : Owner} (he : e.owner = o) (ho : o ≠ .client) : Honest (σ.emit e) :=
  h.emit (neutral_of_owner (he ▸ ho))

theorem send_iff (h : Guarded σ) {type : PacketType} {packet : List UInt8} (hp : Sendable (.send type packet)) :
    (h2SendPacket type packet packet.length σ).1 = 0 ↔ h2CanSendPacketNow type σ = true := by
  by_cases ht : σ.txBusy = 0
  · obtain ⟨hc, ha⟩ := h.free ht
    have hn : uint16 packet.length = packet.length := uint16_natCast (Nat.lt_succ_of_le (sendable_fits hp))
    refine iff_of_true ?_ (decide_eq_true ht)
    rw [send_open ht, hn]
    cases type with
    | hciCommandDataPacket =>
        have hs : ¬packet.length > cmdAlignedMaxSize := Nat.not_lt_of_le hp
        simp only [halUbTxPacket, hc, hs, ne_eq, not_true_eq_false, if_false]
    | hciAclDataPacket =>
        have hs : ¬packet.length > aclAlignedMaxSize := Nat.not_lt_of_le hp
        simp only [halUbTxPacket, ha, hs, ne_eq, not_true_eq_false, if_false]
    | hciEventPacket | other code => exact hp.elim
  · rw [send_locked ht]
    exact iff_of_false (show ¬(-1 : Int) = 0 by decide) (by simpa [h2CanSendPacketNow] using ht)

theorem stackCall_honest (h : Honest σ) (x : Call) : Honest (stackCall σ x) := by
  have hg := stackCall_guarded h.guarded x
  cases x with
  | canSend type =>
      refine ⟨hg, fun hi => ?_, (atEach_concat _ _ _).mpr ⟨h.kept, trivial⟩⟩
      rw [stackCall, emit_trace, invited.after_concat] at hi
      exact of_decide_eq_true hi
  | send type packet =>
      obtain ⟨-, ht⟩ := h2SendPacket_reach type packet packet.length σ
      have htrace : (stackCall σ (.send type packet)).trace =
          σ.trace ++ [.sendPacket type packet (h2SendPacket type packet packet.length σ).1] :=
        congrArg (· ++ [Event.sendPacket type packet (h2SendPacket type packet packet.length σ).1]) ht
      refine ⟨hg, fun hi => ?_, ?_⟩
      · rw [htrace, invited.after_concat] at hi
        cases hi
      · rw [htrace]
        refine (atEach_concat _ _ _).mpr ⟨h.kept, fun hi hp => ?_⟩
        exact (send_iff h.guarded hp).mpr (decide_eq_true (h.free hi))

theorem stackCalls_honest (h : Honest σ) (calls : List Call) : Honest (calls.foldl stackCall σ) :=
  run_preserves (I := Honest) (fun _ x hτ => stackCall_honest hτ x) h calls

theorem rxHandler_honest (h : Honest σ) {type : PacketType} (packet : List UInt8) (len : Nat) (calls : List Call) :
    Honest (callRxHandler h2Client type packet len calls σ) := by
  have hrx : Neutral (.rx type (packet.take (uint16 len)) (uint16 len)) := ⟨fun _ => rfl, fun _ => trivial⟩
  have hph : Neutral (.packetHandler type (packet.take (uint16 len)) (uint16 len)) :=
    ⟨fun _ => rfl, fun _ => trivial⟩
  have hret : Neutral (.rxReturn type) := ⟨fun _ => rfl, fun _ => trivial⟩
  exact (stackCalls_honest ((h.emit hrx).emit hph) calls).emit hret

theorem txEndHandler_honest (h : Honest σ) (type : PacketType) (calls : List Call) :
    AtEach Kept (callTxEndHandler h2Client type calls σ).trace ∧
      (callTxEndHandler h2Client type calls σ).txBusy = 0 := by
  have hend : Neutral (.txEnd type) := ⟨fun _ => rfl, fun _ => trivial⟩
  have hsent : Neutral .packetSent := ⟨fun _ => rfl, fun _ => trivial⟩
  exact ⟨(stackCalls_honest ((h.emit hend).emit hsent) calls).kept, rfl⟩

theorem cmdRequest_honest (h : Honest σ) (st : UsbhStatus) : Honest (cmdRequest st σ) := by
  rw [cmdRequest, cmdStart]
  split
  · have hset : Honest (σ.emit (.setSetup (cmdSetup σ.bt.cmdLen))) := h.own (o := .cmd) rfl (by decide)
    have hstart : Honest ((σ.emit (.setSetup (cmdSetup σ.bt.cmdLen))).write ({ · with cmdState := 1 })) :=
      hset.write ⟨h.guarded.free, h.guarded.exclusive⟩
    exact hstart.own (o := .cmd) rfl (by decide)
  · exact h.own (o := .cmd) rfl (by decide)

theorem cmd_honest (h : Honest σ) (rd : CmdReadings) : Honest (usbBtCmdProcess h2Client rd σ).2 := by
  have hg := cmd_guarded h.guarded rd
  have hm := cmd_moves h2Client rd σ
  generalize (usbBtCmdProcess h2Client rd σ).2 = σ' at hg hm ⊢
  cases hm with
  | idle => exact h
  | waiting => exact cmdRequest_honest h rd.st
  | failed => exact (cmdRequest_honest h .fail).write hg
  | sent =>
      obtain ⟨hk, ht⟩ := txEndHandler_honest (cmdRequest_honest h .ok) .hciCommandDataPacket rd.calls
      exact ⟨hg, fun _ => ht, hk⟩

theorem aclo_honest (h : Honest σ) (rd : AcloReadings) : Honest (usbBtAcloProcess h2Client none rd σ).2 := by
  have hg := aclo_guarded h.guarded rd
  have hm := aclo_moves h2Client none rd σ
  generalize (usbBtAcloProcess h2Client none rd σ).2 = σ' at hg hm ⊢
  have hr : Honest (acloRead rd σ) := h.own (o := .aclo) (by rfl) (by decide)
  have hclr : Honest ((acloRead rd σ).emit (.clrFeature .aclo σ.bt.acloHcn rd.clr)) :=
    hr.own (o := .aclo) (by rfl) (by decide)
  cases hm with
  | idle | lost => exact h
  | submit => exact (h.own (o := .aclo) (by rfl) (by decide)).write hg
  | done =>
      obtain ⟨hk, ht⟩ := txEndHandler_honest hr .hciAclDataPacket rd.calls
      exact ⟨hg, fun _ => ht, hk⟩
  | clear => exact hclr.write hg
  | stalled => exact hclr
  | wait => exact hr

theorem evt_honest (h : Honest σ) (rd : EvtReadings) : Honest (usbBtEvtProcess h2Client rd σ).2 := by
  have hg := evt_guarded h.guarded rd
  have hm := evt_moves h2Client rd σ
  generalize (usbBtEvtProcess h2Client rd σ).2 = σ' at hg hm ⊢
  have hf : Honest (σ.emit (.currentFrame rd.frame)) := h.own (o := .evt) (by rfl) (by decide)
  have hr : Honest (evtRead rd σ) := hf.own (o := .evt) (by rfl) (by decide)
  have hclr : Honest ((evtRead rd σ).emit (.clrFeature .evt σ.bt.evtHcn rd.clr)) :=
    hr.own (o := .evt) (by rfl) (by decide)
  cases hm with
  | submit => exact (hf.own (o := .evt) (by rfl) (by decide)).write hg
  | expire | rearm => exact hf.write hg
  | deliver => exact (rxHandler_honest hr _ _ _).write hg
  | clear => exact hclr.write hg
  | stalled => exact hclr
  | wait => exact hr
  | rest | lost => exact hf

theorem acli_honest (h : Honest σ) (rd : AcliReadings) : Honest (usbBtAcliProcess h2Client rd σ).2 := by
  have hg := acli_guarded h.guarded rd
  have hm := acli_moves h2Client rd σ
  generalize (usbBtAcliProcess h2Client rd σ).2 = σ' at hg hm ⊢
  have hr : Honest (acliRead rd σ) := h.own (o := .acli) (by rfl) (by decide)
  have hclr : Honest ((acliRead rd σ).emit (.clrFeature .acli σ.bt.acliHcn rd.clr)) :=
    hr.own (o := .acli) (by rfl) (by decide)
  cases hm with
  | submit => exact (h.own (o := .acli) (by rfl) (by decide)).write hg
  | deliver => exact (rxHandler_honest hr _ _ _).write hg
  | clear => exact hclr.write hg
  | stalled => exact hclr
  | wait => exact hr
  | lost => exact h

theorem step_honest (h : Honest σ) (s : Step) : Honest (step h2Client σ s) := by
  cases s with
  | call x => exact stackCall_honest h x
  | cmd rd => exact cmd_honest h rd
  | evt rd => exact evt_honest h rd
  | aclo rd => exact aclo_honest h rd
  | acli rd => exact acli_honest h rd

/-- The answers of h2_can_send_packet_now hold what they promise, also to a
handler that asks in the middle of a poll: what the stack sends on a yes is
taken, and between two inputs of a session a packet of legal size is taken if
and only if the answer would be yes. -/
theorem invitations_kept (b : Build) (dev : Device) (ch : Channels) (bt : BtState) (txBusy : Int)
    (hdev : dev.bInterfaceClass = wirelessClass) (inputs : List Input) :
    let σ := run (react b h2Client) (opened b dev ch bt txBusy) inputs
    AtEach Kept σ.trace ∧ ∀ type packet, Sendable (.send type packet) →
      ((h2SendPacket type packet packet.length σ).1 = 0 ↔ h2CanSendPacketNow type σ = true) := by
  intro σ
  have hstart : Honest (opened b dev ch bt txBusy) := by
    refine ⟨opened_guarded b ch bt txBusy hdev [], fun _ => rfl, ?_⟩
    rw [opened_wireless b ch bt txBusy hdev]
    refine Extends.atEach (K := fun e => e.owner ≠ .client) ⟨_, (List.nil_append _).symm, ?_⟩ (atEach_nil _)
      fun past e he => (neutral_of_owner he).2 past
    exact attach_events dev ch (by simp [Event.owner]) (by simp [Event.owner])
  have h : Honest σ := by
    have hrun := run_react b h2Client_polite (opened_loadingFw b ch bt txBusy hdev) inputs
    rw [show σ = run (step h2Client) (opened b dev ch bt txBusy) (inputs.flatMap Input.steps) from hrun]
    exact run_preserves (I := Honest) (fun _ s hτ => step_honest hτ s) hstart _
  exact ⟨h.kept, fun type packet hp => send_iff h.guarded hp⟩

/-- A command is sent, and a handler asks for an ACL packet while it is still
in work; so the answer is no. -/
def answeredReset : List Input :=
  [.call (.canSend .hciCommandDataPacket), .call (.send .hciCommandDataPacket [0x03, 0x0c, 0x00]),
    .poll {
      cmd := { st := .ok, calls := [.canSend .hciAclDataPacket] }
      evt := { frame := 0, urb := .idle, received := [], clr := .ok, calls := [] }
      aclo := { urb := .idle, clr := .ok, calls := [] }
      acli := { urb := .idle, received := [], clr := .ok, calls := [] }
      loop := [] }]

theorem acl_packet_taken_after_reset :
    (h2SendPacket .hciAclDataPacket [0x01, 0x20, 0x00, 0x00] 4
      (run (react plain h2Client) (opened plain dongle dongleChannels .zero 0) answeredReset)).1 = 0 :=
  ((invitations_kept plain dongle dongleChannels .zero 0 rfl answeredReset).2 .hciAclDataPacket
    [0x01, 0x20, 0x00, 0x00] (show 4 ≤ 64 by decide)).mpr (by decide +kernel)

end Uubt.Invitations
