import Uubt.Transmission

namespace Uubt.TransportLock

open HostLibrary Driver Transport Endpoints Moves Clients ClassDriver Sessions Runs OneSlot Transmission

def Sendable : Call → Prop
  | .send .hciCommandDataPacket packet => packet.length ≤ cmdAlignedMaxSize
  | .send .hciAclDataPacket packet => packet.length ≤ aclAlignedMaxSize
  | .send _ _ => False
  | .canSend _ => True

/-- Somebody will unlock the transport. -/
def Released (σ : Sys) : Prop := σ.txBusy = 1 → σ.bt.cmdBusy = 1 ∨ σ.bt.acloBusy = 1

/-- The command in work does not fail in this step. -/
def NoFail (σ : Sys) : Step → Prop
  | .cmd rd => σ.bt.cmdBusy ≠ 0 → rd.st ≠ .fail
  | _ => True

def PollNoFail (σ : Sys) : Input → Prop
  | .poll rd => σ.bt.cmdBusy ≠ 0 → rd.cmd.st ≠ .fail
  | .call _ => True

/-- The transport is locked, and the driver has nothing that would unlock
it. -/
structure Stuck (σ : Sys) : Prop where
  locked : σ.txBusy = 1
  noCmd : σ.bt.cmdBusy = 0
  noAclo : σ.bt.acloBusy = 0

theorem sendable_fits {x : Call} (h : Sendable x) : Call.Fits 65535 x := by
  cases x with
  | canSend type => trivial
  | send type packet =>
      cases type with
      | hciCommandDataPacket =>
          have hl : packet.length ≤ 260 := h
          exact Nat.le_trans hl (by decide)
      | hciAclDataPacket =>
          have hl : packet.length ≤ 64 := h
          exact Nat.le_trans hl (by decide)
      | hciEventPacket | other code => exact h.elim

variable {l : Ledger Packet} {σ : Sys}

theorem stackCall_released (h : TxInv l σ) (hr : Released σ) {x : Call} (hx : Sendable x) :
    Released (stackCall σ x) := by
  by_cases ht : σ.txBusy = 0
  · obtain ⟨hc, ha⟩ := h.idle ht
    cases x with
    | canSend type => exact hr
    | send type packet =>
        have hn : uint16 packet.length = packet.length := uint16_natCast (Nat.lt_succ_of_le (sendable_fits hx))
        simp only [stackCall, h2SendPacket, h2CanSendPacketNow, ht, decide_true, Bool.not_true,
          Bool.false_eq_true, if_false, hn]
        cases type with
        | hciCommandDataPacket =>
            have hs : ¬packet.length > cmdAlignedMaxSize := Nat.not_lt_of_le hx
            simp only [halUbTxPacket, hc, hs, ne_eq, not_true_eq_false, if_false]
            exact fun _ => .inl rfl
        | hciAclDataPacket =>
            have hs : ¬packet.length > aclAlignedMaxSize := Nat.not_lt_of_le hx
            simp only [halUbTxPacket, ha, hs, ne_eq, not_true_eq_false, if_false]
            exact fun _ => .inr rfl
        | hciEventPacket | other code => exact hx.elim
  · obtain ⟨e, he, -⟩ := stackCall_busy ht x
    exact he ▸ hr

theorem stackCalls_released (h : TxInv l σ) (hr : Released σ) (calls : List Call)
    (hx : ∀ x ∈ calls, Sendable x) : Released (calls.foldl stackCall σ) := by
  induction calls generalizing l σ with
  | nil => exact hr
  | cons x xs ih =>
      have hs := hx x (by simp)
      obtain ⟨l', -, h'⟩ := stackCall_inv h x (sendable_fits hs)
      exact ih h' (stackCall_released h hr hs) (fun y hy => hx y (by simp [hy]))

theorem rxHandler_released (h : TxInv l σ) (hr : Released σ) (type : PacketType) (packet : List UInt8)
    (len : Nat) (calls : List Call) (hx : ∀ x ∈ calls, Sendable x) :
    Released (callRxHandler h2Client type packet len calls σ) := by
  have h1 := (h.emit (e := .rx type (packet.take (uint16 len)) (uint16 len))
    ⟨rfl, fun _ => rfl, fun _ => trivial⟩).emit
      (e := .packetHandler type (packet.take (uint16 len)) (uint16 len)) ⟨rfl, fun _ => rfl, fun _ => trivial⟩
  exact stackCalls_released h1 hr calls hx

theorem evt_released (h : TxInv l σ) (hr : Released σ) (rd : EvtReadings) (hx : ∀ x ∈ rd.calls, Sendable x) :
    Released (usbBtEvtProcess h2Client rd σ).2 := by
  have hm := evt_moves h2Client rd σ
  generalize (usbBtEvtProcess h2Client rd σ).2 = σ' at hm ⊢
  cases hm with
  | deliver =>
      have hread : TxInv l (evtRead rd σ) := (h.emit (silent_currentFrame _)).emit (silent_urb _ (by simp))
      exact rxHandler_released hread hr _ _ _ _ hx
  | submit | expire | clear | stalled | wait | rearm | rest | lost => exact hr

theorem acli_released (h : TxInv l σ) (hr : Released σ) (rd : AcliReadings) (hx : ∀ x ∈ rd.calls, Sendable x) :
    Released (usbBtAcliProcess h2Client rd σ).2 := by
  have hm := acli_moves h2Client rd σ
  generalize (usbBtAcliProcess h2Client rd σ).2 = σ' at hm ⊢
  cases hm with
  | deliver =>
      have hread : TxInv l (acliRead rd σ) := h.emit (silent_urb _ (by simp))
      exact rxHandler_released hread hr _ _ _ _ hx
  | submit | clear | stalled | wait | lost => exact hr

theorem txEndHandler_released {σ : Sys} (ht : σ.txBusy ≠ 0) (type : PacketType) (calls : List Call)
    (f : BtState → BtState) : Released ((callTxEndHandler h2Client type calls σ).write f) := by
  obtain ⟨tr, htr, -⟩ := txEndHandler_busy ht type calls
  rw [htr]
  intro h1
  exact absurd h1 (show ¬(0 : Int) = 1 by decide)

theorem cmd_released (h : TxInv l σ) (hr : Released σ) (rd : CmdReadings)
    (hf : σ.bt.cmdBusy ≠ 0 → rd.st ≠ .fail) : Released (usbBtCmdProcess h2Client rd σ).2 := by
  have hm := cmd_moves h2Client rd σ
  generalize (usbBtCmdProcess h2Client rd σ).2 = σ' at hm ⊢
  cases hm with
  | idle => exact hr
  | failed hb hs => exact absurd hs (hf hb)
  | waiting =>
      obtain ⟨h1, h2, h3⟩ := cmdRequest_fields rd.st σ
      rw [Released, h1, h2, h3]
      exact hr
  | sent hb =>
      have ht : (cmdRequest .ok σ).txBusy ≠ 0 := by
        rw [(cmdRequest_fields .ok σ).1, h.locked (.inl hb)]
        decide
      exact txEndHandler_released ht _ _ _

theorem aclo_released (h : TxInv l σ) (hr : Released σ) (rd : AcloReadings) :
    Released (usbBtAcloProcess h2Client none rd σ).2 := by
  have hm := aclo_moves h2Client none rd σ
  generalize (usbBtAcloProcess h2Client none rd σ).2 = σ' at hm ⊢
  cases hm with
  | idle | submit | clear | stalled | wait | lost => exact hr
  | done hb =>
      have ht : (acloRead rd σ).txBusy ≠ 0 := by
        rw [acloRead, emit_txBusy, h.locked (.inr hb)]
        decide
      exact txEndHandler_released ht _ _ _

theorem step_released (h : TxInv l σ) (hr : Released σ) (s : Step) (hs : ∀ x ∈ Step.calls s, Sendable x)
    (hf : NoFail σ s) : Released (step h2Client σ s) := by
  cases s with
  | call x => exact stackCall_released h hr (hs x (by simp [Step.calls]))
  | cmd rd => exact cmd_released h hr rd hf
  | evt rd => exact evt_released h hr rd hs
  | aclo rd => exact aclo_released h hr rd
  | acli rd => exact acli_released h hr rd hs

/-- A failed command leaves the transport locked: the FAIL path of
usb_bt_cmd_process does not tell it. -/
theorem fail_locks (h : TxInv l σ) {s : Step} (hf : ¬NoFail σ s) : ¬Released (step h2Client σ s) := by
  cases s with
  | cmd rd =>
      obtain ⟨hb, hs⟩ : σ.bt.cmdBusy ≠ 0 ∧ rd.st = .fail := by simpa [NoFail] using hf
      have hm := cmd_moves h2Client rd σ
      change ¬Released (usbBtCmdProcess h2Client rd σ).2
      generalize (usbBtCmdProcess h2Client rd σ).2 = σ' at hm ⊢
      cases hm with
      | idle h0 => exact absurd h0 hb
      | sent _ ho => rw [hs] at ho; contradiction
      | waiting _ _ hn => exact absurd hs hn
      | failed =>
          obtain ⟨h1, -, h3⟩ := cmdRequest_fields .fail σ
          have ha : σ.bt.acloBusy = 0 := h.exclusive.resolve_left hb
          simp [Released, cmdDone, h1, h3, ha, h.locked (.inl hb)]
  | call | evt | aclo | acli => exact absurd trivial hf

theorem stackCalls_stuck (h : Stuck σ) (calls : List Call) : Stuck (calls.foldl stackCall σ) := by
  have ht : σ.txBusy ≠ 0 := by rw [h.locked]; decide
  obtain ⟨tr, htr, -⟩ := stackCalls_busy ht calls
  rw [htr]
  exact ⟨h.locked, h.noCmd, h.noAclo⟩

theorem rxHandler_stuck (h : Stuck σ) (type : PacketType) (packet : List UInt8) (len : Nat) (calls : List Call) :
    Stuck (callRxHandler h2Client type packet len calls σ) := by
  have h1 : Stuck ((σ.emit (.rx type (packet.take (uint16 len)) (uint16 len))).emit
      (.packetHandler type (packet.take (uint16 len)) (uint16 len))) := ⟨h.locked, h.noCmd, h.noAclo⟩
  obtain ⟨h2, h3, h4⟩ := stackCalls_stuck h1 calls
  exact ⟨h2, h3, h4⟩

/-- Once stuck, always stuck: whatever the stack sends is refused. -/
theorem step_stuck (h : Stuck σ) (s : Step) : Stuck (step h2Client σ s) := by
  obtain ⟨ht, hc, ha⟩ := h
  cases s with
  | call x => exact stackCalls_stuck ⟨ht, hc, ha⟩ [x]
  | cmd rd =>
      change Stuck (usbBtCmdProcess h2Client rd σ).2
      rw [usbBtCmdProcess, if_pos hc]
      exact ⟨ht, hc, ha⟩
  | aclo rd =>
      change Stuck (usbBtAcloProcess h2Client none rd σ).2
      rw [usbBtAcloProcess, if_pos ha]
      exact ⟨ht, hc, ha⟩
  | evt rd =>
      have hm := evt_moves h2Client rd σ
      change Stuck (usbBtEvtProcess h2Client rd σ).2
      generalize (usbBtEvtProcess h2Client rd σ).2 = σ' at hm ⊢
      cases hm with
      | deliver =>
          have hr : Stuck (evtRead rd σ) := ⟨ht, hc, ha⟩
          obtain ⟨h1, h2, h3⟩ := rxHandler_stuck hr .hciEventPacket rd.received rd.received.length rd.calls
          exact ⟨h1, h2, h3⟩
      | submit | expire | clear | stalled | wait | rearm | rest | lost => exact ⟨ht, hc, ha⟩
  | acli rd =>
      have hm := acli_moves h2Client rd σ
      change Stuck (usbBtAcliProcess h2Client rd σ).2
      generalize (usbBtAcliProcess h2Client rd σ).2 = σ' at hm ⊢
      cases hm with
      | deliver =>
          have hr : Stuck (acliRead rd σ) := ⟨ht, hc, ha⟩
          obtain ⟨h1, h2, h3⟩ := rxHandler_stuck hr .hciAclDataPacket rd.received rd.received.length rd.calls
          exact ⟨h1, h2, h3⟩
      | submit | clear | stalled | wait | lost => exact ⟨ht, hc, ha⟩

theorem run_stuck (h : Stuck σ) (steps : List Step) : Stuck (run (step h2Client) σ steps) :=
  run_preserves (I := Stuck) (fun _ s hs => step_stuck hs s) h steps

theorem TxInv.stuck (h : TxInv l σ) (hr : ¬Released σ) : Stuck σ := by
  have hn : ¬(σ.txBusy = 1 → σ.bt.cmdBusy = 1 ∨ σ.bt.acloBusy = 1) := hr
  have hc := h.cmdFlag
  have ha := h.acloFlag
  constructor <;> omega

theorem Stuck.not_released (h : Stuck σ) : ¬Released σ := by
  intro hr
  have hb := hr h.locked
  rw [h.noCmd, h.noAclo] at hb
  simp at hb

def Input.Sendable (i : Input) : Prop := ∀ s ∈ Input.steps i, ∀ x ∈ Step.calls s, TransportLock.Sendable x

structure Books (σ : Sys) : Prop where
  normal : σ.bt.loadingFw = 0
  inv : ∃ l, TxInv l σ

theorem react_books (b : Build) (h : Books σ) {i : Input} (hi : Input.Sendable i) :
    Books (react b h2Client σ i) := by
  obtain ⟨l, hl⟩ := h.inv
  rw [react_eq b h.normal]
  obtain ⟨l', -, h'⟩ := run_refines hl (fun s hs x hx => sendable_fits (hi s hs x hx))
  exact ⟨(run_loadingFw h2Client_polite σ _).trans h.normal, l', h'⟩

theorem along_steps {i : Input} (hf : PollNoFail σ i) : Along (step h2Client) NoFail σ (Input.steps i) := by
  cases i with
  | call x => exact ⟨trivial, trivial⟩
  | poll rd => exact ⟨hf, trivial, trivial, trivial, trivial⟩

theorem react_released (b : Build) (h : Books σ) (hr : Released σ) {i : Input} (hi : Input.Sendable i)
    (hf : PollNoFail σ i) : Released (react b h2Client σ i) := by
  rw [react_eq b h.normal]
  have hC := (along_steps hf).and (along_of_forall (step h2Client)
    (C := fun _ s => ∀ x ∈ Step.calls s, Sendable x) (fun s hs _ => hi s hs) σ)
  refine (run_invariant (I := fun τ => (∃ l, TxInv l τ) ∧ Released τ) ?_ ⟨h.inv, hr⟩ hC).2
  rintro τ s ⟨⟨l, hl⟩, hrel⟩ ⟨hn, hs⟩
  obtain ⟨l', -, h'⟩ := step_refines hl s (fun x hx => sendable_fits (hs x hx))
  exact ⟨⟨l', h'⟩, step_released hl hrel s hs hn⟩

theorem react_locks (b : Build) (h : Books σ) {i : Input} (hf : ¬PollNoFail σ i) :
    ¬Released (react b h2Client σ i) := by
  cases i with
  | call x => exact absurd trivial hf
  | poll rd =>
      obtain ⟨l, hl⟩ := h.inv
      have hf1 : ¬NoFail σ (.cmd rd.cmd) := hf
      obtain ⟨l', -, h'⟩ := cmd_inv hl rd.cmd
      rw [react_eq b h.normal]
      exact (run_stuck (TxInv.stuck h' (fail_locks hl hf1)) _).not_released

theorem opened_books (b : Build) {dev : Device} (ch : Channels) (bt : BtState) (txBusy : Int)
    (hdev : dev.bInterfaceClass = wirelessClass) : Books (opened b dev ch bt txBusy) :=
  ⟨opened_loadingFw b ch bt txBusy hdev, _, opened_inv b ch bt txBusy hdev⟩

theorem opened_released (b : Build) {dev : Device} (ch : Channels) (bt : BtState) (txBusy : Int)
    (hdev : dev.bInterfaceClass = wirelessClass) : Released (opened b dev ch bt txBusy) := by
  rw [opened_wireless b ch bt txBusy hdev]
  intro h1
  exact absurd h1 (show ¬(0 : Int) = 1 by decide)

/-- The transport is never left locked with nothing to send, in a session
whose packets fit, exactly if no command fails. -/
theorem released_iff_noFail (b : Build) (dev : Device) (ch : Channels) (bt : BtState) (txBusy : Int)
    (hdev : dev.bInterfaceClass = wirelessClass) (inputs : List Input)
    (hs : ∀ i ∈ inputs, Input.Sendable i) :
    (∀ past rest, inputs = past ++ rest → Released (run (react b h2Client) (opened b dev ch bt txBusy) past)) ↔
      Along (react b h2Client) PollNoFail (opened b dev ch bt txBusy) inputs := by
  have h0 := opened_books b ch bt txBusy hdev
  have hsend (past : List Input) (hp : ∀ i ∈ past, i ∈ inputs) :
      Along (react b h2Client) (fun _ i => Input.Sendable i) (opened b dev ch bt txBusy) past :=
    along_of_forall _ (fun i hi _ => hs i (hp i hi)) _
  constructor
  · intro hall
    rw [along_iff_split]
    rintro past i rest rfl
    have hbooks := run_invariant (I := Books) (fun _ _ hb hi => react_books b hb hi) h0 (hsend past (by simp; tauto))
    by_contra hf
    have hgood := hall (past ++ [i]) rest (by simp)
    rw [run_append] at hgood
    exact react_locks b hbooks hf hgood
  · rintro hC past rest rfl
    rw [along_append] at hC
    have hAll := hC.1.and (hsend past (by simp; tauto))
    refine (run_invariant (I := fun τ => Books τ ∧ Released τ) ?_
      ⟨h0, opened_released b ch bt txBusy hdev⟩ hAll).2
    rintro τ i ⟨hb, hr⟩ ⟨hf, hi⟩
    exact ⟨react_books b hb hi, react_released b hb hr hi hf⟩

def failingPoll : PollReadings where
  cmd := { st := .fail, calls := [] }
  evt := { frame := 0, urb := .idle, received := [], clr := .ok, calls := [] }
  aclo := { urb := .idle, clr := .ok, calls := [] }
  acli := { urb := .idle, received := [], clr := .ok, calls := [] }
  loop := []

theorem sendable_reset : ∀ i ∈ [Input.call resetCommand, .poll failingPoll], Input.Sendable i := by
  simp [Input.Sendable, Input.steps, pollSteps, Step.calls, resetCommand, failingPoll, Sendable,
    cmdAlignedMaxSize]

theorem failed_command_locks :
    dongle.bInterfaceClass = wirelessClass ∧ (∀ i ∈ [Input.call resetCommand, .poll failingPoll], Input.Sendable i) ∧
      ¬Released (run (react plain h2Client) (opened plain dongle dongleChannels .zero 0)
        [.call resetCommand, .poll failingPoll]) := by
  refine ⟨rfl, sendable_reset, ?_⟩
  unfold Released
  decide +kernel

theorem released_iff_noFail_reset :
    (∀ past rest, [Input.call resetCommand, .poll failingPoll] = past ++ rest →
      Released (run (react plain h2Client) (opened plain dongle dongleChannels .zero 0) past)) ↔
    Along (react plain h2Client) PollNoFail (opened plain dongle dongleChannels .zero 0)
      [.call resetCommand, .poll failingPoll] :=
  released_iff_noFail plain dongle dongleChannels .zero 0 rfl _ sendable_reset

end Uubt.TransportLock
