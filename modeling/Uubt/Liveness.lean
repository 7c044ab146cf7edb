import Uubt.Eventually
import Uubt.Framing
import Uubt.Progress
import Uubt.Transmission

namespace Uubt.Liveness

open History HostLibrary Driver Transport Endpoints Moves Clients ClassDriver Frames Sessions Runs OneSlot Channels
  Progress Transmission Framing Eventually

abbrev states (b : Build) (c : Client) (σ : Sys) (inputs : Nat → Input) : Nat → Sys := path (react b c) σ inputs

def IsPoll : Input → Prop
  | .poll _ => True
  | .call _ => False

def EndsCommand : Input → Prop
  | .poll rd => rd.cmd.st = .ok ∨ rd.cmd.st = .fail
  | .call _ => False

def EndsAclOut : Input → Prop
  | .poll rd => rd.aclo.urb = .done
  | .call _ => False

def EndsAclIn : Input → Prop
  | .poll rd => rd.acli.urb = .done
  | .call _ => False

/-- The host core goes on polling, and the dongle answers: a command that
waits for its control transfer gets an end, and a bulk transfer that is waited
for is found done, if not in this attempt then in a later one. -/
structure Answered (s : Nat → Sys) (inputs : Nat → Input) : Prop where
  polled : ∀ n, ∃ m, n ≤ m ∧ IsPoll (inputs m)
  command : LeadsTo (fun n => (s n).bt.cmdBusy ≠ 0) (fun n => EndsCommand (inputs n))
  aclOut : LeadsTo (fun n => phase .aclo (s n).bt = .waiting)
    (fun n => phase .aclo (s n).bt = .waiting ∧ EndsAclOut (inputs n))

theorem extends_grows {K : Event → Prop} {h h' : Trace} (hh : Extends K h h') : h <+: h' := by
  obtain ⟨new, rfl, -⟩ := hh
  exact List.prefix_append _ _

theorem accepted_grows {t t' : Trace} (h : t <+: t') : accepted t <+: accepted t' := h.filterMap _

theorem sent_step (s : Sent) (e : Event) : s.ended <+: (sent.step s e).ended := by
  cases e with
  | urbState ep hcn urb => cases ep <;> cases urb <;> simp [sent]
  | ctlReq data len st => cases st <;> simp [sent]
  | _ => simp [sent]

theorem ended_grows {t t' : Trace} (h : t <+: t') : ended t <+: ended t' := by
  obtain ⟨new, rfl⟩ := h
  induction new using List.reverseRecOn with
  | nil => simp
  | append_singleton new e ih =>
      rw [← List.append_assoc]
      refine ih.trans ?_
      rw [ended, ended, Observer.after_concat]
      exact sent_step _ e

variable {b : Build} {c : Client} {σ : Sys}

theorem step_grows (hc : Polite c) (σ : Sys) (s : Step) : σ.trace <+: (step c σ s).trace := by
  cases s with
  | call x => exact extends_grows (hc.call σ x).events
  | cmd rd => exact extends_grows (cmd_works hc rd σ).events
  | evt rd => exact extends_grows (evt_works hc rd σ).events
  | aclo rd => exact extends_grows (aclo_works hc none rd σ).events
  | acli rd => exact extends_grows (acli_works hc rd σ).events

theorem run_grows (hc : Polite c) (σ : Sys) (steps : List Step) : σ.trace <+: (run (step c) σ steps).trace :=
  run_preserves (I := fun τ => σ.trace <+: τ.trace) (fun τ s h => h.trans (step_grows hc τ s)) List.prefix_rfl steps

structure NormalGrowth (σ τ : Sys) : Prop where
  normal : τ.bt.loadingFw = 0
  grows : σ.trace <+: τ.trace

theorem react_growth (b : Build) (hc : Polite c) (h : σ.bt.loadingFw = 0) (i : Input) :
    NormalGrowth σ (react b c σ i) := by
  rw [react_eq b h]
  exact ⟨(run_loadingFw hc σ _).trans h, run_grows hc σ _⟩

theorem states_growth (b : Build) (hc : Polite c) (h : σ.bt.loadingFw = 0) (inputs : Nat → Input) {n m : Nat}
    (hnm : n ≤ m) : (states b c σ inputs n).trace <+: (states b c σ inputs m).trace := by
  have hnormal (k : Nat) : (states b c σ inputs k).bt.loadingFw = 0 :=
    path_invariant (I := fun τ : Sys => τ.bt.loadingFw = 0) (fun τ k hτ => (react_growth b hc hτ _).normal) h k
  let R : Sys → Sys → Prop := fun σ τ => σ.bt.loadingFw = 0 → NormalGrowth σ τ
  have hrefl (σ : Sys) : R σ σ := fun h => ⟨h, List.prefix_rfl⟩
  have htrans {σ τ υ : Sys} (h : R σ τ) (h' : R τ υ) : R σ υ := fun h0 =>
    ⟨(h' (h h0).normal).normal, (h h0).grows.trans (h' (h h0).normal).grows⟩
  have hstep (σ : Sys) (i : Input) : R σ (react b c σ i) := fun h0 => react_growth b hc h0 i
  have hrel := @path_related _ _ (react b c) σ inputs R hrefl htrans hstep n m hnm
  exact (hrel (hnormal n)).grows

variable {l : Ledger Packet}

/-- The books of the transport, and an ACL-out machine in a state that it
knows. -/
structure Sane (σ : Sys) : Prop where
  normal : σ.bt.loadingFw = 0
  books : ∃ l, TxInv l σ
  known : phase .aclo σ.bt ≠ .lost

theorem works_known {ep : Ep} {o : Owner} {σ' : Sys} (h : Works o σ σ') (ho : o ≠ ep.owner)
    (hk : phase ep σ.bt ≠ .lost) : phase ep σ'.bt ≠ .lost := by
  rcases works_phase h ho with hp | ⟨-, hp⟩
  · rwa [hp]
  · rw [hp]
    decide

theorem aclo_known (rd : AcloReadings) (hk : phase .aclo σ.bt ≠ .lost) :
    phase .aclo (usbBtAcloProcess c none rd σ).2.bt ≠ .lost := by
  have hm := aclo_moves c none rd σ
  generalize (usbBtAcloProcess c none rd σ).2 = σ' at hm ⊢
  cases hm with
  | idle | stalled | wait | lost => exact hk
  | submit hb | clear hb => simp [phase, aclPhase, acloRead, hb]
  | done => simp [phase]

theorem step_known (hc : Polite c) (s : Step) (hk : phase .aclo σ.bt ≠ .lost) :
    phase .aclo (step c σ s).bt ≠ .lost := by
  cases s with
  | call x => exact works_known (clientAct_works (hc.call σ x) .client) (by decide) hk
  | cmd rd => exact works_known (cmd_works hc rd σ) (by decide) hk
  | evt rd => exact works_known (evt_works hc rd σ) (by decide) hk
  | aclo rd => exact aclo_known rd hk
  | acli rd => exact works_known (acli_works hc rd σ) (by decide) hk

theorem react_sane (b : Build) (h : Sane σ) {i : Input} (hi : Input.Fits 65535 i) : Sane (react b h2Client σ i) := by
  obtain ⟨l, hl⟩ := h.books
  have hg := react_growth b h2Client_polite h.normal i
  refine ⟨hg.normal, ?_, ?_⟩
  · rw [react_eq b h.normal]
    obtain ⟨l', -, hl'⟩ := run_refines hl hi
    exact ⟨l', hl'⟩
  · rw [react_eq b h.normal]
    exact run_preserves (I := fun τ : Sys => phase .aclo τ.bt ≠ .lost) (fun _ s hk => step_known h2Client_polite s hk)
      h.known _

theorem settled (h : TxInv l σ) (hc : σ.bt.cmdBusy = 0) (ha : σ.bt.acloBusy = 0) :
    accepted σ.trace = ended σ.trace := by
  have hb := l.balanced
  rw [h.accepted, h.ended, h.pending] at hb
  simpa [pending, hc, ha] using hb

theorem cmd_settles (h : TxInv l σ) (hb : σ.bt.cmdBusy ≠ 0) {rd : CmdReadings} (hst : rd.st = .ok ∨ rd.st = .fail) :
    (usbBtCmdProcess h2Client rd σ).2.bt.cmdBusy = 0 ∧ (usbBtCmdProcess h2Client rd σ).2.bt.acloBusy = 0 := by
  have ha : σ.bt.acloBusy = 0 := h.exclusive.resolve_left hb
  have hm := cmd_moves h2Client rd σ
  generalize (usbBtCmdProcess h2Client rd σ).2 = σ' at hm ⊢
  cases hm with
  | idle h0 => exact absurd h0 hb
  | waiting _ ho hf => exact absurd hst (not_or.mpr ⟨ho, hf⟩)
  | failed => exact ⟨rfl, (cmdRequest_fields .fail σ).2.2.trans ha⟩
  | sent =>
      have hreq := cmdRequest_fields .ok σ
      have ht : (cmdRequest .ok σ).txBusy ≠ 0 := by
        rw [hreq.1, h.locked (.inl hb)]
        decide
      obtain ⟨tr, htr, -⟩ := txEndHandler_busy ht .hciCommandDataPacket rd.calls
      rw [htr]
      exact ⟨rfl, hreq.2.2.trans ha⟩

theorem aclo_settles (h : TxInv l σ) (hp : phase .aclo σ.bt = .waiting) {rd : AcloReadings} (hu : rd.urb = .done) :
    (usbBtAcloProcess h2Client none rd σ).2.bt.cmdBusy = 0 ∧
      (usbBtAcloProcess h2Client none rd σ).2.bt.acloBusy = 0 := by
  obtain ⟨hb, h1⟩ := (aclo_waiting _).mp hp
  have hc : σ.bt.cmdBusy = 0 := h.exclusive.resolve_right hb
  have ht : (acloRead rd σ).txBusy ≠ 0 := by
    rw [acloRead, emit_txBusy, h.locked (.inr hb)]
    decide
  obtain ⟨tr, htr, -⟩ := txEndHandler_busy ht .hciAclDataPacket rd.calls
  rw [(AcloMove.done hb h1 hu).eq, acloNotify, htr]
  exact ⟨hc, rfl⟩

theorem settled_grows {τ : Sys} (hτ : ∃ l, TxInv l τ) (hbusy : τ.bt.cmdBusy = 0 ∧ τ.bt.acloBusy = 0)
    (hpast : σ.trace <+: τ.trace) (steps : List Step) :
    accepted σ.trace <+: ended (run (step h2Client) τ steps).trace := by
  obtain ⟨l, hl⟩ := hτ
  have hset := settled hl hbusy.1 hbusy.2
  have hacc := accepted_grows hpast
  rw [hset] at hacc
  exact hacc.trans (ended_grows (run_grows h2Client_polite τ steps))

theorem step_books {s : Step} (h : TxInv l σ) (hs : Step.Fits 65535 s) : ∃ l', TxInv l' (step h2Client σ s) := by
  obtain ⟨l', -, hl'⟩ := step_refines h s hs
  exact ⟨l', hl'⟩

theorem command_ends (b : Build) (h : Sane σ) (hb : σ.bt.cmdBusy ≠ 0) {i : Input} (hi : Input.Fits 65535 i)
    (he : EndsCommand i) : accepted σ.trace <+: ended (react b h2Client σ i).trace := by
  obtain ⟨l, hl⟩ := h.books
  rw [react_eq b h.normal]
  cases i with
  | call x => exact he.elim
  | poll rd =>
      exact settled_grows (step_books hl (hi (.cmd rd.cmd) (by simp [Input.steps, pollSteps])))
        (cmd_settles hl hb he) (step_grows h2Client_polite σ (.cmd rd.cmd)) _

theorem before_aclo (hc : Polite c) (rd : PollReadings) (hb : σ.bt.acloBusy ≠ 0) :
    SameAclo σ.bt (run (step c) σ [.cmd rd.cmd, .evt rd.evt]).bt :=
  have hw := (cmd_works hc rd.cmd σ).frame.aclo (by decide) hb
  have hw' := (evt_works hc rd.evt (step c σ (.cmd rd.cmd))).frame.aclo (by decide) (hw.busy ▸ hb)
  ⟨hw'.1.trans hw.1, hw'.2.trans hw.2, hw'.3.trans hw.3, hw'.4.trans hw.4⟩

theorem aclOut_ends (b : Build) (h : Sane σ) (hp : phase .aclo σ.bt = .waiting) {i : Input}
    (hi : Input.Fits 65535 i) (he : EndsAclOut i) : accepted σ.trace <+: ended (react b h2Client σ i).trace := by
  obtain ⟨l, hl⟩ := h.books
  rw [react_eq b h.normal]
  cases i with
  | call x => exact he.elim
  | poll rd =>
      obtain ⟨hb, h1⟩ := (aclo_waiting _).mp hp
      have hsame := before_aclo h2Client_polite rd hb
      have hgrow := run_grows h2Client_polite σ [.cmd rd.cmd, .evt rd.evt]
      have hfit : ∀ s ∈ [Step.cmd rd.cmd, Step.evt rd.evt], Step.Fits 65535 s := fun s hs =>
        hi s (by simp [Input.steps, pollSteps] at hs ⊢; tauto)
      obtain ⟨l', -, hl'⟩ := run_refines hl hfit
      have hp' : phase .aclo (run (step h2Client) σ [.cmd rd.cmd, .evt rd.evt]).bt = .waiting :=
        (aclo_waiting _).mpr ⟨hsame.busy ▸ hb, hsame.state.trans h1⟩
      have hbooks := step_books hl' (hi (.aclo rd.aclo) (by simp [Input.steps, pollSteps]))
      have hpast := hgrow.trans (step_grows h2Client_polite _ (.aclo rd.aclo))
      exact settled_grows hbooks (aclo_settles hl' hp' he) hpast [.acli rd.acli]

theorem aclo_ready (hk : phase .aclo σ.bt ≠ .lost) (hb : σ.bt.acloBusy ≠ 0) (hn : phase .aclo σ.bt ≠ .waiting) :
    σ.bt.acloState = 0 := by
  have h1 : σ.bt.acloState ≠ 1 := fun h1 => hn ((aclo_waiting _).mpr ⟨hb, h1⟩)
  by_contra h0
  exact hk (by simp [phase, aclPhase, hb, h0, h1])

theorem aclo_submits (c : Client) (rd : AcloReadings) (hb : σ.bt.acloBusy ≠ 0) (h0 : σ.bt.acloState = 0) :
    phase .aclo (usbBtAcloProcess c none rd σ).2.bt = .waiting := by
  rw [(AcloMove.submit hb h0).eq]
  exact (aclo_waiting _).mpr ⟨hb, rfl⟩

theorem poll_waits (b : Build) (h : Sane σ) (hb : σ.bt.acloBusy ≠ 0) {i : Input} (hi : IsPoll i)
    (hn : phase .aclo σ.bt ≠ .waiting) : phase .aclo (react b h2Client σ i).bt = .waiting := by
  rw [react_eq b h.normal]
  cases i with
  | call x => exact hi.elim
  | poll rd =>
      have hsame := before_aclo h2Client_polite rd hb
      have hw := aclo_submits h2Client rd.aclo (hsame.busy ▸ hb) (hsame.state.trans (aclo_ready h.known hb hn))
      exact (works_waiting (acli_works h2Client_polite rd.acli _) (by decide)).mpr hw

variable {inputs : Nat → Input}

theorem states_sane (b : Build) (h : Sane σ) (hfit : ∀ n, Input.Fits 65535 (inputs n)) (n : Nat) :
    Sane (states b h2Client σ inputs n) :=
  path_invariant (I := Sane) (fun _ n hτ => react_sane b hτ (hfit n)) h n

/-- While the packets of a list are all accepted and have not all ended,
the last one of them is in work. -/
theorem pending_last (h : TxInv l σ) {A : List Packet} (ha : A <+: accepted σ.trace)
    (hn : ¬A <+: ended σ.trace) : ∃ p, pending σ.bt = some p ∧ A.getLast? = some p := by
  have hb : accepted σ.trace = ended σ.trace ++ (pending σ.bt).toList := by
    rw [← h.accepted, ← h.ended, l.balanced, h.pending]
  have he : ended σ.trace <+: accepted σ.trace := ⟨_, hb.symm⟩
  have hlt : (ended σ.trace).length < A.length := by
    by_contra hle
    exact hn (List.prefix_of_prefix_length_le ha he (Nat.le_of_not_lt hle))
  have hle := ha.length_le
  cases hp : pending σ.bt with
  | none =>
      rw [hb, hp, Option.toList_none, List.append_nil] at hle
      omega
  | some p =>
      rw [hp, Option.toList_some] at hb
      have hlen : A.length = (accepted σ.trace).length := by
        rw [hb, List.length_append, List.length_singleton] at hle ⊢
        omega
      exact ⟨p, rfl, by rw [ha.eq_of_length hlen, hb, List.getLast?_concat]⟩

theorem pending_command {bt : BtState} {p : Packet} (hp : pending bt = some p) (ht : p.type = .hciCommandDataPacket) :
    bt.cmdBusy ≠ 0 := by
  intro hc
  rw [pending, if_neg (not_not.mpr hc)] at hp
  split at hp
  · obtain rfl := Option.some.inj hp
    contradiction
  · contradiction

theorem pending_acl {bt : BtState} {p : Packet} (hp : pending bt = some p) (ht : p.type ≠ .hciCommandDataPacket) :
    bt.acloBusy ≠ 0 := by
  intro ha
  rw [pending] at hp
  split at hp
  · obtain rfl := Option.some.inj hp
    exact ht rfl
  · rw [if_neg (not_not.mpr ha)] at hp
    contradiction

def Waiting (A : List Packet) (σ : Sys) : Prop := A <+: accepted σ.trace ∧ ¬A <+: ended σ.trace

def Ended (A : List Packet) (σ : Sys) : Prop := A <+: ended σ.trace

theorem Waiting.last_pending {A : List Packet} (hw : Waiting A σ) (h : Sane σ) {p : Packet}
    (hp : A.getLast? = some p) : pending σ.bt = some p := by
  obtain ⟨l, hl⟩ := h.books
  obtain ⟨q, hq, hlast⟩ := pending_last hl hw.1 hw.2
  rw [hq, ← hlast, hp]

theorem waiting_stays (b : Build) (h : Sane σ) {A : List Packet} (i : Input) (hw : Waiting A σ) :
    Waiting A (react b h2Client σ i) ∨ Ended A (react b h2Client σ i) := by
  by_cases he : A <+: ended (react b h2Client σ i).trace
  · exact .inr he
  · exact .inl ⟨hw.1.trans (accepted_grows (react_growth b h2Client_polite h.normal i).grows), he⟩

theorem command_ended {b : Build} (h : Sane σ) (hfit : ∀ n, Input.Fits 65535 (inputs n))
    (hans : Answered (states b h2Client σ inputs) inputs) {A : List Packet} {p : Packet}
    (hp : A.getLast? = some p) (ht : p.type = .hciCommandDataPacket) :
    LeadsTo (fun n => Waiting A (states b h2Client σ inputs n))
      (fun n => Ended A (states b h2Client σ inputs n)) := by
  have hsane := states_sane b h hfit
  have hbusy (n : Nat) (hw : Waiting A (states b h2Client σ inputs n)) :
      (states b h2Client σ inputs n).bt.cmdBusy ≠ 0 := pending_command (hw.last_pending (hsane n) hp) ht
  refine LeadsTo.of_helpful (H := fun n => EndsCommand (inputs n)) (fun n hw => waiting_stays b (hsane n) _ hw) ?_ ?_
  · exact (LeadsTo.of_imp hbusy).trans (hans.command.trans (.of_imp fun n he => .inl he))
  · intro n hw he
    exact hw.1.trans (command_ends b (hsane n) (hbusy n hw) (hfit n) he)

theorem acl_ended {b : Build} (h : Sane σ) (hfit : ∀ n, Input.Fits 65535 (inputs n))
    (hans : Answered (states b h2Client σ inputs) inputs) {A : List Packet} {p : Packet}
    (hp : A.getLast? = some p) (ht : p.type ≠ .hciCommandDataPacket) :
    LeadsTo (fun n => Waiting A (states b h2Client σ inputs n))
      (fun n => Ended A (states b h2Client σ inputs n)) := by
  have hsane := states_sane b h hfit
  have hbusy (n : Nat) (hw : Waiting A (states b h2Client σ inputs n)) :
      (states b h2Client σ inputs n).bt.acloBusy ≠ 0 := pending_acl (hw.last_pending (hsane n) hp) ht
  -- the packet is handed over first, and is waited for from then on
  have hover : LeadsTo (fun n => Waiting A (states b h2Client σ inputs n))
      (fun n => phase .aclo (states b h2Client σ inputs n).bt = .waiting ∨
        Ended A (states b h2Client σ inputs n)) := by
    refine LeadsTo.of_helpful
      (H := fun n => IsPoll (inputs n) ∧ phase .aclo (states b h2Client σ inputs n).bt ≠ .waiting)
      (fun n hw => (waiting_stays b (hsane n) _ hw).imp_right .inr) ?_ ?_
    · intro n _
      obtain ⟨m, hnm, hm⟩ := hans.polled n
      by_cases hp : phase .aclo (states b h2Client σ inputs m).bt = .waiting
      · exact ⟨m, hnm, .inr (.inl hp)⟩
      · exact ⟨m, hnm, .inl ⟨hm, hp⟩⟩
    · rintro n hw ⟨hi, hn⟩
      exact .inl (poll_waits b (hsane n) (hbusy n hw) hi hn)
  refine LeadsTo.of_helpful
    (H := fun n => phase .aclo (states b h2Client σ inputs n).bt = .waiting ∧ EndsAclOut (inputs n))
    (fun n hw => waiting_stays b (hsane n) _ hw) ?_ ?_
  · exact hover.trans ((hans.aclOut.trans (.of_imp fun n he => .inl he)).or (.of_imp fun n ht => .inr ht))
  · rintro n hw ⟨hp, he⟩
    exact hw.1.trans (aclOut_ends b (hsane n) hp (hfit n) he)

theorem opened_sane (b : Build) {dev : Device} (ch : Channels) (bt : BtState) (txBusy : Int)
    (hdev : dev.bInterfaceClass = wirelessClass) : Sane (opened b dev ch bt txBusy) := by
  refine ⟨opened_loadingFw b ch bt txBusy hdev, ⟨.empty, opened_inv b ch bt txBusy hdev⟩, ?_⟩
  rw [opened_wireless b ch bt txBusy hdev]
  simp [phase, attachedBt]

/-- Every packet that has been accepted by some time has ended by some later
time, whatever the stack and the dongle do in between. A command ends also if
the dongle fails it. -/
theorem accepted_packets_end (b : Build) (dev : Device) (ch : Channels) (bt : BtState) (txBusy : Int)
    (hdev : dev.bInterfaceClass = wirelessClass) (inputs : Nat → Input) (hfit : ∀ n, Input.Fits 65535 (inputs n))
    (hans : Answered (states b h2Client (opened b dev ch bt txBusy) inputs) inputs) (n : Nat) :
    ∃ m, n ≤ m ∧ accepted (states b h2Client (opened b dev ch bt txBusy) inputs n).trace <+:
      ended (states b h2Client (opened b dev ch bt txBusy) inputs m).trace := by
  have hsane := opened_sane b ch bt txBusy hdev
  generalize opened b dev ch bt txBusy = σ at hsane hans
  by_cases hn : accepted (states b h2Client σ inputs n).trace <+: ended (states b h2Client σ inputs n).trace
  · exact ⟨n, le_rfl, hn⟩
  have hw : Waiting (accepted (states b h2Client σ inputs n).trace) (states b h2Client σ inputs n) :=
    ⟨List.prefix_rfl, hn⟩
  obtain ⟨l, hl⟩ := (states_sane b hsane hfit n).books
  obtain ⟨p, -, hlast⟩ := pending_last hl hw.1 hw.2
  by_cases ht : p.type = .hciCommandDataPacket
  · exact command_ended hsane hfit hans hlast ht n hw
  · exact acl_ended hsane hfit hans hlast ht n hw

def finishedPoll : PollReadings where
  cmd := { st := .ok, calls := [] }
  evt := { frame := 0, urb := .done, received := [], clr := .ok, calls := [] }
  aclo := { urb := .done, clr := .ok, calls := [] }
  acli := { urb := .done, received := [], clr := .ok, calls := [] }
  loop := []

def resetThenPolls (n : Nat) : Input := if n = 0 then .call resetCommand else .poll finishedPoll

theorem resetThenPolls_fits (n : Nat) : Input.Fits 65535 (resetThenPolls n) := by
  unfold resetThenPolls
  split_ifs
  · simp [Input.Fits, Input.steps, Step.Fits, Step.calls, resetCommand, Call.Fits]
  · simp [Input.Fits, Input.steps, pollSteps, Step.Fits, Step.calls, finishedPoll]

theorem resetThenPolls_answered :
    Answered (states plain h2Client (opened plain dongle dongleChannels .zero 0) resetThenPolls) resetThenPolls where
  polled n := ⟨n + 1, Nat.le_succ n, trivial⟩
  command n _ := ⟨n + 1, Nat.le_succ n, .inl rfl⟩
  aclOut n hn := by
    cases n with
    | zero => exact absurd hn (by decide)
    | succ n => exact ⟨n + 1, le_rfl, hn, rfl⟩

theorem reset_ends :
    ∃ m, 1 ≤ m ∧ [⟨.hciCommandDataPacket, [0x03, 0x0c, 0x00]⟩] <+:
      ended (states plain h2Client (opened plain dongle dongleChannels .zero 0) resetThenPolls m).trace :=
  accepted_packets_end plain dongle dongleChannels .zero 0 rfl resetThenPolls resetThenPolls_fits
    resetThenPolls_answered 1

theorem acli_known (hc : Polite c) (s : Step) (hk : phase .acli σ.bt ≠ .lost) :
    phase .acli (step c σ s).bt ≠ .lost := by
  cases s with
  | call x => exact works_known (clientAct_works (hc.call σ x) .client) (by decide) hk
  | cmd rd => exact works_known (cmd_works hc rd σ) (by decide) hk
  | evt rd => exact works_known (evt_works hc rd σ) (by decide) hk
  | aclo rd => exact works_known (aclo_works hc none rd σ) (by decide) hk
  | acli rd =>
      have hm := acli_moves c rd σ
      change phase .acli (usbBtAcliProcess c rd σ).2.bt ≠ .lost
      generalize (usbBtAcliProcess c rd σ).2 = σ' at hm ⊢
      cases hm with
      | stalled | wait | lost => exact hk
      | submit | deliver | clear => simp [phase, aclPhase]

structure Listening (σ : Sys) : Prop where
  normal : σ.bt.loadingFw = 0
  known : phase .acli σ.bt ≠ .lost

theorem react_listening (b : Build) (hc : Polite c) (h : Listening σ) (i : Input) : Listening (react b c σ i) := by
  refine ⟨(react_growth b hc h.normal i).normal, ?_⟩
  rw [react_eq b h.normal]
  exact run_preserves (I := fun τ : Sys => phase .acli τ.bt ≠ .lost) (fun _ s hk => acli_known hc s hk) h.known _

theorem before_acli (hc : Polite c) (rd : PollReadings) (σ : Sys) :
    (run (step c) σ [.cmd rd.cmd, .evt rd.evt, .aclo rd.aclo]).bt.acliState = σ.bt.acliState :=
  ((aclo_works hc none rd.aclo _).frame.acli (by decide)).trans
    (((evt_works hc rd.evt _).frame.acli (by decide)).trans ((cmd_works hc rd.cmd σ).frame.acli (by decide)))

theorem poll_listens (b : Build) (hc : Polite c) (h : Listening σ) {i : Input} (hi : IsPoll i)
    (hn : phase .acli σ.bt ≠ .waiting) : phase .acli (react b c σ i).bt = .waiting := by
  rw [react_eq b h.normal]
  cases i with
  | call x => exact hi.elim
  | poll rd =>
      have h1 : σ.bt.acliState ≠ 1 := fun h1 => hn ((acli_waiting _).mpr h1)
      have h0 : σ.bt.acliState = 0 := by
        by_contra h0
        exact h.known (by simp [phase, aclPhase, h0, h1])
      change phase .acli
        (usbBtAcliProcess c rd.acli (run (step c) σ [.cmd rd.cmd, .evt rd.evt, .aclo rd.aclo])).2.bt = _
      rw [(AcliMove.submit ((before_acli hc rd σ).trans h0)).eq]
      exact (acli_waiting _).mpr rfl

theorem received_append (t t' : Trace) : received (t ++ t') = received t ++ received t' := List.filterMap_append

theorem acli_delivers (hc : Polite c) (h1 : σ.bt.acliState = 1) {rd : AcliReadings} (hu : rd.urb = .done) :
    (received σ.trace).length < (received (usbBtAcliProcess c rd σ).2.trace).length := by
  obtain ⟨answer, ha, -⟩ := rxHandler_answer hc .hciAclDataPacket rd.received rd.received.length rd.calls
    (acliRead rd σ)
  rw [(AcliMove.deliver h1 hu).eq]
  change _ < (received
    (callRxHandler c .hciAclDataPacket rd.received rd.received.length rd.calls (acliRead rd σ)).trace).length
  rw [ha, acliRead, Sys.emit]
  simp only [received_append, List.length_append]
  simp [received, rxPacket]
  omega

theorem acl_arrives (b : Build) (hc : Polite c) (h : Listening σ) (hp : phase .acli σ.bt = .waiting) {i : Input}
    (he : EndsAclIn i) : (received σ.trace).length < (received (react b c σ i).trace).length := by
  rw [react_eq b h.normal]
  cases i with
  | call x => exact he.elim
  | poll rd =>
      have hd := acli_delivers hc ((before_acli hc rd σ).trans ((acli_waiting _).mp hp)) he
      have hgrow := ((run_grows hc σ [.cmd rd.cmd, .evt rd.evt, .aclo rd.aclo]).filterMap rxPacket).length_le
      exact Nat.lt_of_le_of_lt hgrow hd

/-- The host core goes on polling, and a read of the ACL-in endpoint that is
waited for is found done, if not in this attempt then in a later one. -/
structure Supplied (s : Nat → Sys) (inputs : Nat → Input) : Prop where
  polled : ∀ n, ∃ m, n ≤ m ∧ IsPoll (inputs m)
  aclIn : LeadsTo (fun n => phase .acli (s n).bt = .waiting)
    (fun n => phase .acli (s n).bt = .waiting ∧ EndsAclIn (inputs n))

/-- However much has been received, more comes. Whatever the user of the
driver calls, the reads of the ACL-in endpoint go on. -/
theorem acl_packets_keep_coming (b : Build) (dev : Device) (ch : Channels) (bt : BtState) (txBusy : Int) (hc : Polite c)
    (hdev : dev.bInterfaceClass = wirelessClass) (inputs : Nat → Input)
    (hsup : Supplied (states b c (opened b dev ch bt txBusy) inputs) inputs) (k : Nat) :
    ∃ n, k ≤ (received (states b c (opened b dev ch bt txBusy) inputs n).trace).length := by
  have hstart : Listening (opened b dev ch bt txBusy) := by
    refine ⟨opened_loadingFw b ch bt txBusy hdev, ?_⟩
    rw [opened_wireless b ch bt txBusy hdev]
    simp [phase, aclPhase, attachedBt]
  generalize opened b dev ch bt txBusy = σ at hstart hsup
  have hlisten (n : Nat) : Listening (states b c σ inputs n) :=
    path_invariant (I := Listening) (fun _ n hτ => react_listening b hc hτ (inputs n)) hstart n
  have hwait : LeadsTo (fun _ => True) (fun n => phase .acli (states b c σ inputs n).bt = .waiting) := by
    intro n _
    obtain ⟨m, hnm, hm⟩ := hsup.polled n
    by_cases hp : phase .acli (states b c σ inputs m).bt = .waiting
    · exact ⟨m, hnm, hp⟩
    · exact ⟨m + 1, Nat.le_succ_of_le hnm, poll_listens b hc (hlisten m) hm hp⟩
  refine unbounded (fun n => ?_) k
  obtain ⟨m, hnm, hp, he⟩ := (hwait.trans hsup.aclIn) n trivial
  have hle := ((states_growth b hc hstart.normal inputs hnm).filterMap rxPacket).length_le
  exact ⟨m + 1, Nat.lt_of_le_of_lt hle (acl_arrives b hc (hlisten m) hp he)⟩

theorem resetThenPolls_supplied :
    Supplied (states plain h2Client (opened plain dongle dongleChannels .zero 0) resetThenPolls) resetThenPolls where
  polled n := ⟨n + 1, Nat.le_succ n, trivial⟩
  aclIn n hn := by
    cases n with
    | zero => exact absurd hn (by decide)
    | succ n => exact ⟨n + 1, le_rfl, hn, rfl⟩

theorem empty_packets_keep_coming :
    ∃ n, 100 ≤
      (received (states plain h2Client (opened plain dongle dongleChannels .zero 0) resetThenPolls n).trace).length :=
  acl_packets_keep_coming plain dongle dongleChannels .zero 0 h2Client_polite rfl resetThenPolls
    resetThenPolls_supplied 100

end Uubt.Liveness
