import Uubt.FirmwareLoading
import Uubt.Matching
import Uubt.Sessions

namespace Uubt.LoaderIsolation

open ByteBuffer History HostLibrary Driver Transport Endpoints Clients ClassDriver Moves Sessions Runs
  FirmwareLoading LoaderMoves Matching

/-- The driver in a session with the firmware loader. Behind a poll that does
not come back nothing happens any more. -/
structure Loader where
  sys : Sys
  hung : Bool

def serve (b : Build) (w : Loader) (i : Input) : Loader :=
  if w.hung then w
  else match i with
    | .call x => ⟨stackCall w.sys x, false⟩
    | .poll rd =>
        let r := usbhBtStMachine b h2Client rd w.sys
        ⟨r.sys, !r.returned⟩

def isPoll : Input → Bool
  | .poll _ => true
  | .call _ => false

/-- What goes towards the dongle, with the answers. -/
def transfers (t : Trace) : Trace := t.filter (·.owner ≠ .client)

/-- One driver has made the same transfers as the other and is as far with
the image, and a header that the other one is sending is in its buffer, too. -/
structure Isolated (σ τ : Sys) : Prop where
  transfers : transfers σ.trace = transfers τ.trace
  loadingFw : σ.bt.loadingFw = τ.bt.loadingFw
  fwOffset : σ.bt.fwOffset = τ.bt.fwOffset
  header : τ.bt.loadingFw = 1 → τ.bt.cmdState ≠ 0 →
    σ.bt.cmdPacket.read τ.bt.cmdLen = τ.bt.cmdPacket.read τ.bt.cmdLen

/-- A command is not taken while the header is on its way, and a packet of
the stack is not in the slot when the download begins. -/
def Harmless (w : Loader) (i : Input) : Prop :=
  w.hung = false → match i with
    | .call (.send .hciCommandDataPacket packet) =>
        w.sys.bt.loadingFw = 1 → w.sys.bt.cmdState ≠ 0 →
          ¬(w.sys.txBusy = 0 ∧ w.sys.bt.cmdBusy = 0 ∧ uint16 packet.length ≤ cmdAlignedMaxSize)
    | .poll _ => w.sys.bt.loadingFw = 2 → w.sys.bt.acloBusy = 0
    | _ => True

instance (w : Loader) : ∀ i, Decidable (Harmless w i)
  | .call (.send .hciCommandDataPacket packet) => inferInstanceAs (Decidable (w.hung = false →
      w.sys.bt.loadingFw = 1 → w.sys.bt.cmdState ≠ 0 →
        ¬(w.sys.txBusy = 0 ∧ w.sys.bt.cmdBusy = 0 ∧ uint16 packet.length ≤ cmdAlignedMaxSize)))
  | .poll _ => inferInstanceAs (Decidable (w.hung = false → w.sys.bt.loadingFw = 2 → w.sys.bt.acloBusy = 0))
  | .call (.canSend _) | .call (.send .hciAclDataPacket _) | .call (.send .hciEventPacket _)
  | .call (.send (.other _) _) => inferInstanceAs (Decidable (w.hung = false → True))

structure Agree (σ τ : Sys) : Prop where
  transfers : LoaderIsolation.transfers σ.trace = LoaderIsolation.transfers τ.trace
  loadingFw : σ.bt.loadingFw = τ.bt.loadingFw
  fwOffset : σ.bt.fwOffset = τ.bt.fwOffset
  acloHcn : σ.bt.acloHcn = τ.bt.acloHcn
  cmdState : τ.bt.loadingFw = 1 → σ.bt.cmdState = τ.bt.cmdState
  header : τ.bt.loadingFw = 1 → τ.bt.cmdState ≠ 0 → σ.bt.cmdLen = τ.bt.cmdLen ∧
    σ.bt.cmdPacket.read τ.bt.cmdLen = τ.bt.cmdPacket.read τ.bt.cmdLen

structure AgreeInLoop (σ τ : Sys) : Prop where
  agree : Agree σ τ
  second : τ.bt.loadingFw ≠ 1
  acloBusy : σ.bt.acloBusy = τ.bt.acloBusy
  slot : τ.bt.acloBusy ≠ 0 → σ.bt.acloState = τ.bt.acloState ∧ σ.bt.acloLen = τ.bt.acloLen

variable {b : Build} {img : Firmware} {σ τ : Sys}

theorem transfers_concat {t t' : Trace} (h : transfers t = transfers t') (e : Event) :
    transfers (t ++ [e]) = transfers (t' ++ [e]) := by
  rw [transfers, transfers, List.filter_append, List.filter_append]
  exact congrArg (· ++ _) h

theorem Agree.emit (h : Agree σ τ) (e : Event) : Agree (σ.emit e) (τ.emit e) :=
  ⟨transfers_concat h.transfers e, h.loadingFw, h.fwOffset, h.acloHcn, h.cmdState, h.header⟩

theorem Agree.isolated (h : Agree σ τ) : Isolated σ τ :=
  ⟨h.transfers, h.loadingFw, h.fwOffset, fun h1 hs => (h.header h1 hs).2⟩

theorem AgreeInLoop.emit (h : AgreeInLoop σ τ) (e : Event) : AgreeInLoop (σ.emit e) (τ.emit e) :=
  ⟨h.agree.emit e, h.second, h.acloBusy, h.slot⟩

theorem Agree.write (h : Agree σ τ) {f : BtState → BtState} (hl : (f σ.bt).loadingFw = (f τ.bt).loadingFw)
    (h1 : (f τ.bt).loadingFw ≠ 1) (ho : (f σ.bt).fwOffset = (f τ.bt).fwOffset)
    (hh : (f σ.bt).acloHcn = (f τ.bt).acloHcn) : Agree (σ.write f) (τ.write f) :=
  ⟨h.transfers, hl, ho, hh, fun h => absurd h h1, fun h => absurd h h1⟩

theorem AgreeInLoop.write (h : AgreeInLoop σ τ) {f : BtState → BtState}
    (hl : (f σ.bt).loadingFw = (f τ.bt).loadingFw) (h1 : (f τ.bt).loadingFw ≠ 1)
    (ho : (f σ.bt).fwOffset = (f τ.bt).fwOffset) (hh : (f σ.bt).acloHcn = (f τ.bt).acloHcn)
    (hb : (f σ.bt).acloBusy = (f τ.bt).acloBusy) (hs : (f τ.bt).acloBusy ≠ 0 →
      (f σ.bt).acloState = (f τ.bt).acloState ∧ (f σ.bt).acloLen = (f τ.bt).acloLen) :
    AgreeInLoop (σ.write f) (τ.write f) :=
  ⟨h.agree.write hl h1 ho hh, h1, hb, hs⟩

theorem AgreeInLoop.submitted (h : AgreeInLoop σ τ) (hb : τ.bt.acloBusy ≠ 0) :
    AgreeInLoop (submitted img σ) (submitted img τ) := by
  obtain ⟨-, hlen⟩ := h.slot hb
  rw [LoaderMoves.submitted, LoaderMoves.submitted, h.agree.fwOffset, hlen, h.agree.acloHcn]
  exact (h.emit _).write h.agree.loadingFw h.second h.agree.fwOffset h.agree.acloHcn h.acloBusy fun _ => ⟨rfl, hlen⟩

theorem AgreeInLoop.staged (h : AgreeInLoop σ τ) : AgreeInLoop (staged img σ) (staged img τ) := by
  rw [LoaderMoves.staged, LoaderMoves.staged, h.agree.fwOffset]
  exact h.write h.agree.loadingFw h.second h.agree.fwOffset h.agree.acloHcn rfl fun _ => ⟨rfl, rfl⟩

theorem AgreeInLoop.read (h : AgreeInLoop σ τ) (rd : AcloReadings) : AgreeInLoop (acloRead rd σ) (acloRead rd τ) := by
  rw [acloRead, acloRead, h.agree.acloHcn]
  exact h.emit _

theorem AgreeInLoop.cleared (h : AgreeInLoop σ τ) (rd : FwReadings) : AgreeInLoop (cleared rd σ) (cleared rd τ) := by
  rw [LoaderMoves.cleared, LoaderMoves.cleared, h.agree.acloHcn]
  exact (h.read rd.aclo).emit _

structure Left (τ σ : Sys) : Prop where
  agree : AgreeInLoop σ τ
  loaded : τ.bt.loadingFw = 3
  free : τ.bt.acloBusy = 0

structure Looping (_n : Option Int) (τ σ : Sys) : Prop where
  agree : AgreeInLoop σ τ
  loading : τ.bt.loadingFw = 2

theorem pass_agree (img : Firmware) {n : Option Int} (h : Looping n τ σ) (rd : FwReadings) :
    PassMatch img rd rd n Left Looping τ σ where
  aclo := rfl
  busy := h.agree.acloBusy
  offset := h.agree.agree.fwOffset
  state hb := (h.agree.slot hb).1
  leave hb := ⟨h.agree.write rfl (show ¬(3 : Int) = 1 by decide) h.agree.agree.fwOffset h.agree.agree.acloHcn
    h.agree.acloBusy h.agree.slot, rfl, hb⟩
  stage := ⟨h.agree.staged.submitted (show ¬(1 : Int) = 0 by decide), h.loading⟩
  submit hb := ⟨h.agree.submitted hb, h.loading⟩
  done hb := ⟨(h.agree.read rd.aclo).write h.agree.agree.loadingFw h.agree.second
    (congrArg (· + _) h.agree.agree.fwOffset) h.agree.agree.acloHcn rfl fun hb => absurd rfl hb, h.loading⟩
  clear hb := ⟨(h.agree.cleared rd).write h.agree.agree.loadingFw h.agree.second h.agree.agree.fwOffset
    h.agree.agree.acloHcn h.agree.acloBusy fun hb => ⟨rfl, (h.agree.slot hb).2⟩, h.loading⟩
  stalled hb := ⟨h.agree.cleared rd, h.loading⟩
  wait hb := ⟨h.agree.read rd.aclo, h.loading⟩
  lost hb := h

theorem fwLoop_agree (h : AgreeInLoop σ τ) (h2 : τ.bt.loadingFw = 2) (b : Build) (c : Client)
    (rds : List FwReadings) (n : Option Int) :
    (fwLoop b img c rds n σ).returned = (fwLoop b img c rds n τ).returned ∧
      AgreeInLoop (fwLoop b img c rds n σ).sys (fwLoop b img c rds n τ).sys ∧
      (fwLoop b img c rds n τ).sys.bt.loadingFw ≠ 0 ∧
      ((fwLoop b img c rds n τ).returned = true → (fwLoop b img c rds n τ).sys.bt.acloBusy = 0) := by
  have hloop := fwLoop_matched (L := Left) (A := Looping) (b := b) (f := id) (n := n)
    (fun rd h => (pass_agree img h rd).pass c c) (fun h => ⟨h.agree, h.loading⟩) rds ⟨h, h2⟩
  rw [List.map_id] at hloop
  obtain ⟨hret, hleft, hin⟩ := hloop
  refine ⟨hret, ?_, ?_, fun hr => (hleft hr).free⟩
  · cases hr : (fwLoop b img c rds n τ).returned with
    | true => exact (hleft hr).agree
    | false =>
        obtain ⟨_, h'⟩ := hin hr
        exact h'.agree
  · cases hr : (fwLoop b img c rds n τ).returned with
    | true => exact (hleft hr).loaded.trans_ne (by decide)
    | false =>
        obtain ⟨_, h'⟩ := hin hr
        exact h'.loading.trans_ne (by decide)

theorem fwHeader_agree (img : Firmware) (h : Agree σ τ) (h1 : τ.bt.loadingFw = 1) :
    Agree (fwHeader img σ) (fwHeader img τ) ∧ (fwHeader img τ).bt.cmdState ≠ 0 := by
  rw [fwHeader, fwHeader, h.cmdState h1]
  split_ifs with h0
  · have he := h.emit (.setSetup (dfuSetup (uint16 img.ath3kFwCmd.length)))
    refine ⟨⟨he.transfers, h.loadingFw, h.fwOffset, h.acloHcn, fun _ => rfl, fun _ _ => ⟨rfl, ?_⟩⟩, by simp⟩
    have hread (buf : Buffer cmdAlignedMaxSize) := Buffer.read_memcpy_take buf img.ath3kFwCmd
      (uint16_le img.ath3kFwCmd.length)
    exact (hread _).trans (hread _).symm
  · exact ⟨h, h0⟩

theorem fwHeader_fields (img : Firmware) (σ : Sys) : (fwHeader img σ).bt.loadingFw = σ.bt.loadingFw ∧
    (fwHeader img σ).bt.acloBusy = σ.bt.acloBusy := by
  rw [fwHeader]
  split <;> exact ⟨rfl, rfl⟩

theorem fwSetup_agree (img : Firmware) (h : Agree σ τ) (h1 : τ.bt.loadingFw = 1) (rd : CmdReadings) :
    Agree (fwSetup img rd σ) (fwSetup img rd τ) ∧ (fwSetup img rd τ).bt.loadingFw ≠ 0 ∧
      (fwSetup img rd τ).bt.acloBusy = τ.bt.acloBusy := by
  obtain ⟨hh, hs⟩ := fwHeader_agree img h h1
  obtain ⟨hl, hb⟩ := fwHeader_fields img τ
  obtain ⟨hlen, hread⟩ := hh.header (hl.trans h1) hs
  have hreq : Agree (fwRequest img rd.st σ) (fwRequest img rd.st τ) := by
    rw [fwRequest, fwRequest, hlen, hread]
    exact hh.emit _
  have hone : (fwRequest img rd.st τ).bt.loadingFw = 1 := hl.trans h1
  rw [fwSetup_eq, fwSetup_eq]
  split_ifs
  · exact ⟨hreq.write rfl (show ¬(2 : Int) = 1 by decide) hreq.fwOffset hreq.acloHcn, show ¬(2 : Int) = 0 by decide, hb⟩
  · have hfailed : Agree ((fwRequest img rd.st σ).write ({ · with cmdState := 0 }))
        ((fwRequest img rd.st τ).write ({ · with cmdState := 0 })) :=
      ⟨hreq.transfers, hreq.loadingFw, hreq.fwOffset, hreq.acloHcn, fun _ => rfl, fun _ h0 => absurd rfl h0⟩
    exact ⟨hfailed, hone.trans_ne (by decide), hb⟩
  · exact ⟨hreq, hone.trans_ne (by decide), hb⟩

structure Beside (w w' : Loader) : Prop where
  hung : w.hung = w'.hung
  agree : Agree w.sys w'.sys
  loader : w'.sys.bt.loadingFw ≠ 0
  idle : w'.hung = false → w'.sys.bt.acloBusy = 0

variable {w w' : Loader}

theorem serve_hung (b : Build) (h : w.hung = true) (i : Input) : serve b w i = w := by
  simp [serve, h]

theorem serve_call (b : Build) (h : w.hung = false) (x : Call) : serve b w (.call x) = ⟨stackCall w.sys x, false⟩ := by
  simp [serve, h]

theorem serve_poll (b : Build) (h : w.hung = false) (rd : PollReadings) : serve b w (.poll rd) =
    ⟨(usbhBtStMachine b h2Client rd w.sys).sys, !(usbhBtStMachine b h2Client rd w.sys).returned⟩ := by
  simp [serve, h]

theorem poll_agree (h : Agree σ τ) (hb : b.firmware = some img) (hl : τ.bt.loadingFw ≠ 0) (hidle : τ.bt.acloBusy = 0)
    (rd : PollReadings) (hfree : σ.bt.loadingFw = 2 → σ.bt.acloBusy = 0) :
    (usbhBtStMachine b h2Client rd σ).returned = (usbhBtStMachine b h2Client rd τ).returned ∧
      Agree (usbhBtStMachine b h2Client rd σ).sys (usbhBtStMachine b h2Client rd τ).sys ∧
      (usbhBtStMachine b h2Client rd τ).sys.bt.loadingFw ≠ 0 ∧
      ((usbhBtStMachine b h2Client rd τ).returned = true →
        (usbhBtStMachine b h2Client rd τ).sys.bt.acloBusy = 0) := by
  by_cases h2 : τ.bt.loadingFw = 2
  · have h2' : σ.bt.loadingFw = 2 := h.loadingFw.trans h2
    rw [usbhBtStMachine_loader hb h2Client rd h2, usbhBtStMachine_loader hb h2Client rd h2']
    have hloop : AgreeInLoop σ τ :=
      ⟨h, h2.trans_ne (by decide), (hfree h2').trans hidle.symm, fun hne => absurd hidle hne⟩
    obtain ⟨hr, hs, hne, hback⟩ := fwLoop_agree hloop h2 b h2Client rd.loop none
    exact ⟨hr, hs.agree, hne, hback⟩
  · simp only [usbhBtStMachine, hb, h.loadingFw, hl, h2, ne_eq, not_false_eq_true, if_true, if_false]
    split_ifs with h1
    · obtain ⟨hs, hne, hback⟩ := fwSetup_agree img h h1 rd.cmd
      exact ⟨rfl, hs, hne, fun _ => hback.trans hidle⟩
    · exact ⟨rfl, h, hl, fun _ => hidle⟩

theorem stackCall_cmd (σ : Sys) (x : Call) : SameCmd σ.bt (stackCall σ x).bt ∨
    ∃ packet, x = .send .hciCommandDataPacket packet ∧ σ.txBusy = 0 ∧ σ.bt.cmdBusy = 0 ∧
      uint16 packet.length ≤ cmdAlignedMaxSize ∧ (stackCall σ x).bt.cmdState = 0 := by
  cases x with
  | canSend type => exact .inl ⟨rfl, rfl, rfl, rfl⟩
  | send type packet =>
      by_cases ht : σ.txBusy = 0
      · have hbt : (stackCall σ (.send type packet)).bt =
            (halUbTxPacket type packet (uint16 packet.length) σ.bt).2 := by
          simp [stackCall, h2SendPacket, h2CanSendPacketNow, ht]
        rw [hbt]
        have hm := tx_moves type packet (uint16 packet.length) σ.bt
        generalize halUbTxPacket type packet (uint16 packet.length) σ.bt = r at hm ⊢
        cases hm with
        | refused => exact .inl ⟨rfl, rfl, rfl, rfl⟩
        | cmd hb hs => exact .inr ⟨packet, rfl, ht, hb, hs, rfl⟩
        | acl => exact .inl ⟨rfl, rfl, rfl, rfl⟩
      · have hbt : (stackCall σ (.send type packet)).bt = σ.bt := by
          simp [stackCall, h2SendPacket, h2CanSendPacketNow, ht]
        rw [hbt]
        exact .inl ⟨rfl, rfl, rfl, rfl⟩

theorem stackCall_transfers (σ : Sys) (x : Call) : transfers (stackCall σ x).trace = transfers σ.trace := by
  obtain ⟨new, ht, hn⟩ := (stackCall_act σ x).events
  have hnone : new.filter (·.owner ≠ .client) = [] :=
    List.filter_eq_nil_iff.mpr fun e he => by simp [show e.owner = .client from hn e he]
  rw [ht, transfers, List.filter_append, hnone, List.append_nil]
  rfl

theorem stackCall_agree (h : Agree σ τ) (x : Call) (hx : ∀ packet, x = .send .hciCommandDataPacket packet →
    σ.bt.loadingFw = 1 → σ.bt.cmdState ≠ 0 →
      ¬(σ.txBusy = 0 ∧ σ.bt.cmdBusy = 0 ∧ uint16 packet.length ≤ cmdAlignedMaxSize)) : Agree (stackCall σ x) τ := by
  have hsame := (stackCall_act σ x).reach.sameReceiver
  refine ⟨(stackCall_transfers σ x).trans h.transfers, hsame.loadingFw.trans h.loadingFw,
    hsame.fwOffset.trans h.fwOffset, hsame.acloHcn.trans h.acloHcn, fun h1 => ?_, fun h1 hs => ?_⟩
  all_goals have h1' : σ.bt.loadingFw = 1 := h.loadingFw.trans h1
  · rcases stackCall_cmd σ x with hc | ⟨packet, hp, htx, hb, hlen, h0⟩
    · exact hc.state.trans (h.cmdState h1)
    · by_cases hs : σ.bt.cmdState = 0
      · rw [h0, ← h.cmdState h1, hs]
      · exact absurd ⟨htx, hb, hlen⟩ (hx packet hp h1' hs)
  · rcases stackCall_cmd σ x with hc | ⟨packet, hp, htx, hb, hlen, -⟩
    · rw [hc.len, hc.packet]
      exact h.header h1 hs
    · exact absurd ⟨htx, hb, hlen⟩ (hx packet hp h1' ((h.cmdState h1).trans_ne hs))

theorem call_beside (h : Beside w w') (x : Call) (hx : Harmless w (.call x)) : Beside (serve b w (.call x)) w' := by
  cases hh : w.hung with
  | true => rwa [serve_hung b hh]
  | false =>
      rw [serve_call b hh]
      refine ⟨hh.symm.trans h.hung, stackCall_agree h.agree x ?_, h.loader, h.idle⟩
      rintro packet rfl
      exact hx hh

theorem poll_beside (hb : b.firmware = some img) (h : Beside w w') (rd : PollReadings)
    (hx : Harmless w (.poll rd)) : Beside (serve b w (.poll rd)) (serve b w' (.poll rd)) := by
  cases hh : w.hung with
  | true =>
      rw [serve_hung b hh, serve_hung b (h.hung ▸ hh)]
      exact h
  | false =>
      have hh' : w'.hung = false := h.hung ▸ hh
      rw [serve_poll b hh, serve_poll b hh']
      obtain ⟨hr, hs, hl, hback⟩ := poll_agree h.agree hb h.loader (h.idle hh') rd (hx hh)
      exact ⟨congrArg (!·) hr, hs, hl, fun hret => hback (by simpa using hret)⟩

theorem run_beside (hb : b.firmware = some img) (h : Beside w w') {inputs : List Input}
    (hx : Along (serve b) Harmless w inputs) :
    Beside (run (serve b) w inputs) (run (serve b) w' (inputs.filter isPoll)) := by
  induction inputs generalizing w w' with
  | nil => exact h
  | cons i is ih =>
      cases i with
      | call x => exact ih (call_beside h x hx.1) hx.2
      | poll rd => exact ih (poll_beside hb h rd hx.1) hx.2

/-- A download is what it would be without the stack, as long as the stack
gets no command in while the header is on its way and no packet before the
first chunk. -/
theorem download_isolated {b : Build} (hb : b.firmware.isSome) {dev : Device} (ch : Channels) (bt : BtState)
    (txBusy : Int) (hclass : dev.bInterfaceClass ≠ wirelessClass) (hvendor : dev.idVendor = atherosIdVendor)
    (hproduct : dev.idProduct = ar3011IdProduct) (inputs : List Input)
    (hx : Along (serve b) Harmless ⟨started b dev ch bt txBusy, false⟩ inputs) :
    Isolated (run (serve b) ⟨started b dev ch bt txBusy, false⟩ inputs).sys
      (run (serve b) ⟨started b dev ch bt txBusy, false⟩ (inputs.filter isPoll)).sys := by
  obtain ⟨img, himg⟩ := Option.isSome_iff_exists.mp hb
  have hstart : Beside ⟨started b dev ch bt txBusy, false⟩ ⟨started b dev ch bt txBusy, false⟩ := by
    rw [started_loader hb ch bt txBusy hclass hvendor hproduct]
    exact ⟨rfl, ⟨rfl, rfl, rfl, rfl, fun _ => rfl, fun _ _ => ⟨rfl, rfl⟩⟩, show ¬(1 : Int) = 0 by decide, fun _ => rfl⟩
  exact (run_beside himg hstart hx).agree.isolated

def fresh : Loader := ⟨started ⟨some smallImage, true⟩ ar3011 ⟨2, 3, 4⟩ .zero 0, false⟩

def chunks : PollReadings := loaderPoll .ok [.idle, .done, .idle, .done, .idle, .done, .idle]

theorem command_before_the_header_is_harmless :
    Isolated (run (serve ⟨some smallImage, true⟩) fresh
        [.call (.send .hciCommandDataPacket [0x03, 0x0c, 0x00]), .poll (loaderPoll .ok []), .poll chunks]).sys
      (run (serve ⟨some smallImage, true⟩) fresh [.poll (loaderPoll .ok []), .poll chunks]).sys :=
  download_isolated (by rfl) ⟨2, 3, 4⟩ .zero 0 (by decide) rfl rfl
    [.call (.send .hciCommandDataPacket [0x03, 0x0c, 0x00]), .poll (loaderPoll .ok []), .poll chunks]
    (by decide +kernel)

def bulkLength : Event → Option Nat
  | .bulkSend _ len _ => some len
  | _ => none

/-- The loader takes the length of a packet in the slot for the one of its
first chunk. -/
theorem acl_packet_shortens_the_first_chunk :
    ¬Isolated (run (serve ⟨some smallImage, true⟩) fresh
        [.poll (loaderPoll .ok []), .call (.send .hciAclDataPacket [0x01, 0x20, 0x00, 0x00]), .poll chunks]).sys
      (run (serve ⟨some smallImage, true⟩) fresh [.poll (loaderPoll .ok []), .poll chunks]).sys := by
  intro h
  have hlen := congrArg (List.filterMap bulkLength) h.transfers
  exact absurd hlen (by decide +kernel)

/-- A command that comes while the header is on its way is sent in its
place. -/
theorem command_overwrites_the_header :
    ¬Isolated (run (serve ⟨some smallImage, true⟩) fresh
        [.poll (loaderPoll .busy []), .call (.send .hciCommandDataPacket [0x03, 0x0c, 0x00])]).sys
      (run (serve ⟨some smallImage, true⟩) fresh [.poll (loaderPoll .busy [])]).sys := by
  intro h
  exact absurd (h.header (by decide +kernel) (by decide +kernel)) (by decide +kernel)

end Uubt.LoaderIsolation
