import Uubt.Sessions

namespace Uubt.ControlPipe

open ByteBuffer History HostLibrary Driver Endpoints Clients ClassDriver Moves Frames Sessions Runs

def Ep.address : Ep → Nat
  | .evt => 0x81
  | .aclo => 0x02
  | .acli => 0x82

def usbReqClearFeature : Nat := 1

def clrSetup (ep : Ep) : Setup :=
  { type := .typeStandard, recipient := .endpoint, bRequest := usbReqClearFeature, wValue := 0,
    wIndex := Ep.address ep, wLength := 0 }

inductive Source
  | command | empty
deriving DecidableEq

/-- The request that the host core is at, none in CMD_SEND. -/
structure Request where
  source : Source
  len : Nat
  result : Option UsbhStatus

structure Pipe where
  setup : Setup
  request : Option Request

def Pipe.answer (p : Pipe) : UsbhStatus := (p.request.bind (·.result)).getD .busy

/-- USBH_CtlReq: the first caller after the end of a request gets its
result. -/
def Pipe.ctlReq (source : Source) (len : Nat) (p : Pipe) : Pipe :=
  match p.request with
  | none => { p with request := some ⟨source, len, none⟩ }
  | some r => if r.result = none then p else { p with request := none }

def pipeStep (p : Pipe) : Event → Pipe
  | .setSetup setup => { p with setup := setup }
  | .ctlReq _ len _ => p.ctlReq .command len
  | .clrFeature ep _ _ => Pipe.ctlReq .empty 0 { p with setup := clrSetup ep }
  | .controlDone _ _ st => { p with request := p.request.map ({ · with result := some st }) }
  | _ => p

def pipeObserver : Observer Event Pipe where
  init := ⟨⟨.typeStandard, .device, 0, 0, 0, 0⟩, none⟩
  step := pipeStep

def pipe (σ : Sys) : Pipe := pipeObserver.after σ.trace

/-- The last command that was accepted, and the control transfers that have
ended well since then. -/
structure Book where
  staged : List UInt8
  carried : List (Setup × List UInt8)

def bookStep (b : Book) : Event → Book
  | .txPacket .hciCommandDataPacket packet ret => if ret = 0 then ⟨packet, []⟩ else b
  | .controlDone setup data st => if st = .ok then { b with carried := b.carried ++ [(setup, data)] } else b
  | _ => b

def bookObserver : Observer Event Book := ⟨⟨[], []⟩, bookStep⟩

def book (σ : Sys) : Book := bookObserver.after σ.trace

@[simp] theorem pipe_emit (e : Event) (σ : Sys) : pipe (σ.emit e) = pipeStep (pipe σ) e :=
  pipeObserver.after_concat _ _

@[simp] theorem book_emit (e : Event) (σ : Sys) : book (σ.emit e) = bookStep (book σ) e :=
  bookObserver.after_concat _ _

@[simp] theorem pipe_write (f : BtState → BtState) (σ : Sys) : pipe (σ.write f) = pipe σ := rfl

/-- A command that is reported as sent has been sent: a transfer with its
setup and its bytes has ended since it was accepted. -/
def Sent (past : Trace) (e : Event) : Prop :=
  ∀ data len, e = .ctlReq data len .ok →
    data = (bookObserver.after past).staged ∧ len = data.length ∧
      (cmdSetup len, data) ∈ (bookObserver.after past).carried

/-- The driver works, or USBH_Process ends the request of the control pipe
with the setup packet as it stands. -/
inductive Move
  | driver (s : Step)
  | process (st : UsbhStatus)

def heard (σ : Sys) : Step → Step
  | .cmd rd => .cmd { rd with st := (pipe σ).answer }
  | .evt rd => .evt { rd with clr := (pipe σ).answer }
  | .aclo rd => .aclo { rd with clr := (pipe σ).answer }
  | .acli rd => .acli { rd with clr := (pipe σ).answer }
  | .call x => .call x

def Request.bytes (r : Request) (bt : BtState) : List UInt8 :=
  match r.source with
  | .command => bt.cmdPacket.read r.len
  | .empty => []

def process (σ : Sys) (st : UsbhStatus) : Sys :=
  match (pipe σ).request with
  | none => σ
  | some r =>
      if r.result = none ∧ st ≠ .busy then σ.emit (.controlDone (pipe σ).setup (r.bytes σ.bt) st) else σ

def world (c : Client) (σ : Sys) : Move → Sys
  | .driver s => step c σ (heard σ s)
  | .process st => process σ st

/-- A command is between its first call of USBH_CtlReq and its end. -/
def Started (bt : BtState) : Prop := bt.cmdBusy ≠ 0 ∧ bt.cmdState ≠ 0

instance (bt : BtState) : Decidable (Started bt) := inferInstanceAs (Decidable (_ ∧ _))

/-- A command is started on a pipe that is free, and no endpoint starts to
clear a stall before the command has ended. -/
def Owned (σ : Sys) : Move → Prop
  | .driver (.cmd _) => σ.bt.cmdBusy ≠ 0 → σ.bt.cmdState = 0 → (pipe σ).request.isNone = true
  | .driver (.evt rd) => Started σ.bt → σ.bt.evtState = 1 → ¬due rd σ → rd.urb ≠ .stall
  | .driver (.aclo rd) => Started σ.bt → σ.bt.acloBusy ≠ 0 → σ.bt.acloState = 1 → rd.urb ≠ .stall
  | .driver (.acli rd) => Started σ.bt → σ.bt.acliState = 1 → rd.urb ≠ .stall
  | .driver (.call _) | .process _ => True

instance (σ : Sys) : ∀ m, Decidable (Owned σ m)
  | .driver (.cmd _) => inferInstanceAs (Decidable (_ → _ → _))
  | .driver (.evt _) | .driver (.aclo _) => inferInstanceAs (Decidable (_ → _ → _ → _))
  | .driver (.acli _) => inferInstanceAs (Decidable (_ → _ → _))
  | .driver (.call _) | .process _ => inferInstanceAs (Decidable True)

structure PipeInv (σ : Sys) : Prop where
  staged : σ.bt.cmdBusy ≠ 0 → (book σ).staged = σ.bt.cmdPacket.read σ.bt.cmdLen ∧ σ.bt.cmdLen ≤ cmdAlignedMaxSize
  setup : Started σ.bt → (pipe σ).setup = cmdSetup σ.bt.cmdLen
  alone : Started σ.bt → ∀ r, (pipe σ).request = some r → r.source = .command
  own : ∀ r, (pipe σ).request = some r → r.source = .command → Started σ.bt ∧ r.len = σ.bt.cmdLen ∧
    (r.result = some .ok → (cmdSetup σ.bt.cmdLen, σ.bt.cmdPacket.read σ.bt.cmdLen) ∈ (book σ).carried)
  sent : AtEach Sent σ.trace

variable {σ : Sys}

def Apart (e : Event) : Prop := (∀ p, pipeStep p e = p) ∧ (∀ b, bookStep b e = b) ∧ ∀ past, Sent past e

theorem PipeInv.emit (h : PipeInv σ) {e : Event} (he : Apart e) : PipeInv (σ.emit e) := by
  obtain ⟨hp, hb, hs⟩ := he
  have hpipe : pipe (σ.emit e) = pipe σ := (pipe_emit e σ).trans (hp _)
  have hbook : book (σ.emit e) = book σ := (book_emit e σ).trans (hb _)
  exact ⟨by rw [hbook]; exact h.staged, by rw [hpipe]; exact h.setup, by rw [hpipe]; exact h.alone,
    by rw [hpipe, hbook]; exact h.own, (atEach_concat _ _ _).mpr ⟨h.sent, hs _⟩⟩

theorem PipeInv.write (h : PipeInv σ) {f : BtState → BtState} (hf : SameCmd σ.bt (f σ.bt)) :
    PipeInv (σ.write f) := by
  have hst : Started (f σ.bt) ↔ Started σ.bt := by rw [Started, Started, hf.busy, hf.state]
  refine ⟨?_, ?_, ?_, ?_, h.sent⟩
  · rw [write_bt, hf.busy, hf.packet, hf.len]
    exact h.staged
  · rw [write_bt, hst, hf.len]
    exact h.setup
  · rw [write_bt, hst]
    exact h.alone
  · rw [write_bt, hst, hf.len, hf.packet]
    exact h.own

theorem apart_txPacket {type : PacketType} {packet : List UInt8} {ret : Int}
    (h : type = .hciCommandDataPacket → ret ≠ 0) : Apart (.txPacket type packet ret) := by
  refine ⟨fun _ => rfl, fun b => ?_, by simp [Sent]⟩
  cases type with
  | hciCommandDataPacket => exact if_neg (h rfl)
  | hciAclDataPacket | hciEventPacket | other code => rfl

theorem stageCmd_inv (h : PipeInv σ) (hb : σ.bt.cmdBusy = 0) (packet : List UInt8) {size : Nat}
    (hsize : size = uint16 packet.length) (hs : size ≤ cmdAlignedMaxSize) :
    PipeInv ((σ.write (fun _ => stageCmd packet size σ.bt)).emit
      (.txPacket .hciCommandDataPacket (packet.take size) 0)) := by
  have hpipe : pipe ((σ.write (fun _ => stageCmd packet size σ.bt)).emit
      (.txPacket .hciCommandDataPacket (packet.take size) 0)) = pipe σ := pipe_emit _ _
  have hbook : book ((σ.write (fun _ => stageCmd packet size σ.bt)).emit
      (.txPacket .hciCommandDataPacket (packet.take size) 0)) = ⟨packet.take size, []⟩ := book_emit _ _
  have hle : size ≤ packet.length := hsize ▸ uint16_le packet.length
  have hns : ¬Started (stageCmd packet size σ.bt) := fun hst => hst.2 rfl
  refine ⟨fun _ => ?_, fun hst => absurd hst hns, fun hst => absurd hst hns, ?_, ?_⟩
  · have hread := Buffer.read_memcpy_take σ.bt.cmdPacket packet hle
    rw [List.take_take, Nat.min_eq_right hs] at hread
    exact ⟨by rw [hbook]; exact hread.symm, hs⟩
  · intro r hr hsrc
    rw [hpipe] at hr
    exact absurd hb (h.own r hr hsrc).1.1
  · exact (atEach_concat _ _ _).mpr ⟨h.sent, by simp [Sent]⟩

theorem halCall_inv (h : PipeInv σ) (x : Call) : PipeInv (halCall σ x) := by
  cases x with
  | canSend type => exact h
  | send type packet =>
      have hm := tx_moves type packet (uint16 packet.length) σ.bt
      simp only [halCall]
      generalize halUbTxPacket type packet (uint16 packet.length) σ.bt = r at hm ⊢
      cases hm with
      | refused => exact h.emit (apart_txPacket fun _ => show (-1 : Int) ≠ 0 by decide)
      | cmd hb hs => exact stageCmd_inv h hb packet rfl hs
      | acl =>
          have ha : PipeInv (σ.write (fun _ => stageAcl packet (uint16 packet.length) σ.bt)) :=
            h.write ⟨rfl, rfl, rfl, rfl⟩
          exact ha.emit (apart_txPacket fun ht => by contradiction)

theorem halCalls_inv (h : PipeInv σ) (calls : List Call) : PipeInv (calls.foldl halCall σ) := by
  induction calls generalizing σ with
  | nil => exact h
  | cons x xs ih => exact ih (halCall_inv h x)

theorem rxHandler_inv (h : PipeInv σ) (type : PacketType) (packet : List UInt8) (len : Nat) (calls : List Call) :
    PipeInv (callRxHandler halClient type packet len calls σ) := by
  have h1 : PipeInv (σ.emit (.rx type (packet.take (uint16 len)) (uint16 len))) :=
    h.emit ⟨fun _ => rfl, fun _ => rfl, by simp [Sent]⟩
  exact (halCalls_inv h1 calls).emit ⟨fun _ => rfl, fun _ => rfl, by simp [Sent]⟩

theorem txEndHandler_inv (h : PipeInv σ) (type : PacketType) (calls : List Call) :
    PipeInv (callTxEndHandler halClient type calls σ) := by
  have h1 : PipeInv (σ.emit (.txEnd type)) := h.emit ⟨fun _ => rfl, fun _ => rfl, by simp [Sent]⟩
  exact halCalls_inv h1 calls

theorem ctlReq_request (source : Source) (len : Nat) (p : Pipe) :
    (p.request = none ∧ (p.ctlReq source len).request = some ⟨source, len, none⟩) ∨
      (∃ r, p.request = some r ∧ r.result = none ∧ p.ctlReq source len = p) ∨
      (∃ r, p.request = some r ∧ r.result ≠ none ∧ (p.ctlReq source len).request = none) := by
  rw [Pipe.ctlReq]
  cases hr : p.request with
  | none => exact .inl ⟨rfl, rfl⟩
  | some r =>
      by_cases hn : r.result = none
      · exact .inr (.inl ⟨r, rfl, hn, if_pos hn⟩)
      · exact .inr (.inr ⟨r, rfl, hn, by simp [hn]⟩)

theorem ctlReq_setup (source : Source) (len : Nat) (p : Pipe) : (p.ctlReq source len).setup = p.setup := by
  rw [Pipe.ctlReq]
  split
  · rfl
  · split <;> rfl

/-- Clearing a stall takes the pipe, which is harmless while no command is
on it. -/
theorem clrFeature_inv (h : PipeInv σ) (hn : ¬Started σ.bt) (ep : Ep) (hcn : Nat) (st : UsbhStatus) :
    PipeInv (σ.emit (.clrFeature ep hcn st)) := by
  have hpipe : pipe (σ.emit (.clrFeature ep hcn st)) =
      Pipe.ctlReq .empty 0 { pipe σ with setup := clrSetup ep } := pipe_emit _ _
  have hbook : book (σ.emit (.clrFeature ep hcn st)) = book σ := book_emit _ _
  have hfree : ∀ r, (pipe (σ.emit (.clrFeature ep hcn st))).request = some r → r.source ≠ .command := by
    intro r hr hsrc
    rw [hpipe] at hr
    rcases ctlReq_request .empty 0 { pipe σ with setup := clrSetup ep } with ⟨-, he⟩ | ⟨r', -, -, he⟩ | ⟨r', -, -, he⟩
    · rw [he] at hr
      obtain rfl := Option.some.inj hr
      contradiction
    · rw [he] at hr
      exact hn (h.own r hr hsrc).1
    · rw [he] at hr
      contradiction
  refine ⟨by rw [hbook]; exact h.staged, fun hst => absurd hst hn, fun hst => absurd hst hn, ?_, ?_⟩
  · exact fun r hr hsrc => absurd hsrc (hfree r hr)
  · exact (atEach_concat _ _ _).mpr ⟨h.sent, by simp [Sent]⟩

theorem apart_urbState (ep : Ep) (hcn : Nat) (urb : Urb) : Apart (.urbState ep hcn urb) :=
  ⟨fun _ => rfl, fun _ => rfl, by simp [Sent]⟩

theorem apart_currentFrame (frame : Nat) : Apart (.currentFrame frame) :=
  ⟨fun _ => rfl, fun _ => rfl, by simp [Sent]⟩

theorem evt_inv (h : PipeInv σ) (rd : EvtReadings)
    (ho : Started σ.bt → σ.bt.evtState = 1 → ¬due rd σ → rd.urb ≠ .stall) :
    PipeInv (usbBtEvtProcess halClient rd σ).2 := by
  have hm := evt_moves halClient rd σ
  generalize (usbBtEvtProcess halClient rd σ).2 = σ' at hm ⊢
  have hf : PipeInv (σ.emit (.currentFrame rd.frame)) := h.emit (apart_currentFrame _)
  have hr : PipeInv (evtRead rd σ) := hf.emit (apart_urbState _ _ _)
  cases hm with
  | submit => exact (hf.emit ⟨fun _ => rfl, fun _ => rfl, by simp [Sent]⟩).write ⟨rfl, rfl, rfl, rfl⟩
  | expire | rearm => exact hf.write ⟨rfl, rfl, rfl, rfl⟩
  | deliver => exact (rxHandler_inv hr _ _ _ _).write ⟨rfl, rfl, rfl, rfl⟩
  | clear h1 hd hu =>
      have hn : ¬Started σ.bt := fun hst => ho hst h1 hd hu
      exact (clrFeature_inv hr hn _ _ _).write ⟨rfl, rfl, rfl, rfl⟩
  | stalled h1 hd hu => exact clrFeature_inv hr (fun hst => ho hst h1 hd hu) _ _ _
  | wait => exact hr
  | rest | lost => exact hf

theorem aclo_inv (h : PipeInv σ) (rd : AcloReadings)
    (ho : Started σ.bt → σ.bt.acloBusy ≠ 0 → σ.bt.acloState = 1 → rd.urb ≠ .stall) :
    PipeInv (usbBtAcloProcess halClient none rd σ).2 := by
  have hm := aclo_moves halClient none rd σ
  generalize (usbBtAcloProcess halClient none rd σ).2 = σ' at hm ⊢
  have hr : PipeInv (acloRead rd σ) := h.emit (apart_urbState _ _ _)
  cases hm with
  | idle | lost => exact h
  | submit => exact (h.emit ⟨fun _ => rfl, fun _ => rfl, by simp [Sent]⟩).write ⟨rfl, rfl, rfl, rfl⟩
  | done => exact (txEndHandler_inv hr _ _).write ⟨rfl, rfl, rfl, rfl⟩
  | clear hb h1 hu =>
      have hn : ¬Started σ.bt := fun hst => ho hst hb h1 hu
      exact (clrFeature_inv hr hn _ _ _).write ⟨rfl, rfl, rfl, rfl⟩
  | stalled hb h1 hu => exact clrFeature_inv hr (fun hst => ho hst hb h1 hu) _ _ _
  | wait => exact hr

theorem acli_inv (h : PipeInv σ) (rd : AcliReadings)
    (ho : Started σ.bt → σ.bt.acliState = 1 → rd.urb ≠ .stall) :
    PipeInv (usbBtAcliProcess halClient rd σ).2 := by
  have hm := acli_moves halClient rd σ
  generalize (usbBtAcliProcess halClient rd σ).2 = σ' at hm ⊢
  have hr : PipeInv (acliRead rd σ) := h.emit (apart_urbState _ _ _)
  cases hm with
  | lost => exact h
  | submit => exact (h.emit ⟨fun _ => rfl, fun _ => rfl, by simp [Sent]⟩).write ⟨rfl, rfl, rfl, rfl⟩
  | deliver => exact (rxHandler_inv hr _ _ _ _).write ⟨rfl, rfl, rfl, rfl⟩
  | clear h1 hu =>
      have hn : ¬Started σ.bt := fun hst => ho hst h1 hu
      exact (clrFeature_inv hr hn _ _ _).write ⟨rfl, rfl, rfl, rfl⟩
  | stalled h1 hu => exact clrFeature_inv hr (fun hst => ho hst h1 hu) _ _ _
  | wait => exact hr

theorem cmdStart_inv (h : PipeInv σ) (hb : σ.bt.cmdBusy ≠ 0)
    (ho : σ.bt.cmdState = 0 → (pipe σ).request.isNone = true) :
    PipeInv (cmdStart σ) ∧ Started (cmdStart σ).bt := by
  rw [cmdStart]
  by_cases h0 : σ.bt.cmdState = 0
  · have hnone : (pipe σ).request = none := Option.isNone_iff_eq_none.mp (ho h0)
    have hpipe : pipe (σ.emit (.setSetup (cmdSetup σ.bt.cmdLen))) =
        { pipe σ with setup := cmdSetup σ.bt.cmdLen } := pipe_emit _ _
    have hfree : (pipe (σ.emit (.setSetup (cmdSetup σ.bt.cmdLen)))).request = none := by rw [hpipe, hnone]
    rw [if_pos h0]
    refine ⟨⟨?_, ?_, ?_, ?_, ?_⟩, hb, by simp⟩
    · have hbook : book (σ.emit (.setSetup (cmdSetup σ.bt.cmdLen))) = book σ := book_emit _ _
      intro hb'
      exact hbook ▸ h.staged hb
    · exact fun _ => congrArg Pipe.setup hpipe
    · intro _ r hr
      exact absurd (hfree.symm.trans hr) (by simp)
    · intro r hr
      exact absurd (hfree.symm.trans hr) (by simp)
    · exact (atEach_concat _ _ _).mpr ⟨h.sent, by simp [Sent]⟩
  · rw [if_neg h0]
    exact ⟨h, hb, h0⟩

theorem ctlReq_inv (h : PipeInv σ) (hst : Started σ.bt) :
    PipeInv (σ.emit (.ctlReq (σ.bt.cmdPacket.read σ.bt.cmdLen) σ.bt.cmdLen (pipe σ).answer)) := by
  have hpipe : pipe (σ.emit (.ctlReq (σ.bt.cmdPacket.read σ.bt.cmdLen) σ.bt.cmdLen (pipe σ).answer)) =
      (pipe σ).ctlReq .command σ.bt.cmdLen := pipe_emit _ _
  have hbook : book (σ.emit (.ctlReq (σ.bt.cmdPacket.read σ.bt.cmdLen) σ.bt.cmdLen (pipe σ).answer)) = book σ :=
    book_emit _ _
  have hmoves := ctlReq_request .command σ.bt.cmdLen (pipe σ)
  refine ⟨by rw [hbook]; exact h.staged, ?_, ?_, ?_, ?_⟩
  · rw [hpipe, ctlReq_setup]
    exact h.setup
  · intro _ r hr
    rw [hpipe] at hr
    rcases hmoves with ⟨-, he⟩ | ⟨r', -, -, he⟩ | ⟨r', -, -, he⟩ <;> rw [he] at hr
    · exact Option.some.inj hr ▸ rfl
    · exact h.alone hst r hr
    · contradiction
  · intro r hr hsrc
    rw [hpipe] at hr
    rw [hbook]
    rcases hmoves with ⟨-, he⟩ | ⟨r', -, -, he⟩ | ⟨r', -, -, he⟩ <;> rw [he] at hr
    · exact Option.some.inj hr ▸ ⟨hst, rfl, by simp⟩
    · exact h.own r hr hsrc
    · contradiction
  · refine (atEach_concat _ _ _).mpr ⟨h.sent, ?_⟩
    rintro data len he
    obtain ⟨rfl, rfl, hok⟩ := Event.ctlReq.inj he
    obtain ⟨hstaged, hlen⟩ := h.staged hst.1
    have hread : (σ.bt.cmdPacket.read σ.bt.cmdLen).length = σ.bt.cmdLen := by
      rw [Buffer.length_read, Nat.min_eq_left hlen]
    refine ⟨hstaged.symm, hread.symm, ?_⟩
    unfold Pipe.answer at hok
    cases hr : (pipe σ).request with
    | none => simp [hr] at hok
    | some r =>
        have hres : r.result = some .ok := by
          cases hx : r.result with
          | none => simp [hr, hx] at hok
          | some st => simpa [hr, hx] using hok
        exact (h.own r hr (h.alone hst r hr)).2.2 hres

theorem ctlReq_frees (source : Source) (len : Nat) {p : Pipe} (ha : p.answer ≠ .busy) :
    (p.ctlReq source len).request = none := by
  rcases ctlReq_request source len p with ⟨hn, -⟩ | ⟨r, hr, hn, -⟩ | ⟨r, -, -, he⟩
  · simp [Pipe.answer, hn] at ha
  · simp [Pipe.answer, hr, hn] at ha
  · exact he

theorem cmdDone_inv (h : PipeInv σ) (hfree : (pipe σ).request = none) : PipeInv (cmdDone σ) := by
  refine ⟨fun hb => absurd rfl hb, fun hst => absurd rfl hst.1, fun hst => absurd rfl hst.1, ?_, h.sent⟩
  intro r hr
  exact absurd (hfree.symm.trans hr) (by simp)

theorem txEndHandler_pipe (type : PacketType) (calls : List Call) :
    pipe (callTxEndHandler halClient type calls σ) = pipe σ := by
  have hx := (halClient_polite.txEndHandler type calls (σ.emit (.txEnd type))).events
  refine (hx.after_eq pipeObserver ?_).trans (pipe_emit _ _)
  intro p e he
  have ho : e.owner = .client := he
  cases e with
  | clrFeature ep => cases ep <;> simp [Event.owner, Ep.owner] at ho
  | setSetup | ctlReq | controlDone => simp [Event.owner] at ho
  | _ => rfl

theorem cmd_inv (h : PipeInv σ) (rd : CmdReadings) (hst : rd.st = (pipe σ).answer)
    (ho : σ.bt.cmdBusy ≠ 0 → σ.bt.cmdState = 0 → (pipe σ).request.isNone = true) :
    PipeInv (usbBtCmdProcess halClient rd σ).2 := by
  have hm := cmd_moves halClient rd σ
  generalize (usbBtCmdProcess halClient rd σ).2 = σ' at hm ⊢
  have hans : rd.st = (pipe (cmdStart σ)).answer := by
    rw [cmdStart]
    split <;> simpa [pipeStep, Pipe.answer] using hst
  have hreq (hb : σ.bt.cmdBusy ≠ 0) : PipeInv (cmdRequest rd.st σ) := by
    obtain ⟨h1, hstart⟩ := cmdStart_inv h hb (ho hb)
    rw [cmdRequest_eq, hans]
    exact ctlReq_inv h1 hstart
  have hfree (hn : rd.st ≠ .busy) : (pipe (cmdRequest rd.st σ)).request = none := by
    rw [cmdRequest_eq, pipe_emit]
    exact ctlReq_frees _ _ (hans ▸ hn)
  cases hm with
  | idle => exact h
  | waiting hb => exact hreq hb
  | failed hb hs =>
      rw [← hs]
      exact cmdDone_inv (hreq hb) (hfree (hs.trans_ne (by decide)))
  | sent hb hs =>
      rw [← hs]
      refine cmdDone_inv (txEndHandler_inv (hreq hb) _ _) ?_
      rw [txEndHandler_pipe]
      exact hfree (hs.trans_ne (by decide))

theorem process_inv (h : PipeInv σ) (st : UsbhStatus) : PipeInv (process σ st) := by
  rw [process]
  cases hreq : (pipe σ).request with
  | none => exact h
  | some r =>
      by_cases hk : r.result = none ∧ st ≠ .busy
      · simp only [if_pos hk]
        have hpipe : pipe (σ.emit (.controlDone (pipe σ).setup (r.bytes σ.bt) st)) =
            { pipe σ with request := some { r with result := some st } } := by
          simp [pipeStep, hreq]
        have hstaged : (book (σ.emit (.controlDone (pipe σ).setup (r.bytes σ.bt) st))).staged = (book σ).staged := by
          simp only [book_emit, bookStep]
          split <;> rfl
        refine ⟨by rw [hstaged]; exact h.staged, by rw [hpipe]; exact h.setup, ?_, ?_, ?_⟩
        · intro hst r' hr'
          rw [hpipe] at hr'
          obtain rfl := Option.some.inj hr'
          exact h.alone hst r hreq
        · intro r' hr' hsrc
          rw [hpipe] at hr'
          obtain rfl := Option.some.inj hr'
          have hsrc' : r.source = .command := hsrc
          obtain ⟨hst, hlen, -⟩ := h.own r hreq hsrc
          refine ⟨hst, hlen, fun hok => ?_⟩
          obtain rfl : st = .ok := Option.some.inj hok
          have hbook : book (σ.emit (.controlDone (pipe σ).setup (r.bytes σ.bt) .ok)) =
              { book σ with carried := (book σ).carried ++ [((pipe σ).setup, r.bytes σ.bt)] } := book_emit _ _
          rw [hbook, h.setup hst, Request.bytes, hsrc', hlen]
          simp
        · exact (atEach_concat _ _ _).mpr ⟨h.sent, by simp [Sent]⟩
      · simp only [if_neg hk]
        exact h

theorem world_inv (h : PipeInv σ) (m : Move) (ho : Owned σ m) : PipeInv (world halClient σ m) := by
  cases m with
  | process st => exact process_inv h st
  | driver s =>
      cases s with
      | call x => exact halCall_inv h x
      | cmd rd => exact cmd_inv h _ rfl ho
      | evt rd => exact evt_inv h _ ho
      | aclo rd => exact aclo_inv h _ ho
      | acli rd => exact acli_inv h _ ho

theorem started_inv (b : Build) {dev : Device} (ch : Channels) (bt : BtState) (txBusy : Int)
    (hdev : dev.bInterfaceClass = wirelessClass) : PipeInv (started b dev ch bt txBusy) := by
  have h0 : PipeInv ⟨attachedBt ch { bt with loadingFw := 0 }, txBusy, []⟩ :=
    ⟨fun hb => absurd rfl hb, fun hst => absurd rfl hst.1, fun hst => absurd rfl hst.1,
      fun r hr => absurd hr (by simp [pipe, pipeObserver]), atEach_nil _⟩
  have hs : Extends Apart [] (allocTrace ch ++ openTrace dev ch) :=
    ⟨_, rfl, attach_events dev ch (fun _ _ => ⟨fun _ => rfl, fun _ => rfl, by simp [Sent]⟩)
      (fun _ _ _ _ _ => ⟨fun _ => rfl, fun _ => rfl, by simp [Sent]⟩)⟩
  have hx : PipeInv ⟨attachedBt ch { bt with loadingFw := 0 }, txBusy, allocTrace ch ++ openTrace dev ch⟩ :=
    hs.concat_induction (fun g => PipeInv ⟨attachedBt ch { bt with loadingFw := 0 }, txBusy, g⟩) h0
      (fun _ _ hg he => hg.emit he)
  simpa [started, usbhBtInterfaceInit, hdev, attach_wireless, Sys.write] using hx

/-- A command that is reported as sent has been sent with its own setup and
bytes, in a run in which it has the control pipe for itself. -/
theorem commands_sent (b : Build) (dev : Device) (ch : Channels) (bt : BtState) (txBusy : Int)
    (hdev : dev.bInterfaceClass = wirelessClass) (moves : List Move)
    (ho : Along (world halClient) Owned (started b dev ch bt txBusy) moves) :
    AtEach Sent (run (world halClient) (started b dev ch bt txBusy) moves).trace := by
  have h : PipeInv (run (world halClient) (started b dev ch bt txBusy) moves) :=
    run_invariant (I := PipeInv) (fun _ m h hm => world_inv h m hm) (started_inv b ch bt txBusy hdev) ho
  exact h.sent

def pollMoves (acli : Urb) : List Move :=
  [.driver (.cmd { st := .busy, calls := [] }),
    .driver (.evt { frame := 0, urb := .idle, received := [], clr := .busy, calls := [] }),
    .driver (.aclo { urb := .idle, clr := .busy, calls := [] }),
    .driver (.acli { urb := acli, received := [], clr := .busy, calls := [] })]

def reset : Move := .driver (.call (.send .hciCommandDataPacket [0x03, 0x0c, 0x00]))

/-- The ACL-in endpoint has stalled, and its clear request is on the pipe
when the command is started. The command gets the result of it. -/
def crossed : List Move :=
  pollMoves .idle ++ pollMoves .stall ++ [reset, .process .ok] ++ pollMoves .stall

theorem crossed_command_is_not_sent :
    dongle.bInterfaceClass = wirelessClass ∧
      ¬AtEach Sent (run (world halClient) (started plain dongle dongleChannels .zero 0) crossed).trace := by
  refine ⟨rfl, fun h => ?_⟩
  have hs := h [.allocChannel .evt 2, .allocChannel .aclo 3, .allocChannel .acli 4,
      .openChannel 2 1 1 .intr 16, .openChannel 4 1 1 .bulk 64, .openChannel 3 1 1 .bulk 64,
      .currentFrame 0, .interruptReceive 272 2, .bulkReceive 64 4,
      .currentFrame 0, .urbState .evt 2 .idle, .urbState .acli 4 .stall, .clrFeature .acli 4 .busy,
      .txPacket .hciCommandDataPacket [0x03, 0x0c, 0x00] 0, .controlDone (clrSetup .acli) [] .ok,
      .setSetup (cmdSetup 3)]
    (.ctlReq [0x03, 0x0c, 0x00] 3 .ok)
    [.txEnd .hciCommandDataPacket, .currentFrame 0, .urbState .evt 2 .idle, .urbState .acli 4 .stall,
      .clrFeature .acli 4 .busy] (by rfl)
  exact absurd (hs _ _ rfl).2.2 (by decide)

def alone : List Move := pollMoves .idle ++ [reset] ++ pollMoves .idle ++ [.process .ok] ++ pollMoves .idle

theorem command_alone_is_sent :
    dongle.bInterfaceClass = wirelessClass ∧
      Along (world halClient) Owned (started plain dongle dongleChannels .zero 0) alone ∧
      AtEach Sent (run (world halClient) (started plain dongle dongleChannels .zero 0) alone).trace := by
  have ho : Along (world halClient) Owned (started plain dongle dongleChannels .zero 0) alone := by decide +kernel
  exact ⟨rfl, ho, commands_sent plain dongle dongleChannels .zero 0 rfl alone ho⟩

end Uubt.ControlPipe
