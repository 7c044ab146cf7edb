import Uubt.FirmwareLoading
import Uubt.LoaderMoves
import Uubt.Sessions

namespace Uubt.DriverState

open HostLibrary Driver Endpoints ClassDriver Clients Moves LoaderMoves FirmwareLoading Sessions Runs

/-- The buffers of BT_State. -/
inductive BufferName
  | cmdPacket | evtPacket | acloPacket | acliPacket
deriving DecidableEq

def capacity : BufferName → Nat
  | .cmdPacket => cmdAlignedMaxSize
  | .evtPacket => evtAlignedMaxSize
  | .acloPacket | .acliPacket => aclAlignedMaxSize

/-- The length that goes with a buffer in an event. A packet that is
accepted is copied into its buffer, and the header of the firmware where its
setup is written; a chunk of the image is sent in place of a packet. -/
def handedOver : Event → Option (BufferName × Nat)
  | .txPacket .hciCommandDataPacket packet ret => if ret = 0 then some (.cmdPacket, packet.length) else none
  | .txPacket .hciAclDataPacket packet ret => if ret = 0 then some (.acloPacket, packet.length) else none
  | .setSetup setup => if setup.type = .typeVendor then some (.cmdPacket, setup.wLength) else none
  | .ctlReq _ len _ => some (.cmdPacket, len)
  | .interruptReceive len _ => some (.evtPacket, len)
  | .bulkSend _ len _ => some (.acloPacket, len)
  | .bulkReceive len _ => some (.acliPacket, len)
  | _ => none

def Fits (e : Event) : Prop := ∀ name len, handedOver e = some (name, len) → len ≤ capacity name

structure Valid (bt : BtState) : Prop where
  cmdState : bt.cmdState = 0 ∨ bt.cmdState = 1
  evtState : bt.evtState = 0 ∨ bt.evtState = 1 ∨ bt.evtState = 2
  acloState : bt.acloState = 0 ∨ bt.acloState = 1
  acliState : bt.acliState = 0 ∨ bt.acliState = 1
  cmdBusy : bt.cmdBusy = 0 ∨ bt.cmdBusy = 1
  acloBusy : bt.acloBusy = 0 ∨ bt.acloBusy = 1
  cmdStarted : bt.loadingFw = 0 → bt.cmdState = 1 → bt.cmdBusy = 1
  acloStarted : bt.acloState = 1 → bt.acloBusy = 1
  cmdLen : bt.cmdLen ≤ cmdAlignedMaxSize
  acloLen : bt.acloLen ≤ aclAlignedMaxSize
  evtTmo : bt.evtTmo < frnumPeriod

structure Sound (σ : Sys) : Prop where
  valid : Valid σ.bt
  fits : ∀ e ∈ σ.trace, Fits e

/-- No machine gets to its last branch, which returns -1. -/
def InControl (σ : Sys) : Prop := ∀ (c : Client) (cmd : CmdReadings) (evt : EvtReadings) (buf : Option (List UInt8))
    (aclo : AcloReadings) (acli : AcliReadings),
  (usbBtCmdProcess c cmd σ).1 = 0 ∧ (usbBtEvtProcess c evt σ).1 = 0 ∧ (usbBtAcloProcess c buf aclo σ).1 = 0 ∧
    (usbBtAcliProcess c acli σ).1 = 0

/-- What is done to the driver from outside. A packet has the size that it
is offered with. -/
inductive Op
  | init (dev : Device) (ch : Channels)
  | deInit
  | classRequest
  | txPacket (type : PacketType) (packet : List UInt8)
  | poll (rd : PollReadings)

def perform (b : Build) (σ : Sys) : Op → Sys
  | .init dev ch => (usbhBtInterfaceInit b dev ch σ).2
  | .deInit => usbhBtInterfaceDeInit σ
  | .classRequest => (usbhBtClassRequest σ).2
  | .txPacket type packet => halCall σ (.send type packet)
  | .poll rd => (usbhBtStMachine b halClient rd σ).sys

/-- The states while a handler runs: at its entry, and behind each of its
calls. -/
def inHandler (σ : Sys) : List Call → List Sys
  | [] => [σ]
  | x :: xs => σ :: inHandler (halCall σ x) xs

def inStep (σ : Sys) : Step → List Sys
  | .call _ => []
  | .cmd rd =>
      if σ.bt.cmdBusy ≠ 0 ∧ rd.st = .ok then
        inHandler ((cmdRequest .ok σ).emit (.txEnd .hciCommandDataPacket)) rd.calls
      else []
  | .evt rd =>
      if σ.bt.evtState = 1 ∧ ¬due rd σ ∧ rd.urb = .done then
        inHandler ((evtRead rd σ).emit (.rx .hciEventPacket (rd.received.take (uint16 rd.received.length))
          (uint16 rd.received.length))) rd.calls
      else []
  | .aclo rd =>
      if σ.bt.acloBusy ≠ 0 ∧ σ.bt.acloState = 1 ∧ rd.urb = .done then
        inHandler ((acloRead rd σ).emit (.txEnd .hciAclDataPacket)) rd.calls
      else []
  | .acli rd =>
      if σ.bt.acliState = 1 ∧ rd.urb = .done then
        inHandler ((acliRead rd σ).emit (.rx .hciAclDataPacket (rd.received.take (uint16 rd.received.length))
          (uint16 rd.received.length))) rd.calls
      else []

/-- The states in which the machines are called one after the other, and
those of their handlers. -/
def inSteps (σ : Sys) : List Step → List Sys
  | [] => []
  | s :: ss => σ :: inStep σ s ++ inSteps (step halClient σ s) ss

/-- The states in which the download loop calls usb_bt_aclo_process. -/
def inLoop (b : Build) (img : Firmware) : List FwReadings → Option Int → Sys → List Sys
  | [], _, _ => []
  | rd :: rds, n, σ =>
      match fwStage img n σ, fwPass img halClient rd n σ with
      | some (_, τ), .again n' σ' => τ :: inLoop b img rds (if b.keepsN then n' else none) σ'
      | _, _ => []

def inPoll (b : Build) (rd : PollReadings) (σ : Sys) : List Sys :=
  match b.firmware with
  | some img =>
      if σ.bt.loadingFw ≠ 0 then
        if σ.bt.loadingFw = 2 then inLoop b img rd.loop none σ else []
      else inSteps σ (pollSteps rd)
  | none => inSteps σ (pollSteps rd)

def zeroed : Sys := ⟨.zero, 0, []⟩

/-- The driver is there between two operations, or in the middle of one. -/
def Visited (b : Build) (τ : Sys) : Prop := ∃ ops, τ = run (perform b) zeroed ops ∨
  ∃ rd, τ ∈ inPoll b rd (run (perform b) zeroed ops)

variable {bt : BtState} {σ : Sys} {b : Build} {img : Firmware}

theorem fits_of_none {e : Event} (h : handedOver e = none) : Fits e := by
  intro name len hp
  rw [h] at hp
  contradiction

theorem fits_of_some {e : Event} {name : BufferName} {len : Nat} (h : handedOver e = some (name, len))
    (hle : len ≤ capacity name) : Fits e := by
  intro name' len' hp
  rw [h] at hp
  obtain ⟨rfl, rfl⟩ := Prod.mk.inj (Option.some.inj hp)
  exact hle

theorem Sound.emit (h : Sound σ) {e : Event} (he : Fits e) : Sound (σ.emit e) := by
  refine ⟨h.valid, fun x hx => ?_⟩
  rcases List.mem_append.mp hx with hx | hx
  · exact h.fits x hx
  · rw [List.mem_singleton.mp hx]
    exact he

theorem Sound.write (h : Sound σ) {f : BtState → BtState} (hf : Valid (f σ.bt)) : Sound (σ.write f) :=
  ⟨hf, h.fits⟩

theorem sound_zeroed : Sound zeroed where
  valid := by constructor <;> simp [zeroed, BtState.zero, frnumPeriod]
  fits := by simp [zeroed]

theorem Valid.stageCmd (h : Valid bt) (packet : List UInt8) {size : Nat} (hs : size ≤ cmdAlignedMaxSize) :
    Valid (stageCmd packet size bt) :=
  { h with
    cmdState := .inl rfl
    cmdBusy := .inr rfl
    cmdStarted := fun _ _ => rfl
    cmdLen := hs }

theorem Valid.stageAcl (h : Valid bt) (packet : List UInt8) {size : Nat} (hs : size ≤ aclAlignedMaxSize) :
    Valid (stageAcl packet size bt) :=
  { h with
    acloState := .inl rfl
    acloBusy := .inr rfl
    acloStarted := fun _ => rfl
    acloLen := hs }

/-- The two flags of a slot fall together. -/
theorem Valid.cmdEnd (h : Valid bt) : Valid { bt with cmdState := 0, cmdBusy := 0 } :=
  { h with
    cmdState := .inl rfl
    cmdBusy := .inl rfl
    cmdStarted := fun _ hs => absurd hs Int.zero_ne_one }

theorem Valid.acloEnd (h : Valid bt) (fwOffset : Int) :
    Valid { bt with acloState := 0, acloBusy := 0, fwOffset := fwOffset } :=
  { h with
    acloState := .inl rfl
    acloBusy := .inl rfl
    acloStarted := fun hs => absurd hs Int.zero_ne_one }

theorem Valid.cmdStart (h : Valid bt) (hb : bt.cmdBusy ≠ 0) : Valid { bt with cmdState := 1 } :=
  { h with
    cmdState := .inr rfl
    cmdStarted := fun _ _ => h.cmdBusy.resolve_left hb }

theorem Valid.acloStart (h : Valid bt) (hb : bt.acloBusy ≠ 0) : Valid { bt with acloState := 1 } :=
  { h with
    acloState := .inr rfl
    acloStarted := fun _ => h.acloBusy.resolve_left hb }

theorem Valid.acloAgain (h : Valid bt) : Valid { bt with acloState := 0 } :=
  { h with
    acloState := .inl rfl
    acloStarted := fun hs => absurd hs Int.zero_ne_one }

theorem Valid.setEvt (h : Valid bt) {state : Int} (hs : state = 0 ∨ state = 1 ∨ state = 2) {tmo : Nat}
    (ht : tmo < frnumPeriod) : Valid { bt with evtState := state, evtTmo := tmo } :=
  { h with evtState := hs, evtTmo := ht }

theorem Valid.setAcli (h : Valid bt) {state : Int} (hs : state = 0 ∨ state = 1) :
    Valid { bt with acliState := state } :=
  { h with acliState := hs }

theorem halCall_sound (h : Sound σ) (x : Call) : Sound (halCall σ x) := by
  cases x with
  | canSend type => exact h
  | send type packet =>
      have hm := tx_moves type packet (uint16 packet.length) σ.bt
      simp only [halCall]
      generalize halUbTxPacket type packet (uint16 packet.length) σ.bt = r at hm ⊢
      have hlen : (packet.take (uint16 packet.length)).length = uint16 packet.length := by
        rw [List.length_take, Nat.min_eq_left (uint16_le packet.length)]
      cases hm with
      | refused =>
          refine (h.write h.valid).emit (fits_of_none ?_)
          cases type <;> rfl
      | cmd _ hs => exact (h.write (h.valid.stageCmd packet hs)).emit (fits_of_some rfl (hlen.trans_le hs))
      | acl _ hs => exact (h.write (h.valid.stageAcl packet hs)).emit (fits_of_some rfl (hlen.trans_le hs))

theorem inHandler_sound (h : Sound σ) (calls : List Call) : ∀ τ ∈ inHandler σ calls, Sound τ := by
  induction calls generalizing σ with
  | nil =>
      intro τ hτ
      rw [List.mem_singleton.mp hτ]
      exact h
  | cons x xs ih =>
      intro τ hτ
      rcases List.mem_cons.mp hτ with rfl | hτ
      · exact h
      · exact ih (halCall_sound h x) τ hτ

theorem inHandler_getLast (σ : Sys) (calls : List Call) :
    (inHandler σ calls).getLast? = some (calls.foldl halCall σ) := by
  induction calls generalizing σ with
  | nil => rfl
  | cons x xs ih => rw [inHandler, List.getLast?_cons, ih]; rfl

theorem halCalls_sound (h : Sound σ) (calls : List Call) : Sound (calls.foldl halCall σ) :=
  inHandler_sound h calls _ (List.mem_of_getLast? (inHandler_getLast σ calls))

/-- What a machine does when its handler has returned. -/
def finish : Step → Sys → Sys
  | .call _, τ => τ
  | .cmd _, τ => cmdDone τ
  | .evt _, τ => (τ.emit (.rxReturn .hciEventPacket)).write ({ · with evtState := 2 })
  | .aclo _, τ => τ.write ({ · with acloState := 0, acloBusy := 0 })
  | .acli _, τ => (τ.emit (.rxReturn .hciAclDataPacket)).write ({ · with acliState := 0 })

/-- A machine goes on from the state that its handler has left. -/
theorem step_finish (s : Step) {τ : Sys} (h : (inStep σ s).getLast? = some τ) : step halClient σ s = finish s τ := by
  cases s with
  | call x => simp [inStep] at h
  | cmd rd =>
      rw [inStep] at h
      split_ifs at h with hc
      · rw [inHandler_getLast] at h
        obtain rfl := Option.some.inj h
        simp only [step, cmd_eq, hc.1, hc.2, if_false, if_true]
        rfl
      · simp at h
  | evt rd =>
      rw [inStep] at h
      split_ifs at h with hc
      · rw [inHandler_getLast] at h
        obtain rfl := Option.some.inj h
        exact (EvtMove.deliver hc.1 hc.2.1 hc.2.2).eq
      · simp at h
  | aclo rd =>
      rw [inStep] at h
      split_ifs at h with hc
      · rw [inHandler_getLast] at h
        obtain rfl := Option.some.inj h
        exact (AcloMove.done hc.1 hc.2.1 hc.2.2).eq
      · simp at h
  | acli rd =>
      rw [inStep] at h
      split_ifs at h with hc
      · rw [inHandler_getLast] at h
        obtain rfl := Option.some.inj h
        exact (AcliMove.deliver hc.1 hc.2).eq
      · simp at h

theorem rxHandler_sound (h : Sound σ) (type : PacketType) (packet : List UInt8) (len : Nat) (calls : List Call) :
    Sound (callRxHandler halClient type packet len calls σ) := by
  have hrx : Sound (σ.emit (.rx type (packet.take (uint16 len)) (uint16 len))) := h.emit (fits_of_none rfl)
  exact (halCalls_sound hrx calls).emit (fits_of_none rfl)

theorem txEndHandler_sound (h : Sound σ) (type : PacketType) (calls : List Call) :
    Sound (callTxEndHandler halClient type calls σ) := by
  have hend : Sound (σ.emit (.txEnd type)) := h.emit (fits_of_none rfl)
  exact halCalls_sound hend calls

theorem cmdRequest_sound (h : Sound σ) (hb : σ.bt.cmdBusy ≠ 0) (st : UsbhStatus) : Sound (cmdRequest st σ) := by
  have hstart : Sound (cmdStart σ) := by
    rw [cmdStart]
    split
    · exact (h.emit (fits_of_none rfl)).write (h.valid.cmdStart hb)
    · exact h
  exact hstart.emit (fits_of_some rfl h.valid.cmdLen)

theorem evtRead_sound (h : Sound σ) (rd : EvtReadings) : Sound (evtRead rd σ) :=
  (h.emit (fits_of_none rfl)).emit (fits_of_none rfl)

theorem acloRead_sound (h : Sound σ) (rd : AcloReadings) : Sound (acloRead rd σ) := h.emit (fits_of_none rfl)

theorem acliRead_sound (h : Sound σ) (rd : AcliReadings) : Sound (acliRead rd σ) := h.emit (fits_of_none rfl)

theorem cmd_sound (h : Sound σ) (rd : CmdReadings) : Sound (usbBtCmdProcess halClient rd σ).2 := by
  have hm := cmd_moves halClient rd σ
  generalize (usbBtCmdProcess halClient rd σ).2 = σ' at hm ⊢
  cases hm with
  | idle => exact h
  | sent hb =>
      have hsent := txEndHandler_sound (cmdRequest_sound h hb .ok) .hciCommandDataPacket rd.calls
      exact hsent.write hsent.valid.cmdEnd
  | failed hb =>
      have hreq := cmdRequest_sound h hb .fail
      exact hreq.write hreq.valid.cmdEnd
  | waiting hb => exact cmdRequest_sound h hb rd.st

theorem evt_sound (h : Sound σ) (rd : EvtReadings) : Sound (usbBtEvtProcess halClient rd σ).2 := by
  have hm := evt_moves halClient rd σ
  generalize (usbBtEvtProcess halClient rd σ).2 = σ' at hm ⊢
  have hf : Sound (σ.emit (.currentFrame rd.frame)) := h.emit (fits_of_none rfl)
  have hr := evtRead_sound h rd
  cases hm with
  | submit =>
      have htmo : (2 + uint16 rd.frame) % frnumPeriod < frnumPeriod := Nat.mod_lt _ (by decide)
      exact (hf.emit (fits_of_some rfl (Nat.le_refl _))).write (h.valid.setEvt (.inr (.inl rfl)) htmo)
  | expire | rearm => exact hf.write (h.valid.setEvt (.inl rfl) h.valid.evtTmo)
  | deliver =>
      have hrx := rxHandler_sound hr .hciEventPacket rd.received rd.received.length rd.calls
      exact hrx.write (hrx.valid.setEvt (.inr (.inr rfl)) hrx.valid.evtTmo)
  | clear => exact (hr.emit (fits_of_none rfl)).write (h.valid.setEvt (.inl rfl) h.valid.evtTmo)
  | stalled => exact hr.emit (fits_of_none rfl)
  | wait => exact hr
  | rest | lost => exact hf

theorem aclo_sound (h : Sound σ) (rd : AcloReadings) : Sound (usbBtAcloProcess halClient none rd σ).2 := by
  have hm := aclo_moves halClient none rd σ
  generalize (usbBtAcloProcess halClient none rd σ).2 = σ' at hm ⊢
  have hr := acloRead_sound h rd
  cases hm with
  | idle | lost => exact h
  | submit hb => exact (h.emit (fits_of_some rfl h.valid.acloLen)).write (h.valid.acloStart hb)
  | done =>
      have hsent := txEndHandler_sound hr .hciAclDataPacket rd.calls
      exact hsent.write (hsent.valid.acloEnd _)
  | clear => exact (hr.emit (fits_of_none rfl)).write h.valid.acloAgain
  | stalled => exact hr.emit (fits_of_none rfl)
  | wait => exact hr

theorem acli_sound (h : Sound σ) (rd : AcliReadings) : Sound (usbBtAcliProcess halClient rd σ).2 := by
  have hm := acli_moves halClient rd σ
  generalize (usbBtAcliProcess halClient rd σ).2 = σ' at hm ⊢
  have hr := acliRead_sound h rd
  cases hm with
  | submit => exact (h.emit (fits_of_some rfl (Nat.le_refl _))).write (h.valid.setAcli (.inr rfl))
  | deliver =>
      have hrx := rxHandler_sound hr .hciAclDataPacket rd.received rd.received.length rd.calls
      exact hrx.write (hrx.valid.setAcli (.inl rfl))
  | clear => exact (hr.emit (fits_of_none rfl)).write (h.valid.setAcli (.inl rfl))
  | stalled => exact hr.emit (fits_of_none rfl)
  | wait => exact hr
  | lost => exact h

theorem step_sound (h : Sound σ) (s : Step) : Sound (step halClient σ s) := by
  cases s with
  | call x => exact halCall_sound h x
  | cmd rd => exact cmd_sound h rd
  | evt rd => exact evt_sound h rd
  | aclo rd => exact aclo_sound h rd
  | acli rd => exact acli_sound h rd

theorem inStep_sound (h : Sound σ) (s : Step) : ∀ τ ∈ inStep σ s, Sound τ := by
  cases s with
  | call x => simp [inStep]
  | cmd rd =>
      rw [inStep]
      split_ifs with hc
      · exact inHandler_sound ((cmdRequest_sound h hc.1 .ok).emit (fits_of_none rfl)) rd.calls
      · simp
  | evt rd =>
      rw [inStep]
      split_ifs
      · exact inHandler_sound ((evtRead_sound h rd).emit (fits_of_none rfl)) rd.calls
      · simp
  | aclo rd =>
      rw [inStep]
      split_ifs
      · exact inHandler_sound ((acloRead_sound h rd).emit (fits_of_none rfl)) rd.calls
      · simp
  | acli rd =>
      rw [inStep]
      split_ifs
      · exact inHandler_sound ((acliRead_sound h rd).emit (fits_of_none rfl)) rd.calls
      · simp

theorem inSteps_sound (h : Sound σ) (steps : List Step) : ∀ τ ∈ inSteps σ steps, Sound τ := by
  induction steps generalizing σ with
  | nil => simp [inSteps]
  | cons s ss ih =>
      intro τ hτ
      rcases List.mem_append.mp hτ with hτ | hτ
      · rcases List.mem_cons.mp hτ with rfl | hτ
        · exact h
        · exact inStep_sound h s τ hτ
      · exact ih (step_sound h s) τ hτ

theorem fwRequest_sound (h : Sound σ) (h1 : σ.bt.loadingFw = 1) (hhdr : img.ath3kFwCmd.length ≤ cmdAlignedMaxSize)
    (st : UsbhStatus) : Sound (fwRequest img st σ) ∧ (fwRequest img st σ).bt.loadingFw = 1 := by
  have hlen : uint16 img.ath3kFwCmd.length ≤ cmdAlignedMaxSize := Nat.le_trans (uint16_le _) hhdr
  have hheader : Sound (fwHeader img σ) ∧ (fwHeader img σ).bt.loadingFw = 1 := by
    rw [fwHeader]
    split
    · refine ⟨(h.emit (fits_of_some rfl hlen)).write ?_, h1⟩
      have hfw : σ.bt.loadingFw ≠ 0 := h1.trans_ne (by decide)
      exact { h.valid with
        cmdState := .inr rfl
        cmdStarted := fun h0 _ => absurd h0 hfw
        cmdLen := hlen }
    · exact ⟨h, h1⟩
  exact ⟨hheader.1.emit (fits_of_some rfl hheader.1.valid.cmdLen), hheader.2⟩

theorem fwSetup_sound (h : Sound σ) (h1 : σ.bt.loadingFw = 1) (hhdr : img.ath3kFwCmd.length ≤ cmdAlignedMaxSize)
    (rd : CmdReadings) : Sound (fwSetup img rd σ) := by
  obtain ⟨hreq, -⟩ := fwRequest_sound h h1 hhdr rd.st
  rw [fwSetup_eq]
  split_ifs
  · exact hreq.write { hreq.valid with
      cmdState := .inl rfl
      cmdStarted := fun _ hs => absurd hs Int.zero_ne_one }
  · exact hreq.write { hreq.valid with
      cmdState := .inl rfl
      cmdStarted := fun _ hs => absurd hs Int.zero_ne_one }
  · exact hreq

theorem chunk_le (img : Firmware) (fwOffset : Int) : chunk img fwOffset ≤ aclMps := by
  unfold chunk
  dsimp only
  split
  · exact Int.le_refl _
  · omega

theorem uint16_chunk_le (hn : 0 < chunk img σ.bt.fwOffset) : uint16 (chunk img σ.bt.fwOffset) ≤ aclAlignedMaxSize := by
  have hle := chunk_le img σ.bt.fwOffset
  rw [aclMps] at hle
  rw [uint16, aclAlignedMaxSize]
  omega

theorem staged_sound (h : Sound σ) (hn : 0 < chunk img σ.bt.fwOffset) : Sound (staged img σ) :=
  h.write { h.valid with
    acloState := .inl rfl
    acloBusy := .inr rfl
    acloStarted := fun _ => rfl
    acloLen := uint16_chunk_le hn }

theorem submitted_sound (h : Sound σ) (hb : σ.bt.acloBusy ≠ 0) : Sound (submitted img σ) :=
  (h.emit (fits_of_some rfl h.valid.acloLen)).write (h.valid.acloStart hb)

theorem pass_sound (h : Sound σ) {rd : FwReadings} {n : Option Int} {p : Pass}
    (hm : PassMove img rd n σ p) : Sound (after p) := by
  have hread := acloRead_sound h rd.aclo
  have hclr : Sound (cleared rd σ) := hread.emit (fits_of_none rfl)
  cases hm with
  | leave =>
      rw [after]
      exact h.write { h.valid with cmdStarted := fun h0 => absurd h0 (show ¬(3 : Int) = 0 by decide) }
  | stage _ hn => exact submitted_sound (staged_sound h hn) (show ¬(1 : Int) = 0 by decide)
  | submit hb => exact submitted_sound h hb
  | done =>
      rw [after, completed]
      exact hread.write (h.valid.acloEnd _)
  | clear =>
      rw [after]
      exact hclr.write h.valid.acloAgain
  | stalled => exact hclr
  | wait => exact hread
  | lost => exact h

theorem inLoop_sound (h : Sound σ) (rds : List FwReadings) (n : Option Int) : ∀ τ ∈ inLoop b img rds n σ, Sound τ := by
  induction rds generalizing n σ with
  | nil => simp [inLoop]
  | cons rd rds ih =>
      have hs := pass_sound h (pass_moves img halClient rd n σ)
      have hstage : ∀ n' τ, fwStage img n σ = some (n', τ) → Sound τ := by
        intro n' τ he
        by_cases hb : σ.bt.acloBusy = 0
        · rw [fwStage_free hb] at he
          split_ifs at he with hn
          obtain ⟨-, rfl⟩ := Prod.mk.inj (Option.some.inj he)
          exact staged_sound h (Int.not_le.mp hn)
        · rw [fwStage, if_neg hb] at he
          obtain ⟨-, rfl⟩ := Prod.mk.inj (Option.some.inj he)
          exact h
      intro τ hτ
      rw [inLoop] at hτ
      generalize fwPass img halClient rd n σ = p at hs hτ
      generalize fwStage img n σ = o at hstage hτ
      cases o with
      | none => simp at hτ
      | some r =>
          cases p with
          | leave σ' => simp at hτ
          | again n' σ' =>
              rcases List.mem_cons.mp hτ with rfl | hτ
              · exact hstage _ _ rfl
              · exact ih hs _ τ hτ

/-- Whatever the mode was before, behind the device check nothing is left of
the session before but the lengths. -/
theorem attach_sound (h : Sound σ) (dev : Device) (ch : Channels) {mode : BtState → BtState}
    (hc : (mode σ.bt).cmdLen = σ.bt.cmdLen) (ha : (mode σ.bt).acloLen = σ.bt.acloLen)
    (ht : (mode σ.bt).evtTmo = σ.bt.evtTmo) : Sound (attach dev ch (σ.write mode)) := by
  have hvalid : Valid (attachedBt ch (mode σ.bt)) :=
    { cmdState := .inl rfl
      evtState := .inl rfl
      acloState := .inl rfl
      acliState := .inl rfl
      cmdBusy := .inl rfl
      acloBusy := .inl rfl
      cmdStarted := fun _ hs => absurd hs Int.zero_ne_one
      acloStarted := fun hs => absurd hs Int.zero_ne_one
      cmdLen := hc.trans_le h.valid.cmdLen
      acloLen := ha.trans_le h.valid.acloLen
      evtTmo := ht.trans_lt h.valid.evtTmo }
  have hnew (new : Trace) (hn : ∀ e ∈ new, handedOver e = none) : ∀ e ∈ σ.trace ++ new, Fits e := by
    intro e he
    rcases List.mem_append.mp he with he | he
    · exact h.fits e he
    · exact fits_of_none (hn e he)
  by_cases h0 : (σ.write mode).bt.loadingFw = 0
  · rw [attach_wireless dev ch _ h0, List.append_assoc]
    exact ⟨hvalid, hnew _ (by simp [allocTrace, openTrace, openAcloTrace, handedOver])⟩
  · rw [attach_loader dev ch _ h0, List.append_assoc]
    exact ⟨hvalid, hnew _ (by simp [allocTrace, openAcloTrace, handedOver])⟩

theorem init_sound (h : Sound σ) (b : Build) (dev : Device) (ch : Channels) :
    Sound (usbhBtInterfaceInit b dev ch σ).2 := by
  rw [usbhBtInterfaceInit]
  split_ifs
  · exact attach_sound h dev ch rfl rfl rfl
  · exact attach_sound h dev ch rfl rfl rfl
  · exact h.emit (fits_of_none rfl)

theorem btFreeCh_sound (h : Sound σ) (hcn : BtState → Nat) (reset : BtState → BtState)
    (hr : ∀ bt, Valid bt → Valid (reset bt)) : Sound (btFreeCh hcn reset σ) := by
  rw [btFreeCh]
  split
  · exact ((h.emit (fits_of_none rfl)).emit (fits_of_none rfl)).write (hr _ h.valid)
  · exact h

theorem deInit_sound (h : Sound σ) : Sound (usbhBtInterfaceDeInit σ) := by
  have hoff : Sound (if σ.bt.loadingFw = 0 then σ.emit (.powerControl false) else σ) := by
    split
    · exact h.emit (fits_of_none rfl)
    · exact h
  have hevt := btFreeCh_sound hoff (·.evtHcn) ({ · with evtHcn := 0 }) fun _ hv => { hv with }
  have haclo := btFreeCh_sound hevt (·.acloHcn) ({ · with acloHcn := 0 }) fun _ hv => { hv with }
  exact btFreeCh_sound haclo (·.acliHcn) ({ · with acliHcn := 0 }) fun _ hv => { hv with }

theorem classRequest_sound (h : Sound σ) : Sound (usbhBtClassRequest σ).2 := by
  rw [usbhBtClassRequest]
  split
  · exact h.emit (fits_of_none rfl)
  · exact h

theorem poll_sound (h : Sound σ) (hhdr : ∀ img ∈ b.firmware, img.ath3kFwCmd.length ≤ cmdAlignedMaxSize)
    (rd : PollReadings) : Sound (usbhBtStMachine b halClient rd σ).sys :=
  usbhBtStMachine_preserves rd (fun _ _ s hs => step_sound hs s)
    (fun img hb h1 => fwSetup_sound h h1 (hhdr img hb) rd.cmd) (fun _ _ _ _ _ _ _ hs hm => pass_sound hs hm) h

theorem inPoll_sound (h : Sound σ) (rd : PollReadings) : ∀ τ ∈ inPoll b rd σ, Sound τ := by
  unfold inPoll
  cases b.firmware with
  | none => exact inSteps_sound h _
  | some img =>
      dsimp only
      split_ifs
      · exact inLoop_sound h rd.loop none
      · simp
      · exact inSteps_sound h _

theorem perform_sound (h : Sound σ) (hhdr : ∀ img ∈ b.firmware, img.ath3kFwCmd.length ≤ cmdAlignedMaxSize)
    (x : Op) : Sound (perform b σ x) := by
  cases x with
  | init dev ch => exact init_sound h b dev ch
  | deInit => exact deInit_sound h
  | classRequest => exact classRequest_sound h
  | txPacket type packet => exact halCall_sound h (.send type packet)
  | poll rd => exact poll_sound h hhdr rd

theorem visited_sound (hhdr : ∀ img ∈ b.firmware, img.ath3kFwCmd.length ≤ cmdAlignedMaxSize) {τ : Sys}
    (h : Visited b τ) : Sound τ := by
  obtain ⟨ops, hτ⟩ := h
  have hrun : Sound (run (perform b) zeroed ops) :=
    run_preserves (I := Sound) (fun _ x hs => perform_sound hs hhdr x) sound_zeroed ops
  rcases hτ with rfl | ⟨rd, hτ⟩
  · exact hrun
  · exact inPoll_sound hrun rd τ hτ

theorem Valid.inControl (h : Valid σ.bt) : InControl σ := by
  intro c cmd evt buf aclo acli
  refine ⟨?_, ?_, ?_, ?_⟩
  · simp only [usbBtCmdProcess]
    split_ifs <;> rfl
  · rcases h.evtState with h0 | h1 | h2
    · simp only [usbBtEvtProcess, emit_bt, h0, ↓reduceIte]
    · simp only [usbBtEvtProcess, emit_bt, h1, ↓reduceIte, Int.reduceEq]
      cases evt.urb <;> split_ifs <;> rfl
    · simp only [usbBtEvtProcess, emit_bt, h2, ↓reduceIte, Int.reduceEq]
      split_ifs <;> rfl
  · rcases h.acloState with h0 | h1
    · simp only [usbBtAcloProcess, h0, ↓reduceIte]
      split_ifs <;> rfl
    · simp only [usbBtAcloProcess, h1, ↓reduceIte, Int.reduceEq]
      cases aclo.urb <;> split_ifs <;> rfl
  · rcases h.acliState with h0 | h1
    · simp only [usbBtAcliProcess, h0, ↓reduceIte]
    · simp only [usbBtAcliProcess, h1, ↓reduceIte, Int.reduceEq]
      cases acli.urb <;> split_ifs <;> rfl

/-- In every state that the driver can be in, whatever it is asked to do and
whatever the host library answers, its fields are in their ranges, a
transfer on the way has its busy flag, every length fits its buffer, and no
machine is lost. -/
theorem driver_invariant (b : Build) (hhdr : ∀ img ∈ b.firmware, img.ath3kFwCmd.length ≤ cmdAlignedMaxSize) (τ : Sys)
    (h : Visited b τ) : Valid τ.bt ∧ (∀ e ∈ τ.trace, Fits e) ∧ InControl τ := by
  have hτ := visited_sound hhdr h
  exact ⟨hτ.valid, hτ.fits, hτ.valid.inControl⟩

def loaderBuild : Build := { firmware := some smallImage, keepsN := true }

/-- The modem goes away in the middle of its firmware, and a dongle comes. -/
def replugged : List Op :=
  [.init ar3011 dongleChannels, .poll (loaderPoll .ok []), .poll (loaderPoll .busy [.idle, .done, .idle]), .deInit,
    .init dongle dongleChannels, .txPacket .hciCommandDataPacket [0x03, 0x0c, 0x00]]

/-- The command ends, and its handler offers the next two packets. -/
def commandEnds : PollReadings :=
  { loaderPoll .ok [] with
    cmd := {
      st := .ok
      calls := [.send .hciCommandDataPacket [0x01, 0x10, 0x00], .send .hciAclDataPacket [1, 0x20, 0, 0]] } }

theorem command_end_is_valid :
    (inPoll loaderBuild commandEnds (run (perform loaderBuild) zeroed replugged)).length = 7 ∧
      ∀ τ ∈ inPoll loaderBuild commandEnds (run (perform loaderBuild) zeroed replugged), Valid τ.bt ∧ InControl τ := by
  refine ⟨by decide +kernel, fun τ hτ => ?_⟩
  obtain ⟨hv, -, hc⟩ := driver_invariant loaderBuild (by decide) τ ⟨replugged, .inr ⟨commandEnds, hτ⟩⟩
  exact ⟨hv, hc⟩

end Uubt.DriverState
