import Uubt.Clients
import Uubt.Moves

namespace Uubt.Frames

open History HostLibrary Driver Endpoints Clients Moves

def ByOwner (o : Owner) (e : Event) : Prop := e.owner = o ∨ e.owner = .client

/-- One machine of the driver works, and its user may answer through
hal_ub_tx_packet: the other machines keep their states, and the packets that
wait on them. -/
structure Frame (o : Owner) (bt bt' : BtState) : Prop where
  loadingFw : bt'.loadingFw = bt.loadingFw
  fwOffset : bt'.fwOffset = bt.fwOffset
  evtHcn : bt'.evtHcn = bt.evtHcn
  acloHcn : bt'.acloHcn = bt.acloHcn
  acliHcn : bt'.acliHcn = bt.acliHcn
  evt : o ≠ .evt → bt'.evtState = bt.evtState ∧ bt'.evtTmo = bt.evtTmo
  acli : o ≠ .acli → bt'.acliState = bt.acliState
  cmd : o ≠ .cmd → bt.cmdBusy ≠ 0 → SameCmd bt bt'
  aclo : o ≠ .aclo → bt.acloBusy ≠ 0 → SameAclo bt bt'
  cmdStaged : o ≠ .cmd → bt.cmdBusy = 0 → bt'.cmdBusy = 0 ∨ bt'.cmdState = 0
  acloStaged : o ≠ .aclo → bt.acloBusy = 0 → bt'.acloBusy = 0 ∨ bt'.acloState = 0

structure Works (o : Owner) (σ σ' : Sys) : Prop where
  frame : Frame o σ.bt σ'.bt
  events : Extends (ByOwner o) σ.trace σ'.trace

variable {o : Owner} {c : Client}

theorem Frame.refl (o : Owner) (bt : BtState) : Frame o bt bt :=
  ⟨rfl, rfl, rfl, rfl, rfl, fun _ => ⟨rfl, rfl⟩, fun _ => rfl,
    fun _ _ => ⟨rfl, rfl, rfl, rfl⟩, fun _ _ => ⟨rfl, rfl, rfl, rfl⟩, fun _ h => .inl h, fun _ h => .inl h⟩

theorem Frame.trans {bt bt' bt'' : BtState} (h : Frame o bt bt') (h' : Frame o bt' bt'') : Frame o bt bt'' where
  loadingFw := h'.loadingFw.trans h.loadingFw
  fwOffset := h'.fwOffset.trans h.fwOffset
  evtHcn := h'.evtHcn.trans h.evtHcn
  acloHcn := h'.acloHcn.trans h.acloHcn
  acliHcn := h'.acliHcn.trans h.acliHcn
  evt ho := ⟨(h'.evt ho).1.trans (h.evt ho).1, (h'.evt ho).2.trans (h.evt ho).2⟩
  acli ho := (h'.acli ho).trans (h.acli ho)
  cmd ho hb := by
    have hs := h.cmd ho hb
    have hs' := h'.cmd ho (hs.busy ▸ hb)
    exact ⟨hs'.1.trans hs.1, hs'.2.trans hs.2, hs'.3.trans hs.3, hs'.4.trans hs.4⟩
  aclo ho hb := by
    have hs := h.aclo ho hb
    have hs' := h'.aclo ho (hs.busy ▸ hb)
    exact ⟨hs'.1.trans hs.1, hs'.2.trans hs.2, hs'.3.trans hs.3, hs'.4.trans hs.4⟩
  cmdStaged ho hb := by
    by_cases hb' : bt'.cmdBusy = 0
    · exact h'.cmdStaged ho hb'
    · have hs := h'.cmd ho hb'
      exact .inr (hs.state.trans ((h.cmdStaged ho hb).resolve_left hb'))
  acloStaged ho hb := by
    by_cases hb' : bt'.acloBusy = 0
    · exact h'.acloStaged ho hb'
    · have hs := h'.aclo ho hb'
      exact .inr (hs.state.trans ((h.acloStaged ho hb).resolve_left hb'))

theorem Works.refl (o : Owner) (σ : Sys) : Works o σ σ := ⟨.refl o _, .refl _ _⟩

theorem Works.trans {σ σ' σ'' : Sys} (h : Works o σ σ') (h' : Works o σ' σ'') : Works o σ σ'' :=
  ⟨h.frame.trans h'.frame, h.events.trans h'.events⟩

theorem Works.emit {σ σ' : Sys} (h : Works o σ σ') {e : Event} (he : e.owner = o) : Works o σ (σ'.emit e) :=
  ⟨h.frame, h.events.concat (.inl he)⟩

/-- A state with the fields that one machine assigns taken from another. -/
def own (o : Owner) (bt src : BtState) : BtState :=
  match o with
  | .cmd => { bt with cmdState := src.cmdState, cmdBusy := src.cmdBusy }
  | .evt => { bt with evtState := src.evtState, evtTmo := src.evtTmo }
  | .aclo => { bt with acloState := src.acloState, acloBusy := src.acloBusy }
  | .acli => { bt with acliState := src.acliState }
  | _ => bt

theorem frame_own (o : Owner) (bt src : BtState) : Frame o bt (own o bt src) := by
  cases o <;> constructor <;>
    first
      | rfl
      | exact fun h => absurd rfl h
      | exact fun _ => ⟨rfl, rfl⟩
      | exact fun _ => rfl
      | exact fun _ _ => ⟨rfl, rfl, rfl, rfl⟩
      | exact fun _ h => .inl h

theorem Works.write {σ σ' : Sys} (h : Works o σ σ') {f : BtState → BtState}
    (hf : ∀ bt, f bt = own o bt (f bt)) : Works o σ (σ'.write f) := by
  have hw : Frame o σ'.bt (f σ'.bt) := by
    rw [hf]
    exact frame_own o _ _
  exact ⟨h.frame.trans hw, h.events⟩

theorem clientAct_works {σ σ' : Sys} (h : ClientAct σ σ') (o : Owner) : Works o σ σ' := by
  have hr := h.reach.sameReceiver
  refine ⟨?_, h.events.mono (fun _ he => .inr he)⟩
  exact ⟨hr.loadingFw, hr.fwOffset, hr.evtHcn, hr.acloHcn, hr.acliHcn, fun _ => ⟨hr.evtState, hr.evtTmo⟩,
    fun _ => hr.acliState, fun _ hb => h.reach.sameCmd hb, fun _ hb => h.reach.sameAclo hb,
    fun _ hb => h.reach.cmdStaged hb, fun _ hb => h.reach.acloStaged hb⟩

theorem rxHandler_works (hc : Polite c) {type : PacketType} (ht : (Event.rxReturn type).owner = o)
    (packet : List UInt8) (len : Nat) (calls : List Call) (σ : Sys) :
    Works o σ (callRxHandler c type packet len calls σ) :=
  have hrx : (Event.rx type (packet.take (uint16 len)) (uint16 len)).owner = o := ht
  (((Works.refl o σ).emit hrx).trans (clientAct_works (hc.rxHandler _ _ _ _ _) o)).emit ht

theorem txEndHandler_works (hc : Polite c) {type : PacketType} (ht : (Event.txEnd type).owner = o)
    (calls : List Call) (σ : Sys) : Works o σ (callTxEndHandler c type calls σ) :=
  ((Works.refl o σ).emit ht).trans (clientAct_works (hc.txEndHandler _ _ _) o)

theorem cmdRequest_works (st : UsbhStatus) (σ : Sys) : Works .cmd σ (cmdRequest st σ) := by
  unfold cmdRequest cmdStart
  split
  · exact (((Works.refl _ σ).emit (by rfl)).write (fun _ => rfl)).emit (by rfl)
  · exact (Works.refl _ σ).emit (by rfl)

theorem cmd_works (hc : Polite c) (rd : CmdReadings) (σ : Sys) : Works .cmd σ (usbBtCmdProcess c rd σ).2 := by
  have hm := cmd_moves c rd σ
  generalize (usbBtCmdProcess c rd σ).2 = σ' at hm ⊢
  cases hm with
  | idle => exact .refl _ _
  | sent =>
      exact ((cmdRequest_works .ok σ).trans (txEndHandler_works hc (by rfl) _ _)).write
        (fun _ => rfl)
  | failed => exact (cmdRequest_works .fail σ).write (fun _ => rfl)
  | waiting => exact cmdRequest_works _ σ

theorem evt_works (hc : Polite c) (rd : EvtReadings) (σ : Sys) : Works .evt σ (usbBtEvtProcess c rd σ).2 := by
  have hm := evt_moves c rd σ
  generalize (usbBtEvtProcess c rd σ).2 = σ' at hm ⊢
  have hf : Works .evt σ (σ.emit (.currentFrame rd.frame)) := (Works.refl _ σ).emit (by rfl)
  have hr : Works .evt σ (evtRead rd σ) := hf.emit (by rfl)
  cases hm with
  | submit => exact (hf.emit (by rfl)).write (fun _ => rfl)
  | expire | rearm => exact hf.write (fun _ => rfl)
  | deliver => exact (hr.trans (rxHandler_works hc (by rfl) _ _ _ _)).write (fun _ => rfl)
  | clear => exact (hr.emit (by rfl)).write (fun _ => rfl)
  | stalled => exact hr.emit (by rfl)
  | wait => exact hr
  | rest | lost => exact hf

theorem aclo_works (hc : Polite c) (buf : Option (List UInt8)) (rd : AcloReadings) (σ : Sys) :
    Works .aclo σ (usbBtAcloProcess c buf rd σ).2 := by
  have hm := aclo_moves c buf rd σ
  generalize (usbBtAcloProcess c buf rd σ).2 = σ' at hm ⊢
  have hr : Works .aclo σ (acloRead rd σ) := (Works.refl _ σ).emit (by rfl)
  cases hm with
  | idle | lost => exact .refl _ _
  | submit => exact ((Works.refl _ σ).emit (by rfl)).write (fun _ => rfl)
  | done =>
      have hn : Works .aclo σ (acloNotify c buf rd (acloRead rd σ)) := by
        cases buf with
        | some buf => exact hr
        | none => exact hr.trans (txEndHandler_works hc (by rfl) _ _)
      exact hn.write (fun _ => rfl)
  | clear => exact (hr.emit (by rfl)).write (fun _ => rfl)
  | stalled => exact hr.emit (by rfl)
  | wait => exact hr

theorem acli_works (hc : Polite c) (rd : AcliReadings) (σ : Sys) : Works .acli σ (usbBtAcliProcess c rd σ).2 := by
  have hm := acli_moves c rd σ
  generalize (usbBtAcliProcess c rd σ).2 = σ' at hm ⊢
  have hr : Works .acli σ (acliRead rd σ) := (Works.refl _ σ).emit (by rfl)
  cases hm with
  | submit => exact ((Works.refl _ σ).emit (by rfl)).write (fun _ => rfl)
  | deliver => exact (hr.trans (rxHandler_works hc (by rfl) _ _ _ _)).write (fun _ => rfl)
  | clear => exact (hr.emit (by rfl)).write (fun _ => rfl)
  | stalled => exact hr.emit (by rfl)
  | wait => exact hr
  | lost => exact .refl _ _

/-- What a machine adds to the record itself, in between the calls of its
handler, with the channel that it works on. -/
def Own (o : Owner) (hcn : Nat) : Event → Prop
  | .setSetup _ | .ctlReq _ _ _ => o = .cmd
  | .currentFrame _ => o = .evt
  | .interruptReceive _ n => o = .evt ∧ n = hcn
  | .bulkSend _ _ n => o = .aclo ∧ n = hcn
  | .bulkReceive _ n => o = .acli ∧ n = hcn
  | .urbState ep _ _ | .clrFeature ep _ _ => o = ep.owner
  | _ => False

/-- A way for the record to grow that the events of a machine keep to, and
the calls of its handlers. -/
structure Grows (c : Client) (o : Owner) (hcn : Nat) (R : Trace → Trace → Prop) : Prop where
  refl (h : Trace) : R h h
  trans {h h' h'' : Trace} (hh : R h h') (hh' : R h' h'') : R h h''
  own (h : Trace) {e : Event} (he : Own o hcn e) : R h (h ++ [e])
  rxHandler (type : PacketType) (packet : List UInt8) (len : Nat) (calls : List Call) (σ : Sys) :
    R σ.trace (callRxHandler c type packet len calls σ).trace
  txEndHandler (type : PacketType) (calls : List Call) (σ : Sys) :
    R σ.trace (callTxEndHandler c type calls σ).trace

variable {hcn : Nat} {R : Trace → Trace → Prop}

theorem Grows.concat (hg : Grows c o hcn R) {h h' : Trace} (hh : R h h') {e : Event} (he : Own o hcn e) :
    R h (h' ++ [e]) :=
  hg.trans hh (hg.own h' he)

theorem Grows.cmd (hg : Grows c .cmd hcn R) (rd : CmdReadings) (σ : Sys) :
    R σ.trace (usbBtCmdProcess c rd σ).2.trace := by
  have hstart : R σ.trace (cmdStart σ).trace := by
    rw [cmdStart]
    split
    · exact hg.own _ rfl
    · exact hg.refl _
  have hreq (st : UsbhStatus) : R σ.trace (cmdRequest st σ).trace := hg.concat hstart rfl
  have hm := cmd_moves c rd σ
  generalize (usbBtCmdProcess c rd σ).2 = σ' at hm ⊢
  cases hm with
  | idle => exact hg.refl _
  | sent => exact hg.trans (hreq .ok) (hg.txEndHandler _ _ _)
  | failed => exact hreq .fail
  | waiting => exact hreq rd.st

theorem Grows.evt (rd : EvtReadings) {σ : Sys} (hg : Grows c .evt σ.bt.evtHcn R) :
    R σ.trace (usbBtEvtProcess c rd σ).2.trace := by
  have hf : R σ.trace (σ.emit (.currentFrame rd.frame)).trace := hg.own _ rfl
  have hr : R σ.trace (evtRead rd σ).trace := hg.concat hf rfl
  have hm := evt_moves c rd σ
  generalize (usbBtEvtProcess c rd σ).2 = σ' at hm ⊢
  cases hm with
  | submit => exact hg.concat hf ⟨rfl, rfl⟩
  | deliver => exact hg.trans hr (hg.rxHandler _ _ _ _ _)
  | clear | stalled => exact hg.concat hr rfl
  | wait => exact hr
  | expire | rearm | rest | lost => exact hf

theorem Grows.aclo (buf : Option (List UInt8)) (rd : AcloReadings) {σ : Sys} (hg : Grows c .aclo σ.bt.acloHcn R) :
    R σ.trace (usbBtAcloProcess c buf rd σ).2.trace := by
  have hr : R σ.trace (acloRead rd σ).trace := hg.own _ rfl
  have hm := aclo_moves c buf rd σ
  generalize (usbBtAcloProcess c buf rd σ).2 = σ' at hm ⊢
  cases hm with
  | idle | lost => exact hg.refl _
  | submit => exact hg.own _ ⟨rfl, rfl⟩
  | done =>
      cases buf with
      | some buf => exact hr
      | none => exact hg.trans hr (hg.txEndHandler _ _ _)
  | clear | stalled => exact hg.concat hr rfl
  | wait => exact hr

theorem Grows.acli (rd : AcliReadings) {σ : Sys} (hg : Grows c .acli σ.bt.acliHcn R) :
    R σ.trace (usbBtAcliProcess c rd σ).2.trace := by
  have hr : R σ.trace (acliRead rd σ).trace := hg.own _ rfl
  have hm := acli_moves c rd σ
  generalize (usbBtAcliProcess c rd σ).2 = σ' at hm ⊢
  cases hm with
  | submit => exact hg.own _ ⟨rfl, rfl⟩
  | deliver => exact hg.trans hr (hg.rxHandler _ _ _ _ _)
  | clear | stalled => exact hg.concat hr rfl
  | wait => exact hr
  | lost => exact hg.refl _

end Uubt.Frames
