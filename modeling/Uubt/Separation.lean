import Uubt.Matching
import Uubt.Sessions

namespace Uubt.Separation

open History HostLibrary Driver Transport Endpoints Clients ClassDriver Moves Frames Matching Sessions Runs

def view (o : Owner) (t : Trace) : Trace := t.filter (·.owner = o)

def evtStep : Step → Option Step
  | .evt rd => some (.evt { rd with calls := [] })
  | _ => none

def acliStep : Step → Option Step
  | .acli rd => some (.acli { rd with calls := [] })
  | _ => none

@[simp]
theorem view_append (o : Owner) (t t' : Trace) : view o (t ++ t') = view o t ++ view o t' := List.filter_append ..

variable {c : Client} {o o' : Owner} {σ σ' τ : Sys}

theorem view_elsewhere {t t' : Trace} (h : Extends (fun e => e.owner ≠ o) t t') : view o t' = view o t := by
  obtain ⟨new, rfl, hn⟩ := h
  have hnone : view o new = [] := List.filter_eq_nil_iff.mpr fun e he => by simpa using hn e he
  rw [view_append, hnone, List.append_nil]

theorem view_client (ho : o ≠ .client) {t t' : Trace} (h : Extends ByClient t t') : view o t' = view o t :=
  view_elsewhere (h.mono fun _ he => (show _ = Owner.client from he) ▸ ho.symm)

theorem works_view (h : Works o' σ σ') (ho : o' ≠ o) (hc : o ≠ .client) : view o σ'.trace = view o σ.trace := by
  refine view_elsewhere (h.events.mono fun e he => ?_)
  rcases he with he | he
  · exact he ▸ ho
  · exact he ▸ hc.symm

theorem view_rx (hc : Polite c) (ho : o ≠ .client) (type : PacketType) (packet : List UInt8) (len : Nat)
    (calls : List Call) (σ : Sys) : view o (callRxHandler c type packet len calls σ).trace =
      view o σ.trace ++ view o [.rx type (packet.take (uint16 len)) (uint16 len), .rxReturn type] := by
  have hquiet := view_client ho (hc.rxHandler type (packet.take (uint16 len)) (uint16 len) calls
    (σ.emit (.rx type (packet.take (uint16 len)) (uint16 len)))).events
  rw [callRxHandler, emit_trace, view_append, hquiet, emit_trace, view_append, List.append_assoc, ← view_append]
  rfl

theorem dummyClient_polite : Polite dummyClient where
  call := halCall_act
  rxHandler _ _ _ _ σ := .refl σ
  txEndHandler _ _ σ := .refl σ

structure AlikeEvt (σ τ : Sys) : Prop where
  state : σ.bt.evtState = τ.bt.evtState
  tmo : σ.bt.evtTmo = τ.bt.evtTmo
  hcn : σ.bt.evtHcn = τ.bt.evtHcn
  view : view .evt σ.trace = view .evt τ.trace

structure AlikeAcli (σ τ : Sys) : Prop where
  state : σ.bt.acliState = τ.bt.acliState
  hcn : σ.bt.acliHcn = τ.bt.acliHcn
  view : view .acli σ.trace = view .acli τ.trace

theorem alikeEvt_works (h : AlikeEvt σ τ) (hw : Works o σ σ') (ho : o ≠ .evt) : AlikeEvt σ' τ where
  state := (hw.frame.evt ho).1.trans h.state
  tmo := (hw.frame.evt ho).2.trans h.tmo
  hcn := hw.frame.evtHcn.trans h.hcn
  view := (works_view hw ho (by decide)).trans h.view

theorem alikeAcli_works (h : AlikeAcli σ τ) (hw : Works o σ σ') (ho : o ≠ .acli) : AlikeAcli σ' τ where
  state := (hw.frame.acli ho).trans h.state
  hcn := hw.frame.acliHcn.trans h.hcn
  view := (works_view hw ho (by decide)).trans h.view

theorem alikeEvt_quiet (hc : Polite c) (h : AlikeEvt σ τ) {s : Step} (hs : evtStep s = none) :
    AlikeEvt (step c σ s) τ := by
  cases s with
  | call x => exact alikeEvt_works h (clientAct_works (hc.call σ x) .client) (by decide)
  | cmd rd => exact alikeEvt_works h (cmd_works hc rd σ) (by decide)
  | evt rd => contradiction
  | aclo rd => exact alikeEvt_works h (aclo_works hc none rd σ) (by decide)
  | acli rd => exact alikeEvt_works h (acli_works hc rd σ) (by decide)

theorem alikeAcli_quiet (hc : Polite c) (h : AlikeAcli σ τ) {s : Step} (hs : acliStep s = none) :
    AlikeAcli (step c σ s) τ := by
  cases s with
  | call x => exact alikeAcli_works h (clientAct_works (hc.call σ x) .client) (by decide)
  | cmd rd => exact alikeAcli_works h (cmd_works hc rd σ) (by decide)
  | evt rd => exact alikeAcli_works h (evt_works hc rd σ) (by decide)
  | aclo rd => exact alikeAcli_works h (aclo_works hc none rd σ) (by decide)
  | acli rd => contradiction

theorem alikeEvt_both (hc : Polite c) : EvtMatch c dummyClient (fun _ => []) AlikeEvt where
  state h := h.state.symm
  tmo h _ := h.tmo.symm
  hcn h := h.hcn.symm
  emit h e := ⟨h.state, h.tmo, h.hcn, by rw [emit_trace, emit_trace, view_append, view_append, h.view]⟩
  submit h _ := ⟨rfl, rfl, h.hcn, h.view⟩
  set h _ _ := ⟨rfl, h.tmo, h.hcn, h.view⟩
  rx {σ τ} h packet len calls := by
    have hs := rxHandler_same hc .hciEventPacket packet len calls σ
    have ht := rxHandler_same dummyClient_polite .hciEventPacket packet len [] τ
    refine ⟨?_, ?_, ?_, ?_⟩
    · rw [hs.evtState, ht.evtState, h.state]
    · rw [hs.evtTmo, ht.evtTmo, h.tmo]
    · rw [hs.evtHcn, ht.evtHcn, h.hcn]
    · rw [view_rx hc (by decide), view_rx dummyClient_polite (by decide), h.view]

theorem alikeAcli_both (hc : Polite c) : AcliMatch c dummyClient (fun _ => []) AlikeAcli where
  state h := h.state.symm
  hcn h := h.hcn.symm
  emit h e := ⟨h.state, h.hcn, by rw [emit_trace, emit_trace, view_append, view_append, h.view]⟩
  set h _ := ⟨rfl, h.hcn, h.view⟩
  rx {σ τ} h packet len calls := by
    have hs := rxHandler_same hc .hciAclDataPacket packet len calls σ
    have ht := rxHandler_same dummyClient_polite .hciAclDataPacket packet len [] τ
    refine ⟨?_, ?_, ?_⟩
    · rw [hs.acliState, ht.acliState, h.state]
    · rw [hs.acliHcn, ht.acliHcn, h.hcn]
    · rw [view_rx hc (by decide), view_rx dummyClient_polite (by decide), h.view]

theorem evt_purged (hc : Polite c) (h : AlikeEvt σ τ) (steps : List Step) :
    AlikeEvt (run (step c) σ steps) (run (step dummyClient) τ (steps.filterMap evtStep)) := by
  refine run_purge (R := AlikeEvt) ?_ ?_ h steps
  · intro σ τ s h hs
    exact alikeEvt_quiet hc h hs
  · intro σ τ s s' h hs
    cases s with
    | evt rd =>
        obtain rfl := Option.some.inj hs
        exact (alikeEvt_both hc).process hc h rd
    | call | cmd | aclo | acli => contradiction

theorem acli_purged (hc : Polite c) (h : AlikeAcli σ τ) (steps : List Step) :
    AlikeAcli (run (step c) σ steps) (run (step dummyClient) τ (steps.filterMap acliStep)) := by
  refine run_purge (R := AlikeAcli) ?_ ?_ h steps
  · intro σ τ s h hs
    exact alikeAcli_quiet hc h hs
  · intro σ τ s s' h hs
    cases s with
    | acli rd =>
        obtain rfl := Option.some.inj hs
        exact (alikeAcli_both hc).process h rd
    | call | cmd | evt | aclo => contradiction

/-- The two receiving machines are on their own: in every session each of
them does what it would do if it alone were polled, with the same readings
and with handlers that do nothing. -/
theorem receivers_separated (b : Build) (dev : Device) (ch : Channels) (bt : BtState) (txBusy : Int) (hc : Polite c)
    (hdev : dev.bInterfaceClass = wirelessClass) (inputs : List Input) :
    let start := opened b dev ch bt txBusy
    let t := (run (react b c) start inputs).trace
    let steps := inputs.flatMap Input.steps
    view .evt t = view .evt (run (step dummyClient) start (steps.filterMap evtStep)).trace ∧
      view .acli t = view .acli (run (step dummyClient) start (steps.filterMap acliStep)).trace := by
  intro start t steps
  have hrun : t = (run (step c) start steps).trace :=
    congrArg Sys.trace (run_react b hc (opened_loadingFw b ch bt txBusy hdev) inputs)
  rw [hrun]
  exact ⟨(evt_purged hc ⟨rfl, rfl, rfl, rfl⟩ steps).view, (acli_purged hc ⟨rfl, rfl, rfl⟩ steps).view⟩

/-- A poll that finds an event and an ACL packet, with a stack that answers
the event by a command. -/
def busyPoll : PollReadings where
  cmd := { st := .busy, calls := [] }
  evt := { frame := 7, urb := .done, received := [0x0e, 0x00], clr := .ok,
           calls := [.send .hciCommandDataPacket [0x03, 0x0c, 0x00]] }
  aclo := { urb := .stall, clr := .busy, calls := [] }
  acli := { urb := .done, received := [0x01, 0x20, 0x00, 0x00], clr := .ok, calls := [.canSend .hciAclDataPacket] }
  loop := []

theorem busy_session_separated :
    view .evt (run (react plain h2Client) (opened plain dongle dongleChannels .zero 0)
        [.poll busyPoll, .poll busyPoll]).trace =
      view .evt (run (step dummyClient) (opened plain dongle dongleChannels .zero 0)
        [.evt { busyPoll.evt with calls := [] }, .evt { busyPoll.evt with calls := [] }]).trace :=
  (receivers_separated plain dongle dongleChannels .zero 0 h2Client_polite rfl [.poll busyPoll, .poll busyPoll]).1

end Uubt.Separation
