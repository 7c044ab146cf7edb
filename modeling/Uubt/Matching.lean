import Uubt.Clients
import Uubt.LoaderMoves

namespace Uubt.Matching

open HostLibrary Driver Endpoints Clients ClassDriver Moves LoaderMoves

variable {c c' : Client} {g : List Call → List Call} {R : Sys → Sys → Prop} {σ τ : Sys}

/-- A relation of two drivers that are one to the event machine, and stay
so. Their handlers may be different ones. -/
structure EvtMatch (c c' : Client) (g : List Call → List Call) (R : Sys → Sys → Prop) : Prop where
  state : ∀ {σ τ}, R σ τ → τ.bt.evtState = σ.bt.evtState
  tmo : ∀ {σ τ}, R σ τ → σ.bt.evtState ≠ 0 → τ.bt.evtTmo = σ.bt.evtTmo
  hcn : ∀ {σ τ}, R σ τ → τ.bt.evtHcn = σ.bt.evtHcn
  emit : ∀ {σ τ}, R σ τ → ∀ e, R (σ.emit e) (τ.emit e)
  submit : ∀ {σ τ}, R σ τ → ∀ tmo, R (σ.write ({ · with evtTmo := tmo, evtState := 1 }))
    (τ.write ({ · with evtTmo := tmo, evtState := 1 }))
  set : ∀ {σ τ}, R σ τ → σ.bt.evtState ≠ 0 → ∀ n, R (σ.write ({ · with evtState := n }))
    (τ.write ({ · with evtState := n }))
  rx : ∀ {σ τ}, R σ τ → ∀ packet len calls, R (callRxHandler c .hciEventPacket packet len calls σ)
    (callRxHandler c' .hciEventPacket packet len (g calls) τ)

theorem EvtMatch.process (hm : EvtMatch c c' g R) (hc : Polite c) (h : R σ τ) (rd : EvtReadings) :
    R (usbBtEvtProcess c rd σ).2 (usbBtEvtProcess c' { rd with calls := g rd.calls } τ).2 := by
  have hmove {τ' : Sys} (ht : EvtMove c' { rd with calls := g rd.calls } τ τ') :
      (usbBtEvtProcess c' { rd with calls := g rd.calls } τ).2 = τ' := ht.eq
  have hstate {n : Int} (hn : σ.bt.evtState = n) : τ.bt.evtState = n := (hm.state h).trans hn
  have hdue {n : Int} (hn : σ.bt.evtState = n) (h0 : n ≠ 0) : due { rd with calls := g rd.calls } τ ↔ due rd σ := by
    rw [due, due, hm.tmo h (hn.trans_ne h0)]
  have one : (1 : Int) ≠ 0 := by decide
  have two : (2 : Int) ≠ 0 := by decide
  have hf := hm.emit h (.currentFrame rd.frame)
  have hr : R (evtRead rd σ) (evtRead { rd with calls := g rd.calls } τ) := by
    rw [evtRead, evtRead, hm.hcn h]
    exact hm.emit hf _
  have hk := hm.emit hr (.clrFeature .evt σ.bt.evtHcn rd.clr)
  have hs := evt_moves c rd σ
  generalize (usbBtEvtProcess c rd σ).2 = σ' at hs ⊢
  cases hs with
  | submit h0 =>
      rw [hmove (.submit (hstate h0)), hm.hcn h]
      exact hm.submit (hm.emit hf _) _
  | expire h1 hd =>
      rw [hmove (.expire (hstate h1) ((hdue h1 one).mpr hd))]
      exact hm.set hf (h1.trans_ne one) 0
  | deliver h1 hd hu =>
      rw [hmove (.deliver (hstate h1) (mt (hdue h1 one).mp hd) hu)]
      have hsame := rxHandler_same hc .hciEventPacket rd.received rd.received.length rd.calls (evtRead rd σ)
      exact hm.set (hm.rx hr _ _ _) (hsame.evtState.trans_ne (h1.trans_ne one)) 2
  | clear h1 hd hu hc =>
      rw [hmove (.clear (hstate h1) (mt (hdue h1 one).mp hd) hu hc), hm.hcn h]
      exact hm.set hk (h1.trans_ne one) 0
  | stalled h1 hd hu hc =>
      rw [hmove (.stalled (hstate h1) (mt (hdue h1 one).mp hd) hu hc), hm.hcn h]
      exact hk
  | wait h1 hd hn hs =>
      rw [hmove (.wait (hstate h1) (mt (hdue h1 one).mp hd) hn hs)]
      exact hr
  | rearm h2 hd =>
      rw [hmove (.rearm (hstate h2) ((hdue h2 two).mpr hd))]
      exact hm.set hf (h2.trans_ne two) 0
  | rest h2 hd =>
      rw [hmove (.rest (hstate h2) (mt (hdue h2 two).mp hd))]
      exact hf
  | lost h0 h1 h2 =>
      rw [hmove (.lost ((hm.state h).trans_ne h0) ((hm.state h).trans_ne h1) ((hm.state h).trans_ne h2))]
      exact hf

structure AcliMatch (c c' : Client) (g : List Call → List Call) (R : Sys → Sys → Prop) : Prop where
  state : ∀ {σ τ}, R σ τ → τ.bt.acliState = σ.bt.acliState
  hcn : ∀ {σ τ}, R σ τ → τ.bt.acliHcn = σ.bt.acliHcn
  emit : ∀ {σ τ}, R σ τ → ∀ e, R (σ.emit e) (τ.emit e)
  set : ∀ {σ τ}, R σ τ → ∀ n, R (σ.write ({ · with acliState := n })) (τ.write ({ · with acliState := n }))
  rx : ∀ {σ τ}, R σ τ → ∀ packet len calls, R (callRxHandler c .hciAclDataPacket packet len calls σ)
    (callRxHandler c' .hciAclDataPacket packet len (g calls) τ)

theorem AcliMatch.process (hm : AcliMatch c c' g R) (h : R σ τ) (rd : AcliReadings) :
    R (usbBtAcliProcess c rd σ).2 (usbBtAcliProcess c' { rd with calls := g rd.calls } τ).2 := by
  have hmove {τ' : Sys} (ht : AcliMove c' { rd with calls := g rd.calls } τ τ') :
      (usbBtAcliProcess c' { rd with calls := g rd.calls } τ).2 = τ' := ht.eq
  have hstate {n : Int} (hn : σ.bt.acliState = n) : τ.bt.acliState = n := (hm.state h).trans hn
  have hr : R (acliRead rd σ) (acliRead { rd with calls := g rd.calls } τ) := by
    rw [acliRead, acliRead, hm.hcn h]
    exact hm.emit h _
  have hk := hm.emit hr (.clrFeature .acli σ.bt.acliHcn rd.clr)
  have hs := acli_moves c rd σ
  generalize (usbBtAcliProcess c rd σ).2 = σ' at hs ⊢
  cases hs with
  | submit h0 =>
      rw [hmove (.submit (hstate h0)), hm.hcn h]
      exact hm.set (hm.emit h _) 1
  | deliver h1 hu =>
      rw [hmove (.deliver (hstate h1) hu)]
      exact hm.set (hm.rx hr _ _ _) 0
  | clear h1 hu hc =>
      rw [hmove (.clear (hstate h1) hu hc), hm.hcn h]
      exact hm.set hk 0
  | stalled h1 hu hc =>
      rw [hmove (.stalled (hstate h1) hu hc), hm.hcn h]
      exact hk
  | wait h1 hn hs =>
      rw [hmove (.wait (hstate h1) hn hs)]
      exact hr
  | lost h0 h1 =>
      rw [hmove (.lost ((hm.state h).trans_ne h0) ((hm.state h).trans_ne h1))]
      exact h

variable {L : Sys → Sys → Prop} {A : Option Int → Sys → Sys → Prop} {img : Firmware} {n : Option Int}

/-- Two iterations of the download loop that end in the same way. -/
inductive MatchedPass (L : Sys → Sys → Prop) (A : Option Int → Sys → Sys → Prop) : Pass → Pass → Prop
  | leave {σ τ : Sys} (h : L σ τ) : MatchedPass L A (.leave σ) (.leave τ)
  | again {n : Option Int} {σ τ : Sys} (h : A n σ τ) : MatchedPass L A (.again n σ) (.again n τ)

/-- What has to be shown of the parts of an iteration in two drivers that
are as far with the image. -/
structure PassMatch (img : Firmware) (rd rd' : FwReadings) (n : Option Int) (L : Sys → Sys → Prop)
    (A : Option Int → Sys → Sys → Prop) (σ τ : Sys) : Prop where
  aclo : rd'.aclo = rd.aclo
  busy : τ.bt.acloBusy = σ.bt.acloBusy
  offset : τ.bt.fwOffset = σ.bt.fwOffset
  state : σ.bt.acloBusy ≠ 0 → τ.bt.acloState = σ.bt.acloState
  leave : σ.bt.acloBusy = 0 → L (σ.write ({ · with loadingFw := 3 })) (τ.write ({ · with loadingFw := 3 }))
  stage : A (some (chunk img σ.bt.fwOffset)) (submitted img (staged img σ)) (submitted img (staged img τ))
  submit : σ.bt.acloBusy ≠ 0 → A n (submitted img σ) (submitted img τ)
  done : σ.bt.acloBusy ≠ 0 → A n (completed rd n σ) (completed rd' n τ)
  clear : σ.bt.acloBusy ≠ 0 →
    A n ((cleared rd σ).write ({ · with acloState := 0 })) ((cleared rd' τ).write ({ · with acloState := 0 }))
  stalled : σ.bt.acloBusy ≠ 0 → A n (cleared rd σ) (cleared rd' τ)
  wait : σ.bt.acloBusy ≠ 0 → A n (acloRead rd.aclo σ) (acloRead rd'.aclo τ)
  lost : σ.bt.acloBusy ≠ 0 → A n σ τ

theorem PassMatch.pass {rd rd' : FwReadings} (h : PassMatch img rd rd' n L A σ τ) (c c' : Client) :
    MatchedPass L A (fwPass img c rd n σ) (fwPass img c' rd' n τ) := by
  have hmove {p : Pass} (ht : PassMove img rd' n τ p) : fwPass img c' rd' n τ = p := ht.eq
  have hfree (hb : σ.bt.acloBusy = 0) : τ.bt.acloBusy = 0 := h.busy.trans hb
  have hbusy (hb : σ.bt.acloBusy ≠ 0) : τ.bt.acloBusy ≠ 0 := h.busy.trans_ne hb
  have hstate (hb : σ.bt.acloBusy ≠ 0) {s : Int} (hs : σ.bt.acloState = s) : τ.bt.acloState = s :=
    (h.state hb).trans hs
  have hm := pass_moves img c rd n σ
  generalize fwPass img c rd n σ = p at hm ⊢
  cases hm with
  | leave hb hk =>
      rw [hmove (.leave (hfree hb) (h.offset ▸ hk))]
      exact .leave (h.leave hb)
  | stage hb hk =>
      rw [hmove (.stage (hfree hb) (h.offset ▸ hk)), h.offset]
      exact .again h.stage
  | submit hb h0 =>
      rw [hmove (.submit (hbusy hb) (hstate hb h0))]
      exact .again (h.submit hb)
  | done hb h1 hu =>
      rw [hmove (.done (hbusy hb) (hstate hb h1) (h.aclo ▸ hu))]
      exact .again (h.done hb)
  | clear hb h1 hu hc =>
      rw [hmove (.clear (hbusy hb) (hstate hb h1) (h.aclo ▸ hu) (h.aclo ▸ hc))]
      exact .again (h.clear hb)
  | stalled hb h1 hu hc =>
      rw [hmove (.stalled (hbusy hb) (hstate hb h1) (h.aclo ▸ hu) (h.aclo ▸ hc))]
      exact .again (h.stalled hb)
  | wait hb h1 hn hs =>
      rw [hmove (.wait (hbusy hb) (hstate hb h1) (h.aclo ▸ hn) (h.aclo ▸ hs))]
      exact .again (h.wait hb)
  | lost hb h0 h1 =>
      rw [hmove (.lost (hbusy hb) ((h.state hb).trans_ne h0) ((h.state hb).trans_ne h1))]
      exact .again (h.lost hb)

/-- The rule for two download loops side by side: they go through the same
iterations. -/
theorem fwLoop_matched {b : Build} {f : FwReadings → FwReadings}
    (hpass : ∀ {σ τ n} rd, A n σ τ → MatchedPass L A (fwPass img c rd n σ) (fwPass img c' (f rd) n τ))
    (hkeep : ∀ {σ τ n}, A n σ τ → A (if b.keepsN then n else none) σ τ) (rds : List FwReadings) (h : A n σ τ) :
    let r := fwLoop b img c rds n σ
    let r' := fwLoop b img c' (rds.map f) n τ
    r'.returned = r.returned ∧ (r.returned = true → L r.sys r'.sys) ∧
      (r.returned = false → ∃ n, A n r.sys r'.sys) := by
  induction rds generalizing n σ τ with
  | nil => exact ⟨rfl, fun hr => Bool.noConfusion hr, fun _ => ⟨n, h⟩⟩
  | cons rd rds ih =>
      have hp := hpass rd h
      rw [List.map_cons, fwLoop, fwLoop]
      generalize fwPass img c rd n σ = p at hp ⊢
      generalize fwPass img c' (f rd) n τ = p' at hp ⊢
      cases hp with
      | leave h' => exact ⟨rfl, fun _ => h', fun hr => Bool.noConfusion hr⟩
      | again h' => exact ih (hkeep h')

end Uubt.Matching
