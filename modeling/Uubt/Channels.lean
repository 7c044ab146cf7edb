import Uubt.Sessions

namespace Uubt.Channels

open History HostLibrary Driver Endpoints Clients ClassDriver Moves Frames Runs

def Ep.receives : Ep → Option PacketType
  | .evt => some .hciEventPacket
  | .aclo => none
  | .acli => some .hciAclDataPacket

/-- What a monitor has seen at an endpoint: the channel with its last
transfer, the bytes of the transfers that are done, what the handler got and
for how much of it has returned, and a stall that is not cleared. -/
structure Log where
  urb : Urb
  live : Bool
  data : List UInt8
  finished : List (List UInt8)
  delivered : List (List UInt8 × Nat)
  returned : Nat
  stalled : Bool

def Log.submitted (l : Log) : Log := { l with urb := .idle, live := true, data := [] }

def Log.reported (urb : Urb) (data : List UInt8) (l : Log) : Log :=
  { l with
    urb := urb, live := !urb.final, data := data
    finished := if urb = .done then l.finished ++ [data] else l.finished
    stalled := l.stalled || decide (urb = .stall) }

def monitorStep (ep : Ep) (l : Log) (e : Event) : Log :=
  match e with
  | .interruptReceive _ _ => if ep = .evt then l.submitted else l
  | .bulkSend _ _ _ => if ep = .aclo then l.submitted else l
  | .bulkReceive _ _ => if ep = .acli then l.submitted else l
  | .transferStatus ep' urb data => if ep' = ep then l.reported urb data else l
  | .clrFeature ep' _ st => if ep' = ep ∧ st = .ok then { l with stalled := false } else l
  | .rx type data size =>
      if Ep.receives ep = some type then { l with delivered := l.delivered ++ [(data, size)] } else l
  | .rxReturn type => if Ep.receives ep = some type then { l with returned := l.returned + 1 } else l
  | _ => l

def monitor (ep : Ep) : Observer Event Log where
  init := ⟨.idle, false, [], [], [], 0, false⟩
  step := monitorStep ep

def log (ep : Ep) (σ : Sys) : Log := (monitor ep).after σ.trace

def bufferSize : Ep → Nat
  | .evt => evtAlignedMaxSize
  | .aclo | .acli => aclAlignedMaxSize

/-- The driver works, or the hardware reports on the transfer of a channel. -/
inductive Move
  | driver (s : Step)
  | hardware (ep : Ep) (urb : Urb) (data : List UInt8)

/-- A step that reads the channels: their state is what the hardware has
made of the last transfer, and so are the bytes in the receive buffers. -/
def seen (σ : Sys) : Step → Step
  | .evt rd => .evt { rd with urb := (log .evt σ).urb, received := (log .evt σ).data }
  | .aclo rd => .aclo { rd with urb := (log .aclo σ).urb }
  | .acli rd => .acli { rd with urb := (log .acli σ).urb, received := (log .acli σ).data }
  | .call x => .call x
  | .cmd rd => .cmd rd

def InFlight (σ : Sys) (ep : Ep) (data : List UInt8) : Prop :=
  (log ep σ).live = true ∧ data.length ≤ bufferSize ep

instance (σ : Sys) (ep : Ep) (data : List UInt8) : Decidable (InFlight σ ep data) :=
  inferInstanceAs (Decidable (_ ∧ _))

/-- The state of a channel changes in any way until its transfer is done or
has stalled, and then stays until the next submission. -/
def world (c : Client) (σ : Sys) : Move → Sys
  | .driver s => step c σ (seen σ s)
  | .hardware ep urb data => if InFlight σ ep data then σ.emit (.transferStatus ep urb data) else σ

/-- Where a machine is in the work on one transfer. -/
inductive Phase
  | resting | ready | waiting | lost
deriving DecidableEq

def evtPhase (evtState : Int) : Phase :=
  if evtState = 0 then .ready else if evtState = 1 then .waiting else if evtState = 2 then .resting else .lost

def aclPhase (state : Int) : Phase :=
  if state = 0 then .ready else if state = 1 then .waiting else .lost

def phase (ep : Ep) (bt : BtState) : Phase :=
  match ep with
  | .evt => evtPhase bt.evtState
  | .aclo => if bt.acloBusy = 0 then .resting else aclPhase bt.acloState
  | .acli => aclPhase bt.acliState

def Neutral (ep : Ep) (e : Event) : Prop := e.submits ≠ some ep ∧ ∀ l, monitorStep ep l e = l

theorem neutral_of_owner {ep : Ep} {e : Event} (h : e.owner ≠ ep.owner) (hh : e.owner ≠ .hardware) :
    Neutral ep e := by
  constructor
  · cases e with
    | interruptReceive | bulkSend | bulkReceive => cases ep <;> first | exact absurd rfl h | simp [Event.submits]
    | _ => simp [Event.submits]
  · intro l
    cases e with
    | interruptReceive | bulkSend | bulkReceive => cases ep <;> first | rfl | exact absurd rfl h
    | transferStatus | controlDone => exact absurd rfl hh
    | clrFeature ep' => cases ep <;> cases ep' <;> first | rfl | exact absurd rfl h
    | rx type | rxReturn type => cases ep <;> cases type <;> first | rfl | exact absurd rfl h
    | _ => rfl

theorem neutral_urbState (ep ep' : Ep) (hcn : Nat) (urb : Urb) : Neutral ep (.urbState ep' hcn urb) :=
  ⟨by simp [Event.submits], fun _ => rfl⟩

theorem neutral_currentFrame (ep : Ep) (frame : Nat) : Neutral ep (.currentFrame frame) :=
  ⟨by simp [Event.submits], fun _ => rfl⟩

theorem neutral_txEnd (ep : Ep) (type : PacketType) : Neutral ep (.txEnd type) :=
  ⟨by simp [Event.submits], fun _ => rfl⟩

theorem neutral_clrFeature (ep ep' : Ep) (hcn : Nat) {st : UsbhStatus} (h : st ≠ .ok) :
    Neutral ep (.clrFeature ep' hcn st) := by
  refine ⟨by simp [Event.submits], fun l => ?_⟩
  simp [monitorStep, h]

theorem neutral_client {ep : Ep} {e : Event} (h : ByClient e) : Neutral ep e := by
  have he : e.owner = .client := h
  apply neutral_of_owner <;> rw [he]
  · cases ep <;> simp [Ep.owner]
  · simp

/-- All that one move of the world means for one endpoint. -/
inductive Turn (ep : Ep) (m : Move) (σ σ' : Sys) : Prop
  | rest (hp : phase ep σ'.bt = phase ep σ.bt) (ht : Extends (Neutral ep) σ.trace σ'.trace)
  | arm (hp : phase ep σ.bt = .resting) (hp' : phase ep σ'.bt = .ready)
      (ht : Extends (Neutral ep) σ.trace σ'.trace)
  | submit (e : Event) (past : Trace) (he : e.submits = some ep) (hp : phase ep σ.bt = .ready)
      (hp' : phase ep σ'.bt = .waiting) (ht : Extends (Neutral ep) σ.trace past)
      (ht' : σ'.trace = past ++ [e])
  | abandon (rd : EvtReadings) (hm : m = .driver (.evt rd)) (hd : due rd σ) (hev : ep = .evt)
      (hp : phase ep σ.bt = .waiting) (hp' : phase ep σ'.bt = .ready)
      (ht : Extends (Neutral ep) σ.trace σ'.trace)
  | deliver (type : PacketType) (past past' : Trace) (hr : Ep.receives ep = some type)
      (hu : (log ep σ).urb = .done) (hp : phase ep σ.bt = .waiting)
      (hp' : phase ep σ'.bt = .resting ∨ phase ep σ'.bt = .ready)
      (ht : Extends (Neutral ep) σ.trace past)
      (hx : Extends (Neutral ep) (past ++ [.rx type
        ((log ep σ).data.take (uint16 (log ep σ).data.length)) (uint16 (log ep σ).data.length)]) past')
      (ht' : σ'.trace = past' ++ [.rxReturn type])
  | sent (hr : Ep.receives ep = none) (hu : (log ep σ).urb = .done) (hp : phase ep σ.bt = .waiting)
      (hp' : phase ep σ'.bt = .resting) (ht : Extends (Neutral ep) σ.trace σ'.trace)
  | clear (hcn : Nat) (past : Trace) (hu : (log ep σ).urb = .stall) (hp : phase ep σ.bt = .waiting)
      (hp' : phase ep σ'.bt = .ready) (ht : Extends (Neutral ep) σ.trace past)
      (ht' : σ'.trace = past ++ [.clrFeature ep hcn .ok])
  | reported (urb : Urb) (data : List UInt8) (hm : m = .hardware ep urb data) (hc : InFlight σ ep data)
      (hp : phase ep σ'.bt = phase ep σ.bt) (ht : σ'.trace = σ.trace ++ [.transferStatus ep urb data])

theorem monitor_submit {ep : Ep} {e : Event} (he : e.submits = some ep) (l : Log) :
    monitorStep ep l e = l.submitted := by
  cases e with
  | interruptReceive | bulkSend | bulkReceive =>
      obtain rfl := Option.some.inj he
      rfl
  | _ => simp [Event.submits] at he

theorem monitor_extends {ep : Ep} {h h' : Trace} (hh : Extends (Neutral ep) h h') :
    (monitor ep).after h' = (monitor ep).after h :=
  hh.after_eq (monitor ep) (fun _ _ he => he.2 _)

theorem log_rest {ep : Ep} {σ σ' : Sys} (ht : Extends (Neutral ep) σ.trace σ'.trace) : log ep σ' = log ep σ :=
  monitor_extends ht

theorem log_concat {ep : Ep} {σ σ' : Sys} {past : Trace} {e : Event} (ht : Extends (Neutral ep) σ.trace past)
    (h : σ'.trace = past ++ [e]) : log ep σ' = monitorStep ep (log ep σ) e := by
  rw [log, h, Observer.after_concat, monitor_extends ht]
  rfl

def AtSubmit (ep : Ep) (Q : Log → Prop) (past : Trace) (e : Event) : Prop :=
  e.submits = some ep → Q ((monitor ep).after past)

theorem atSubmit_extends {ep : Ep} {Q : Log → Prop} {h h' : Trace} (hh : Extends (Neutral ep) h h')
    (hQ : AtEach (AtSubmit ep Q) h) : AtEach (AtSubmit ep Q) h' :=
  hh.atEach hQ (fun _ _ he hs => absurd hs he.1)

theorem atSubmit_concat {ep : Ep} {Q : Log → Prop} {h : Trace} (hQ : AtEach (AtSubmit ep Q) h) {e : Event}
    (he : e.submits = some ep → Q ((monitor ep).after h)) : AtEach (AtSubmit ep Q) (h ++ [e]) :=
  (atEach_concat _ _ _).mpr ⟨hQ, he⟩

theorem atSubmit_other {ep : Ep} {Q : Log → Prop} {h : Trace} (hQ : AtEach (AtSubmit ep Q) h) {e : Event}
    (he : e.submits = none) : AtEach (AtSubmit ep Q) (h ++ [e]) :=
  atSubmit_concat hQ (fun hs => by simp [he] at hs)

theorem log_deliver {ep : Ep} {σ σ' : Sys} {type : PacketType} {data : List UInt8} {size : Nat}
    {past past' : Trace} (hr : Ep.receives ep = some type) (ht : Extends (Neutral ep) σ.trace past)
    (hx : Extends (Neutral ep) (past ++ [.rx type data size]) past') (ht' : σ'.trace = past' ++ [.rxReturn type]) :
    log ep σ' = { log ep σ with
      delivered := (log ep σ).delivered ++ [(data, size)], returned := (log ep σ).returned + 1 } := by
  have hmid : (monitor ep).after past' = { log ep σ with delivered := (log ep σ).delivered ++ [(data, size)] } := by
    rw [monitor_extends hx, Observer.after_concat, monitor_extends ht]
    exact if_pos hr
  rw [log, ht', Observer.after_concat, hmid]
  exact if_pos hr

theorem log_clear {ep : Ep} {σ σ' : Sys} {past : Trace} {hcn : Nat} (ht : Extends (Neutral ep) σ.trace past)
    (ht' : σ'.trace = past ++ [.clrFeature ep hcn .ok]) : log ep σ' = { log ep σ with stalled := false } :=
  (log_concat ht ht').trans (if_pos ⟨rfl, rfl⟩)

theorem log_reported {ep : Ep} {σ σ' : Sys} {urb : Urb} {data : List UInt8}
    (ht : σ'.trace = σ.trace ++ [.transferStatus ep urb data]) : log ep σ' = (log ep σ).reported urb data :=
  (log_concat (.refl _ _) ht).trans (if_pos rfl)

theorem atSubmit_turn {ep : Ep} {m : Move} {σ σ' : Sys} (ht : Turn ep m σ σ') {Q : Log → Prop}
    (hQ : AtEach (AtSubmit ep Q) σ.trace) (hnow : phase ep σ.bt = .ready → Q (log ep σ)) :
    AtEach (AtSubmit ep Q) σ'.trace := by
  cases ht with
  | rest _ ht | arm _ _ ht | abandon _ _ _ _ _ _ ht | sent _ _ _ _ ht => exact atSubmit_extends ht hQ
  | submit e past he hp hp' ht ht' =>
      rw [ht']
      refine atSubmit_concat (atSubmit_extends ht hQ) (fun _ => ?_)
      rw [monitor_extends ht]
      exact hnow hp
  | deliver type past past' hr hu hp hp' ht hx ht' =>
      rw [ht']
      exact atSubmit_other (atSubmit_extends hx (atSubmit_other (atSubmit_extends ht hQ) rfl)) rfl
  | clear hcn past hu hp hp' ht ht' =>
      rw [ht']
      exact atSubmit_other (atSubmit_extends ht hQ) rfl
  | reported urb data hm hc hp ht =>
      rw [ht]
      exact atSubmit_other hQ rfl

variable {c : Client}

theorem rxHandler_trace (hc : Polite c) (ep : Ep) (type : PacketType) (packet : List UInt8) (len : Nat)
    (calls : List Call) (σ : Sys) :
    ∃ past', Extends (Neutral ep) (σ.trace ++ [.rx type (packet.take (uint16 len)) (uint16 len)]) past' ∧
      (callRxHandler c type packet len calls σ).trace = past' ++ [.rxReturn type] :=
  ⟨_, (hc.rxHandler _ _ _ _ _).events.mono (fun _ he => neutral_client he), rfl⟩

theorem evt_turn (hc : Polite c) (rd : EvtReadings) (σ : Sys) :
    Turn .evt (.driver (.evt rd)) σ (world c σ (.driver (.evt rd))) := by
  let rd' : EvtReadings := { rd with urb := (log .evt σ).urb, received := (log .evt σ).data }
  have hm := evt_moves c rd' σ
  change Turn .evt _ σ (usbBtEvtProcess c rd' σ).2
  generalize (usbBtEvtProcess c rd' σ).2 = σ' at hm ⊢
  have hf : Extends (Neutral .evt) σ.trace (σ.emit (.currentFrame rd.frame)).trace :=
    (Extends.refl _ _).concat (neutral_currentFrame _ _)
  have hr : Extends (Neutral .evt) σ.trace (evtRead rd' σ).trace := hf.concat (neutral_urbState _ _ _ _)
  cases hm with
  | submit h0 => exact .submit _ _ rfl (by simp [phase, evtPhase, h0]) rfl hf rfl
  | expire h1 hd => exact .abandon rd rfl hd rfl (by simp [phase, evtPhase, h1]) rfl hf
  | deliver h1 hd hu =>
      obtain ⟨past', hx, ht⟩ := rxHandler_trace hc .evt .hciEventPacket rd'.received rd'.received.length
        rd'.calls (evtRead rd' σ)
      exact .deliver .hciEventPacket _ past' rfl hu (by simp [phase, evtPhase, h1]) (.inl rfl) hr hx ht
  | clear h1 hd hu hk =>
      exact .clear σ.bt.evtHcn _ hu (by simp [phase, evtPhase, h1]) rfl hr (by rw [hk]; rfl)
  | stalled h1 hd hu hk => exact .rest rfl (hr.concat (neutral_clrFeature _ _ _ hk))
  | wait => exact .rest rfl hr
  | rearm h2 => exact .arm (by simp [phase, evtPhase, h2]) rfl hf
  | rest | lost => exact .rest rfl hf

theorem aclo_turn (hc : Polite c) (rd : AcloReadings) (σ : Sys) :
    Turn .aclo (.driver (.aclo rd)) σ (world c σ (.driver (.aclo rd))) := by
  let rd' : AcloReadings := { rd with urb := (log .aclo σ).urb }
  have hm := aclo_moves c none rd' σ
  change Turn .aclo _ σ (usbBtAcloProcess c none rd' σ).2
  generalize (usbBtAcloProcess c none rd' σ).2 = σ' at hm ⊢
  have hr : Extends (Neutral .aclo) σ.trace (acloRead rd' σ).trace :=
    (Extends.refl _ _).concat (neutral_urbState _ _ _ _)
  have hwait (hb : σ.bt.acloBusy ≠ 0) (h1 : σ.bt.acloState = 1) : phase .aclo σ.bt = .waiting := by
    simp [phase, aclPhase, hb, h1]
  have hready (bt : BtState) (hb : bt.acloBusy ≠ 0) (h0 : bt.acloState = 0) : phase .aclo bt = .ready := by
    simp [phase, aclPhase, hb, h0]
  cases hm with
  | idle | lost => exact .rest rfl (.refl _ _)
  | submit hb h0 =>
      refine .submit _ _ rfl (hready _ hb h0) ?_ (.refl _ _) rfl
      simp [phase, aclPhase, hb]
  | done hb h1 hu =>
      have he : Extends (Neutral .aclo) _ _ := (hc.txEndHandler .hciAclDataPacket rd'.calls
        ((acloRead rd' σ).emit (.txEnd .hciAclDataPacket))).events.mono (fun _ he => neutral_client he)
      exact .sent rfl hu (hwait hb h1) rfl ((hr.concat (neutral_txEnd _ _)).trans he)
  | clear hb h1 hu hk =>
      exact .clear σ.bt.acloHcn _ hu (hwait hb h1) (hready _ hb rfl) hr (by rw [hk]; rfl)
  | stalled hb h1 hu hk => exact .rest rfl (hr.concat (neutral_clrFeature _ _ _ hk))
  | wait => exact .rest rfl hr

theorem acli_turn (hc : Polite c) (rd : AcliReadings) (σ : Sys) :
    Turn .acli (.driver (.acli rd)) σ (world c σ (.driver (.acli rd))) := by
  let rd' : AcliReadings := { rd with urb := (log .acli σ).urb, received := (log .acli σ).data }
  have hm := acli_moves c rd' σ
  change Turn .acli _ σ (usbBtAcliProcess c rd' σ).2
  generalize (usbBtAcliProcess c rd' σ).2 = σ' at hm ⊢
  have hr : Extends (Neutral .acli) σ.trace (acliRead rd' σ).trace :=
    (Extends.refl _ _).concat (neutral_urbState _ _ _ _)
  cases hm with
  | submit h0 => exact .submit _ _ rfl (by simp [phase, aclPhase, h0]) rfl (.refl _ _) rfl
  | deliver h1 hu =>
      obtain ⟨past', hx, ht⟩ := rxHandler_trace hc .acli .hciAclDataPacket rd'.received rd'.received.length
        rd'.calls (acliRead rd' σ)
      exact .deliver .hciAclDataPacket _ past' rfl hu (by simp [phase, aclPhase, h1]) (.inr rfl) hr hx ht
  | clear h1 hu hk =>
      exact .clear σ.bt.acliHcn _ hu (by simp [phase, aclPhase, h1]) rfl hr (by rw [hk]; rfl)
  | stalled h1 hu hk => exact .rest rfl (hr.concat (neutral_clrFeature _ _ _ hk))
  | wait => exact .rest rfl hr
  | lost => exact .rest rfl (.refl _ _)

theorem works_neutral {o : Owner} {σ σ' : Sys} (h : Works o σ σ') {ep : Ep} (ho : o ≠ ep.owner)
    (hh : o ≠ .hardware) : Extends (Neutral ep) σ.trace σ'.trace := by
  refine h.events.mono fun e he => ?_
  rcases he with he | he
  · exact neutral_of_owner (he ▸ ho) (he ▸ hh)
  · exact neutral_client he

/-- The work of one machine leaves the endpoints of the others alone, apart
from a packet that its user may stage. -/
theorem works_phase {o : Owner} {σ σ' : Sys} (h : Works o σ σ') {ep : Ep} (ho : o ≠ ep.owner) :
    phase ep σ'.bt = phase ep σ.bt ∨ phase ep σ.bt = .resting ∧ phase ep σ'.bt = .ready := by
  cases ep with
  | evt => exact .inl (congrArg evtPhase (h.frame.evt ho).1)
  | acli => exact .inl (congrArg aclPhase (h.frame.acli ho))
  | aclo =>
      by_cases hb : σ.bt.acloBusy = 0
      · by_cases hb' : σ'.bt.acloBusy = 0
        · exact .inl (by simp [phase, hb, hb'])
        · have hs := (h.frame.acloStaged ho hb).resolve_left hb'
          exact .inr ⟨by simp [phase, hb], by simp [phase, aclPhase, hb', hs]⟩
      · have hs := h.frame.aclo ho hb
        exact .inl (by rw [phase, phase, hs.busy, hs.state])

theorem works_turn {o : Owner} {σ σ' : Sys} (h : Works o σ σ') {ep : Ep} (ho : o ≠ ep.owner)
    (hh : o ≠ .hardware) (m : Move) : Turn ep m σ σ' := by
  have ht := works_neutral h ho hh
  rcases works_phase h ho with hp | ⟨hp, hp'⟩
  · exact .rest hp ht
  · exact .arm hp hp' ht

theorem hardware_turn (ep ep' : Ep) (urb : Urb) (data : List UInt8) (σ : Sys) :
    Turn ep (.hardware ep' urb data) σ (world c σ (.hardware ep' urb data)) := by
  by_cases hk : InFlight σ ep' data
  · rw [world, if_pos hk]
    by_cases he : ep' = ep
    · subst he
      exact .reported urb data rfl hk rfl rfl
    · refine .rest rfl ((Extends.refl _ _).concat ⟨by simp [Event.submits], fun l => ?_⟩)
      simp [monitorStep, he]
  · rw [world, if_neg hk]
    exact .rest rfl (.refl _ _)

theorem world_turn (hc : Polite c) (ep : Ep) (σ : Sys) (m : Move) : Turn ep m σ (world c σ m) := by
  cases m with
  | hardware ep' urb data => exact hardware_turn ep ep' urb data σ
  | driver s =>
      cases s with
      | call x => exact works_turn (clientAct_works (hc.call σ x) .client) (by cases ep <;> simp [Ep.owner]) (by simp) _
      | cmd rd => exact works_turn (cmd_works hc rd σ) (by cases ep <;> simp [Ep.owner]) (by simp) _
      | evt rd =>
          cases ep with
          | evt => exact evt_turn hc rd σ
          | aclo | acli => exact works_turn (evt_works hc _ σ) (by simp [Ep.owner]) (by simp) _
      | aclo rd =>
          cases ep with
          | aclo => exact aclo_turn hc rd σ
          | evt | acli => exact works_turn (aclo_works hc none _ σ) (by simp [Ep.owner]) (by simp) _
      | acli rd =>
          cases ep with
          | acli => exact acli_turn hc rd σ
          | evt | aclo => exact works_turn (acli_works hc _ σ) (by simp [Ep.owner]) (by simp) _

def fresh (bt : BtState) (txBusy : Int) : Sys := ⟨bt, txBusy, []⟩

/-- A machine keeps at a transfer until it has seen an outcome of one kind:
the deadline does not fire over it, and the hardware does not come to it
after the deadline has fired. -/
def Keeps (o : Urb) (ep : Ep) (σ : Sys) : Move → Prop
  | .driver (.evt rd) => ep = .evt → phase .evt σ.bt = .waiting → (log .evt σ).urb = o → ¬due rd σ
  | .hardware ep' urb _ => ep' = ep → urb = o → (log ep σ).live = true → phase ep σ.bt = .waiting
  | _ => True

instance (o : Urb) (ep : Ep) (σ : Sys) : ∀ m, Decidable (Keeps o ep σ m)
  | .driver (.evt _) => inferInstanceAs (Decidable (_ → _ → _ → ¬_))
  | .hardware _ _ _ => inferInstanceAs (Decidable (_ → _ → _ → _))
  | .driver (.call _) | .driver (.cmd _) | .driver (.aclo _) | .driver (.acli _) => inferInstanceAs (Decidable True)

/-- No transfer on the endpoint is given up: one that is in flight is waited
for. -/
def Waits (ep : Ep) (σ : Sys) : Prop :=
  (log ep σ).live = true → phase ep σ.bt = .waiting ∧ (log ep σ).urb.final = false

variable {ep : Ep} {m : Move} {σ σ' : Sys}

theorem Waits.not_live (h : Waits ep σ) (hn : phase ep σ.bt ≠ .waiting ∨ (log ep σ).urb.final = true) :
    (log ep σ).live = false := by
  by_contra hl
  obtain ⟨hp, hu⟩ := h (by simpa using hl)
  rcases hn with hn | hn
  · exact hn hp
  · rw [hu] at hn
    contradiction

theorem waits_fresh (ep : Ep) (bt : BtState) (txBusy : Int) : Waits ep (fresh bt txBusy) := by
  intro h
  simp [log, fresh, monitor] at h

theorem waits_of_not_live (h : (log ep σ).live = false) : Waits ep σ := by
  intro hl
  rw [h] at hl
  contradiction

theorem waits_turn (h : Waits ep σ) (ht : Turn ep m σ σ') (hep : ep ≠ .evt) : Waits ep σ' := by
  cases ht with
  | rest hp ht =>
      rw [Waits, log_rest ht, hp]
      exact h
  | arm hp hp' ht =>
      apply waits_of_not_live
      rw [log_rest ht]
      exact h.not_live (.inl (hp.trans_ne (by decide)))
  | submit e past he hp hp' ht ht' =>
      rw [Waits, log_concat ht ht', monitor_submit he]
      exact fun _ => ⟨hp', rfl⟩
  | abandon rd hm hd hev => exact absurd hev hep
  | deliver type past past' hr hu hp hp' ht hx ht' =>
      apply waits_of_not_live
      rw [log_deliver hr ht hx ht']
      exact h.not_live (.inr (congrArg Urb.final hu))
  | sent hr hu hp hp' ht =>
      apply waits_of_not_live
      rw [log_rest ht]
      exact h.not_live (.inr (congrArg Urb.final hu))
  | clear hcn past hu hp hp' ht ht' =>
      apply waits_of_not_live
      rw [log_clear ht ht']
      exact h.not_live (.inr (congrArg Urb.final hu))
  | reported urb data hm hc hp ht =>
      rw [Waits, log_reported ht, hp]
      exact fun hl => ⟨(h hc.1).1, by simpa [Log.reported] using hl⟩

theorem Waits.keeps (h : Waits ep σ) (hep : ep ≠ .evt) (o : Urb) (m : Move) : Keeps o ep σ m := by
  cases m with
  | hardware ep' urb data => exact fun _ _ hl => (h hl).1
  | driver s =>
      cases s with
      | evt rd => exact fun he => absurd he hep
      | call | cmd | aclo | acli => trivial

def pollSeen (c : Client) (rd : PollReadings) (σ : Sys) : PollReadings :=
  let σ₁ := (usbBtCmdProcess c rd.cmd σ).2
  let evt := { rd.evt with urb := (log .evt σ₁).urb, received := (log .evt σ₁).data }
  let σ₂ := (usbBtEvtProcess c evt σ₁).2
  let aclo := { rd.aclo with urb := (log .aclo σ₂).urb }
  let σ₃ := (usbBtAcloProcess c none aclo σ₂).2
  { rd with
    evt := evt, aclo := aclo
    acli := { rd.acli with urb := (log .acli σ₃).urb, received := (log .acli σ₃).data } }

def pollMoves (rd : PollReadings) : List Move := (pollSteps rd).map .driver

/-- A call of USBH_BT_StMachine is four moves of the world, and the hardware
may come in between. -/
theorem world_poll (b : Build) (c : Client) (rd : PollReadings) {σ : Sys} (h : σ.bt.loadingFw = 0) :
    (usbhBtStMachine b c (pollSeen c rd σ) σ).sys = run (world c) σ (pollMoves rd) := by
  rw [usbhBtStMachine_normal b c _ σ h]
  rfl

end Uubt.Channels
