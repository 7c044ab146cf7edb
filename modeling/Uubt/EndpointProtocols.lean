import Uubt.Conformance
import Uubt.Separation

namespace Uubt.EndpointProtocols

open ByteBuffer History HostLibrary Driver Transport Endpoints Clients ClassDriver Moves Frames Sessions Runs
  Conformance Separation

/-- The control pipe. Every command is announced by a setup packet with its
length, and the request is repeated with the same bytes until it is answered. -/
inductive Control
  | free
  | announced (len : Nat)
  | standing (data : List UInt8)
  | ended

def Control.answer (data : List UInt8) : UsbhStatus → Control
  | .ok => .ended
  | .fail => .free
  | .busy | .notSupported => .standing data

def Control.next : Control → Event → Option Control
  | .free, .setSetup setup => if setup = cmdSetup setup.wLength then some (.announced setup.wLength) else none
  | .announced n, .ctlReq data len st => if len = n ∧ data.length = len then some (answer data st) else none
  | .standing data, .ctlReq again len st =>
      if again = data ∧ data.length = len then some (answer data st) else none
  | .ended, .txEnd _ => some .free
  | _, _ => none

/-- The interrupt pipe. A request may be made again from its deadline on; up
to then the channel is looked at once for each frame number that is read. -/
inductive InterruptIn
  | ready
  | asking (frame : Nat)
  | requested (tmo : Nat)
  | looking (tmo : Nat)
  | arrived (tmo : Nat)
  | passing (tmo : Nat)
  | stalled (tmo : Nat)
  | resting (tmo : Nat)

def Over (frame tmo : Nat) : Prop := fnDiff (uint16 frame) tmo < frnumPeriod / 2

instance (frame tmo : Nat) : Decidable (Over frame tmo) :=
  inferInstanceAs (Decidable (fnDiff (uint16 frame) tmo < frnumPeriod / 2))

def InterruptIn.next (hcn : Nat) : InterruptIn → Event → Option InterruptIn
  | .ready, .currentFrame frame => some (.asking frame)
  | .asking frame, .interruptReceive len n =>
      if len = evtAlignedMaxSize ∧ n = hcn then some (.requested ((2 + uint16 frame) % frnumPeriod)) else none
  | .requested tmo, .currentFrame frame => some (if Over frame tmo then .ready else .looking tmo)
  | .looking tmo, .urbState _ n urb =>
      if n = hcn then
        some (match urb with
          | .done => .arrived tmo
          | .stall => .stalled tmo
          | _ => .requested tmo)
      else none
  | .arrived tmo, .rx _ _ _ => some (.passing tmo)
  | .passing tmo, .rxReturn _ => some (.resting tmo)
  | .resting tmo, .currentFrame frame => some (if Over frame tmo then .ready else .resting tmo)
  | .stalled tmo, .clrFeature _ n st =>
      if n = hcn then some (if st = .ok then .ready else .requested tmo) else none
  | _, _ => none

/-- The bulk pipe out. One packet is under way at a time, and goes out again
as it was behind a stall that has been cleared. -/
inductive BulkOut
  | free
  | sent (data : List UInt8)
  | stalled (data : List UInt8)
  | retry (data : List UInt8)
  | ended

def BulkOut.next (hcn : Nat) : BulkOut → Event → Option BulkOut
  | .free, .bulkSend data len n => if data.length = len ∧ n = hcn then some (.sent data) else none
  | .retry data, .bulkSend again len n =>
      if again = data ∧ data.length = len ∧ n = hcn then some (.sent data) else none
  | .sent data, .urbState _ n urb =>
      if n = hcn then
        some (match urb with
          | .done => .ended
          | .stall => .stalled data
          | _ => .sent data)
      else none
  | .stalled data, .clrFeature _ n st =>
      if n = hcn then some (if st = .ok then .retry data else .sent data) else none
  | .ended, .txEnd _ => some .free
  | _, _ => none

inductive BulkIn
  | ready
  | requested
  | arrived
  | passing
  | stalled

def BulkIn.next (hcn : Nat) : BulkIn → Event → Option BulkIn
  | .ready, .bulkReceive len n => if len = aclAlignedMaxSize ∧ n = hcn then some .requested else none
  | .requested, .urbState _ n urb =>
      if n = hcn then
        some (match urb with
          | .done => .arrived
          | .stall => .stalled
          | _ => .requested)
      else none
  | .arrived, .rx _ _ _ => some .passing
  | .passing, .rxReturn _ => some .ready
  | .stalled, .clrFeature _ n st => if n = hcn then some (if st = .ok then .ready else .requested) else none
  | _, _ => none

def control : Protocol Event Control := ⟨.free, Control.next⟩
def interruptIn (hcn : Nat) : Protocol Event InterruptIn := ⟨.ready, InterruptIn.next hcn⟩
def bulkOut (hcn : Nat) : Protocol Event BulkOut := ⟨.free, BulkOut.next hcn⟩
def bulkIn (hcn : Nat) : Protocol Event BulkIn := ⟨.ready, BulkIn.next hcn⟩

def ControlAt (bt : BtState) : Control → Prop
  | .free => bt.cmdBusy = 0 ∨ bt.cmdState = 0
  | .standing data => bt.cmdBusy ≠ 0 ∧ bt.cmdState ≠ 0 ∧ data = bt.cmdPacket.read bt.cmdLen
  | _ => False

def InterruptInAt (bt : BtState) : InterruptIn → Prop
  | .ready => bt.evtState = 0
  | .requested tmo => bt.evtState = 1 ∧ tmo = bt.evtTmo
  | .resting tmo => bt.evtState = 2 ∧ tmo = bt.evtTmo
  | _ => False

def BulkOutAt (bt : BtState) : BulkOut → Prop
  | .free => bt.acloBusy = 0 ∨ bt.acloState = 0
  | .sent data => bt.acloBusy ≠ 0 ∧ bt.acloState = 1 ∧ data = bt.acloPacket.read bt.acloLen
  | .retry data => bt.acloBusy ≠ 0 ∧ bt.acloState = 0 ∧ data = bt.acloPacket.read bt.acloLen
  | _ => False

def BulkInAt (bt : BtState) : BulkIn → Prop
  | .ready => bt.acliState = 0
  | .requested => bt.acliState = 1
  | _ => False

structure Fits (bt : BtState) : Prop where
  cmd : bt.cmdBusy ≠ 0 → bt.cmdLen ≤ cmdAlignedMaxSize
  aclo : bt.acloBusy ≠ 0 → bt.acloLen ≤ aclAlignedMaxSize

def Keeps {τ : Type} (p : Protocol Event τ) (o : Owner) (A : BtState → τ → Prop) (σ : Sys) : Prop :=
  ∃ s, p.Reaches (view o σ.trace) s ∧ A σ.bt s

/-- A wireless session as its four machines have led it so far. -/
structure Talks (ch : Channels) (σ : Sys) : Prop where
  fits : Fits σ.bt
  evtHcn : σ.bt.evtHcn = ch.evt
  acloHcn : σ.bt.acloHcn = ch.aclo
  acliHcn : σ.bt.acliHcn = ch.acli
  control : Keeps control .cmd ControlAt σ
  interruptIn : Keeps (interruptIn ch.evt) .evt InterruptInAt σ
  bulkOut : Keeps (bulkOut ch.aclo) .aclo BulkOutAt σ
  bulkIn : Keeps (bulkIn ch.acli) .acli BulkInAt σ

variable {c : Client} {ch : Channels} {o o' : Owner} {σ σ' : Sys} {bt bt' : BtState} {τ : Type} {p : Protocol Event τ}
  {A : BtState → τ → Prop} {s s' : τ}

theorem view_emit {e : Event} (he : e.owner = o) (σ : Sys) : view o (σ.emit e).trace = view o σ.trace ++ [e] := by
  simp [view, he]

theorem reaches_emit (h : p.Reaches (view o σ.trace) s) {e : Event} (he : e.owner = o) (hs : p.next s e = some s') :
    p.Reaches (view o (σ.emit e).trace) s' := by
  rw [view_emit he]
  exact h.concat hs

theorem reaches_rx (hc : Polite c) (h : p.Reaches (view o σ.trace) s) {type : PacketType}
    (ht : (Event.rxReturn type).owner = o) (ho : o ≠ .client) {packet : List UInt8} {len : Nat} (calls : List Call)
    {t : τ} (hrx : p.next s (.rx type (packet.take (uint16 len)) (uint16 len)) = some t)
    (hret : p.next t (.rxReturn type) = some s') :
    p.Reaches (view o (callRxHandler c type packet len calls σ).trace) s' := by
  have hr := reaches_emit h (show (Event.rx type (packet.take (uint16 len)) (uint16 len)).owner = o from ht) hrx
  rw [← view_client ho (hc.rxHandler type (packet.take (uint16 len)) (uint16 len) calls _).events] at hr
  exact reaches_emit hr ht hret

theorem reaches_txEnd (hc : Polite c) (h : p.Reaches (view o σ.trace) s) {type : PacketType}
    (ht : (Event.txEnd type).owner = o) (ho : o ≠ .client) (calls : List Call)
    (hs : p.next s (.txEnd type) = some s') : p.Reaches (view o (callTxEndHandler c type calls σ).trace) s' := by
  have hr := reaches_emit h ht hs
  rwa [← view_client ho (hc.txEndHandler type calls (σ.emit (.txEnd type))).events] at hr

theorem Keeps.elsewhere (h : Keeps p o A σ) (hw : Works o' σ σ') (ho : o' ≠ o) (hcl : o ≠ .client)
    (hA : ∀ t, A σ.bt t → A σ'.bt t) : Keeps p o A σ' := by
  obtain ⟨t, ht, ha⟩ := h
  refine ⟨t, ?_, hA t ha⟩
  rwa [works_view hw ho hcl]

theorem controlAt_frame (hf : Frame o bt bt') (ho : o ≠ .cmd) (t : Control) (h : ControlAt bt t) : ControlAt bt' t := by
  cases t with
  | free =>
      by_cases hb : bt.cmdBusy = 0
      · exact hf.cmdStaged ho hb
      · exact .inr ((hf.cmd ho hb).state.trans (h.resolve_left hb))
  | standing data =>
      obtain ⟨hb, hst, hd⟩ := h
      have hs := hf.cmd ho hb
      exact ⟨hs.busy ▸ hb, hs.state ▸ hst, by rw [hs.packet, hs.len, hd]⟩
  | announced | ended => exact h

theorem interruptInAt_frame (hf : Frame o bt bt') (ho : o ≠ .evt) (t : InterruptIn) (h : InterruptInAt bt t) :
    InterruptInAt bt' t := by
  obtain ⟨hs, ht⟩ := hf.evt ho
  cases t with
  | ready => exact hs.trans h
  | requested | resting => exact ⟨hs.trans h.1, h.2.trans ht.symm⟩
  | asking | looking | arrived | passing | stalled => exact h

theorem bulkOutAt_frame (hf : Frame o bt bt') (ho : o ≠ .aclo) (t : BulkOut) (h : BulkOutAt bt t) :
    BulkOutAt bt' t := by
  cases t with
  | free =>
      by_cases hb : bt.acloBusy = 0
      · exact hf.acloStaged ho hb
      · exact .inr ((hf.aclo ho hb).state.trans (h.resolve_left hb))
  | sent | retry =>
      obtain ⟨hb, hst, hd⟩ := h
      have hs := hf.aclo ho hb
      exact ⟨hs.busy ▸ hb, hs.state.trans hst, by rw [hs.packet, hs.len, hd]⟩
  | stalled | ended => exact h

theorem bulkInAt_frame (hf : Frame o bt bt') (ho : o ≠ .acli) (t : BulkIn) (h : BulkInAt bt t) : BulkInAt bt' t := by
  have hs := hf.acli ho
  cases t with
  | ready | requested => exact hs.trans h
  | arrived | passing | stalled => exact h

theorem act_fits (h : Fits bt) (hr : TxReach bt bt') : Fits bt' :=
  hr.preserves h (fun _ _ _ hb _ hs => ⟨fun _ => hs, hb.aclo⟩) (fun _ _ _ hb _ hs => ⟨hb.cmd, fun _ => hs⟩)

theorem rxHandler_fits (hc : Polite c) (h : Fits σ.bt) (type : PacketType) (packet : List UInt8) (len : Nat)
    (calls : List Call) : Fits (callRxHandler c type packet len calls σ).bt :=
  act_fits h (hc.rxHandler _ _ _ _ (σ.emit (.rx type (packet.take (uint16 len)) (uint16 len)))).reach

theorem txEndHandler_fits (hc : Polite c) (h : Fits σ.bt) (type : PacketType) (calls : List Call) :
    Fits (callTxEndHandler c type calls σ).bt :=
  act_fits h (hc.txEndHandler _ _ (σ.emit (.txEnd type))).reach

theorem cmdRequest_fits (h : Fits σ.bt) (st : UsbhStatus) : Fits (cmdRequest st σ).bt := by
  obtain ⟨cmdState, hbt⟩ := cmdStart_bt σ
  rw [cmdRequest, emit_bt, hbt]
  exact ⟨h.cmd, h.aclo⟩

theorem step_fits (hc : Polite c) (h : Fits σ.bt) (s : Step) : Fits (step c σ s).bt := by
  cases s with
  | call x => exact act_fits h (hc.call σ x).reach
  | cmd rd =>
      have hm := cmd_moves c rd σ
      rw [step]
      generalize (usbBtCmdProcess c rd σ).2 = σ' at hm ⊢
      cases hm with
      | idle => exact h
      | sent => exact ⟨fun hb => absurd rfl hb, (txEndHandler_fits hc (cmdRequest_fits h .ok) _ _).aclo⟩
      | failed => exact ⟨fun hb => absurd rfl hb, (cmdRequest_fits h .fail).aclo⟩
      | waiting => exact cmdRequest_fits h rd.st
  | evt rd =>
      have hm := evt_moves c rd σ
      rw [step]
      generalize (usbBtEvtProcess c rd σ).2 = σ' at hm ⊢
      cases hm with
      | deliver =>
          have hr := rxHandler_fits (σ := evtRead rd σ) hc h .hciEventPacket rd.received rd.received.length rd.calls
          exact ⟨hr.cmd, hr.aclo⟩
      | submit | expire | clear | stalled | wait | rearm | rest | lost => exact ⟨h.cmd, h.aclo⟩
  | aclo rd =>
      have hm := aclo_moves c none rd σ
      rw [step]
      generalize (usbBtAcloProcess c none rd σ).2 = σ' at hm ⊢
      cases hm with
      | done =>
          have hr := txEndHandler_fits (σ := acloRead rd σ) hc h .hciAclDataPacket rd.calls
          exact ⟨hr.cmd, fun hb => absurd rfl hb⟩
      | idle | submit | clear | stalled | wait | lost => exact ⟨h.cmd, h.aclo⟩
  | acli rd =>
      have hm := acli_moves c rd σ
      rw [step]
      generalize (usbBtAcliProcess c rd σ).2 = σ' at hm ⊢
      cases hm with
      | deliver =>
          have hr := rxHandler_fits (σ := acliRead rd σ) hc h .hciAclDataPacket rd.received rd.received.length rd.calls
          exact ⟨hr.cmd, hr.aclo⟩
      | submit | clear | stalled | wait | lost => exact ⟨h.cmd, h.aclo⟩

theorem request_keeps (h : Keeps control .cmd ControlAt σ) (hfit : Fits σ.bt) (hb : σ.bt.cmdBusy ≠ 0)
    (st : UsbhStatus) :
    control.Reaches (view .cmd (cmdRequest st σ).trace) (.answer (σ.bt.cmdPacket.read σ.bt.cmdLen) st) := by
  obtain ⟨t, ht, ha⟩ := h
  have hlen : (σ.bt.cmdPacket.read σ.bt.cmdLen).length = σ.bt.cmdLen := by
    rw [Buffer.length_read, Nat.min_eq_left (hfit.cmd hb)]
  by_cases h0 : σ.bt.cmdState = 0
  · have hfree : t = .free := by
      cases t with
      | free => rfl
      | standing data => exact absurd h0 ha.2.1
      | announced | ended => exact ha.elim
    subst hfree
    have hset : control.Reaches (view .cmd (σ.emit (.setSetup (cmdSetup σ.bt.cmdLen))).trace)
        (.announced σ.bt.cmdLen) := reaches_emit ht rfl (if_pos rfl)
    rw [cmdRequest, cmdStart, if_pos h0]
    exact reaches_emit (σ := (σ.emit (.setSetup (cmdSetup σ.bt.cmdLen))).write ({ · with cmdState := 1 })) hset rfl
      (if_pos (And.intro rfl hlen))
  · rw [cmdRequest, cmdStart, if_neg h0]
    refine reaches_emit ht rfl ?_
    cases t with
    | free => exact absurd (ha.resolve_left hb) h0
    | standing data =>
        obtain rfl := ha.2.2
        exact if_pos (And.intro rfl hlen)
    | announced | ended => exact ha.elim

theorem cmd_keeps (hc : Polite c) (h : Keeps control .cmd ControlAt σ) (hfit : Fits σ.bt) (rd : CmdReadings) :
    Keeps control .cmd ControlAt (usbBtCmdProcess c rd σ).2 := by
  have hm := cmd_moves c rd σ
  generalize (usbBtCmdProcess c rd σ).2 = σ' at hm ⊢
  cases hm with
  | idle => exact h
  | sent hb => exact ⟨.free, reaches_txEnd hc (request_keeps h hfit hb .ok) rfl (by decide) rd.calls rfl, .inl rfl⟩
  | failed hb => exact ⟨.free, request_keeps h hfit hb .fail, .inl rfl⟩
  | waiting hb ho hf =>
      have hr := request_keeps h hfit hb rd.st
      have hstand : Control.answer (σ.bt.cmdPacket.read σ.bt.cmdLen) rd.st =
          .standing (σ.bt.cmdPacket.read σ.bt.cmdLen) := by
        cases hst : rd.st with
        | ok => exact absurd hst ho
        | fail => exact absurd hst hf
        | busy | notSupported => rfl
      rw [hstand] at hr
      refine ⟨_, hr, ?_⟩
      rw [cmdRequest, cmdStart]
      split
      · exact ⟨hb, show ¬(1 : Int) = 0 by decide, rfl⟩
      · rename_i h0
        exact ⟨hb, h0, rfl⟩

theorem InterruptInAt.ready {t : InterruptIn} (h : InterruptInAt bt t) (h0 : bt.evtState = 0) : t = .ready := by
  cases t with
  | ready => rfl
  | requested | resting => exact absurd (h0.symm.trans h.1) (by decide)
  | asking | looking | arrived | passing | stalled => exact h.elim

theorem InterruptInAt.requested {t : InterruptIn} (h : InterruptInAt bt t) (h1 : bt.evtState = 1) :
    t = .requested bt.evtTmo := by
  cases t with
  | requested => rw [h.2]
  | ready => exact absurd (h1.symm.trans h) (by decide)
  | resting => exact absurd (h1.symm.trans h.1) (by decide)
  | asking | looking | arrived | passing | stalled => exact h.elim

theorem InterruptInAt.resting {t : InterruptIn} (h : InterruptInAt bt t) (h2 : bt.evtState = 2) :
    t = .resting bt.evtTmo := by
  cases t with
  | resting => rw [h.2]
  | ready => exact absurd (h2.symm.trans h) (by decide)
  | requested => exact absurd (h2.symm.trans h.1) (by decide)
  | asking | looking | arrived | passing | stalled => exact h.elim

theorem evtRead_reaches (h : (interruptIn σ.bt.evtHcn).Reaches (view .evt σ.trace) (.requested σ.bt.evtTmo))
    {rd : EvtReadings} (hd : ¬due rd σ) : (interruptIn σ.bt.evtHcn).Reaches (view .evt (evtRead rd σ).trace)
      (match rd.urb with
        | .done => .arrived σ.bt.evtTmo
        | .stall => .stalled σ.bt.evtTmo
        | _ => .requested σ.bt.evtTmo) := by
  have hf : (interruptIn σ.bt.evtHcn).Reaches (view .evt (σ.emit (.currentFrame rd.frame)).trace)
      (.looking σ.bt.evtTmo) := by
    refine reaches_emit h rfl ?_
    exact congrArg some (if_neg (show ¬Over rd.frame σ.bt.evtTmo from hd))
  exact reaches_emit hf rfl (if_pos rfl)

theorem evt_keeps (hc : Polite c) {hcn : Nat} (hn : σ.bt.evtHcn = hcn)
    (h : Keeps (interruptIn hcn) .evt InterruptInAt σ) (rd : EvtReadings) :
    Keeps (interruptIn hcn) .evt InterruptInAt (usbBtEvtProcess c rd σ).2 := by
  subst hn
  obtain ⟨t, ht, ha⟩ := h
  have hm := evt_moves c rd σ
  generalize (usbBtEvtProcess c rd σ).2 = σ' at hm ⊢
  cases hm with
  | submit h0 =>
      obtain rfl := ha.ready h0
      have hf : (interruptIn σ.bt.evtHcn).Reaches (view .evt (σ.emit (.currentFrame rd.frame)).trace)
          (.asking rd.frame) := reaches_emit ht rfl rfl
      exact ⟨_, reaches_emit hf rfl (if_pos ⟨rfl, rfl⟩), rfl, rfl⟩
  | expire h1 hd =>
      obtain rfl := ha.requested h1
      refine ⟨.ready, reaches_emit ht rfl ?_, rfl⟩
      exact congrArg some (if_pos (show Over rd.frame σ.bt.evtTmo from hd))
  | deliver h1 hd hu =>
      obtain rfl := ha.requested h1
      have hr := evtRead_reaches ht hd
      rw [hu] at hr
      have hsame := rxHandler_same hc .hciEventPacket rd.received rd.received.length rd.calls (evtRead rd σ)
      exact ⟨.resting σ.bt.evtTmo, reaches_rx hc hr rfl (by decide) rd.calls rfl rfl, rfl, hsame.evtTmo.symm⟩
  | clear h1 hd hu hk =>
      obtain rfl := ha.requested h1
      have hr := evtRead_reaches ht hd
      rw [hu] at hr
      exact ⟨.ready, reaches_emit hr rfl (by rw [hk]; exact if_pos rfl), rfl⟩
  | stalled h1 hd hu hk =>
      obtain rfl := ha.requested h1
      have hr := evtRead_reaches ht hd
      rw [hu] at hr
      refine ⟨.requested σ.bt.evtTmo, reaches_emit hr rfl ?_, h1, rfl⟩
      exact (if_pos rfl).trans (congrArg some (if_neg hk))
  | wait h1 hd hnd hns =>
      obtain rfl := ha.requested h1
      have hr := evtRead_reaches ht hd
      refine ⟨.requested σ.bt.evtTmo, ?_, h1, rfl⟩
      cases hu : rd.urb with
      | done => exact absurd hu hnd
      | stall => exact absurd hu hns
      | idle | notReady | error => rwa [hu] at hr
  | rearm h2 hd =>
      obtain rfl := ha.resting h2
      refine ⟨.ready, reaches_emit ht rfl ?_, rfl⟩
      exact congrArg some (if_pos (show Over rd.frame σ.bt.evtTmo from hd))
  | rest h2 hd =>
      obtain rfl := ha.resting h2
      refine ⟨.resting σ.bt.evtTmo, reaches_emit ht rfl ?_, h2, rfl⟩
      exact congrArg some (if_neg (show ¬Over rd.frame σ.bt.evtTmo from hd))
  | lost h0 h1 h2 =>
      cases t with
      | ready => exact absurd ha h0
      | requested => exact absurd ha.1 h1
      | resting => exact absurd ha.1 h2
      | asking | looking | arrived | passing | stalled => exact ha.elim

theorem BulkOutAt.sent {t : BulkOut} (h : BulkOutAt bt t) (hb : bt.acloBusy ≠ 0) (h1 : bt.acloState = 1) :
    t = .sent (bt.acloPacket.read bt.acloLen) := by
  cases t with
  | sent data => rw [h.2.2]
  | free => exact absurd (h1.symm.trans (h.resolve_left hb)) (by decide)
  | retry data => exact absurd (h1.symm.trans h.2.1) (by decide)
  | stalled | ended => exact h.elim

theorem acloRead_reaches {data : List UInt8} (h : (bulkOut σ.bt.acloHcn).Reaches (view .aclo σ.trace) (.sent data))
    (rd : AcloReadings) : (bulkOut σ.bt.acloHcn).Reaches (view .aclo (acloRead rd σ).trace)
      (match rd.urb with
        | .done => .ended
        | .stall => .stalled data
        | _ => .sent data) :=
  reaches_emit h rfl (if_pos rfl)

theorem aclo_keeps (hc : Polite c) {hcn : Nat} (hn : σ.bt.acloHcn = hcn)
    (h : Keeps (bulkOut hcn) .aclo BulkOutAt σ) (hfit : Fits σ.bt) (rd : AcloReadings) :
    Keeps (bulkOut hcn) .aclo BulkOutAt (usbBtAcloProcess c none rd σ).2 := by
  subst hn
  obtain ⟨t, ht, ha⟩ := h
  have hm := aclo_moves c none rd σ
  generalize (usbBtAcloProcess c none rd σ).2 = σ' at hm ⊢
  cases hm with
  | idle => exact ⟨t, ht, ha⟩
  | submit hb h0 =>
      have hlen : (σ.bt.acloPacket.read σ.bt.acloLen).length = σ.bt.acloLen := by
        rw [Buffer.length_read, Nat.min_eq_left (hfit.aclo hb)]
      refine ⟨.sent (σ.bt.acloPacket.read σ.bt.acloLen), reaches_emit ht rfl ?_, hb, rfl, rfl⟩
      cases t with
      | free => exact if_pos ⟨hlen, rfl⟩
      | retry data =>
          obtain rfl := ha.2.2
          exact if_pos ⟨rfl, hlen, rfl⟩
      | sent data => exact absurd (h0.symm.trans ha.2.1) (by decide)
      | stalled | ended => exact ha.elim
  | done hb h1 hu =>
      obtain rfl := ha.sent hb h1
      have hr := acloRead_reaches ht rd
      rw [hu] at hr
      exact ⟨.free, reaches_txEnd hc hr rfl (by decide) rd.calls rfl, .inl rfl⟩
  | clear hb h1 hu hk =>
      obtain rfl := ha.sent hb h1
      have hr := acloRead_reaches ht rd
      rw [hu] at hr
      refine ⟨.retry (σ.bt.acloPacket.read σ.bt.acloLen), reaches_emit hr rfl ?_, hb, rfl, rfl⟩
      exact (if_pos rfl).trans (congrArg some (if_pos hk))
  | stalled hb h1 hu hk =>
      obtain rfl := ha.sent hb h1
      have hr := acloRead_reaches ht rd
      rw [hu] at hr
      refine ⟨.sent (σ.bt.acloPacket.read σ.bt.acloLen), reaches_emit hr rfl ?_, hb, h1, rfl⟩
      exact (if_pos rfl).trans (congrArg some (if_neg hk))
  | wait hb h1 hnd hns =>
      obtain rfl := ha.sent hb h1
      have hr := acloRead_reaches ht rd
      refine ⟨.sent (σ.bt.acloPacket.read σ.bt.acloLen), ?_, hb, h1, rfl⟩
      cases hu : rd.urb with
      | done => exact absurd hu hnd
      | stall => exact absurd hu hns
      | idle | notReady | error => rwa [hu] at hr
  | lost => exact ⟨t, ht, ha⟩

theorem BulkInAt.requested {t : BulkIn} (h : BulkInAt bt t) (h1 : bt.acliState = 1) : t = .requested := by
  cases t with
  | requested => rfl
  | ready => exact absurd (h1.symm.trans h) (by decide)
  | arrived | passing | stalled => exact h.elim

theorem acliRead_reaches (h : (bulkIn σ.bt.acliHcn).Reaches (view .acli σ.trace) .requested) (rd : AcliReadings) :
    (bulkIn σ.bt.acliHcn).Reaches (view .acli (acliRead rd σ).trace)
      (match rd.urb with
        | .done => .arrived
        | .stall => .stalled
        | _ => .requested) :=
  reaches_emit h rfl (if_pos rfl)

theorem acli_keeps (hc : Polite c) {hcn : Nat} (hn : σ.bt.acliHcn = hcn)
    (h : Keeps (bulkIn hcn) .acli BulkInAt σ) (rd : AcliReadings) :
    Keeps (bulkIn hcn) .acli BulkInAt (usbBtAcliProcess c rd σ).2 := by
  subst hn
  obtain ⟨t, ht, ha⟩ := h
  have hm := acli_moves c rd σ
  generalize (usbBtAcliProcess c rd σ).2 = σ' at hm ⊢
  cases hm with
  | submit h0 =>
      refine ⟨.requested, reaches_emit ht rfl ?_, rfl⟩
      cases t with
      | ready => exact if_pos ⟨rfl, rfl⟩
      | requested => exact absurd (h0.symm.trans ha) (by decide)
      | arrived | passing | stalled => exact ha.elim
  | deliver h1 hu =>
      obtain rfl := ha.requested h1
      have hr := acliRead_reaches ht rd
      rw [hu] at hr
      exact ⟨.ready, reaches_rx hc hr rfl (by decide) rd.calls rfl rfl, rfl⟩
  | clear h1 hu hk =>
      obtain rfl := ha.requested h1
      have hr := acliRead_reaches ht rd
      rw [hu] at hr
      refine ⟨.ready, reaches_emit hr rfl ?_, rfl⟩
      exact (if_pos rfl).trans (congrArg some (if_pos hk))
  | stalled h1 hu hk =>
      obtain rfl := ha.requested h1
      have hr := acliRead_reaches ht rd
      rw [hu] at hr
      refine ⟨.requested, reaches_emit hr rfl ?_, h1⟩
      exact (if_pos rfl).trans (congrArg some (if_neg hk))
  | wait h1 hnd hns =>
      obtain rfl := ha.requested h1
      have hr := acliRead_reaches ht rd
      refine ⟨.requested, ?_, h1⟩
      cases hu : rd.urb with
      | done => exact absurd hu hnd
      | stall => exact absurd hu hns
      | idle | notReady | error => rwa [hu] at hr
  | lost => exact ⟨t, ht, ha⟩

theorem Talks.elsewhere (h : Talks ch σ) (hw : Works o σ σ') (hfit : Fits σ'.bt)
    (hcmd : o = .cmd → Keeps EndpointProtocols.control .cmd ControlAt σ')
    (hevt : o = .evt → Keeps (EndpointProtocols.interruptIn ch.evt) .evt InterruptInAt σ')
    (haclo : o = .aclo → Keeps (EndpointProtocols.bulkOut ch.aclo) .aclo BulkOutAt σ')
    (hacli : o = .acli → Keeps (EndpointProtocols.bulkIn ch.acli) .acli BulkInAt σ') : Talks ch σ' where
  fits := hfit
  evtHcn := hw.frame.evtHcn.trans h.evtHcn
  acloHcn := hw.frame.acloHcn.trans h.acloHcn
  acliHcn := hw.frame.acliHcn.trans h.acliHcn
  control := by
    by_cases ho : o = .cmd
    · exact hcmd ho
    · exact h.control.elsewhere hw ho (by decide) (controlAt_frame hw.frame ho)
  interruptIn := by
    by_cases ho : o = .evt
    · exact hevt ho
    · exact h.interruptIn.elsewhere hw ho (by decide) (interruptInAt_frame hw.frame ho)
  bulkOut := by
    by_cases ho : o = .aclo
    · exact haclo ho
    · exact h.bulkOut.elsewhere hw ho (by decide) (bulkOutAt_frame hw.frame ho)
  bulkIn := by
    by_cases ho : o = .acli
    · exact hacli ho
    · exact h.bulkIn.elsewhere hw ho (by decide) (bulkInAt_frame hw.frame ho)

theorem step_talks (hc : Polite c) (h : Talks ch σ) (s : Step) : Talks ch (step c σ s) := by
  have hfit := step_fits hc h.fits s
  cases s with
  | call x =>
      exact h.elsewhere (clientAct_works (hc.call σ x) .callbacks) hfit (by simp) (by simp) (by simp) (by simp)
  | cmd rd =>
      exact h.elsewhere (cmd_works hc rd σ) hfit (fun _ => cmd_keeps hc h.control h.fits rd) (by simp) (by simp)
        (by simp)
  | evt rd =>
      exact h.elsewhere (evt_works hc rd σ) hfit (by simp) (fun _ => evt_keeps hc h.evtHcn h.interruptIn rd) (by simp)
        (by simp)
  | aclo rd =>
      exact h.elsewhere (aclo_works hc none rd σ) hfit (by simp) (by simp)
        (fun _ => aclo_keeps hc h.acloHcn h.bulkOut h.fits rd) (by simp)
  | acli rd =>
      exact h.elsewhere (acli_works hc rd σ) hfit (by simp) (by simp) (by simp)
        (fun _ => acli_keeps hc h.acliHcn h.bulkIn rd)

theorem opened_talks (b : Build) {dev : Device} (ch : Channels) (bt : BtState) (txBusy : Int)
    (hdev : dev.bInterfaceClass = wirelessClass) : Talks ch (opened b dev ch bt txBusy) := by
  have hnone {o : Owner} (ho : o ≠ .callbacks) : view o (opened b dev ch bt txBusy).trace = [] := by
    rw [opened_wireless b ch bt txBusy hdev]
    have hnew : Extends (fun e => e.owner ≠ o) [] (allocTrace ch ++ openTrace dev ch) :=
      ⟨_, (List.nil_append _).symm, attach_events dev ch (fun _ _ => ho.symm) (fun _ _ _ _ _ => ho.symm)⟩
    exact view_elsewhere hnew
  have hbt : (opened b dev ch bt txBusy).bt = attachedBt ch { bt with loadingFw := 0 } := by
    rw [opened_wireless b ch bt txBusy hdev]
  have hstart {τ : Type} {p : Protocol Event τ} {o : Owner} (ho : o ≠ .callbacks) :
      p.Reaches (view o (opened b dev ch bt txBusy).trace) p.start := by
    rw [hnone ho]
    exact p.reaches_nil
  exact {
    fits := by rw [hbt]; exact ⟨fun hb => absurd rfl hb, fun hb => absurd rfl hb⟩
    evtHcn := by rw [hbt]; rfl
    acloHcn := by rw [hbt]; rfl
    acliHcn := by rw [hbt]; rfl
    control := ⟨.free, hstart (by decide), by rw [hbt]; exact .inl rfl⟩
    interruptIn := ⟨.ready, hstart (by decide), by rw [hbt]; rfl⟩
    bulkOut := ⟨.free, hstart (by decide), by rw [hbt]; exact .inl rfl⟩
    bulkIn := ⟨.ready, hstart (by decide), by rw [hbt]; rfl⟩ }

/-- Whoever uses the driver, and whatever it does in its handlers: on each
endpoint of a wireless session the calls into the host library and into the
handlers are a word of the protocol of that endpoint. -/
theorem session_follows_protocols (b : Build) (hc : Polite c) {dev : Device} (ch : Channels) (bt : BtState)
    (txBusy : Int) (hdev : dev.bInterfaceClass = wirelessClass) (inputs : List Input) :
    let σ := run (react b c) (opened b dev ch bt txBusy) inputs
    Keeps control .cmd ControlAt σ ∧ Keeps (interruptIn ch.evt) .evt InterruptInAt σ ∧
      Keeps (bulkOut ch.aclo) .aclo BulkOutAt σ ∧ Keeps (bulkIn ch.acli) .acli BulkInAt σ := by
  intro σ
  have hrun := run_react b hc (opened_loadingFw b ch bt txBusy hdev) inputs
  have h : Talks ch σ := by
    rw [show σ = run (step c) (opened b dev ch bt txBusy) (inputs.flatMap Input.steps) from hrun]
    exact run_preserves (I := Talks ch) (fun _ s hτ => step_talks hc hτ s) (opened_talks b ch bt txBusy hdev) _
  exact ⟨h.control, h.interruptIn, h.bulkOut, h.bulkIn⟩

def aclPoll (urb : Urb) : Input :=
  .poll {
    cmd := { st := .busy, calls := [] }
    evt := { frame := 0, urb := .idle, received := [], clr := .ok, calls := [] }
    aclo := { urb := urb, clr := .ok, calls := [] }
    acli := { urb := .idle, received := [], clr := .ok, calls := [] }
    loop := [] }

/-- A packet that stalls once, is sent again, and ends. -/
def stalledOnce : List Input :=
  [.call (.send .hciAclDataPacket [0x01, 0x20, 0x00, 0x00]), aclPoll .idle, aclPoll .stall, aclPoll .idle,
    aclPoll .done]

theorem packet_behind_a_stall :
    Keeps (bulkOut 3) .aclo BulkOutAt
      (run (react plain h2Client) (opened plain dongle dongleChannels .zero 0) stalledOnce) :=
  (session_follows_protocols plain h2Client_polite dongleChannels .zero 0
    (show dongle.bInterfaceClass = wirelessClass from rfl) stalledOnce).2.2.1

end Uubt.EndpointProtocols
