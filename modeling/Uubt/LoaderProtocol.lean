import Uubt.Conformance
import Uubt.LoaderIsolation

namespace Uubt.LoaderProtocol

open History HostLibrary Driver Transport Endpoints Clients ClassDriver Moves Sessions Runs FirmwareLoading
  LoaderMoves LoaderIsolation Conformance

/-- The bulk pipe of a download. Only one piece is under way, a piece that
has stalled is cleared before anything else, and is then sent again as it was. -/
inductive Slot
  | free
  | sent (data : List UInt8) (len : Nat)
  | stalled (data : List UInt8) (len : Nat)
  | retry (data : List UInt8) (len : Nat)

def Slot.next (hcn : Nat) : Slot → Event → Option Slot
  | .free, .bulkSend data len n => if n = hcn then some (.sent data len) else none
  | .retry data len, .bulkSend data' len' n =>
      if n = hcn ∧ data' = data ∧ len' = len then some (.sent data len) else none
  | .sent data len, .urbState .aclo n urb =>
      if n = hcn then
        some (match urb with
          | .done => .free
          | .stall => .stalled data len
          | _ => .sent data len)
      else none
  | .stalled data len, .clrFeature .aclo n st =>
      if n = hcn then some (if st = .ok then .retry data len else .sent data len) else none
  | _, _ => none

/-- First the header on the control pipe, with its setup packet, as often as
it fails; then the pieces. -/
inductive Stage
  | header (standing : Bool)
  | body (slot : Slot)

def Stage.next (setup : Setup) (hcn : Nat) : Stage → Event → Option Stage
  | .header _, .setSetup s => if s = setup then some (.header true) else none
  | .header true, .ctlReq _ _ st =>
      some (match st with
        | .ok => .body .free
        | .fail => .header false
        | _ => .header true)
  | .body slot, e => (slot.next hcn e).map .body
  | _, _ => none

/-- What the dongle and the host library may see of a download. The user of
the driver is not part of it. -/
def download (img : Firmware) (hcn : Nat) : Protocol Event Stage where
  start := .header false
  next s e := if e.owner = .client then some s else s.next (dfuSetup (uint16 img.ath3kFwCmd.length)) hcn e

def piece (img : Firmware) (σ : Sys) : List UInt8 := (img.ath3kFwData.drop σ.bt.fwOffset.toNat).take σ.bt.acloLen

inductive InStage (img : Firmware) (σ : Sys) : Stage → Prop
  | header {standing : Bool} (h1 : σ.bt.loadingFw = 1) (hc : σ.bt.cmdState ≠ 0 → standing = true)
      (ha : σ.bt.acloBusy = 0 ∨ σ.bt.acloState = 0) : InStage img σ (.header standing)
  | free (hl : σ.bt.loadingFw = 2 ∨ σ.bt.loadingFw = 3) (ha : σ.bt.acloBusy = 0 ∨ σ.bt.acloState = 0) :
      InStage img σ (.body .free)
  | sent (h2 : σ.bt.loadingFw = 2) (hb : σ.bt.acloBusy ≠ 0) (h1 : σ.bt.acloState = 1) :
      InStage img σ (.body (.sent (piece img σ) σ.bt.acloLen))
  | retry (h2 : σ.bt.loadingFw = 2) (hb : σ.bt.acloBusy ≠ 0) (h0 : σ.bt.acloState = 0) :
      InStage img σ (.body (.retry (piece img σ) σ.bt.acloLen))

/-- The record since the start of the session is one of the protocol, and
has come to the stage that the driver is in. -/
structure Follows (img : Firmware) (hcn : Nat) (base : Trace) (σ : Sys) (s : Stage) : Prop where
  record : ∃ new, σ.trace = base ++ new ∧ (download img hcn).Reaches new s
  channel : σ.bt.acloHcn = hcn
  stage : InStage img σ s

def Stage.AtRest : Stage → Prop
  | .header _ | .body .free => True
  | _ => False

variable {img : Firmware} {hcn : Nat} {base : Trace} {σ : Sys} {s s' : Stage}

theorem record_emit (h : ∃ new, σ.trace = base ++ new ∧ (download img hcn).Reaches new s) {e : Event}
    (he : (download img hcn).next s e = some s') :
    ∃ new, (σ.emit e).trace = base ++ new ∧ (download img hcn).Reaches new s' := by
  obtain ⟨new, ht, hr⟩ := h
  exact ⟨new ++ [e], by rw [emit_trace, ht, List.append_assoc], hr.concat he⟩

theorem record_client (h : ∃ new, σ.trace = base ++ new ∧ (download img hcn).Reaches new s) {t : Trace}
    (ht : Extends ByClient σ.trace t) : ∃ new, t = base ++ new ∧ (download img hcn).Reaches new s := by
  obtain ⟨new, hσ, hr⟩ := h
  obtain ⟨more, rfl, hm⟩ := ht
  exact ⟨new ++ more, by rw [hσ, List.append_assoc], hr.extends ⟨more, rfl, fun e he => if_pos (hm e he)⟩⟩

theorem next_bulkSend_free (hn : σ.bt.acloHcn = hcn) (data : List UInt8) (len : Nat) :
    (download img hcn).next (.body .free) (.bulkSend data len σ.bt.acloHcn) = some (.body (.sent data len)) := by
  subst hn
  simp [download, Event.owner, Stage.next, Slot.next]

theorem next_bulkSend_retry (hn : σ.bt.acloHcn = hcn) (data : List UInt8) (len : Nat) :
    (download img hcn).next (.body (.retry data len)) (.bulkSend data len σ.bt.acloHcn) =
      some (.body (.sent data len)) := by
  subst hn
  simp [download, Event.owner, Stage.next, Slot.next]

theorem next_urbState (hn : σ.bt.acloHcn = hcn) (data : List UInt8) (len : Nat) (urb : Urb) :
    (download img hcn).next (.body (.sent data len)) (.urbState .aclo σ.bt.acloHcn urb) =
      some (.body (match urb with
        | .done => .free
        | .stall => .stalled data len
        | _ => .sent data len)) := by
  subst hn
  cases urb <;> simp [download, Event.owner, Ep.owner, Stage.next, Slot.next]

theorem next_clrFeature (hn : σ.bt.acloHcn = hcn) (data : List UInt8) (len : Nat) (st : UsbhStatus) :
    (download img hcn).next (.body (.stalled data len)) (.clrFeature .aclo σ.bt.acloHcn st) =
      some (.body (if st = .ok then .retry data len else .sent data len)) := by
  subst hn
  simp [download, Event.owner, Ep.owner, Stage.next, Slot.next]

theorem submitted_follows (h : Follows img hcn base σ s) (h2 : σ.bt.loadingFw = 2) (hb : σ.bt.acloBusy ≠ 0)
    (h0 : σ.bt.acloState = 0) : ∃ s', Follows img hcn base (submitted img σ) s' := by
  refine ⟨.body (.sent (piece img σ) σ.bt.acloLen), ?_, h.channel, .sent h2 hb rfl⟩
  refine record_emit h.record ?_
  cases h.stage with
  | header h1 => exact absurd (h1.symm.trans h2) (by decide)
  | free => exact next_bulkSend_free h.channel _ _
  | sent _ _ h1 => exact absurd (h1.symm.trans h0) (by decide)
  | retry => exact next_bulkSend_retry h.channel _ _

theorem read_follows (h : Follows img hcn base σ s) (h2 : σ.bt.loadingFw = 2) (hb : σ.bt.acloBusy ≠ 0)
    (h1 : σ.bt.acloState = 1) (rd : AcloReadings) :
    ∃ new, (acloRead rd σ).trace = base ++ new ∧ (download img hcn).Reaches new (.body (match rd.urb with
      | .done => .free
      | .stall => .stalled (piece img σ) σ.bt.acloLen
      | _ => .sent (piece img σ) σ.bt.acloLen)) := by
  refine record_emit h.record ?_
  cases h.stage with
  | header h1' => exact absurd (h1'.symm.trans h2) (by decide)
  | free _ ha => exact absurd (h1.symm.trans (ha.resolve_left hb)) (by decide)
  | sent => exact next_urbState h.channel _ _ _
  | retry _ _ h0 => exact absurd (h1.symm.trans h0) (by decide)

theorem cleared_follows (h : Follows img hcn base σ s) (h2 : σ.bt.loadingFw = 2) (hb : σ.bt.acloBusy ≠ 0)
    (h1 : σ.bt.acloState = 1) {rd : FwReadings} (hu : rd.aclo.urb = .stall) :
    ∃ new, (cleared rd σ).trace = base ++ new ∧ (download img hcn).Reaches new (.body (if rd.aclo.clr = .ok then
      .retry (piece img σ) σ.bt.acloLen else .sent (piece img σ) σ.bt.acloLen)) := by
  have hr := read_follows h h2 hb h1 rd.aclo
  rw [hu] at hr
  exact record_emit hr (next_clrFeature h.channel _ _ _)

inductive PassFollows (img : Firmware) (hcn : Nat) (base : Trace) : Pass → Prop
  | leave {σ : Sys} (h : Follows img hcn base σ (.body .free)) (h3 : σ.bt.loadingFw = 3) :
      PassFollows img hcn base (.leave σ)
  | again {σ : Sys} (n : Option Int) {s : Stage} (h : Follows img hcn base σ s) (h2 : σ.bt.loadingFw = 2) :
      PassFollows img hcn base (.again n σ)

theorem pass_follows (h : Follows img hcn base σ s) (h2 : σ.bt.loadingFw = 2) {rd : FwReadings} {n : Option Int}
    {p : Pass} (hm : PassMove img rd n σ p) : PassFollows img hcn base p := by
  cases hm with
  | leave hb hn =>
      cases h.stage with
      | header h1 => exact absurd (h1.symm.trans h2) (by decide)
      | free => exact .leave ⟨h.record, h.channel, .free (.inr rfl) (.inl hb)⟩ rfl
      | sent _ hb' => exact absurd hb hb'
      | retry _ hb' => exact absurd hb hb'
  | stage hb hn =>
      have hstaged : Follows img hcn base (staged img σ) (.body .free) := by
        cases h.stage with
        | header h1 => exact absurd (h1.symm.trans h2) (by decide)
        | free => exact ⟨h.record, h.channel, .free (.inl h2) (.inr rfl)⟩
        | sent _ hb' => exact absurd hb hb'
        | retry _ hb' => exact absurd hb hb'
      obtain ⟨s', hs⟩ := submitted_follows hstaged h2 (show ¬(1 : Int) = 0 by decide) rfl
      exact .again _ hs h2
  | submit hb h0 =>
      obtain ⟨s', hs⟩ := submitted_follows h h2 hb h0
      exact .again _ hs h2
  | done hb h1 hu =>
      have hr := read_follows h h2 hb h1 rd.aclo
      rw [hu] at hr
      exact .again n ⟨hr, h.channel, .free (.inl h2) (.inl rfl)⟩ h2
  | clear hb h1 hu hc =>
      have hr := cleared_follows h h2 hb h1 hu
      rw [if_pos hc] at hr
      exact .again n ⟨hr, h.channel, .retry h2 hb rfl⟩ h2
  | stalled hb h1 hu hc =>
      have hr := cleared_follows h h2 hb h1 hu
      rw [if_neg hc] at hr
      exact .again n ⟨hr, h.channel, .sent h2 hb h1⟩ h2
  | wait hb h1 hn hs =>
      have hr := read_follows h h2 hb h1 rd.aclo
      have hsame : (match rd.aclo.urb with
          | .done => Slot.free
          | .stall => .stalled (piece img σ) σ.bt.acloLen
          | _ => .sent (piece img σ) σ.bt.acloLen) = .sent (piece img σ) σ.bt.acloLen := by
        cases hu : rd.aclo.urb <;> first | rfl | contradiction
      rw [hsame] at hr
      exact .again n ⟨hr, h.channel, .sent h2 hb h1⟩ h2
  | lost hb h0 h1 =>
      cases h.stage with
      | header h1' => exact absurd (h1'.symm.trans h2) (by decide)
      | free _ ha => exact absurd (ha.resolve_left hb) h0
      | sent _ _ h1' => exact absurd h1' h1
      | retry _ _ h0' => exact absurd h0' h0

theorem fwLoop_follows (h : Follows img hcn base σ s) (h2 : σ.bt.loadingFw = 2) (b : Build) (c : Client)
    (rds : List FwReadings) (n : Option Int) : ∃ s', Follows img hcn base (fwLoop b img c rds n σ).sys s' ∧
      ((fwLoop b img c rds n σ).returned = true → s'.AtRest) := by
  induction rds generalizing n σ s with
  | nil => exact ⟨s, h, fun hr => by cases hr⟩
  | cons rd rds ih =>
      have hp := pass_follows h h2 (pass_moves img c rd n σ)
      rw [fwLoop]
      generalize fwPass img c rd n σ = p at hp ⊢
      cases hp with
      | leave h' => exact ⟨_, h', fun _ => trivial⟩
      | again n' h' h2' => exact ih h' h2' _

theorem fwHeader_follows {standing : Bool} (h : Follows img hcn base σ (.header standing)) :
    Follows img hcn base (fwHeader img σ) (.header true) := by
  cases h.stage with
  | header h1 hc ha =>
      rw [fwHeader]
      split
      · refine ⟨record_emit h.record ?_, h.channel, .header h1 (fun _ => rfl) ha⟩
        simp [download, Event.owner, Stage.next]
      · rename_i h0
        obtain rfl := hc h0
        exact h

theorem fwSetup_follows {standing : Bool} (h : Follows img hcn base σ (.header standing)) (rd : CmdReadings) :
    ∃ s', Follows img hcn base (fwSetup img rd σ) s' ∧ s'.AtRest := by
  have hh := fwHeader_follows h
  cases hh.stage with
  | header h1 hc ha =>
      have hreq {s' : Stage} (hs : (match rd.st with
          | .ok => Stage.body .free
          | .fail => .header false
          | _ => .header true) = s') : ∃ new, (fwRequest img rd.st σ).trace = base ++ new ∧
          (download img hcn).Reaches new s' := by
        refine record_emit hh.record ?_
        rw [← hs]
        rfl
      rw [fwSetup_eq]
      split_ifs with hok hf
      · rw [hok] at hreq ⊢
        exact ⟨_, ⟨hreq rfl, hh.channel, .free (.inl rfl) ha⟩, trivial⟩
      · rw [hf] at hreq ⊢
        exact ⟨_, ⟨hreq rfl, hh.channel, .header h1 (fun h0 => absurd rfl h0) ha⟩, trivial⟩
      · have hbusy : (match rd.st with
            | .ok => Stage.body .free
            | .fail => .header false
            | _ => .header true) = .header true := by
          cases hst : rd.st <;> first | rfl | contradiction
        exact ⟨_, ⟨hreq hbusy, hh.channel, .header h1 (fun _ => rfl) ha⟩, trivial⟩

theorem stackCall_follows (h : Follows img hcn base σ s) (hs : s.AtRest) (x : Call) :
    Follows img hcn base (stackCall σ x) s := by
  have hact := stackCall_act σ x
  have hsame := hact.reach.sameReceiver
  have ha (ha : σ.bt.acloBusy = 0 ∨ σ.bt.acloState = 0) :
      (stackCall σ x).bt.acloBusy = 0 ∨ (stackCall σ x).bt.acloState = 0 :=
    hact.reach.preserves (P := fun bt => bt.acloBusy = 0 ∨ bt.acloState = 0) ha (fun _ _ _ hb _ _ => hb)
      (fun _ _ _ _ _ _ => .inr rfl)
  refine ⟨record_client h.record hact.events, hsame.acloHcn.trans h.channel, ?_⟩
  cases h.stage with
  | @header standing h1 hc ha' =>
      refine .header (hsame.loadingFw.trans h1) ?_ (ha ha')
      exact hact.reach.preserves (P := fun bt => bt.cmdState ≠ 0 → standing = true) hc
        (fun _ _ _ _ _ _ h0 => absurd rfl h0) (fun _ _ _ hb _ _ => hb)
  | free hl ha' => exact .free (by rwa [hsame.loadingFw]) (ha ha')
  | sent => exact hs.elim
  | retry => exact hs.elim

def Served (img : Firmware) (hcn : Nat) (base : Trace) (w : Loader) : Prop :=
  ∃ s, Follows img hcn base w.sys s ∧ (w.hung = false → s.AtRest)

variable {b : Build} {w : Loader}

theorem serve_follows (hb : b.firmware = some img) (h : Served img hcn base w) (i : Input) :
    Served img hcn base (serve b w i) := by
  obtain ⟨s, hf, hrest⟩ := h
  cases hh : w.hung with
  | true =>
      rw [serve_hung b hh]
      exact ⟨s, hf, hrest⟩
  | false =>
      have hs := hrest hh
      cases i with
      | call x =>
          rw [serve_call b hh]
          exact ⟨s, stackCall_follows hf hs x, fun _ => hs⟩
      | poll rd =>
          rw [serve_poll b hh]
          cases hf.stage with
          | header h1 =>
              rw [usbhBtStMachine_header hb h2Client rd h1]
              obtain ⟨s', hf', hs'⟩ := fwSetup_follows hf rd.cmd
              exact ⟨s', hf', fun _ => hs'⟩
          | free hl =>
              rcases hl with h2 | h3
              · rw [usbhBtStMachine_loader hb h2Client rd h2]
                obtain ⟨s', hf', hs'⟩ := fwLoop_follows hf h2 b h2Client rd.loop none
                exact ⟨s', hf', fun hr => hs' (by simpa using hr)⟩
              · rw [usbhBtStMachine_loaded hb h2Client rd (h3.trans_ne (by decide)) (h3.trans_ne (by decide))
                  (h3.trans_ne (by decide))]
                exact ⟨_, hf, fun _ => trivial⟩
          | sent => exact hs.elim
          | retry => exact hs.elim

theorem serve_loaded (hb : b.firmware = some img) (h3 : w.sys.bt.loadingFw = 3) (i : Input) :
    (serve b w i).sys.bt.loadingFw = 3 ∧ transfers (serve b w i).sys.trace = transfers w.sys.trace := by
  cases hh : w.hung with
  | true =>
      rw [serve_hung b hh]
      exact ⟨h3, rfl⟩
  | false =>
      cases i with
      | call x =>
          rw [serve_call b hh]
          exact ⟨(stackCall_act w.sys x).reach.sameReceiver.loadingFw.trans h3, stackCall_transfers w.sys x⟩
      | poll rd =>
          rw [serve_poll b hh, usbhBtStMachine_loaded hb h2Client rd (h3.trans_ne (by decide))
            (h3.trans_ne (by decide)) (h3.trans_ne (by decide))]
          exact ⟨h3, rfl⟩

def Upward : Event → Prop
  | .rx _ _ _ | .rxReturn _ | .txEnd _ | .powerControl _ => True
  | _ => False

theorem download_is_silent (s s' : Stage) (e : Event) (h : (download img hcn).next s e = some s') : ¬Upward e := by
  intro he
  cases e with
  | rx type | rxReturn type | txEnd type =>
      cases s with
      | header standing => cases standing <;> cases type <;> cases h
      | body slot => cases slot <;> cases type <;> cases h
  | powerControl on =>
      cases s with
      | header standing => cases standing <;> cases h
      | body slot => cases slot <;> cases h
  | _ => exact he

/-- Every session with the loader is one of the protocol, whatever the host
library answers and whatever the stack tries to send in between: the stack
hears nothing of it, and once the download is complete the dongle does not, either. -/
theorem download_follows_protocol (hb : b.firmware = some img) {dev : Device} (ch : Channels) (bt : BtState)
    (txBusy : Int) (hclass : dev.bInterfaceClass ≠ wirelessClass) (hvendor : dev.idVendor = atherosIdVendor)
    (hproduct : dev.idProduct = ar3011IdProduct) (inputs : List Input) :
    let start := started b dev ch bt txBusy
    let w := run (serve b) ⟨start, false⟩ inputs
    (∃ new s, w.sys.trace = start.trace ++ new ∧ (download img ch.aclo).Reaches new s ∧ InStage img w.sys s ∧
        ∀ e ∈ new, ¬Upward e) ∧
      (w.sys.bt.loadingFw = 3 → ∀ more, transfers (run (serve b) w more).sys.trace = transfers w.sys.trace) := by
  intro start w
  have hstart : Served img ch.aclo start.trace ⟨start, false⟩ := by
    refine ⟨.header false, ⟨⟨[], (List.append_nil _).symm, Protocol.reaches_nil _⟩, ?_, ?_⟩, fun _ => trivial⟩
    all_goals dsimp only [start]
    all_goals rw [started_loader (by rw [hb]; rfl) ch bt txBusy hclass hvendor hproduct]
    · rfl
    · exact .header rfl (fun h0 => absurd rfl h0) (.inl rfl)
  obtain ⟨s, hf, -⟩ : Served img ch.aclo start.trace w :=
    run_preserves (I := Served img ch.aclo start.trace) (fun _ i hv => serve_follows hb hv i) hstart inputs
  obtain ⟨new, ht, hr⟩ := hf.record
  refine ⟨⟨new, s, ht, hr, hf.stage, hr.forall download_is_silent⟩, fun h3 more => ?_⟩
  have hkeep (v : Loader) (i : Input) (hv : v.sys.bt.loadingFw = 3 ∧ transfers v.sys.trace = transfers w.sys.trace) :
      (serve b v i).sys.bt.loadingFw = 3 ∧ transfers (serve b v i).sys.trace = transfers w.sys.trace :=
    (serve_loaded hb hv.1 i).imp_right fun h => h.trans hv.2
  exact (run_preserves hkeep ⟨h3, rfl⟩ more).2

/-- A command of the stack comes while the header is on its way, an ACL
packet before the first chunk, and the second chunk stalls once. -/
def disturbedDownload : List Input :=
  [.poll (loaderPoll .busy []), .call (.send .hciCommandDataPacket [0x03, 0x0c, 0x00]), .poll (loaderPoll .ok []),
    .call (.send .hciAclDataPacket [0x01, 0x20, 0x00, 0x00]),
    .poll (loaderPoll .ok [.idle, .done, .idle, .stall, .idle, .done, .idle, .done, .idle, .done])]

theorem disturbed_download_is_silent :
    ∃ new, (run (serve ⟨some smallImage, true⟩) fresh disturbedDownload).sys.trace = fresh.sys.trace ++ new ∧
      ∀ e ∈ new, ¬Upward e := by
  obtain ⟨⟨new, s, ht, -, -, hsilent⟩, -⟩ := download_follows_protocol (b := ⟨some smallImage, true⟩) rfl
    ⟨2, 3, 4⟩ .zero 0 (show ar3011.bInterfaceClass ≠ wirelessClass by decide) rfl rfl disturbedDownload
  exact ⟨new, ht, hsilent⟩

end Uubt.LoaderProtocol
