import Mathlib.Data.Finset.Max
import Uubt.FirmwareLoading
import Uubt.Frames
import Uubt.Leases
import Uubt.Sessions

namespace Uubt.Lifecycle

open History HostLibrary Driver Transport Endpoints Clients ClassDriver Moves LoaderMoves Frames Sessions
  FirmwareLoading Runs Leases Function

def op : Event → Option (Op Nat)
  | .allocChannel _ hcn => some (.acquire hcn)
  | .openChannel hcn _ _ _ _ => some (.prepare hcn)
  | .interruptReceive _ hcn | .bulkSend _ _ hcn | .bulkReceive _ hcn => some (.employ hcn)
  | .haltChannel hcn => some (.stop hcn)
  | .freeChannel hcn => some (.release hcn)
  | _ => none

def ops (t : Trace) : List (Op Nat) := t.filterMap op

/-- The host channels that are free before the first dongle comes. The
control pipe of the host core has 0. -/
structure HostPool where
  free : Finset Nat
  nonzero : 0 ∉ free
  enough : 3 ≤ free.card

def HostPool.book (p : HostPool) : Book Nat := fun hcn => if hcn ∈ p.free then .free else .elsewhere

def book (p : HostPool) (σ : Sys) : Book Nat := run enter p.book (ops σ.trace)

def freeNow (p : HostPool) (σ : Sys) : Finset Nat := p.free.filter (book p σ · = .free)

/-- USBH_Alloc_Channel takes some channel that is free. -/
structure Allocator where
  pick : Finset Nat → Nat
  pick_mem : ∀ free, free.Nonempty → pick free ∈ free

def Allocator.channels (a : Allocator) (free : Finset Nat) : Channels :=
  let evt := a.pick free
  let aclo := a.pick (free.erase evt)
  { evt := evt, aclo := aclo, acli := a.pick ((free.erase evt).erase aclo) }

/-- The handlers that are registered at a moment, and their way of calling. -/
structure User where
  client : Client
  polite : Polite client

inductive Callback
  | init (dev : Device) (a : Allocator)
  | classRequest
  | poll (u : User) (rd : PollReadings)
  | call (u : User) (x : Call)
  | deInit

/-- How far the host core is with a dongle. A poll that does not come back
is the end of everything. -/
inductive Phase
  | detached | refused | attached | hung
deriving DecidableEq

structure Core where
  sys : Sys
  phase : Phase

def react (b : Build) (p : HostPool) (w : Core) : Callback → Core
  | .init dev a =>
      let r := usbhBtInterfaceInit b dev (a.channels (freeNow p w.sys)) w.sys
      ⟨r.2, if r.1 = .ok then .attached else .refused⟩
  | .classRequest => ⟨(usbhBtClassRequest w.sys).2, w.phase⟩
  | .poll u rd =>
      let r := usbhBtStMachine b u.client rd w.sys
      ⟨r.sys, if r.returned then w.phase else .hung⟩
  | .call u x => ⟨u.client.call w.sys x, w.phase⟩
  | .deInit => ⟨usbhBtInterfaceDeInit w.sys, .detached⟩

/-- The order in which the host core calls: a device is offered when there
is none, it is worked with only if it has been accepted, and it goes away. -/
def InOrder (w : Core) : Callback → Prop
  | .init _ _ => w.phase = .detached
  | .classRequest | .poll _ _ => w.phase = .attached
  | .call _ _ | .deInit => w.phase ≠ .hung

instance (w : Core) : ∀ x, Decidable (InOrder w x)
  | .init _ _ => inferInstanceAs (Decidable (w.phase = .detached))
  | .classRequest | .poll _ _ => inferInstanceAs (Decidable (w.phase = .attached))
  | .call _ _ | .deInit => inferInstanceAs (Decidable (w.phase ≠ .hung))

def powerUp : Core := ⟨⟨.zero, 0, []⟩, .detached⟩

@[simp] theorem ops_append (t t' : Trace) : ops (t ++ t') = ops t ++ ops t' := List.filterMap_append

theorem ops_eq_nil {t : Trace} (h : ∀ e ∈ t, op e = none) : ops t = [] := List.filterMap_eq_nil_iff.mpr h

def handles (bt : BtState) : Channels := { evt := bt.evtHcn, aclo := bt.acloHcn, acli := bt.acliHcn }

structure FromPool (p : HostPool) (ch : Channels) : Prop where
  evt : ch.evt ∈ p.free
  aclo : ch.aclo ∈ p.free
  acli : ch.acli ∈ p.free
  evt_aclo : ch.evt ≠ ch.aclo
  evt_acli : ch.evt ≠ ch.acli
  aclo_acli : ch.aclo ≠ ch.acli

theorem Allocator.takes (a : Allocator) {free : Finset Nat} (h : 0 < free.card) :
    a.pick free ∈ free ∧ (free.erase (a.pick free)).card + 1 = free.card := by
  have hmem := a.pick_mem free (Finset.card_pos.mp h)
  exact ⟨hmem, Finset.card_erase_add_one hmem⟩

theorem channels_fromPool (p : HostPool) (a : Allocator) : FromPool p (a.channels p.free) := by
  have hcard := p.enough
  obtain ⟨h1, hcard1⟩ := a.takes (show 0 < p.free.card by omega)
  obtain ⟨h2, hcard2⟩ := a.takes (show 0 < (p.free.erase (a.pick p.free)).card by omega)
  have hpos : 0 < ((p.free.erase (a.pick p.free)).erase (a.pick (p.free.erase (a.pick p.free)))).card := by omega
  obtain ⟨h3, -⟩ := a.takes hpos
  obtain ⟨hne2, hmem2⟩ := Finset.mem_erase.mp h2
  obtain ⟨hne3, hmem3⟩ := Finset.mem_erase.mp h3
  obtain ⟨hne3', hmem3'⟩ := Finset.mem_erase.mp hmem3
  exact ⟨h1, hmem2, hmem3', hne2.symm, hne3'.symm, hne3.symm⟩

def Uses (hcn : Nat) (e : Event) : Prop := op e = none ∨ op e = some (.employ hcn)

theorem op_client {e : Event} (h : ByClient e) : op e = none := by
  cases e with
  | allocChannel | openChannel | haltChannel | freeChannel | interruptReceive | bulkSend | bulkReceive => cases h
  | _ => rfl

theorem uses_client {hcn : Nat} {e : Event} (h : ByClient e) : Uses hcn e := .inl (op_client h)

variable {c : Client} {σ : Sys}

theorem rxHandler_uses (hc : Polite c) (hcn : Nat) (type : PacketType) (packet : List UInt8) (len : Nat)
    (calls : List Call) (σ : Sys) : Extends (Uses hcn) σ.trace (callRxHandler c type packet len calls σ).trace := by
  have hrx : Extends (Uses hcn) σ.trace (σ.trace ++ [.rx type (packet.take (uint16 len)) (uint16 len)]) :=
    (Extends.refl _ _).concat (.inl rfl)
  have hcalls := (hc.rxHandler type (packet.take (uint16 len)) (uint16 len) calls
    (σ.emit (.rx type (packet.take (uint16 len)) (uint16 len)))).events
  exact (hrx.trans (hcalls.mono fun _ he => uses_client he)).concat (.inl rfl)

theorem txEndHandler_uses (hc : Polite c) (hcn : Nat) (type : PacketType) (calls : List Call) (σ : Sys) :
    Extends (Uses hcn) σ.trace (callTxEndHandler c type calls σ).trace := by
  have hend : Extends (Uses hcn) σ.trace (σ.trace ++ [.txEnd type]) := (Extends.refl _ _).concat (.inl rfl)
  exact hend.trans ((hc.txEndHandler type calls (σ.emit (.txEnd type))).events.mono fun _ he => uses_client he)

theorem own_uses {o : Owner} {hcn : Nat} {e : Event} (he : Own o hcn e) : Uses hcn e := by
  cases e with
  | interruptReceive | bulkSend | bulkReceive =>
      obtain ⟨-, rfl⟩ := he
      exact .inr rfl
  | setSetup | ctlReq | currentFrame | urbState | clrFeature => exact .inl rfl
  | _ => exact he.elim

theorem uses_grows (hc : Polite c) (o : Owner) (hcn : Nat) : Grows c o hcn (Extends (Uses hcn)) where
  refl h := .refl _ h
  trans hh hh' := hh.trans hh'
  own h _ he := (Extends.refl _ h).concat (own_uses he)
  rxHandler := rxHandler_uses hc hcn
  txEndHandler := txEndHandler_uses hc hcn

/-- The channels that are open while a dongle is attached: two of them in
normal mode only. -/
def Open (bt : BtState) (hcn : Nat) : Prop :=
  hcn = (handles bt).aclo ∨ bt.loadingFw = 0 ∧ (hcn = (handles bt).evt ∨ hcn = (handles bt).acli)

structure Serves (σ σ' : Sys) : Prop where
  handles : handles σ'.bt = handles σ.bt
  normal : σ'.bt.loadingFw = 0 ↔ σ.bt.loadingFw = 0
  events : Extends (fun e => ∃ hcn, Open σ.bt hcn ∧ Uses hcn e) σ.trace σ'.trace

theorem Serves.refl (σ : Sys) : Serves σ σ := ⟨rfl, Iff.rfl, .refl _ _⟩

theorem Serves.trans {σ' σ'' : Sys} (h : Serves σ σ') (h' : Serves σ' σ'') : Serves σ σ'' := by
  refine ⟨h'.handles.trans h.handles, h'.normal.trans h.normal, h.events.trans (h'.events.mono ?_)⟩
  rintro e ⟨hcn, ho, hu⟩
  rw [Open, h.handles, h.normal] at ho
  exact ⟨hcn, ho, hu⟩

theorem Serves.of_frame {o : Owner} {σ' : Sys} (h : Frame o σ.bt σ'.bt) {hcn : Nat} (ho : Open σ.bt hcn)
    (he : Extends (Uses hcn) σ.trace σ'.trace) : Serves σ σ' := by
  refine ⟨?_, by rw [h.loadingFw], he.mono fun _ hu => ⟨hcn, ho, hu⟩⟩
  rw [Lifecycle.handles, h.evtHcn, h.acloHcn, h.acliHcn]
  rfl

theorem Serves.write {σ' : Sys} (h : Serves σ σ') {f : BtState → BtState}
    (hh : Lifecycle.handles (f σ'.bt) = Lifecycle.handles σ'.bt)
    (hn : (f σ'.bt).loadingFw = 0 ↔ σ'.bt.loadingFw = 0) : Serves σ (σ'.write f) :=
  ⟨hh.trans h.handles, hn.trans h.normal, h.events⟩

theorem Serves.silent {σ' : Sys} (h : Serves σ σ') {e : Event} (he : op e = none) : Serves σ (σ'.emit e) :=
  ⟨h.handles, h.normal, h.events.concat ⟨_, .inl rfl, .inl he⟩⟩

theorem Serves.employ {σ' : Sys} (h : Serves σ σ') {e : Event} (he : op e = some (.employ σ.bt.acloHcn)) :
    Serves σ (σ'.emit e) :=
  ⟨h.handles, h.normal, h.events.concat ⟨_, .inl rfl, .inr he⟩⟩

theorem call_serves (u : User) (σ : Sys) (x : Call) : Serves σ (u.client.call σ x) := by
  have ha := u.polite.call σ x
  exact .of_frame (clientAct_works ha .client).frame (.inl rfl) (ha.events.mono fun _ he => uses_client he)

theorem step_serves (u : User) (h : σ.bt.loadingFw = 0) (s : Step) : Serves σ (step u.client σ s) := by
  cases s with
  | call x => exact call_serves u σ x
  | cmd rd => exact .of_frame (cmd_works u.polite rd σ).frame (.inl rfl) ((uses_grows u.polite _ _).cmd rd σ)
  | evt rd => exact .of_frame (evt_works u.polite rd σ).frame (.inr ⟨h, .inl rfl⟩) ((uses_grows u.polite _ _).evt rd)
  | aclo rd => exact .of_frame (aclo_works u.polite none rd σ).frame (.inl rfl) ((uses_grows u.polite _ _).aclo none rd)
  | acli rd => exact .of_frame (acli_works u.polite rd σ).frame (.inr ⟨h, .inr rfl⟩) ((uses_grows u.polite _ _).acli rd)

theorem fwSetup_serves (img : Firmware) (rd : CmdReadings) (h : σ.bt.loadingFw ≠ 0) :
    Serves σ (fwSetup img rd σ) := by
  have hh : Serves σ (fwHeader img σ) := by
    rw [fwHeader]
    split
    · exact ((Serves.refl σ).silent rfl).write rfl Iff.rfl
    · exact .refl σ
  have hreq : Serves σ (fwRequest img rd.st σ) := hh.silent rfl
  have hn : (fwRequest img rd.st σ).bt.loadingFw ≠ 0 := mt hreq.normal.mp h
  rw [fwSetup_eq]
  split_ifs
  · exact hreq.write rfl (iff_of_false (show ¬(2 : Int) = 0 by decide) hn)
  · exact hreq.write rfl Iff.rfl
  · exact hreq

theorem pass_serves {img : Firmware} {rd : FwReadings} {n : Option Int} {q : Pass} (h : σ.bt.loadingFw ≠ 0)
    (hm : PassMove img rd n σ q) : Serves σ (after q) := by
  have hread : Serves σ (acloRead rd.aclo σ) := (Serves.refl σ).silent rfl
  have hclr : Serves σ (cleared rd σ) := hread.silent rfl
  cases hm with
  | leave =>
      rw [after]
      exact (Serves.refl σ).write rfl (iff_of_false (show ¬(3 : Int) = 0 by decide) h)
  | stage =>
      have hst : Serves σ (staged img σ) := (Serves.refl σ).write rfl Iff.rfl
      rw [after, submitted]
      exact (hst.employ rfl).write rfl Iff.rfl
  | submit =>
      rw [after, submitted]
      exact ((Serves.refl σ).employ rfl).write rfl Iff.rfl
  | done =>
      rw [after, completed]
      exact hread.write rfl Iff.rfl
  | clear =>
      rw [after]
      exact hclr.write rfl Iff.rfl
  | stalled => exact hclr
  | wait => exact hread
  | lost => exact .refl σ

theorem poll_serves (b : Build) (u : User) (rd : PollReadings) (hb : σ.bt.loadingFw ≠ 0 → b.firmware.isSome) :
    Serves σ (usbhBtStMachine b u.client rd σ).sys := by
  refine usbhBtStMachine_preserves (I := Serves σ) rd (fun hmode τ s hs => ?_) (fun img _ h1 => ?_)
    (fun img _ h2 τ rd n q hs hm => ?_) (.refl σ)
  · have h0 : σ.bt.loadingFw = 0 := by
      by_contra h
      exact h (hmode (hb h))
    exact hs.trans (step_serves u (hs.normal.mpr h0) s)
  · exact fwSetup_serves img rd.cmd (h1.trans_ne (by decide))
  · have hmode : τ.bt.loadingFw ≠ 0 := mt hs.normal.mp (h2.trans_ne (by decide))
    exact hs.trans (pass_serves hmode hm)

variable {b : Build} {p : HostPool}

def heldBook (p : HostPool) (ch : Channels) (sides : Stage) : Book Nat :=
  update (update (update p.book ch.evt sides) ch.acli sides) ch.aclo .ready

/-- The loader opens one of its channels only. -/
def sides (bt : BtState) : Stage := if bt.loadingFw = 0 then .ready else .lent

structure Attached (b : Build) (p : HostPool) (σ : Sys) : Prop where
  lawful : Lawful p.book (ops σ.trace)
  fromPool : FromPool p (handles σ.bt)
  held : book p σ = heldBook p (handles σ.bt) (sides σ.bt)
  loader : σ.bt.loadingFw ≠ 0 → b.firmware.isSome

structure Detached (p : HostPool) (σ : Sys) : Prop where
  lawful : Lawful p.book (ops σ.trace)
  back : book p σ = p.book
  empty : handles σ.bt = ⟨0, 0, 0⟩

theorem HostPool.book_free {hcn : Nat} (h : hcn ∈ p.free) : p.book hcn = .free := if_pos h

theorem heldBook_evt {ch : Channels} (h : FromPool p ch) (st : Stage) : heldBook p ch st ch.evt = st := by
  rw [heldBook, update_of_ne h.evt_aclo, update_of_ne h.evt_acli, update_self]

theorem heldBook_aclo (p : HostPool) (ch : Channels) (st : Stage) : heldBook p ch st ch.aclo = .ready := by
  rw [heldBook, update_self]

theorem heldBook_acli {ch : Channels} (h : FromPool p ch) (st : Stage) : heldBook p ch st ch.acli = st := by
  rw [heldBook, update_of_ne h.aclo_acli.symm, update_self]

theorem heldBook_returned {ch : Channels} (h : FromPool p ch) (st : Stage) :
    update (update (update (heldBook p ch st) ch.evt .free) ch.aclo .free) ch.acli .free = p.book := by
  funext hcn
  simp only [heldBook, update_apply]
  split_ifs with h3 h2 h1
  · rw [h3, HostPool.book_free h.acli]
  · rw [h2, HostPool.book_free h.aclo]
  · rw [h1, HostPool.book_free h.evt]
  · rfl

theorem Attached.open_ready (h : Attached b p σ) {hcn : Nat} (ho : Open σ.bt hcn) : book p σ hcn = .ready := by
  rw [h.held]
  rcases ho with rfl | ⟨h0, rfl | rfl⟩
  · exact heldBook_aclo p _ _
  · rw [heldBook_evt h.fromPool, sides, if_pos h0]
  · rw [heldBook_acli h.fromPool, sides, if_pos h0]

theorem book_append {σ' : Sys} {new : Trace} (h : σ'.trace = σ.trace ++ new) :
    book p σ' = run enter (book p σ) (ops new) := by
  rw [book, h, ops_append, run_append]
  rfl

theorem lawful_append {σ' : Sys} {new : Trace} (h : σ'.trace = σ.trace ++ new) (hl : Lawful p.book (ops σ.trace))
    (hn : Lawful (book p σ) (ops new)) : Lawful p.book (ops σ'.trace) := by
  rw [h, ops_append]
  exact (along_append _ _ _ _ _).mpr ⟨hl, hn⟩

theorem Attached.serves (h : Attached b p σ) {σ' : Sys} (hs : Serves σ σ') : Attached b p σ' := by
  obtain ⟨new, ht, hn⟩ := hs.events
  have huse : ∀ o ∈ ops new, ∃ hcn, o = .employ hcn ∧ book p σ hcn = .ready := by
    intro o ho
    obtain ⟨e, he, heo⟩ := List.mem_filterMap.mp ho
    obtain ⟨hcn, hopen, hu | hu⟩ := hn e he
    · rw [hu] at heo
      contradiction
    · rw [hu] at heo
      exact ⟨hcn, (Option.some.inj heo).symm, h.open_ready hopen⟩
  obtain ⟨hl, hsame⟩ := employed huse
  refine ⟨lawful_append ht h.lawful hl, ?_, ?_, fun h0 => h.loader (mt hs.normal.mpr h0)⟩
  · rw [hs.handles]
    exact h.fromPool
  · rw [book_append ht, hsame, h.held, hs.handles, sides, sides]
    simp only [hs.normal]

theorem Detached.serves (h : Detached p σ) {σ' : Sys} (hh : handles σ'.bt = handles σ.bt)
    (he : Extends (fun e => op e = none) σ.trace σ'.trace) : Detached p σ' := by
  obtain ⟨new, ht, hn⟩ := he
  have hnil : ops new = [] := ops_eq_nil hn
  refine ⟨lawful_append ht h.lawful (hnil ▸ trivial), ?_, hh.trans h.empty⟩
  rw [book_append ht, hnil, run_nil, h.back]

theorem Detached.all_free (h : Detached p σ) : freeNow p σ = p.free := by
  rw [freeNow, h.back]
  refine Finset.filter_true_of_mem fun hcn hmem => ?_
  rw [HostPool.book, if_pos hmem]

theorem attach_wireless_lawful (dev : Device) {ch : Channels} (h : FromPool p ch) :
    Lawful p.book (ops (allocTrace ch ++ openTrace dev ch)) ∧
      run enter p.book (ops (allocTrace ch ++ openTrace dev ch)) = heldBook p ch .ready := by
  constructor
  · refine ⟨HostPool.book_free h.evt, ?_, ?_, ?_, ?_, ?_, trivial⟩
    all_goals simp [enter, Allowed, HostPool.book_free, h.aclo, h.acli, h.evt_aclo, h.evt_acli, h.aclo_acli,
      h.evt_aclo.symm, h.evt_acli.symm, h.aclo_acli.symm]
  · funext hcn
    change update (update (update (update (update (update p.book _ _) _ _) _ _) _ _) _ _) _ _ hcn = _
    simp only [heldBook, update_apply]
    split_ifs <;> rfl

theorem attach_loader_lawful (dev : Device) {ch : Channels} (h : FromPool p ch) :
    Lawful p.book (ops (allocTrace ch ++ openAcloTrace dev ch)) ∧
      run enter p.book (ops (allocTrace ch ++ openAcloTrace dev ch)) = heldBook p ch .lent := by
  constructor
  · refine ⟨HostPool.book_free h.evt, ?_, ?_, ?_, trivial⟩
    all_goals simp [enter, Allowed, HostPool.book_free, h.aclo, h.acli, h.aclo_acli, h.evt_aclo.symm,
      h.evt_acli.symm, h.aclo_acli.symm]
  · funext hcn
    change update (update (update (update p.book _ _) _ _) _ _) _ _ hcn = _
    simp only [heldBook, update_apply]
    split_ifs <;> rfl

theorem Detached.attach (h : Detached p σ) {σ' : Sys} {ch : Channels} (hch : FromPool p ch) {new : Trace}
    (ht : σ'.trace = σ.trace ++ new) (hl : Lawful p.book (ops new))
    (hb : run enter p.book (ops new) = heldBook p ch (sides σ'.bt)) (hh : handles σ'.bt = ch)
    (hf : σ'.bt.loadingFw ≠ 0 → b.firmware.isSome) : Attached b p σ' := by
  rw [← h.back] at hl hb
  refine ⟨lawful_append ht h.lawful hl, hh.symm ▸ hch, ?_, hf⟩
  rw [book_append ht, hb, hh]

theorem Detached.init (h : Detached p σ) (dev : Device) (a : Allocator) {r : UsbhStatus × Sys}
    (hr : r = usbhBtInterfaceInit b dev (a.channels (freeNow p σ)) σ) :
    if r.1 = .ok then Attached b p r.2 else Detached p r.2 := by
  have hch := channels_fromPool p a
  rw [h.all_free] at hr
  simp only [usbhBtInterfaceInit] at hr
  split_ifs at hr with hw hl
  · rw [attach_wireless _ _ _ (by rfl)] at hr
    obtain ⟨hlaw, hrun⟩ := attach_wireless_lawful dev hch
    rw [hr, if_pos rfl]
    exact h.attach hch (List.append_assoc _ _ _) hlaw hrun rfl fun h0 => absurd rfl h0
  · rw [attach_loader _ _ _ (show ¬(1 : Int) = 0 by decide)] at hr
    obtain ⟨hlaw, hrun⟩ := attach_loader_lawful dev hch
    rw [hr, if_pos rfl]
    exact h.attach hch (List.append_assoc _ _ _) hlaw hrun rfl fun _ => hl.1
  · rw [hr, if_neg (show ¬UsbhStatus.notSupported = .ok by decide)]
    exact h.serves rfl ((Extends.refl _ _).concat rfl)

def powerOff (σ : Sys) : Sys := if σ.bt.loadingFw = 0 then σ.emit (.powerControl false) else σ

theorem powerOff_quiet (σ : Sys) :
    (powerOff σ).bt = σ.bt ∧ Extends (fun e => op e = none) σ.trace (powerOff σ).trace := by
  rw [powerOff]
  split
  · exact ⟨rfl, (Extends.refl _ _).concat rfl⟩
  · exact ⟨rfl, .refl _ _⟩

theorem btFreeCh_empty {hcn : BtState → Nat} {reset : BtState → BtState} (h : hcn σ.bt = 0) :
    btFreeCh hcn reset σ = σ := if_neg (not_not.mpr h)

theorem btFreeCh_held (hcn : BtState → Nat) (reset : BtState → BtState) (hl : Lawful p.book (ops σ.trace))
    (h0 : hcn σ.bt ≠ 0) (hs : book p σ (hcn σ.bt) = .lent ∨ book p σ (hcn σ.bt) = .ready) :
    (btFreeCh hcn reset σ).bt = reset σ.bt ∧ Lawful p.book (ops (btFreeCh hcn reset σ).trace) ∧
      book p (btFreeCh hcn reset σ) = update (book p σ) (hcn σ.bt) .free := by
  have ht : (btFreeCh hcn reset σ).trace = σ.trace ++ [.haltChannel (hcn σ.bt), .freeChannel (hcn σ.bt)] := by
    rw [btFreeCh, if_pos h0]
    simp
  obtain ⟨hlaw, hrun⟩ := returned hs
  refine ⟨?_, lawful_append ht hl hlaw, (book_append ht).trans hrun⟩
  rw [btFreeCh, if_pos h0]
  rfl

theorem Detached.deInit (h : Detached p σ) : Detached p (usbhBtInterfaceDeInit σ) := by
  obtain ⟨hbt, he⟩ := powerOff_quiet σ
  have h0 : Detached p (powerOff σ) := h.serves (congrArg handles hbt) he
  obtain ⟨h1, h2, h3⟩ := Channels.mk.inj h0.empty
  change Detached p (btFreeCh (·.acliHcn) _ (btFreeCh (·.acloHcn) _ (btFreeCh (·.evtHcn) _ (powerOff σ))))
  rw [btFreeCh_empty h1, btFreeCh_empty h2, btFreeCh_empty h3]
  exact h0

theorem Attached.deInit (h : Attached b p σ) : Detached p (usbhBtInterfaceDeInit σ) := by
  obtain ⟨hbt, he⟩ := powerOff_quiet σ
  have h0 : Attached b p (powerOff σ) :=
    h.serves ⟨congrArg handles hbt, by rw [hbt], he.mono fun _ he => ⟨_, .inl rfl, .inl he⟩⟩
  change Detached p (btFreeCh (·.acliHcn) _ (btFreeCh (·.acloHcn) _ (btFreeCh (·.evtHcn) _ (powerOff σ))))
  generalize powerOff σ = τ at h0 ⊢
  have hf := h0.fromPool
  have hpos {hcn : Nat} (hmem : hcn ∈ p.free) : hcn ≠ 0 := fun h0 => p.nonzero (h0 ▸ hmem)
  have hsides : sides τ.bt = .lent ∨ sides τ.bt = .ready := by
    rw [sides]
    split <;> simp
  have hevt : book p τ τ.bt.evtHcn = sides τ.bt := h0.held ▸ heldBook_evt hf _
  have haclo : book p τ τ.bt.acloHcn = .ready := h0.held ▸ heldBook_aclo p _ _
  have hacli : book p τ τ.bt.acliHcn = sides τ.bt := h0.held ▸ heldBook_acli hf _
  obtain ⟨hbt1, hl1, hb1⟩ := btFreeCh_held (·.evtHcn) ({ · with evtHcn := 0 }) h0.lawful (hpos hf.evt) (hevt ▸ hsides)
  generalize btFreeCh _ _ τ = τ1 at hbt1 hl1 hb1 ⊢
  have haclo1 : book p τ1 τ1.bt.acloHcn = .ready := by
    rw [hb1, hbt1]
    exact (update_of_ne hf.evt_aclo.symm _ _).trans haclo
  obtain ⟨hbt2, hl2, hb2⟩ := btFreeCh_held (·.acloHcn) ({ · with acloHcn := 0 }) hl1 (hbt1 ▸ hpos hf.aclo) (.inr haclo1)
  generalize btFreeCh _ _ τ1 = τ2 at hbt2 hl2 hb2 ⊢
  have hacli2 : book p τ2 τ2.bt.acliHcn = sides τ.bt := by
    rw [hb2, hb1, hbt2, hbt1]
    exact (update_of_ne hf.aclo_acli.symm _ _).trans ((update_of_ne hf.evt_acli.symm _ _).trans hacli)
  obtain ⟨hbt3, hl3, hb3⟩ := btFreeCh_held (·.acliHcn) ({ · with acliHcn := 0 }) hl2 (hbt2 ▸ hbt1 ▸ hpos hf.acli)
    (hacli2 ▸ hsides)
  refine ⟨hl3, ?_, by rw [hbt3, hbt2, hbt1]; rfl⟩
  rw [hb3, hb2, hb1, hbt2, hbt1, h0.held]
  exact heldBook_returned hf _

def CoreInv (b : Build) (p : HostPool) (w : Core) : Prop :=
  match w.phase with
  | .detached | .refused => Detached p w.sys
  | .attached | .hung => Attached b p w.sys

theorem CoreInv.lawful {w : Core} (h : CoreInv b p w) : Lawful p.book (ops w.sys.trace) := by
  obtain ⟨σ, phase⟩ := w
  cases phase with
  | detached | refused => exact Detached.lawful h
  | attached | hung => exact Attached.lawful h

theorem classRequest_serves (σ : Sys) : Serves σ (usbhBtClassRequest σ).2 := by
  rw [usbhBtClassRequest]
  split
  · exact (Serves.refl σ).silent rfl
  · exact .refl σ

theorem react_inv {w : Core} (h : CoreInv b p w) (x : Callback) (ho : InOrder w x) : CoreInv b p (react b p w x) := by
  obtain ⟨σ, phase⟩ := w
  cases x with
  | init dev a =>
      obtain rfl : phase = .detached := ho
      have hi := Detached.init h (b := b) dev a rfl
      simp only [react]
      split_ifs at hi ⊢ with hr
      · exact hi
      · exact hi
  | classRequest =>
      obtain rfl : phase = .attached := ho
      exact Attached.serves h (classRequest_serves σ)
  | poll u rd =>
      obtain rfl : phase = .attached := ho
      have hs := Attached.serves h (poll_serves b u rd (Attached.loader h))
      simp only [react]
      split_ifs
      · exact hs
      · exact hs
  | call u x =>
      have ha := u.polite.call σ x
      have hs : Serves σ (u.client.call σ x) := call_serves u σ x
      cases phase with
      | detached | refused => exact Detached.serves h hs.handles (ha.events.mono fun _ he => op_client he)
      | attached => exact Attached.serves h hs
      | hung => exact absurd rfl ho
  | deInit =>
      cases phase with
      | detached | refused => exact Detached.deInit h
      | attached => exact Attached.deInit h
      | hung => exact absurd rfl ho

theorem run_inv {callbacks : List Callback} (h : Along (react b p) InOrder powerUp callbacks) :
    CoreInv b p (run (react b p) powerUp callbacks) :=
  run_invariant (I := CoreInv b p) (fun _ x hw ho => react_inv hw x ho) ⟨trivial, rfl, rfl⟩ h

/-- In any number of sessions no channel is lost and none is touched that is
not held: a channel is taken when it is free, used when it is open, stopped
when it is held, and given back when it is stopped. A dongle that is accepted
gets three of them, and when it is gone the pool is as it was. -/
theorem channels_come_back (b : Build) (p : HostPool) (callbacks : List Callback)
    (h : Along (react b p) InOrder powerUp callbacks) :
    let w := run (react b p) powerUp callbacks
    Lawful p.book (ops w.sys.trace) ∧ (w.phase = .attached → FromPool p (handles w.sys.bt)) ∧
      (w.phase = .detached → handles w.sys.bt = ⟨0, 0, 0⟩ ∧ book p w.sys = p.book ∧ freeNow p w.sys = p.free ∧
        ∀ hcn, (ops w.sys.trace).count (.stop hcn) = (ops w.sys.trace).count (.acquire hcn) ∧
          (ops w.sys.trace).count (.release hcn) = (ops w.sys.trace).count (.acquire hcn)) := by
  intro w
  have hw : CoreInv b p w := run_inv h
  refine ⟨hw.lawful, ?_, ?_⟩
  · intro hp
    rw [CoreInv, hp] at hw
    exact Attached.fromPool hw
  · intro hp
    rw [CoreInv, hp] at hw
    exact ⟨Detached.empty hw, Detached.back hw, Detached.all_free hw,
      fun hcn => once_each (Detached.lawful hw) (congrFun (Detached.back hw) hcn)⟩

def lowest : Allocator where
  pick free := if h : free.Nonempty then free.min' h else 0
  pick_mem free h := by
    rw [dif_pos h]
    exact free.min'_mem h

/-- Of eight channels the control pipe has two. -/
def eight : HostPool := { free := {2, 3, 4, 5, 6, 7}, nonzero := by decide, enough := by decide }

def stack : User := { client := h2Client, polite := h2Client_polite }

/-- The core cleans up once before the first dongle and twice behind it, and
the second device is a modem without firmware. -/
def twoDongles : List Callback :=
  [.deInit, .init dongle lowest, .classRequest, .poll stack (loaderPoll .ok []), .deInit, .deInit,
    .init ar3011 lowest, .deInit, .init dongle lowest, .poll stack (loaderPoll .ok []), .deInit]

theorem two_dongles_leave_no_trace :
    freeNow eight (run (react plain eight) powerUp twoDongles).sys = {2, 3, 4, 5, 6, 7} :=
  ((channels_come_back plain eight twoDongles (by decide +kernel)).2.2 (by decide +kernel)).2.2.1

end Uubt.Lifecycle
