import Mathlib.Data.List.Chain
import Uubt.Lifecycle
import Uubt.LoaderMoves

namespace Uubt.Power

open History HostLibrary Driver Transport Endpoints Clients ClassDriver Moves Frames Sessions FirmwareLoading Runs
  Lifecycle LoaderMoves

def power : Event → Option Bool
  | .powerControl on => some on
  | _ => none

def powers (t : Trace) : List Bool := t.filterMap power

/-- The calls alternate strictly, and the first one is HCI_POWER_ON: it comes
behind an OFF, as it were. -/
def Paired (l : List Bool) : Prop := (false :: l).IsChain (· ≠ ·)

instance (l : List Bool) : Decidable (Paired l) := inferInstanceAs (Decidable ((false :: l).IsChain (· ≠ ·)))

def lastOn (l : List Bool) : Bool := l.getLast?.getD false

/-- The core with what has happened in the session so far. -/
structure Session where
  core : Core
  device : Option Device
  requested : Bool

def follow (b : Build) (p : HostPool) (w : Session) (x : Callback) : Session :=
  let core := Lifecycle.react b p w.core x
  match x with
  | .init dev _ => ⟨core, some dev, false⟩
  | .classRequest => ⟨core, w.device, true⟩
  | .poll _ _ | .call _ _ => ⟨core, w.device, w.requested⟩
  | .deInit => ⟨core, none, false⟩

/-- The order of the host core, with one class request in a session at
most. -/
def Ordered (w : Session) (x : Callback) : Prop :=
  InOrder w.core x ∧ match x with
    | .classRequest => w.requested = false
    | _ => True

instance (w : Session) : ∀ x, Decidable (Ordered w x)
  | .classRequest => inferInstanceAs (Decidable (InOrder w.core .classRequest ∧ w.requested = false))
  | .init dev a => inferInstanceAs (Decidable (InOrder w.core (.init dev a) ∧ True))
  | .poll u rd => inferInstanceAs (Decidable (InOrder w.core (.poll u rd) ∧ True))
  | .call u x => inferInstanceAs (Decidable (InOrder w.core (.call u x) ∧ True))
  | .deInit => inferInstanceAs (Decidable (InOrder w.core .deInit ∧ True))

def beginning : Session := ⟨Lifecycle.powerUp, none, false⟩

def Session.powers (w : Session) : List Bool := Power.powers w.core.sys.trace

/-- A callback that switches on does so for a wireless dongle. -/
def OnlyWireless (b : Build) (p : HostPool) (w : Session) (x : Callback) : Prop :=
  (follow b p w x).powers = w.powers ++ [true] → ∃ dev, w.device = some dev ∧ dev.bInterfaceClass = wirelessClass

/-- A dongle that leaves in normal mode has been through its class request. -/
def LeavesRequested (w : Session) : Callback → Prop
  | .deInit => w.core.sys.bt.loadingFw = 0 → w.requested = true
  | _ => True

instance (w : Session) : ∀ x, Decidable (LeavesRequested w x)
  | .deInit => inferInstanceAs (Decidable (w.core.sys.bt.loadingFw = 0 → w.requested = true))
  | .init _ _ | .classRequest | .poll _ _ | .call _ _ => inferInstanceAs (Decidable True)

theorem paired_concat (l : List Bool) (on : Bool) : Paired (l ++ [on]) ↔ Paired l ∧ on = !lastOn l := by
  rw [Paired, ← List.cons_append, List.isChain_append]
  simp only [List.getLast?_cons, Option.mem_def, Option.some.injEq, List.head?_cons, List.IsChain.singleton, true_and]
  rw [Paired, lastOn]
  cases l.getLast?.getD false <;> cases on <;> simp

@[simp] theorem lastOn_concat (l : List Bool) (on : Bool) : lastOn (l ++ [on]) = on := by simp [lastOn]

@[simp] theorem powers_append (t t' : Trace) : powers (t ++ t') = powers t ++ powers t' := List.filterMap_append

/-- What does not switch the stack on or off. -/
def Quiet (σ σ' : Sys) : Prop := Extends (fun e => power e = none) σ.trace σ'.trace

variable {c : Client} {σ σ' : Sys}

theorem Quiet.powers_eq (h : Quiet σ σ') : powers σ'.trace = powers σ.trace := by
  obtain ⟨new, ht, hn⟩ := h
  rw [ht, powers_append, show powers new = [] from List.filterMap_eq_nil_iff.mpr hn, List.append_nil]

theorem Quiet.refl (σ : Sys) : Quiet σ σ := Extends.refl _ _

theorem Quiet.trans {σ'' : Sys} (h : Quiet σ σ') (h' : Quiet σ' σ'') : Quiet σ σ'' := Extends.trans h h'

theorem Quiet.emit (h : Quiet σ σ') {e : Event} (he : power e = none) : Quiet σ (σ'.emit e) := Extends.concat h he

theorem power_owner {e : Event} (h : e.owner ≠ .callbacks) : power e = none := by
  cases e with
  | powerControl => exact absurd rfl h
  | _ => rfl

theorem works_quiet {o : Owner} (h : Works o σ σ') (ho : o ≠ .callbacks) : Quiet σ σ' := by
  refine h.events.mono fun e he => power_owner ?_
  rcases he with he | he
  · exact he ▸ ho
  · exact he ▸ (by decide)

theorem clientAct_quiet (h : ClientAct σ σ') : Quiet σ σ' :=
  h.events.mono fun e he => power_owner (by rw [show e.owner = .client from he]; decide)

theorem step_quiet (hc : Polite c) (σ : Sys) (s : Step) : Quiet σ (step c σ s) := by
  cases s with
  | call x => exact clientAct_quiet (hc.call σ x)
  | cmd rd => exact works_quiet (cmd_works hc rd σ) (by decide)
  | evt rd => exact works_quiet (evt_works hc rd σ) (by decide)
  | aclo rd => exact works_quiet (aclo_works hc none rd σ) (by decide)
  | acli rd => exact works_quiet (acli_works hc rd σ) (by decide)

theorem fwSetup_quiet (img : Firmware) (rd : CmdReadings) (σ : Sys) : Quiet σ (fwSetup img rd σ) := by
  have hh : Quiet σ (fwHeader img σ) := by
    rw [fwHeader]
    split
    · exact (Quiet.refl σ).emit rfl
    · exact .refl σ
  have hreq : Quiet σ (fwRequest img rd.st σ) := hh.emit rfl
  rw [fwSetup_eq]
  split_ifs <;> exact hreq

theorem pass_quiet {img : Firmware} {rd : FwReadings} {n : Option Int} {p : Pass} (hm : PassMove img rd n σ p) :
    Quiet σ (after p) := by
  have hread : Quiet σ (acloRead rd.aclo σ) := (Quiet.refl σ).emit rfl
  cases hm with
  | leave | lost => exact .refl σ
  | stage | submit => exact (Quiet.refl σ).emit rfl
  | done | wait => exact hread
  | clear | stalled => exact hread.emit rfl

theorem poll_quiet (b : Build) (hc : Polite c) (rd : PollReadings) (σ : Sys) :
    Quiet σ (usbhBtStMachine b c rd σ).sys :=
  usbhBtStMachine_preserves (I := Quiet σ) rd (fun _ τ s hs => hs.trans (step_quiet hc τ s))
    (fun img _ _ => fwSetup_quiet img rd.cmd σ) (fun _ _ _ _ _ _ _ hs hm => hs.trans (pass_quiet hm)) (.refl σ)

theorem attach_quiet (dev : Device) (ch : Channels) (σ : Sys) : Quiet σ (attach dev ch σ) := by
  have halloc : Quiet σ (allocChannels ch σ) := (((Quiet.refl σ).emit rfl).emit rfl).emit rfl
  change Quiet σ (openChannels dev (allocChannels ch σ))
  rw [openChannels]
  split
  · exact ((halloc.emit rfl).emit rfl).emit rfl
  · exact halloc.emit rfl

/-- All that USBH_BT_InterfaceInit can make of a device. -/
inductive InitMove (b : Build) (dev : Device) (σ : Sys) : UsbhStatus × Sys → Prop
  | wireless {σ' : Sys} (hdev : dev.bInterfaceClass = wirelessClass) (h0 : σ'.bt.loadingFw = 0) (hq : Quiet σ σ') :
      InitMove b dev σ (.ok, σ')
  | loader {σ' : Sys} (hb : b.firmware.isSome) (h1 : σ'.bt.loadingFw = 1) (hq : Quiet σ σ') :
      InitMove b dev σ (.ok, σ')
  | refused {σ' : Sys} (hbt : σ'.bt = σ.bt) (hq : Quiet σ σ') : InitMove b dev σ (.notSupported, σ')

theorem init_moves (b : Build) (dev : Device) (ch : Channels) (σ : Sys) :
    InitMove b dev σ (usbhBtInterfaceInit b dev ch σ) := by
  rw [usbhBtInterfaceInit]
  split_ifs with hdev hload
  · refine .wireless hdev ?_ (attach_quiet dev ch _)
    rw [attach_wireless _ _ _ (by rfl)]
    rfl
  · refine .loader hload.1 ?_ (attach_quiet dev ch _)
    rw [attach_loader _ _ _ (show ¬(1 : Int) = 0 by decide)]
    rfl
  · exact .refused rfl ((Quiet.refl σ).emit rfl)

theorem btFreeCh_quiet (hcn : BtState → Nat) (reset : BtState → BtState) (σ : Sys) :
    Quiet σ (btFreeCh hcn reset σ) := by
  rw [btFreeCh]
  split
  · exact ((Quiet.refl σ).emit rfl).emit rfl
  · exact .refl σ

theorem btFreeCh_loadingFw (hcn : BtState → Nat) {reset : BtState → BtState}
    (hr : ∀ bt, (reset bt).loadingFw = bt.loadingFw) (σ : Sys) :
    (btFreeCh hcn reset σ).bt.loadingFw = σ.bt.loadingFw := by
  rw [btFreeCh]
  split
  · exact hr _
  · rfl

theorem deInit_powers (σ : Sys) : powers (usbhBtInterfaceDeInit σ).trace =
    if σ.bt.loadingFw = 0 then powers σ.trace ++ [false] else powers σ.trace := by
  have hfree (τ : Sys) : Quiet τ (btFreeCh (·.acliHcn) ({ · with acliHcn := 0 })
      (btFreeCh (·.acloHcn) ({ · with acloHcn := 0 }) (btFreeCh (·.evtHcn) ({ · with evtHcn := 0 }) τ))) :=
    ((btFreeCh_quiet _ _ _).trans (btFreeCh_quiet _ _ _)).trans (btFreeCh_quiet _ _ _)
  rw [usbhBtInterfaceDeInit, (hfree _).powers_eq]
  split
  · exact powers_append _ _
  · rfl

theorem deInit_loadingFw (σ : Sys) : (usbhBtInterfaceDeInit σ).bt.loadingFw = σ.bt.loadingFw := by
  have hoff : (if σ.bt.loadingFw = 0 then σ.emit (.powerControl false) else σ).bt = σ.bt := by split <;> rfl
  have hfree {hcn : BtState → Nat} {reset : BtState → BtState} {τ : Sys} (hτ : τ.bt.loadingFw = σ.bt.loadingFw)
      (hr : ∀ bt, (reset bt).loadingFw = bt.loadingFw) : (btFreeCh hcn reset τ).bt.loadingFw = σ.bt.loadingFw :=
    (btFreeCh_loadingFw hcn hr τ).trans hτ
  exact hfree (hfree (hfree (congrArg BtState.loadingFw hoff) (by intro; rfl)) (by intro; rfl)) (by intro; rfl)

theorem classRequest_powers (σ : Sys) : powers (usbhBtClassRequest σ).2.trace =
    if σ.bt.loadingFw = 0 then powers σ.trace ++ [true] else powers σ.trace := by
  rw [usbhBtClassRequest]
  split
  · exact powers_append _ _
  · rfl

theorem classRequest_bt (σ : Sys) : (usbhBtClassRequest σ).2.bt = σ.bt := by
  rw [usbhBtClassRequest]
  split <;> rfl

/-- The stack is on exactly in a session in normal mode behind its class
request. -/
structure Sound (b : Build) (w : Session) : Prop where
  loader : w.core.sys.bt.loadingFw ≠ 0 → b.firmware.isSome
  wireless : w.core.phase = .attached → w.core.sys.bt.loadingFw = 0 →
    ∃ dev, w.device = some dev ∧ dev.bInterfaceClass = wirelessClass
  fresh : w.core.phase = .detached → w.requested = false
  powered : lastOn w.powers = true ↔ w.requested = true ∧ w.core.sys.bt.loadingFw = 0

variable {b : Build} {p : HostPool} {w : Session}

theorem sound_beginning (b : Build) : Sound b beginning where
  loader h := absurd rfl h
  wireless h := by cases h
  fresh _ := rfl
  powered := by decide

/-- What keeps the stack and the mode as they are. -/
theorem Sound.quiet (hw : Sound b w) {τ : Sys} (hq : Quiet w.core.sys τ)
    (hn : τ.bt.loadingFw = 0 ↔ w.core.sys.bt.loadingFw = 0) {phase : Phase}
    (hp : phase = w.core.phase ∨ phase = .hung) : Sound b { w with core := ⟨τ, phase⟩ } where
  loader h := hw.loader (mt hn.mpr h)
  wireless h h0 := by
    rcases hp with rfl | rfl
    · exact hw.wireless h (hn.mp h0)
    · cases h
  fresh h := by
    rcases hp with rfl | rfl
    · exact hw.fresh h
    · cases h
  powered := by
    have hsame : Session.powers { w with core := ⟨τ, phase⟩ } = w.powers := hq.powers_eq
    rw [hsame, hn]
    exact hw.powered

theorem Sound.off (hw : Sound b w) (hr : w.requested = false) : lastOn w.powers = false := by
  rw [Bool.eq_false_iff, Ne, hw.powered, hr]
  simp

/-- A session without its class request. -/
theorem Sound.unrequested (hoff : lastOn (powers σ.trace) = false) (hl : σ.bt.loadingFw ≠ 0 → b.firmware.isSome)
    {phase : Phase} {dev : Option Device} (hdev : phase = .attached → σ.bt.loadingFw = 0 →
      ∃ d, dev = some d ∧ d.bInterfaceClass = wirelessClass) : Sound b ⟨⟨σ, phase⟩, dev, false⟩ where
  loader := hl
  wireless := hdev
  fresh _ := rfl
  powered := by
    rw [show Session.powers ⟨⟨σ, phase⟩, dev, false⟩ = powers σ.trace from rfl, hoff]
    simp

theorem follow_sound (hw : Sound b w) (x : Callback) (ho : Ordered w x) : Sound b (follow b p w x) := by
  obtain ⟨⟨σ, phase⟩, dev, requested⟩ := w
  obtain ⟨hin, honce⟩ := ho
  cases x with
  | init d a =>
      have hoff : lastOn (powers σ.trace) = false := hw.off (hw.fresh hin)
      have hm := init_moves b d (a.channels (freeNow p σ)) σ
      simp only [follow, Lifecycle.react]
      generalize usbhBtInterfaceInit b d (a.channels (freeNow p σ)) σ = r at hm ⊢
      cases hm with
      | wireless hdev h0 hq =>
          exact .unrequested (hq.powers_eq ▸ hoff) (fun h => absurd h0 h) fun _ _ => ⟨d, rfl, hdev⟩
      | loader hb h1 hq =>
          exact .unrequested (hq.powers_eq ▸ hoff) (fun _ => hb) fun _ h0 => absurd (h1.symm.trans h0) (by decide)
      | refused hbt hq =>
          exact .unrequested (hq.powers_eq ▸ hoff) (hbt ▸ hw.loader) fun h => by cases h
  | classRequest =>
      have hphase : phase = .attached := hin
      have hoff : lastOn (powers σ.trace) = false := hw.off honce
      have hbt := classRequest_bt σ
      refine ⟨fun h => hw.loader (hbt ▸ h), fun _ h0 => hw.wireless hin (hbt ▸ h0), ?_, ?_⟩
      · intro h
        rw [hphase] at h
        cases h
      · change lastOn (powers (usbhBtClassRequest σ).2.trace) = true ↔
          true = true ∧ (usbhBtClassRequest σ).2.bt.loadingFw = 0
        rw [classRequest_powers, hbt]
        split_ifs with h0
        · simp [h0]
        · simp [h0, hoff]
  | poll u rd =>
      have hs := poll_serves b u rd hw.loader
      refine hw.quiet (poll_quiet b u.polite rd σ) hs.normal ?_
      split_ifs
      · exact .inl rfl
      · exact .inr rfl
  | call u x =>
      have hs := call_serves u σ x
      exact hw.quiet (clientAct_quiet (u.polite.call σ x)) hs.normal (.inl rfl)
  | deInit =>
      have hl := deInit_loadingFw σ
      refine .unrequested ?_ (hl ▸ hw.loader) fun h => by cases h
      rw [deInit_powers]
      split_ifs with h0
      · exact lastOn_concat _ _
      · rw [Bool.eq_false_iff, Ne]
        exact fun h => h0 (hw.powered.mp h).2

theorem follow_paired (hw : Sound b w) (x : Callback) (ho : Ordered w x) :
    Paired (follow b p w x).powers ↔ Paired w.powers ∧ LeavesRequested w x := by
  obtain ⟨⟨σ, phase⟩, dev, requested⟩ := w
  obtain ⟨hin, honce⟩ := ho
  have hsame {τ : Sys} (hq : Quiet σ τ) : Paired (powers τ.trace) ↔ Paired (powers σ.trace) ∧ True := by
    rw [hq.powers_eq, and_true]
  cases x with
  | init d a =>
      have hm := init_moves b d (a.channels (freeNow p σ)) σ
      change Paired (powers (usbhBtInterfaceInit b d (a.channels (freeNow p σ)) σ).2.trace) ↔ _
      generalize usbhBtInterfaceInit b d (a.channels (freeNow p σ)) σ = r at hm ⊢
      cases hm with
      | wireless _ _ hq | loader _ _ hq | refused _ hq => exact hsame hq
  | classRequest =>
      have hoff : lastOn (powers σ.trace) = false := hw.off honce
      change Paired (powers (usbhBtClassRequest σ).2.trace) ↔ Paired (powers σ.trace) ∧ True
      rw [classRequest_powers]
      split_ifs
      · rw [paired_concat, hoff]
        simp
      · simp
  | poll u rd => exact hsame (poll_quiet b u.polite rd σ)
  | call u x => exact hsame (clientAct_quiet (u.polite.call σ x))
  | deInit =>
      change Paired (powers (usbhBtInterfaceDeInit σ).trace) ↔ Paired (powers σ.trace) ∧ (σ.bt.loadingFw = 0 → _)
      rw [deInit_powers]
      split_ifs with h0
      · have hon : lastOn (powers σ.trace) = true ↔ requested = true ∧ σ.bt.loadingFw = 0 := hw.powered
        have hoff : (false = !lastOn (powers σ.trace)) ↔ requested = true := by
          rw [eq_comm, Bool.not_eq_false', hon, and_iff_left h0]
        rw [paired_concat, hoff, imp_iff_right h0]
      · simp [h0]

theorem follow_wireless (hw : Sound b w) (x : Callback) (ho : Ordered w x) : OnlyWireless b p w x := by
  obtain ⟨⟨σ, phase⟩, dev, requested⟩ := w
  have hquiet {τ : Sys} (hq : Quiet σ τ) : powers τ.trace ≠ powers σ.trace ++ [true] := by
    rw [hq.powers_eq]
    simp
  cases x with
  | init d a =>
      have hm := init_moves b d (a.channels (freeNow p σ)) σ
      intro h
      change powers (usbhBtInterfaceInit b d (a.channels (freeNow p σ)) σ).2.trace = _ at h
      generalize usbhBtInterfaceInit b d (a.channels (freeNow p σ)) σ = r at hm h
      cases hm with
      | wireless _ _ hq | loader _ _ hq | refused _ hq => exact absurd h (hquiet hq)
  | classRequest =>
      intro h
      change powers (usbhBtClassRequest σ).2.trace = powers σ.trace ++ [true] at h
      rw [classRequest_powers] at h
      split_ifs at h with h0
      · exact hw.wireless ho.1 h0
      · simp at h
  | poll u rd => exact fun h => absurd h (hquiet (poll_quiet b u.polite rd σ))
  | call u x => exact fun h => absurd h (hquiet (clientAct_quiet (u.polite.call σ x)))
  | deInit =>
      intro h
      change powers (usbhBtInterfaceDeInit σ).trace = powers σ.trace ++ [true] at h
      rw [deInit_powers] at h
      split_ifs at h
      · simp at h
      · simp at h

theorem run_paired (hw : Sound b w) {callbacks : List Callback} (h : Along (follow b p) Ordered w callbacks) :
    Paired (run (follow b p) w callbacks).powers ↔
      Paired w.powers ∧ Along (follow b p) LeavesRequested w callbacks := by
  induction callbacks generalizing w with
  | nil => simp [Along]
  | cons x xs ih =>
      rw [run_cons, ih (follow_sound hw x h.1) h.2, follow_paired hw x h.1, Along, and_assoc]

theorem run_wireless (hw : Sound b w) {callbacks : List Callback} (h : Along (follow b p) Ordered w callbacks) :
    Along (follow b p) (OnlyWireless b p) w callbacks := by
  induction callbacks generalizing w with
  | nil => trivial
  | cons x xs ih => exact ⟨follow_wireless hw x h.1, ih (follow_sound hw x h.1) h.2⟩

/-- Over any number of dongles the stack is switched on for wireless ones
only, and on and off in turn exactly if no dongle leaves in normal mode
without its class request. -/
theorem powers_paired_iff (b : Build) (p : HostPool) (callbacks : List Callback)
    (h : Along (follow b p) Ordered beginning callbacks) :
    Paired (run (follow b p) beginning callbacks).powers ∧
        Along (follow b p) (OnlyWireless b p) beginning callbacks ↔
      Along (follow b p) LeavesRequested beginning callbacks := by
  have hw := sound_beginning b
  have hstart : Paired beginning.powers := List.isChain_singleton false
  rw [and_iff_left (run_wireless hw h), run_paired hw h, and_iff_right hstart]

def twoSessions : List Callback :=
  [.init dongle lowest, .classRequest, .poll stack (loaderPoll .ok []), .deInit, .init ar3011 lowest, .classRequest,
    .poll stack (loaderPoll .ok []), .deInit, .init dongle lowest, .classRequest, .deInit]

def loaderBuild : Build := { firmware := some smallImage, keepsN := true }

theorem two_sessions_paired : Paired (run (follow loaderBuild eight) beginning twoSessions).powers :=
  ((powers_paired_iff loaderBuild eight twoSessions (by decide +kernel)).mpr (by decide +kernel)).1

/-- A dongle that goes away before its class request switches off what has
never been on. -/
theorem early_detachment_switches_off :
    Along (follow plain eight) Ordered beginning [.init dongle lowest, .deInit] ∧
      ¬Paired (run (follow plain eight) beginning [.init dongle lowest, .deInit]).powers := by
  decide +kernel

end Uubt.Power
