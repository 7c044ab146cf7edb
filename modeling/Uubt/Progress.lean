import Uubt.StallRecovery

namespace Uubt.Progress

open History HostLibrary Driver Transport Endpoints Clients ClassDriver Moves Frames Sessions Runs Channels

/-- A poll at a time that is counted in frames. The frame number that the
hardware reports for it wraps. -/
structure TimedPoll where
  time : Nat
  rd : PollReadings

def TimedPoll.moves (p : TimedPoll) : List Move :=
  pollMoves { p.rd with evt := { p.rd.evt with frame := p.time % frnumPeriod } }

def Advancing (now : Nat) (polls : List TimedPoll) : Prop :=
  (now :: polls.map TimedPoll.time).Pairwise (· < ·)

/-- The machine of an endpoint waits for a transfer whose state says nothing
to it. -/
structure DeadEnd (ep : Ep) (σ : Sys) : Prop where
  waiting : phase ep σ.bt = .waiting
  notDone : (log ep σ).urb ≠ .done
  notStall : (log ep σ).urb ≠ .stall

variable {ep : Ep} {σ σ' : Sys}

theorem deadEnd_turn (h : DeadEnd ep σ) {s : Step} (ht : Turn ep (.driver s) σ σ') (hep : ep ≠ .evt) :
    DeadEnd ep σ' := by
  cases ht with
  | rest hp ht =>
      have hl := log_rest ht
      exact ⟨hp.trans h.waiting, hl ▸ h.notDone, hl ▸ h.notStall⟩
  | arm hp | submit _ _ _ hp => exact absurd (hp.symm.trans h.waiting) (by decide)
  | abandon _ _ _ hev => exact absurd hev hep
  | deliver _ _ _ _ hu | sent _ hu => exact absurd hu h.notDone
  | clear _ _ hu => exact absurd hu h.notStall
  | reported _ _ hm => contradiction

/-- Nothing that the driver does leads out of it. -/
theorem deadEnd_run {c : Client} (hc : Polite c) (h : DeadEnd ep σ) (hep : ep ≠ .evt) (steps : List Step) :
    DeadEnd ep (run (world c) σ (steps.map .driver)) := by
  rw [run_map]
  exact run_preserves (I := DeadEnd ep) (fun τ s hd => deadEnd_turn hd (world_turn hc ep τ _) hep) h steps

def DeadlineSet (σ : Sys) : Prop := σ.bt.evtState = 1 → σ.bt.evtTmo < frnumPeriod

theorem deadlineSet_works {o : Owner} (h : DeadlineSet σ) (hw : Works o σ σ') (ho : o ≠ .evt) :
    DeadlineSet σ' := by
  obtain ⟨hs, ht⟩ := hw.frame.evt ho
  rw [DeadlineSet, hs, ht]
  exact h

theorem deadlineSet_evt (c : Client) (h : DeadlineSet σ) (rd : EvtReadings) :
    DeadlineSet (usbBtEvtProcess c rd σ).2 := by
  have hm := evt_moves c rd σ
  generalize (usbBtEvtProcess c rd σ).2 = σ' at hm ⊢
  cases hm with
  | submit => exact fun _ => Nat.mod_lt _ (by decide)
  | expire | clear | deliver | rearm => exact fun h1 => absurd h1 (by simp)
  | stalled | wait | rest | lost => exact h

theorem deadlineSet_world {c : Client} (hc : Polite c) (h : DeadlineSet σ) (m : Move) :
    DeadlineSet (world c σ m) := by
  cases m with
  | hardware ep urb data =>
      rw [world]
      split <;> exact h
  | driver s =>
      cases s with
      | call x => exact deadlineSet_works h (clientAct_works (hc.call σ x) .client) (by decide)
      | cmd rd => exact deadlineSet_works h (cmd_works hc rd σ) (by decide)
      | evt rd => exact deadlineSet_evt c h _
      | aclo rd => exact deadlineSet_works h (aclo_works hc none _ σ) (by decide)
      | acli rd => exact deadlineSet_works h (acli_works hc _ σ) (by decide)

theorem evt_waiting (bt : BtState) : phase .evt bt = .waiting ↔ bt.evtState = 1 := by
  unfold phase evtPhase
  split_ifs <;> simp_all

theorem aclo_waiting (bt : BtState) : phase .aclo bt = .waiting ↔ bt.acloBusy ≠ 0 ∧ bt.acloState = 1 := by
  unfold phase aclPhase
  split_ifs <;> simp_all

theorem acli_waiting (bt : BtState) : phase .acli bt = .waiting ↔ bt.acliState = 1 := by
  unfold phase aclPhase
  split_ifs <;> simp_all

theorem evt_leaves (c : Client) {rd : EvtReadings} (hp : phase .evt σ.bt = .waiting) (hd : due rd σ) :
    phase .evt (usbBtEvtProcess c rd σ).2.bt ≠ .waiting := by
  have h1 := (evt_waiting _).mp hp
  have hm := evt_moves c rd σ
  generalize (usbBtEvtProcess c rd σ).2 = σ' at hm ⊢
  rw [Ne, evt_waiting]
  cases hm with
  | expire => simp
  | submit h0 => rw [h1] at h0; contradiction
  | rearm h2 | rest h2 => rw [h1] at h2; contradiction
  | lost _ hn => exact absurd h1 hn
  | deliver _ hn | clear _ hn | stalled _ hn | wait _ hn => exact absurd hd hn

theorem aclo_leaves (c : Client) {rd : AcloReadings} (hp : phase .aclo σ.bt = .waiting)
    (hu : rd.urb = .done ∨ rd.urb = .stall) (hk : rd.clr = .ok) :
    phase .aclo (usbBtAcloProcess c none rd σ).2.bt ≠ .waiting := by
  obtain ⟨hb, h1⟩ := (aclo_waiting _).mp hp
  have hm := aclo_moves c none rd σ
  generalize (usbBtAcloProcess c none rd σ).2 = σ' at hm ⊢
  rw [Ne, aclo_waiting]
  cases hm with
  | done | clear => simp
  | idle h0 => exact absurd h0 hb
  | submit _ h0 => rw [h1] at h0; contradiction
  | stalled _ _ _ hn => exact absurd hk hn
  | wait _ _ hn hs => exact absurd hu (not_or.mpr ⟨hn, hs⟩)
  | lost _ _ hn => exact absurd h1 hn

theorem acli_leaves (c : Client) {rd : AcliReadings} (hp : phase .acli σ.bt = .waiting)
    (hu : rd.urb = .done ∨ rd.urb = .stall) (hk : rd.clr = .ok) :
    phase .acli (usbBtAcliProcess c rd σ).2.bt ≠ .waiting := by
  have h1 := (acli_waiting _).mp hp
  have hm := acli_moves c rd σ
  generalize (usbBtAcliProcess c rd σ).2 = σ' at hm ⊢
  rw [Ne, acli_waiting]
  cases hm with
  | deliver | clear => simp
  | submit h0 => rw [h1] at h0; contradiction
  | stalled _ _ hn => exact absurd hk hn
  | wait _ hn hs => exact absurd hu (not_or.mpr ⟨hn, hs⟩)
  | lost _ hn => exact absurd h1 hn

theorem works_waiting {o : Owner} (h : Works o σ σ') (ho : o ≠ ep.owner) :
    phase ep σ'.bt = .waiting ↔ phase ep σ.bt = .waiting := by
  rcases works_phase h ho with hp | ⟨hp, hp'⟩
  · rw [hp]
  · simp [hp, hp']

theorem works_log {o : Owner} (h : Works o σ σ') (ho : o ≠ ep.owner) (hh : o ≠ .hardware) :
    log ep σ' = log ep σ :=
  log_rest (works_neutral h ho hh)

def clearingPoll : PollReadings where
  cmd := { st := .busy, calls := [] }
  evt := { frame := 0, urb := .idle, received := [], clr := .ok, calls := [] }
  aclo := { urb := .idle, clr := .ok, calls := [] }
  acli := { urb := .idle, received := [], clr := .ok, calls := [] }
  loop := []

theorem fnDiff_self {n : Nat} (hn : n < frnumPeriod) : fnDiff (uint16 n) n = 0 := by
  have h16 : n < 65536 := Nat.lt_trans hn (by decide)
  have hself : (frnumPeriod : Int) + n - n = frnumPeriod := by omega
  rw [uint16_natCast h16, fnDiff, hself]
  decide

variable {c : Client}

/-- The event machine always leaves: some later frame number is its
deadline. -/
theorem evt_poll_leaves (hc : Polite c) (hp : phase .evt σ.bt = .waiting) (hd : DeadlineSet σ) {time : Nat}
    (ht : time % frnumPeriod = σ.bt.evtTmo) :
    phase .evt (run (world c) σ (TimedPoll.moves ⟨time, clearingPoll⟩)).bt ≠ .waiting := by
  have hw := cmd_works hc clearingPoll.cmd σ
  let rd : EvtReadings := { clearingPoll.evt with frame := time % frnumPeriod }
  let σ₁ := world c σ (.driver (.cmd clearingPoll.cmd))
  let σ₂ := world c σ₁ (.driver (.evt rd))
  let σ₃ := world c σ₂ (.driver (.aclo clearingPoll.aclo))
  have hp₁ : phase .evt σ₁.bt = .waiting := (works_waiting hw (by decide)).mpr hp
  have htmo : σ₁.bt.evtTmo = σ.bt.evtTmo := (hw.frame.evt (by decide)).2
  have hlt := hd ((evt_waiting _).mp hp)
  have hdue : due { rd with urb := (log .evt σ₁).urb, received := (log .evt σ₁).data } σ₁ := by
    change fnDiff (uint16 (time % frnumPeriod : Nat)) σ₁.bt.evtTmo < frnumPeriod / 2
    rw [htmo, ht, fnDiff_self hlt]
    decide
  have hp₂ : phase .evt σ₂.bt ≠ .waiting := evt_leaves c hp₁ hdue
  have hp₃ : phase .evt σ₃.bt ≠ .waiting :=
    fun h => hp₂ ((works_waiting (aclo_works hc none _ σ₂) (by decide)).mp h)
  exact fun h => hp₃ ((works_waiting (acli_works hc _ σ₃) (by decide)).mp h)

theorem aclo_poll_leaves (hc : Polite c) (hp : phase .aclo σ.bt = .waiting)
    (hu : (log .aclo σ).urb = .done ∨ (log .aclo σ).urb = .stall) (time : Nat) :
    phase .aclo (run (world c) σ (TimedPoll.moves ⟨time, clearingPoll⟩)).bt ≠ .waiting := by
  let σ₁ := world c σ (.driver (.cmd clearingPoll.cmd))
  let σ₂ := world c σ₁ (.driver (.evt { clearingPoll.evt with frame := time % frnumPeriod }))
  let σ₃ := world c σ₂ (.driver (.aclo clearingPoll.aclo))
  have hw₁ := cmd_works hc clearingPoll.cmd σ
  have hw₂ : Works .evt σ₁ σ₂ := evt_works hc _ σ₁
  have hp₂ : phase .aclo σ₂.bt = .waiting :=
    (works_waiting hw₂ (by decide)).mpr ((works_waiting hw₁ (by decide)).mpr hp)
  have hl₂ : log .aclo σ₂ = log .aclo σ :=
    (works_log hw₂ (by decide) (by decide)).trans (works_log hw₁ (by decide) (by decide))
  have hp₃ : phase .aclo σ₃.bt ≠ .waiting := by
    refine aclo_leaves c hp₂ ?_ rfl
    change (log .aclo σ₂).urb = .done ∨ (log .aclo σ₂).urb = .stall
    rwa [hl₂]
  exact fun h => hp₃ ((works_waiting (acli_works hc _ σ₃) (by decide)).mp h)

theorem acli_poll_leaves (hc : Polite c) (hp : phase .acli σ.bt = .waiting)
    (hu : (log .acli σ).urb = .done ∨ (log .acli σ).urb = .stall) (time : Nat) :
    phase .acli (run (world c) σ (TimedPoll.moves ⟨time, clearingPoll⟩)).bt ≠ .waiting := by
  let σ₁ := world c σ (.driver (.cmd clearingPoll.cmd))
  let σ₂ := world c σ₁ (.driver (.evt { clearingPoll.evt with frame := time % frnumPeriod }))
  let σ₃ := world c σ₂ (.driver (.aclo clearingPoll.aclo))
  have hw₁ := cmd_works hc clearingPoll.cmd σ
  have hw₂ : Works .evt σ₁ σ₂ := evt_works hc _ σ₁
  have hw₃ : Works .aclo σ₂ σ₃ := aclo_works hc none _ σ₂
  have hp₃ : phase .acli σ₃.bt = .waiting :=
    (works_waiting hw₃ (by decide)).mpr ((works_waiting hw₂ (by decide)).mpr
      ((works_waiting hw₁ (by decide)).mpr hp))
  have hl₃ : log .acli σ₃ = log .acli σ :=
    (works_log hw₃ (by decide) (by decide)).trans
      ((works_log hw₂ (by decide) (by decide)).trans (works_log hw₁ (by decide) (by decide)))
  refine acli_leaves c hp₃ ?_ rfl
  change (log .acli σ₃).urb = .done ∨ (log .acli σ₃).urb = .stall
  rwa [hl₃]

theorem deadlineSet_run (hc : Polite c) (b : Build) {dev : Device} (ch : ClassDriver.Channels) (bt : BtState)
    (txBusy : Int) (hdev : dev.bInterfaceClass = wirelessClass) (moves : List Move) :
    DeadlineSet (run (world c) (opened b dev ch bt txBusy) moves) := by
  refine run_preserves (I := DeadlineSet) (fun τ m h => deadlineSet_world hc h m) ?_ moves
  rw [opened_wireless b ch bt txBusy hdev]
  intro h1
  exact absurd h1 (show ¬(0 : Int) = 1 by decide)

theorem timedPolls_eq (polls : List TimedPoll) :
    ∃ steps : List Step, polls.flatMap TimedPoll.moves = steps.map .driver :=
  ⟨polls.flatMap fun p => pollSteps { p.rd with evt := { p.rd.evt with frame := p.time % frnumPeriod } },
    List.map_flatMap.symm⟩

/-- A machine that waits for a transfer can go on exactly if it has a
deadline or the channel is in one of the two states it acts on. -/
theorem leaves_iff (b : Build) (dev : Device) (ch : ClassDriver.Channels) (bt : BtState) (txBusy : Int)
    (hdev : dev.bInterfaceClass = wirelessClass) (moves : List Move) (ep : Ep) (now : Nat)
    (hp : phase ep (run (world h2Client) (opened b dev ch bt txBusy) moves).bt = .waiting) :
    let σ := run (world h2Client) (opened b dev ch bt txBusy) moves
    (∃ polls : List TimedPoll, Advancing now polls ∧
      phase ep (run (world h2Client) σ (polls.flatMap TimedPoll.moves)).bt ≠ .waiting) ↔
    ep = .evt ∨ (log ep σ).urb = .done ∨ (log ep σ).urb = .stall := by
  intro σ
  have hd : DeadlineSet σ := deadlineSet_run h2Client_polite b ch bt txBusy hdev moves
  have hone (time : Nat) (hlt : now < time)
      (hl : phase ep (run (world h2Client) σ (TimedPoll.moves ⟨time, clearingPoll⟩)).bt ≠ .waiting) :
      ∃ polls : List TimedPoll, Advancing now polls ∧
        phase ep (run (world h2Client) σ (polls.flatMap TimedPoll.moves)).bt ≠ .waiting :=
    ⟨[⟨time, clearingPoll⟩], by simpa [Advancing] using hlt, by simpa using hl⟩
  constructor
  · rintro ⟨polls, -, hl⟩
    by_contra hn
    obtain ⟨hep, hu⟩ := not_or.mp hn
    obtain ⟨hnd, hns⟩ := not_or.mp hu
    obtain ⟨steps, hs⟩ := timedPolls_eq polls
    rw [hs] at hl
    exact hl (deadEnd_run h2Client_polite ⟨hp, hnd, hns⟩ hep steps).waiting
  · intro hu
    cases ep with
    | evt =>
        have htmo := hd ((evt_waiting _).mp hp)
        have hpos : now < frnumPeriod * (now + 1) + σ.bt.evtTmo := by
          rw [frnumPeriod]
          omega
        refine hone _ hpos (evt_poll_leaves h2Client_polite hp hd ?_)
        rw [Nat.mul_add_mod, Nat.mod_eq_of_lt htmo]
    | aclo =>
        have hu' := hu.resolve_left (by decide)
        exact hone (now + 1) (Nat.lt_succ_self _) (aclo_poll_leaves h2Client_polite hp hu' _)
    | acli =>
        have hu' := hu.resolve_left (by decide)
        exact hone (now + 1) (Nat.lt_succ_self _) (acli_poll_leaves h2Client_polite hp hu' _)

def unanswered : List Move :=
  .driver (.call (.send .hciAclDataPacket [0x01, 0x20, 0x00, 0x00])) :: pollMoves clearingPoll ++
    [.hardware .aclo .notReady []]

theorem unanswered_packet_waits_forever :
    dongle.bInterfaceClass = wirelessClass ∧
      phase .aclo (run (world h2Client) (opened plain dongle dongleChannels .zero 0) unanswered).bt = .waiting ∧
      (log .aclo (run (world h2Client) (opened plain dongle dongleChannels .zero 0) unanswered)).urb = .notReady ∧
      ∀ steps : List Step, phase .aclo (run (world h2Client)
        (run (world h2Client) (opened plain dongle dongleChannels .zero 0) unanswered)
        (steps.map .driver)).bt = .waiting := by
  have hd : DeadEnd .aclo (run (world h2Client) (opened plain dongle dongleChannels .zero 0) unanswered) := by
    constructor <;> decide +kernel
  exact ⟨rfl, hd.waiting, by decide +kernel, fun steps => (deadEnd_run h2Client_polite hd (by decide) steps).waiting⟩

def refused : List Move :=
  .driver (.call (.send .hciAclDataPacket [0x01, 0x20, 0x00, 0x00])) :: pollMoves clearingPoll ++
    [.hardware .aclo .stall []]

theorem refused_packet_leaves :
    ∃ polls : List TimedPoll, Advancing 7 polls ∧ phase .aclo (run (world h2Client)
      (run (world h2Client) (opened plain dongle dongleChannels .zero 0) refused)
      (polls.flatMap TimedPoll.moves)).bt ≠ .waiting :=
  (leaves_iff plain dongle dongleChannels .zero 0 rfl refused .aclo 7 (by decide +kernel)).mpr
    (.inr (.inr (by decide +kernel)))

end Uubt.Progress
