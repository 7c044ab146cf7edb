import Uubt.Clients
import Uubt.Moves
import Uubt.Runs
import Uubt.WrapClock

namespace Uubt.EventPace

open History HostLibrary Driver Transport Endpoints Clients Moves Runs WrapClock

/-- The readings of a poll with the true frame count in them. The hardware
shows it modulo its period. -/
def shown (rd : EvtReadings) : EvtReadings := { rd with frame := rd.frame % frnumPeriod }

/-- The driver, the frame of its last poll, and what has been seen of it so
far with the frames in which it happened. -/
structure Clocked where
  sys : Sys
  last : Option Nat
  log : List (Nat × Event)

def poll (c : Client) (w : Clocked) (rd : EvtReadings) : Clocked :=
  let σ := (usbBtEvtProcess c (shown rd) w.sys).2
  ⟨σ, some rd.frame, w.log ++ (σ.trace.drop w.sys.trace.length).map (rd.frame, ·)⟩

def start (bt : BtState) (txBusy : Int) : Clocked := ⟨⟨bt, txBusy, []⟩, none, []⟩

/-- The frame count does not decrease, and a poll that reads the channel
does not find it stalled. -/
def Calm (w : Clocked) (rd : EvtReadings) : Prop :=
  (∀ t ∈ w.last, t ≤ rd.frame) ∧ ¬(w.sys.bt.evtState = 1 ∧ ¬due (shown rd) w.sys ∧ rd.urb = .stall)

instance (w : Clocked) (rd : EvtReadings) : Decidable (Calm w rd) :=
  inferInstanceAs (Decidable (_ ∧ ¬_))

def Close (w : Clocked) (rd : EvtReadings) : Prop := ∀ t ∈ w.last, rd.frame ≤ t + frnumPeriod / 2

instance (w : Clocked) (rd : EvtReadings) : Decidable (Close w rd) :=
  inferInstanceAs (Decidable (∀ t ∈ w.last, rd.frame ≤ t + frnumPeriod / 2))

structure Pace where
  submitted : Option Nat
  deliveries : Nat

def paceStep (p : Pace) (x : Nat × Event) : Pace :=
  match x.2 with
  | .interruptReceive _ _ => ⟨some x.1, 0⟩
  | .rx .hciEventPacket _ _ => { p with deliveries := p.deliveries + 1 }
  | _ => p

def pace : Observer (Nat × Event) Pace := ⟨⟨none, 0⟩, paceStep⟩

/-- Two submissions in a row are two frames apart or more, with one delivery
between them at most. -/
def Spaced (past : List (Nat × Event)) (x : Nat × Event) : Prop :=
  x.2.submits = some .evt →
    (∀ t ∈ (pace.after past).submitted, t + 2 ≤ x.1) ∧ (pace.after past).deliveries ≤ 1

def Prompt (past : List (Nat × Event)) (x : Nat × Event) : Prop :=
  ∀ data size, x.2 = .rx .hciEventPacket data size →
    ∃ t ∈ (pace.after past).submitted, t ≤ x.1 ∧ x.1 < t + 2

def Submits (c : Client) (w : Clocked) (rd : EvtReadings) : Prop :=
  ∃ new, (poll c w rd).log = w.log ++ new ++ [(rd.frame, .interruptReceive evtAlignedMaxSize w.sys.bt.evtHcn)]

/-- The first poll that is two frames or more after a submission brings the
machine back to its start, and the next one submits. -/
def Rearms (c : Client) (w : Clocked) (rd : EvtReadings) : Prop :=
  ∀ t ∈ (pace.after w.log).submitted, ∀ s ∈ w.last, s < t + 2 → t + 2 ≤ rd.frame →
    (poll c w rd).sys.bt.evtState = 0 ∧ ∀ next, Submits c (poll c w rd) next

def Quiet (x : Nat × Event) : Prop :=
  x.2.submits ≠ some .evt ∧ ∀ data size, x.2 ≠ .rx .hciEventPacket data size

variable {c : Client} {w : Clocked} {rd : EvtReadings}

theorem paceStep_quiet (p : Pace) {x : Nat × Event} (h : Quiet x) : paceStep p x = p := by
  obtain ⟨t, e⟩ := x
  cases e with
  | interruptReceive => exact absurd rfl h.1
  | rx type data size =>
      cases type with
      | hciEventPacket => exact absurd rfl (h.2 data size)
      | hciCommandDataPacket | hciAclDataPacket | other => rfl
  | _ => rfl

theorem pace_extends {g g' : List (Nat × Event)} (h : Extends Quiet g g') : pace.after g' = pace.after g :=
  h.after_eq pace (fun p _ hx => paceStep_quiet p hx)

theorem quiet_client (t : Nat) {e : Event} (h : ByClient e) : Quiet (t, e) := by
  cases e with
  | interruptReceive | bulkSend | bulkReceive => cases h
  | rx type => cases type <;> cases h
  | _ => exact ⟨by simp [Event.submits], by simp⟩

theorem poll_log (new : Trace) (h : (usbBtEvtProcess c (shown rd) w.sys).2.trace = w.sys.trace ++ new) :
    (poll c w rd).log = w.log ++ new.map (rd.frame, ·) := by
  rw [poll, h, List.drop_left]

theorem poll_quiet (h : Extends (fun e => Quiet (rd.frame, e)) w.sys.trace
    (usbBtEvtProcess c (shown rd) w.sys).2.trace) : Extends Quiet w.log (poll c w rd).log := by
  obtain ⟨new, ht, hn⟩ := h
  refine ⟨new.map (rd.frame, ·), poll_log new ht, ?_⟩
  intro x hmem
  obtain ⟨e, he, rfl⟩ := List.mem_map.mp hmem
  exact hn e he

def deadline (t : Nat) : Nat := (2 + t % frnumPeriod) % frnumPeriod

inductive Beat (c : Client) (w : Clocked) (rd : EvtReadings) : Prop
  | submit (past : List (Nat × Event)) (h0 : w.sys.bt.evtState = 0) (h1 : (poll c w rd).sys.bt.evtState = 1)
      (htmo : (poll c w rd).sys.bt.evtTmo = deadline rd.frame)
      (hx : Extends Quiet w.log past)
      (hl : (poll c w rd).log = past ++ [(rd.frame, .interruptReceive evtAlignedMaxSize w.sys.bt.evtHcn)])
  | rearm (hne : w.sys.bt.evtState ≠ 0) (hd : due (shown rd) w.sys) (h0 : (poll c w rd).sys.bt.evtState = 0)
      (hx : Extends Quiet w.log (poll c w rd).log)
  | deliver (data : List UInt8) (size : Nat) (past : List (Nat × Event)) (h1 : w.sys.bt.evtState = 1)
      (hd : ¬due (shown rd) w.sys) (h2 : (poll c w rd).sys.bt.evtState = 2)
      (htmo : (poll c w rd).sys.bt.evtTmo = w.sys.bt.evtTmo) (hx : Extends Quiet w.log past)
      (hx' : Extends Quiet (past ++ [(rd.frame, .rx .hciEventPacket data size)]) (poll c w rd).log)
  | rest (hne : w.sys.bt.evtState ≠ 0) (hd : ¬due (shown rd) w.sys)
      (hs : (poll c w rd).sys.bt.evtState = w.sys.bt.evtState)
      (htmo : (poll c w rd).sys.bt.evtTmo = w.sys.bt.evtTmo) (hx : Extends Quiet w.log (poll c w rd).log)

theorem uint16_shown (rd : EvtReadings) : uint16 (shown rd).frame = rd.frame % frnumPeriod :=
  uint16_natCast (Nat.lt_trans (Nat.mod_lt _ (by decide)) (by decide))

theorem quiet_stamp {e : Event} (t : Nat) (hs : e.submits = none) (hr : ∀ type data size, e ≠ .rx type data size) :
    Quiet (t, e) :=
  ⟨by simp [hs], fun _ _ => hr _ _ _⟩

theorem poll_ready (rd : EvtReadings) (h0 : w.sys.bt.evtState = 0) :
    (poll c w rd).log = w.log ++ [(rd.frame, .currentFrame (shown rd).frame)] ++
      [(rd.frame, .interruptReceive evtAlignedMaxSize w.sys.bt.evtHcn)] := by
  have hm : (usbBtEvtProcess c (shown rd) w.sys).2 = _ := (EvtMove.submit h0).eq
  rw [poll_log [.currentFrame (shown rd).frame, .interruptReceive evtAlignedMaxSize w.sys.bt.evtHcn]]
  · simp
  · rw [hm]
    simp

theorem beat_submit (h0 : w.sys.bt.evtState = 0) : Beat c w rd := by
  have hm : (usbBtEvtProcess c (shown rd) w.sys).2 = _ := (EvtMove.submit h0).eq
  refine .submit _ h0 ?_ ?_ ((Extends.refl _ _).concat (quiet_stamp _ rfl (by simp))) (poll_ready rd h0)
  · simp only [poll, hm, write_bt]
  · simp only [poll, hm, write_bt, uint16_shown, deadline]

theorem beat_deliver (hc : Polite c) (h1 : w.sys.bt.evtState = 1) (hd : ¬due (shown rd) w.sys)
    (hu : rd.urb = .done) : Beat c w rd := by
  have hm : (usbBtEvtProcess c (shown rd) w.sys).2 = _ := (EvtMove.deliver h1 hd hu).eq
  have hsame := rxHandler_same hc .hciEventPacket rd.received rd.received.length rd.calls (evtRead (shown rd) w.sys)
  obtain ⟨answer, hanswer, hn⟩ := rxHandler_answer hc .hciEventPacket rd.received rd.received.length rd.calls
    (evtRead (shown rd) w.sys)
  generalize rd.received.take (uint16 rd.received.length) = data at hanswer
  generalize uint16 rd.received.length = size at hanswer
  have hl : (poll c w rd).log = w.log ++ [(rd.frame, .currentFrame (shown rd).frame)] ++
      [(rd.frame, .urbState .evt w.sys.bt.evtHcn rd.urb)] ++ [(rd.frame, .rx .hciEventPacket data size)] ++
      answer.map (rd.frame, ·) ++ [(rd.frame, .rxReturn .hciEventPacket)] := by
    rw [poll_log ([.currentFrame (shown rd).frame, .urbState .evt w.sys.bt.evtHcn rd.urb,
      .rx .hciEventPacket data size] ++ answer ++ [.rxReturn .hciEventPacket])]
    · simp
    · rw [hm, write_trace]
      exact hanswer.trans (by simp [evtRead, shown])
  have hq : Extends Quiet w.log (w.log ++ [(rd.frame, .currentFrame (shown rd).frame)] ++
      [(rd.frame, .urbState .evt w.sys.bt.evtHcn rd.urb)]) :=
    ((Extends.refl _ _).concat (quiet_stamp _ rfl (by simp))).concat (quiet_stamp _ rfl (by simp))
  refine .deliver data size _ h1 hd ?_ ?_ hq ?_
  · simp only [poll, hm, write_bt]
  · simp only [poll, hm, write_bt]
    exact hsame.evtTmo
  · rw [hl]
    refine Extends.concat ⟨answer.map (rd.frame, ·), rfl, fun x hx => ?_⟩ (quiet_stamp _ rfl (by simp))
    obtain ⟨e, he, rfl⟩ := List.mem_map.mp hx
    exact quiet_client _ (hn e he)

theorem evt_beat (hc : Polite c) (hs : w.sys.bt.evtState = 0 ∨ w.sys.bt.evtState = 1 ∨ w.sys.bt.evtState = 2)
    (hcalm : Calm w rd) : Beat c w rd := by
  have hm := evt_moves c (shown rd) w.sys
  generalize hσ : (usbBtEvtProcess c (shown rd) w.sys).2 = σ' at hm
  have hbt : (poll c w rd).sys.bt = σ'.bt := by rw [poll, hσ]
  have hf : Extends (fun e => Quiet (rd.frame, e)) w.sys.trace (w.sys.emit (.currentFrame (shown rd).frame)).trace :=
    (Extends.refl _ _).concat (quiet_stamp _ rfl (by simp))
  have hr : Extends (fun e => Quiet (rd.frame, e)) w.sys.trace (evtRead (shown rd) w.sys).trace :=
    hf.concat (quiet_stamp _ rfl (by simp))
  cases hm with
  | submit h0 => exact beat_submit h0
  | expire h1 hd =>
      refine .rearm (by rw [h1]; decide) hd (by rw [hbt]; rfl) (poll_quiet ?_)
      rw [hσ]
      exact hf
  | rearm h2 hd =>
      refine .rearm (by rw [h2]; decide) hd (by rw [hbt]; rfl) (poll_quiet ?_)
      rw [hσ]
      exact hf
  | deliver h1 hd hu => exact beat_deliver hc h1 hd hu
  | clear h1 hd hu => exact absurd ⟨h1, hd, hu⟩ hcalm.2
  | stalled h1 hd hu => exact absurd ⟨h1, hd, hu⟩ hcalm.2
  | wait h1 hd =>
      refine .rest (by rw [h1]; decide) hd (by rw [hbt]; rfl) (by rw [hbt]; rfl) (poll_quiet ?_)
      rw [hσ]
      exact hr
  | rest h2 hd =>
      refine .rest (by rw [h2]; decide) hd (by rw [hbt]; rfl) (by rw [hbt]; rfl) (poll_quiet ?_)
      rw [hσ]
      exact hf
  | lost h0 h1 h2 => rcases hs with h | h | h <;> contradiction

theorem due_iff {t : Nat} (htmo : w.sys.bt.evtTmo = deadline t) :
    due (shown rd) w.sys ↔ gap frnumPeriod rd.frame (t + 2) < frnumPeriod / 2 := by
  have hd : deadline t = (t + 2) % frnumPeriod := by
    rw [deadline, Nat.add_comm t 2, Nat.add_mod 2 t]
    simp [frnumPeriod]
  have hcast : (frnumPeriod : Int) + (rd.frame % frnumPeriod : Nat) - (deadline t : Nat) =
      ((frnumPeriod + rd.frame % frnumPeriod - (t + 2) % frnumPeriod : Nat) : Int) := by
    rw [hd]
    have hlt : (t + 2) % frnumPeriod < frnumPeriod := Nat.mod_lt _ (by decide)
    omega
  rw [due, uint16_shown, htmo, fnDiff, hcast, ← Int.ofNat_tmod, uint16_natCast]
  · rfl
  · exact Nat.lt_trans (Nat.mod_lt _ (by decide)) (by decide)

theorem not_due {t : Nat} (htmo : w.sys.bt.evtTmo = deadline t) (hlt : rd.frame < t + 2) (hle : t ≤ rd.frame) :
    ¬due (shown rd) w.sys := by
  rw [due_iff htmo, gap_ahead hlt (by unfold frnumPeriod; omega)]
  unfold frnumPeriod
  omega

theorem is_due {t : Nat} (htmo : w.sys.bt.evtTmo = deadline t) (hle : t + 2 ≤ rd.frame)
    (hlt : rd.frame < t + 2 + frnumPeriod / 2) : due (shown rd) w.sys := by
  unfold frnumPeriod at hlt
  rw [due_iff htmo, gap_passed hle (by unfold frnumPeriod; omega)]
  unfold frnumPeriod
  omega

/-- The machine off its start is at work on the last submission, of which
evt_tmo tells the time. At its start two frames have gone by. -/
structure Paced (w : Clocked) : Prop where
  state : w.sys.bt.evtState = 0 ∨ w.sys.bt.evtState = 1 ∨ w.sys.bt.evtState = 2
  working : w.sys.bt.evtState ≠ 0 → ∃ t s, (pace.after w.log).submitted = some t ∧ w.last = some s ∧ t ≤ s ∧
    w.sys.bt.evtTmo = deadline t
  idle : w.sys.bt.evtState = 0 → ∀ t ∈ (pace.after w.log).submitted, ∃ s ∈ w.last, t + 2 ≤ s
  one : (pace.after w.log).deliveries ≤ 1
  first : w.sys.bt.evtState = 1 → (pace.after w.log).deliveries = 0
  spaced : AtEach Spaced w.log

theorem spaced_quiet {g g' : List (Nat × Event)} (h : Extends Quiet g g') (hs : AtEach Spaced g) : AtEach Spaced g' :=
  h.atEach hs (fun _ _ hx hsub => absurd hsub hx.1)

theorem pace_submit (past : List (Nat × Event)) (t len hcn : Nat) :
    pace.after (past ++ [(t, .interruptReceive len hcn)]) = ⟨some t, 0⟩ := pace.after_concat _ _

theorem pace_deliver (past : List (Nat × Event)) (t : Nat) (data : List UInt8) (size : Nat) :
    pace.after (past ++ [(t, .rx .hciEventPacket data size)]) =
      { pace.after past with deliveries := (pace.after past).deliveries + 1 } := pace.after_concat _ _

theorem Paced.elapsed (h : Paced w) (hcalm : Calm w rd) (hne : w.sys.bt.evtState ≠ 0) :
    ∃ t, (pace.after w.log).submitted = some t ∧ t ≤ rd.frame ∧ (∃ s ∈ w.last, t ≤ s) ∧
      w.sys.bt.evtTmo = deadline t := by
  obtain ⟨t, s, ht, hs, hle, htmo⟩ := h.working hne
  exact ⟨t, ht, hle.trans (hcalm.1 s hs), ⟨s, hs, hle⟩, htmo⟩

theorem poll_last (c : Client) (w : Clocked) (rd : EvtReadings) : (poll c w rd).last = some rd.frame := rfl

theorem paced_beat (h : Paced w) (hcalm : Calm w rd) (hb : Beat c w rd) : Paced (poll c w rd) := by
  cases hb with
  | submit past h0 h1 htmo hx hl =>
      have hpast := pace_extends hx
      refine ⟨.inr (.inl h1), fun _ => ⟨rd.frame, rd.frame, ?_, rfl, le_rfl, htmo⟩, fun h0' => ?_, ?_, fun _ => ?_, ?_⟩
      · rw [hl, pace_submit]
      · rw [h1] at h0'
        contradiction
      · rw [hl, pace_submit]
        exact Nat.zero_le _
      · rw [hl, pace_submit]
      · rw [hl, atEach_concat]
        refine ⟨spaced_quiet hx h.spaced, fun _ => ?_⟩
        rw [hpast]
        refine ⟨fun t ht => ?_, h.one⟩
        obtain ⟨s, hs, hle⟩ := h.idle h0 t ht
        exact hle.trans (hcalm.1 s hs)
  | rearm hne hd h0 hx =>
      have hlog := pace_extends hx
      obtain ⟨t, ht, hle, -, htmo⟩ := h.elapsed hcalm hne
      refine ⟨.inl h0, fun hne' => absurd h0 hne', fun _ t' ht' => ⟨rd.frame, rfl, ?_⟩, ?_, fun h1 => ?_,
        spaced_quiet hx h.spaced⟩
      · rw [hlog, ht] at ht'
        obtain rfl := Option.some.inj ht'
        by_contra hlt
        exact not_due htmo (Nat.lt_of_not_le hlt) hle hd
      · rw [hlog]
        exact h.one
      · rw [h0] at h1
        contradiction
  | deliver data size past h1 hd h2 htmo hx hx' =>
      have hlog : pace.after (poll c w rd).log = { pace.after w.log with deliveries := 1 } := by
        rw [pace_extends hx', pace_deliver, pace_extends hx, h.first h1]
      obtain ⟨t, ht, hle, -, htmo'⟩ := h.elapsed hcalm (by rw [h1]; decide)
      have hsame := htmo.trans htmo'
      refine ⟨.inr (.inr h2), fun _ => ⟨t, rd.frame, ?_, rfl, hle, hsame⟩, fun h0 => ?_, ?_, fun h1' => ?_, ?_⟩
      · rw [hlog]
        exact ht
      · rw [h2] at h0
        contradiction
      · rw [hlog]
      · rw [h2] at h1'
        contradiction
      · refine spaced_quiet hx' ((atEach_concat _ _ _).mpr ⟨spaced_quiet hx h.spaced, ?_⟩)
        exact fun hs => by simp [Event.submits] at hs
  | rest hne hd hs htmo hx =>
      have hlog := pace_extends hx
      obtain ⟨t, ht, hle, -, htmo'⟩ := h.elapsed hcalm hne
      refine ⟨hs ▸ h.state, fun _ => ⟨t, rd.frame, ?_, rfl, hle, htmo.trans htmo'⟩, fun h0 => ?_, ?_, fun h1 => ?_,
        spaced_quiet hx h.spaced⟩
      · rw [hlog]
        exact ht
      · exact absurd (hs.symm.trans h0) hne
      · rw [hlog]
        exact h.one
      · rw [hlog]
        exact h.first (hs.symm.trans h1)

/-- With polls close enough the deadline is never missed: the machine at
work has been polled before it only. -/
structure Held (w : Clocked) : Prop extends Paced w where
  recent : w.sys.bt.evtState ≠ 0 → ∀ t ∈ (pace.after w.log).submitted, ∀ s ∈ w.last, s < t + 2
  prompt : AtEach Prompt w.log

theorem prompt_quiet {g g' : List (Nat × Event)} (h : Extends Quiet g g') (hp : AtEach Prompt g) : AtEach Prompt g' :=
  h.atEach hp (fun _ _ hx data size he => absurd he (hx.2 data size))

theorem Held.due_iff (h : Held w) (hclose : Close w rd) (hne : w.sys.bt.evtState ≠ 0) {t : Nat}
    (ht : (pace.after w.log).submitted = some t) (hle : t ≤ rd.frame) (htmo : w.sys.bt.evtTmo = deadline t) :
    due (shown rd) w.sys ↔ t + 2 ≤ rd.frame := by
  constructor
  · intro hd
    by_contra hlt
    exact not_due htmo (Nat.lt_of_not_le hlt) hle hd
  · intro hge
    obtain ⟨-, s, -, hs, -, -⟩ := h.working hne
    have hlt := h.recent hne t ht s hs
    have hc := hclose s hs
    exact is_due htmo hge (by omega)

theorem held_beat (h : Held w) (hcalm : Calm w rd) (hclose : Close w rd) (hb : Beat c w rd) : Held (poll c w rd) := by
  refine ⟨paced_beat h.toPaced hcalm hb, ?_, ?_⟩
  · intro hne t ht s hs
    obtain rfl := Option.some.inj ((poll_last c w rd).symm.trans hs)
    cases hb with
    | submit past h0 h1 htmo hx hl =>
        rw [hl, pace_submit] at ht
        obtain rfl := Option.some.inj ht
        omega
    | rearm _ _ h0 => exact absurd h0 hne
    | deliver data size past h1 hd h2 htmo hx hx' =>
        have hne0 : w.sys.bt.evtState ≠ 0 := by rw [h1]; decide
        obtain ⟨t', ht', hle, -, htmo'⟩ := h.elapsed hcalm hne0
        rw [pace_extends hx', pace_deliver, pace_extends hx] at ht
        obtain rfl := Option.some.inj (ht'.symm.trans ht)
        rw [h.due_iff hclose hne0 ht' hle htmo'] at hd
        exact Nat.lt_of_not_le hd
    | rest hne0 hd _ _ hx =>
        obtain ⟨t', ht', hle, -, htmo'⟩ := h.elapsed hcalm hne0
        rw [pace_extends hx] at ht
        obtain rfl := Option.some.inj (ht'.symm.trans ht)
        rw [h.due_iff hclose hne0 ht' hle htmo'] at hd
        exact Nat.lt_of_not_le hd
  · cases hb with
    | submit past h0 h1 htmo hx hl =>
        rw [hl, atEach_concat]
        exact ⟨prompt_quiet hx h.prompt, by simp [Prompt]⟩
    | rearm _ _ _ hx | rest _ _ _ _ hx => exact prompt_quiet hx h.prompt
    | deliver data size past h1 hd h2 htmo hx hx' =>
        refine prompt_quiet hx' ((atEach_concat _ _ _).mpr ⟨prompt_quiet hx h.prompt, ?_⟩)
        intro _ _ _
        have hne0 : w.sys.bt.evtState ≠ 0 := by rw [h1]; decide
        obtain ⟨t, ht, hle, -, htmo'⟩ := h.elapsed hcalm hne0
        rw [h.due_iff hclose hne0 ht hle htmo'] at hd
        exact ⟨t, by rw [pace_extends hx]; exact ht, hle, Nat.lt_of_not_le hd⟩

theorem held_rearms (h : Held w) (hcalm : Calm w rd) (hclose : Close w rd) (hb : Beat c w rd) : Rearms c w rd := by
  intro t ht s hs hlt hge
  have hne : w.sys.bt.evtState ≠ 0 := by
    intro h0
    obtain ⟨s', hs', hle⟩ := h.idle h0 t ht
    obtain rfl := Option.some.inj (hs.symm.trans hs')
    omega
  obtain ⟨t', ht', hle, -, htmo⟩ := h.elapsed hcalm hne
  obtain rfl := Option.some.inj (ht.symm.trans ht')
  have hd := (h.due_iff hclose hne ht hle htmo).mpr hge
  have h0 : (poll c w rd).sys.bt.evtState = 0 := by
    cases hb with
    | submit _ h0 => exact absurd h0 hne
    | rearm _ _ h0 => exact h0
    | deliver _ _ _ _ hn => exact absurd hd hn
    | rest _ hn => exact absurd hd hn
  exact ⟨h0, fun next => ⟨_, poll_ready next h0⟩⟩

theorem start_held (bt : BtState) (txBusy : Int) (h0 : bt.evtState = 0) : Held (start bt txBusy) where
  state := .inl h0
  working hne := absurd h0 hne
  idle _ t ht := by simp [start, pace] at ht
  one := Nat.zero_le _
  first _ := rfl
  spaced := atEach_nil _
  recent hne := absurd h0 hne
  prompt := atEach_nil _

/-- The pace of the event endpoint, for any way in which the frame counter
wraps around. Submissions are two frames apart or more, with one delivery
between two of them at most. If the polls are never more than half the
period apart, a delivery comes less than two frames after its submission,
and the first poll at two frames or more lets the next one submit. -/
theorem event_polling_pace (c : Client) (hc : Polite c) (bt : BtState) (txBusy : Int) (h0 : bt.evtState = 0)
    (polls : List EvtReadings) (hcalm : Along (poll c) Calm (start bt txBusy) polls) :
    AtEach Spaced (run (poll c) (start bt txBusy) polls).log ∧
      (Along (poll c) Close (start bt txBusy) polls →
        AtEach Prompt (run (poll c) (start bt txBusy) polls).log ∧
          Along (poll c) (Rearms c) (start bt txBusy) polls) := by
  have hstart := start_held bt txBusy h0
  refine ⟨?_, fun hclose => ⟨?_, ?_⟩⟩
  · exact (run_invariant (I := Paced) (fun w rd h hr => paced_beat h hr (evt_beat hc h.state hr))
      hstart.toPaced hcalm).spaced
  · exact (run_invariant (I := Held) (fun w rd h hr => held_beat h hr.1 hr.2 (evt_beat hc h.state hr.1))
      hstart (hcalm.and hclose)).prompt
  · rw [along_iff_split]
    rintro past rd rest rfl
    have hall := hcalm.and hclose
    rw [along_append] at hall
    have h := run_invariant (I := Held) (fun w rd h hr => held_beat h hr.1 hr.2 (evt_beat hc h.state hr.1))
      hstart hall.1
    obtain ⟨hr, hk⟩ := hall.2.1
    exact held_rearms h hr hk (evt_beat hc h.state hr)

def framePoll (frame : Nat) (urb : Urb) : EvtReadings :=
  { frame := frame, urb := urb, received := [0x0e, 0x01, 0x00], clr := .busy, calls := [] }

def wrappingPolls : List EvtReadings :=
  [framePoll 16383 .idle, framePoll 16384 .done, framePoll 16385 .idle, framePoll 16386 .idle]

theorem pace_across_the_wrap :
    AtEach Prompt (run (poll h2Client) (start .zero 0) wrappingPolls).log ∧
      (run (poll h2Client) (start .zero 0) wrappingPolls).sys.bt.evtState = 1 :=
  ⟨((event_polling_pace h2Client h2Client_polite .zero 0 rfl wrappingPolls (by decide +kernel)).2
    (by decide +kernel)).1, by decide +kernel⟩

-- half a period and one frame after the poll before, the deadline looks as if it were still to come
example : (run (poll h2Client) (start .zero 0)
    [framePoll 0 .idle, framePoll 1 .idle, framePoll 0x2002 .done]).sys.bt.evtState = 2 := by decide +kernel

def Within (d : Nat) (w : Clocked) (rd : EvtReadings) : Prop := ∀ t ∈ w.last, rd.frame ≤ t + d

instance (d : Nat) (w : Clocked) (rd : EvtReadings) : Decidable (Within d w rd) :=
  inferInstanceAs (Decidable (∀ t ∈ w.last, rd.frame ≤ t + d))

def Attended (d : Nat) (past : List (Nat × Event)) (x : Nat × Event) : Prop :=
  x.2.submits = some .evt → ∀ t ∈ (pace.after past).submitted, x.1 ≤ t + 2 * d + 1

/-- The machine rests for one poll at most: it is at its start only if the
poll before has come to the deadline. -/
structure Brisk (d : Nat) (w : Clocked) : Prop extends Held w where
  rested : w.sys.bt.evtState = 0 → ∀ t ∈ (pace.after w.log).submitted, ∀ s ∈ w.last, s ≤ t + d + 1
  attended : AtEach (Attended d) w.log

variable {d : Nat}

theorem attended_quiet {g g' : List (Nat × Event)} (h : Extends Quiet g g') (ha : AtEach (Attended d) g) :
    AtEach (Attended d) g' :=
  h.atEach ha (fun _ _ hx hs => absurd hs hx.1)

theorem brisk_beat (h : Brisk d w) (hcalm : Calm w rd) (hclose : Close w rd) (hd : Within d w rd)
    (hb : Beat c w rd) : Brisk d (poll c w rd) := by
  have hheld := held_beat h.toHeld hcalm hclose hb
  cases hb with
  | submit past h0 h1 htmo hx hl =>
      refine ⟨hheld, fun h0' => ?_, ?_⟩
      · rw [h1] at h0'
        contradiction
      · rw [hl, atEach_concat]
        refine ⟨attended_quiet hx h.attended, fun _ t ht => ?_⟩
        rw [pace_extends hx] at ht
        obtain ⟨s, hs, -⟩ := h.idle h0 t ht
        have hlast := h.rested h0 t ht s hs
        have hnow := hd s hs
        omega
  | rearm hne hdue h0 hx =>
      refine ⟨hheld, fun _ t ht s hs => ?_, attended_quiet hx h.attended⟩
      obtain rfl := Option.some.inj ((poll_last c w rd).symm.trans hs)
      rw [pace_extends hx] at ht
      obtain ⟨-, s, -, hs, -, -⟩ := h.working hne
      have hlast := h.recent hne t ht s hs
      have hnow := hd s hs
      omega
  | deliver data size past h1 hdue h2 htmo hx hx' =>
      refine ⟨hheld, fun h0 => ?_, ?_⟩
      · rw [h2] at h0
        contradiction
      · refine attended_quiet hx' ((atEach_concat _ _ _).mpr ⟨attended_quiet hx h.attended, ?_⟩)
        exact fun hs => by simp [Event.submits] at hs
  | rest hne hdue hs htmo hx => exact ⟨hheld, fun h0 => absurd (hs.symm.trans h0) hne, attended_quiet hx h.attended⟩

/-- The event endpoint is never left alone for long: with polls at most d
frames apart, d up to half the period, submissions are at most 2d + 1 frames
apart, and at no poll is the last submission more than d + 1 frames old. -/
theorem submissions_keep_coming (c : Client) (hc : Polite c) (bt : BtState) (txBusy : Int) (h0 : bt.evtState = 0)
    (d : Nat) (hhalf : d ≤ frnumPeriod / 2) (polls : List EvtReadings)
    (hcalm : Along (poll c) Calm (start bt txBusy) polls) (hd : Along (poll c) (Within d) (start bt txBusy) polls) :
    let w := run (poll c) (start bt txBusy) polls
    AtEach (Attended d) w.log ∧ ∀ t ∈ (pace.after w.log).submitted, ∀ s ∈ w.last, s ≤ t + d + 1 := by
  intro w
  have hstart : Brisk d (start bt txBusy) :=
    ⟨start_held bt txBusy h0, fun _ t ht => by simp [start, pace] at ht, atEach_nil _⟩
  have hw : Brisk d w := by
    refine run_invariant (I := Brisk d) (fun v rd h hr => ?_) hstart (hcalm.and hd)
    have hclose : Close v rd := fun t ht => (hr.2 t ht).trans (by omega)
    exact brisk_beat h hr.1 hclose hr.2 (evt_beat hc h.state hr.1)
  refine ⟨hw.attended, fun t ht s hs => ?_⟩
  by_cases hs0 : w.sys.bt.evtState = 0
  · exact hw.rested hs0 t ht s hs
  · have hlast := hw.recent hs0 t ht s hs
    omega

theorem wrapping_submissions :
    AtEach (Attended 1) (run (poll h2Client) (start .zero 0) wrappingPolls).log :=
  (submissions_keep_coming h2Client h2Client_polite .zero 0 rfl 1 (by decide) wrappingPolls (by decide +kernel)
    (by decide +kernel)).1

end Uubt.EventPace
