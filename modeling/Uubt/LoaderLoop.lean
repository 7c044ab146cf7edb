import Mathlib.Data.Stream.Init
import Uubt.FirmwareLoading
import Uubt.LoaderMoves

namespace Uubt.LoaderLoop

open HostLibrary Driver Endpoints ClassDriver Moves LoaderMoves FirmwareLoading

variable {img : Firmware} {c : Client} {rd : FwReadings} {n : Option Int} {σ : Sys}

/-- The transfer that the loop waits for at the start of the first stream is
done in the first iteration of the second one. An endpoint that has been
cleared gets the chunk once more. -/
inductive Acked : Stream' FwReadings → Stream' FwReadings → Prop
  | done {s : Stream' FwReadings} (hu : s.head.aclo.urb = .done) : Acked s s
  | clear {s t : Stream' FwReadings} (hu : s.head.aclo.urb = .stall) (hc : s.head.aclo.clr = .ok)
      (ht : Acked s.tail.tail t) : Acked s t
  | wait {s t : Stream' FwReadings} (hn : s.head.aclo.urb ≠ .done)
      (hs : ¬(s.head.aclo.urb = .stall ∧ s.head.aclo.clr = .ok)) (ht : Acked s.tail t) : Acked s t

def gain (b : Build) (n : Int) (rd : FwReadings) : Int := if b.keepsN then n else rd.stale

/-- The stream has an answer for every chunk from an offset on: the chunk is
handed over in one iteration, and a later one finds it done. -/
inductive Supplied (b : Build) (img : Firmware) : Int → Stream' FwReadings → Prop
  | enough {fwOffset : Int} {s : Stream' FwReadings} (hn : chunk img fwOffset ≤ 0) : Supplied b img fwOffset s
  | next {fwOffset : Int} {s t : Stream' FwReadings} (hn : 0 < chunk img fwOffset) (ha : Acked s.tail t)
      (ht : Supplied b img (fwOffset + gain b (chunk img fwOffset) t.head) t.tail) : Supplied b img fwOffset s

inductive InSlot (bt : BtState) (s : Stream' FwReadings) : Stream' FwReadings → Prop
  | ready (hb : bt.acloBusy ≠ 0) (h0 : bt.acloState = 0) : InSlot bt s s.tail
  | sent (hb : bt.acloBusy ≠ 0) (h1 : bt.acloState = 1) : InSlot bt s s

/-- The stream brings the loop to its end. -/
inductive Suffices (b : Build) (img : Firmware) (n : Option Int) (bt : BtState) (s : Stream' FwReadings) : Prop
  | free (hb : bt.acloBusy = 0) (hs : Supplied b img bt.fwOffset s)
  | inSlot {r t : Stream' FwReadings} (hr : InSlot bt s r) (ha : Acked r t)
      (ht : Supplied b img (bt.fwOffset + n.getD t.head.stale) t.tail)

def kept (b : Build) (n : Option Int) : Option Int := if b.keepsN then n else none

def LoopReturns (b : Build) (img : Firmware) (c : Client) (s : Stream' FwReadings) (n : Option Int) (σ : Sys) : Prop :=
  ∃ m, (fwLoop b img c (s.take m) n σ).returned = true

def Returns (b : Build) (c : Client) (rd : PollReadings) (s : Stream' FwReadings) (σ : Sys) : Prop :=
  ∃ m, (usbhBtStMachine b c { rd with loop := s.take m } σ).returned = true

variable {b : Build} {s : Stream' FwReadings}

theorem loopReturns_leave {σ' : Sys} (h : fwPass img c s.head n σ = .leave σ') : LoopReturns b img c s n σ :=
  ⟨1, by simp only [Stream'.take_succ, Stream'.take_zero, fwLoop, h]⟩

theorem loopReturns_again {n' : Option Int} {σ' : Sys} (h : fwPass img c s.head n σ = .again n' σ') :
    LoopReturns b img c s n σ ↔ LoopReturns b img c s.tail (kept b n') σ' := by
  constructor
  · rintro ⟨m, hm⟩
    cases m with
    | zero => exact absurd hm (by simp [fwLoop])
    | succ m =>
        rw [Stream'.take_succ, fwLoop, h] at hm
        exact ⟨m, hm⟩
  · rintro ⟨m, hm⟩
    refine ⟨m + 1, ?_⟩
    rw [Stream'.take_succ, fwLoop, h]
    exact hm

@[simp] theorem kept_none (b : Build) : kept b none = none := by simp [kept]

@[simp] theorem kept_kept (b : Build) (n : Option Int) : kept b (kept b n) = kept b n := by
  unfold kept
  split <;> rfl

theorem getD_kept (b : Build) (n : Int) (rd : FwReadings) : (kept b (some n)).getD rd.stale = gain b n rd := by
  unfold kept gain
  split <;> rfl

theorem Suffices.answer {bt : BtState} (h : Suffices b img n bt s) (hb : bt.acloBusy ≠ 0) :
    ∃ r t, InSlot bt s r ∧ Acked r t ∧ Supplied b img (bt.fwOffset + n.getD t.head.stale) t.tail := by
  cases h with
  | free h0 => exact absurd h0 hb
  | inSlot hr ha ht => exact ⟨_, _, hr, ha, ht⟩

theorem InSlot.of_sent {bt : BtState} {r : Stream' FwReadings} (h : InSlot bt s r) (h1 : bt.acloState = 1) :
    r = s := by
  cases h with
  | ready _ h0 => exact absurd (h0.symm.trans h1) (by decide)
  | sent => rfl

theorem InSlot.of_ready {bt : BtState} {r : Stream' FwReadings} (h : InSlot bt s r) (h0 : bt.acloState = 0) :
    r = s.tail := by
  cases h with
  | ready => rfl
  | sent _ h1 => exact absurd (h0.symm.trans h1) (by decide)

theorem suffices_of_pass (hk : kept b n = n) {p : Pass} (hm : PassMove img s.head n σ p)
    (hnext : ∀ n' σ', p = .again n' σ' → Suffices b img (kept b n') σ'.bt s.tail) : Suffices b img n σ.bt s := by
  cases hm with
  | leave hb hn => exact .free hb (.enough hn)
  | stage hb hn =>
      obtain ⟨r, t, hr, ha, ht⟩ := (hnext _ _ rfl).answer (show ¬(1 : Int) = 0 by decide)
      obtain rfl := hr.of_sent rfl
      rw [getD_kept] at ht
      exact .free hb (.next hn ha ht)
  | submit hb h0 =>
      obtain ⟨r, t, hr, ha, ht⟩ := (hnext _ _ rfl).answer hb
      obtain rfl := hr.of_sent rfl
      rw [hk] at ht
      exact .inSlot (.ready hb h0) ha ht
  | done hb h1 hu =>
      cases hnext _ _ rfl with
      | free _ hs => exact .inSlot (.sent hb h1) (.done hu) hs
      | inSlot hr => cases hr with | ready h0 | sent h0 => exact absurd rfl h0
  | clear hb h1 hu hc =>
      obtain ⟨r, t, hr, ha, ht⟩ := (hnext _ _ rfl).answer hb
      obtain rfl := hr.of_ready rfl
      rw [hk] at ht
      exact .inSlot (.sent hb h1) (.clear hu hc ha) ht
  | stalled hb h1 hu hc =>
      obtain ⟨r, t, hr, ha, ht⟩ := (hnext _ _ rfl).answer hb
      obtain rfl := hr.of_sent h1
      rw [hk] at ht
      exact .inSlot (.sent hb h1) (.wait (hu.trans_ne (by decide)) (fun hs => hc hs.2) ha) ht
  | wait hb h1 hn hs =>
      obtain ⟨r, t, hr, ha, ht⟩ := (hnext _ _ rfl).answer hb
      obtain rfl := hr.of_sent h1
      rw [hk] at ht
      exact .inSlot (.sent hb h1) (.wait hn (fun h => hs h.1) ha) ht
  | lost hb h0 h1 =>
      obtain ⟨r, t, hr, -, -⟩ := (hnext _ _ rfl).answer hb
      cases hr with
      | ready _ h => exact absurd h h0
      | sent _ h => exact absurd h h1

theorem suffices_of_returns (hk : kept b n = n) (h : LoopReturns b img c s n σ) : Suffices b img n σ.bt s := by
  obtain ⟨m, hm⟩ := h
  induction m generalizing s n σ with
  | zero => exact absurd hm (by simp [fwLoop])
  | succ m ih =>
      refine suffices_of_pass hk (pass_moves img c s.head n σ) fun n' σ' hp => ?_
      rw [Stream'.take_succ, fwLoop, hp] at hm
      exact ih (kept_kept b n') hm

theorem acked_returns {r t : Stream' FwReadings} (ha : Acked r t) (hk : kept b n = n) (hb : σ.bt.acloBusy ≠ 0)
    (h1 : σ.bt.acloState = 1) (hnext : ∀ σ' : Sys, σ'.bt.acloBusy = 0 →
      σ'.bt.fwOffset = σ.bt.fwOffset + n.getD t.head.stale → LoopReturns b img c t.tail n σ') :
    LoopReturns b img c r n σ := by
  induction ha generalizing σ with
  | done hu =>
      rw [loopReturns_again (PassMove.done hb h1 hu).eq, hk]
      exact hnext _ rfl rfl
  | clear hu hc _ ih =>
      rw [loopReturns_again (PassMove.clear hb h1 hu hc).eq, hk]
      refine (loopReturns_again (PassMove.submit ?_ ?_).eq).mpr ?_
      · exact hb
      · rfl
      · rw [hk]
        exact ih hb rfl hnext
  | @wait s _ hn hs _ ih =>
      by_cases hu : s.head.aclo.urb = .stall
      · rw [loopReturns_again (PassMove.stalled hb h1 hu fun hc => hs ⟨hu, hc⟩).eq, hk]
        exact ih hb h1 hnext
      · rw [loopReturns_again (PassMove.wait hb h1 hn hu).eq, hk]
        exact ih hb h1 hnext

theorem supplied_returns {fwOffset : Int} (hs : Supplied b img fwOffset s) (hb : σ.bt.acloBusy = 0)
    (ho : σ.bt.fwOffset = fwOffset) : LoopReturns b img c s n σ := by
  induction hs generalizing n σ with
  | enough hn => exact loopReturns_leave (PassMove.leave hb (ho ▸ hn)).eq
  | next hn ha _ ih =>
      rw [loopReturns_again (PassMove.stage hb (ho ▸ hn)).eq, ho]
      refine acked_returns ha (kept_kept _ _) (show ¬(1 : Int) = 0 by decide) rfl ?_
      intro σ' hb' ho'
      rw [getD_kept] at ho'
      exact ih hb' (ho'.trans (congrArg (· + _) ho))

theorem returns_of_suffices (hk : kept b n = n) (h : Suffices b img n σ.bt s) : LoopReturns b img c s n σ := by
  cases h with
  | free hb hs => exact supplied_returns hs hb rfl
  | inSlot hr ha ht =>
      cases hr with
      | ready hb h0 =>
          rw [loopReturns_again (PassMove.submit hb h0).eq, hk]
          exact acked_returns ha hk hb rfl fun σ' hb' ho' => supplied_returns ht hb' ho'
      | sent hb h1 => exact acked_returns ha hk hb h1 fun σ' hb' ho' => supplied_returns ht hb' ho'

/-- A call of USBH_BT_StMachine that finds a download comes back exactly if
the host controller reports every chunk of it done, one after the other. -/
theorem poll_returns_iff (hb : b.firmware = some img) (c : Client) (rd : PollReadings) (s : Stream' FwReadings)
    (σ : Sys) (h2 : σ.bt.loadingFw = 2) : Returns b c rd s σ ↔ Suffices b img none σ.bt s := by
  have hloop : Returns b c rd s σ ↔ LoopReturns b img c s none σ := by
    simp only [Returns, LoopReturns, usbhBtStMachine_loader hb c _ h2]
  rw [hloop]
  exact ⟨suffices_of_returns (kept_none b), returns_of_suffices (kept_none b)⟩

theorem acked_iff_first {t : Stream' FwReadings} (hclr : ∀ i, (s.get i).aclo.clr ≠ .ok) : Acked s t ↔
    ∃ j, t = s.drop j ∧ (s.get j).aclo.urb = .done ∧ ∀ i < j, (s.get i).aclo.urb ≠ .done := by
  constructor
  · intro h
    induction h with
    | done hu => exact ⟨0, rfl, hu, by simp⟩
    | clear _ hc => exact absurd hc (hclr 0)
    | wait hn _ _ ih =>
        obtain ⟨j, ht, hu, hbefore⟩ := ih fun i => hclr (i + 1)
        refine ⟨j + 1, ht, hu, ?_⟩
        rintro (_ | i) hi
        · exact hn
        · exact hbefore i (by omega)
  · rintro ⟨j, rfl, hu, hbefore⟩
    induction j generalizing s with
    | zero => exact .done hu
    | succ j ih =>
        refine .wait (hbefore 0 (by omega)) (fun hs => hclr 0 hs.2) ?_
        exact ih (fun i => hclr (i + 1)) hu fun i hi => hbefore (i + 1) (by omega)

theorem Acked.some_done {t : Stream' FwReadings} (h : Acked s t) : ∃ i, (s.get i).aclo.urb = .done := by
  induction h with
  | done hu => exact ⟨0, hu⟩
  | clear _ _ _ ih =>
      obtain ⟨i, hi⟩ := ih
      exact ⟨i + 2, hi⟩
  | wait _ _ _ ih =>
      obtain ⟨i, hi⟩ := ih
      exact ⟨i + 1, hi⟩

theorem loop_of_silent (hs : ∀ i, (s.get i).aclo.urb ≠ .done) (hb : σ.bt.acloBusy = 0)
    (hn : 0 < chunk img σ.bt.fwOffset) : ¬LoopReturns b img c s none σ := by
  intro h
  cases suffices_of_returns (kept_none b) h with
  | free _ h =>
      cases h with
      | enough hle => omega
      | next _ ha =>
          obtain ⟨i, hi⟩ := ha.some_done
          exact hs (i + 1) hi
  | inSlot hr => cases hr with | ready h0 | sent h0 => exact absurd hb h0

def always (urb : Urb) : FwReadings := { aclo := { urb := urb, clr := .busy, calls := [] }, stale := 0 }

def loading : Sys :=
  session ⟨some smallImage, true⟩ dummyClient [loaderPoll .ok []]
    (started ⟨some smallImage, true⟩ ar3011 ⟨2, 3, 4⟩ .zero 0)

theorem answered_poll_returns :
    Returns ⟨some smallImage, true⟩ dummyClient (loaderPoll .ok []) (.const (always .done)) loading :=
  (poll_returns_iff rfl dummyClient (loaderPoll .ok []) (.const (always .done)) loading (by decide +kernel)).mpr
    (.free (by decide +kernel)
      (.next (by decide +kernel) (.done rfl) (.next (by decide +kernel) (.done rfl) (.enough (by decide +kernel)))))

theorem unplugged_poll_hangs : loading.bt.loadingFw = 2 ∧
    ¬Returns ⟨some smallImage, true⟩ dummyClient (loaderPoll .ok []) (.const (always .notReady)) loading := by
  have h2 : loading.bt.loadingFw = 2 := by decide +kernel
  refine ⟨h2, ?_⟩
  rintro ⟨m, hm⟩
  rw [usbhBtStMachine_loader rfl dummyClient _ h2] at hm
  exact loop_of_silent (fun _ hu => Urb.noConfusion hu) (by decide +kernel) (by decide +kernel) ⟨m, hm⟩

/-- If fw_offset is advanced in an iteration, then by an n that has been
assigned in it, and by the length of the chunk. -/
def AdvanceRight : Pass → Prop
  | .leave _ => True
  | .again n σ => σ.bt.acloBusy = 0 → n = some (σ.bt.acloLen : Int)

/-- With a variable n that has no value at the start of an iteration, every
iteration of a call advances right. -/
def AdvancesRight (img : Firmware) (c : Client) (s : Stream' FwReadings) (σ : Sys) : Prop :=
  ∀ m, let r := fwLoop ⟨some img, false⟩ img c (s.take m) none σ
    r.returned = false → AdvanceRight (fwPass img c (s.get m) none r.sys)

inductive Asks (img : Firmware) (bt : BtState) (s : Stream' FwReadings) : Stream' FwReadings → Prop
  | staged (hb : bt.acloBusy = 0) (hn : 0 < chunk img bt.fwOffset) : Asks img bt s s.tail
  | inSlot {r : Stream' FwReadings} (hr : InSlot bt s r) : Asks img bt s r

def Unanswered (img : Firmware) (bt : BtState) (s : Stream' FwReadings) : Prop := ∀ r t, Asks img bt s r → ¬Acked r t

theorem advancesRight_again {n' : Option Int} {σ' : Sys} (h : fwPass img c s.head none σ = .again n' σ') :
    AdvancesRight img c s σ ↔ AdvanceRight (.again n' σ') ∧ AdvancesRight img c s.tail σ' := by
  have hsucc (m : Nat) : fwLoop ⟨some img, false⟩ img c (s.take (m + 1)) none σ =
      fwLoop ⟨some img, false⟩ img c (s.tail.take m) none σ' := by
    rw [Stream'.take_succ, fwLoop, h]
    rfl
  constructor
  · intro hall
    refine ⟨h ▸ hall 0 rfl, fun m => ?_⟩
    have hm := hall (m + 1)
    rw [hsucc] at hm
    exact hm
  · rintro ⟨hfirst, hrest⟩ m
    cases m with
    | zero =>
        intro r _
        change AdvanceRight (fwPass img c s.head none σ)
        rw [h]
        exact hfirst
    | succ m =>
        rw [hsucc]
        exact hrest m

theorem unanswered_pass (h : Unanswered img σ.bt s) {p : Pass} (hm : PassMove img s.head none σ p) :
    AdvanceRight p ∧ ∀ n' σ', p = .again n' σ' → Unanswered img σ'.bt s.tail := by
  have hbusy {n' : Option Int} {σ' : Sys} (hb : σ'.bt.acloBusy ≠ 0)
      (hw : ∀ r, InSlot σ'.bt s.tail r → ∀ t, ¬Acked r t) : AdvanceRight (.again n' σ') ∧
      ∀ n'' σ'', Pass.again n' σ' = .again n'' σ'' → Unanswered img σ''.bt s.tail := by
    refine ⟨fun h0 => absurd h0 hb, ?_⟩
    rintro _ _ he r t ha
    obtain ⟨rfl, rfl⟩ := Pass.again.inj he
    cases ha with
    | staged h0 => exact absurd h0 hb
    | inSlot hr => exact hw r hr t
  cases hm with
  | leave => exact ⟨trivial, fun _ _ he => Pass.noConfusion he⟩
  | stage hb hn =>
      refine hbusy (show ¬(1 : Int) = 0 by decide) fun r hr t => ?_
      obtain rfl := hr.of_sent rfl
      exact h _ t (.staged hb hn)
  | submit hb h0 =>
      refine hbusy hb fun r hr t => ?_
      obtain rfl := hr.of_sent rfl
      exact h _ t (.inSlot (.ready hb h0))
  | done hb h1 hu => exact absurd (.done hu) (h s s (.inSlot (.sent hb h1)))
  | clear hb h1 hu hc =>
      refine hbusy hb fun r hr t ha => ?_
      obtain rfl := hr.of_ready rfl
      exact h s t (.inSlot (.sent hb h1)) (.clear hu hc ha)
  | stalled hb h1 hu hc =>
      refine hbusy hb fun r hr t ha => ?_
      obtain rfl := hr.of_sent h1
      exact h s t (.inSlot (.sent hb h1)) (.wait (hu.trans_ne (by decide)) (fun hs => hc hs.2) ha)
  | wait hb h1 hn hs =>
      refine hbusy hb fun r hr t ha => ?_
      obtain rfl := hr.of_sent h1
      exact h s t (.inSlot (.sent hb h1)) (.wait hn (fun hst => hs hst.1) ha)
  | lost hb h0 h1 =>
      refine hbusy hb fun r hr => ?_
      cases hr with
      | ready _ h => exact absurd h h0
      | sent _ h => exact absurd h h1

theorem advancesRight_of_unanswered (h : Unanswered img σ.bt s) : AdvancesRight img c s σ := by
  intro m
  induction m generalizing s σ with
  | zero => exact fun _ => (unanswered_pass h (pass_moves img c s.head none σ)).1
  | succ m ih =>
      obtain ⟨-, hnext⟩ := unanswered_pass h (pass_moves img c s.head none σ)
      rw [Stream'.take_succ, fwLoop]
      cases hp : fwPass img c s.head none σ with
      | leave σ' => exact fun hr => absurd hr (by simp)
      | again n' σ' => exact ih (hnext n' σ' hp)

theorem AdvancesRight.submit (h : AdvancesRight img c s σ) (hb : σ.bt.acloBusy ≠ 0) (h0 : σ.bt.acloState = 0) :
    AdvancesRight img c s.tail (submitted img σ) :=
  ((advancesRight_again (PassMove.submit hb h0).eq).mp h).2

theorem AdvancesRight.not_acked (h : AdvancesRight img c s σ) (hb : σ.bt.acloBusy ≠ 0) (h1 : σ.bt.acloState = 1)
    {t : Stream' FwReadings} : ¬Acked s t := by
  intro ha
  induction ha generalizing σ with
  | done hu =>
      have hright := ((advancesRight_again (PassMove.done hb h1 hu).eq).mp h).1
      exact absurd (hright rfl) (by simp)
  | clear hu hc _ ih =>
      have hready := ((advancesRight_again (PassMove.clear hb h1 hu hc).eq).mp h).2
      exact ih (hready.submit hb rfl) hb rfl
  | @wait s _ hn hs _ ih =>
      by_cases hu : s.head.aclo.urb = .stall
      · exact ih ((advancesRight_again (PassMove.stalled hb h1 hu fun hc => hs ⟨hu, hc⟩).eq).mp h).2 hb h1
      · exact ih ((advancesRight_again (PassMove.wait hb h1 hn hu).eq).mp h).2 hb h1

/-- The loop keeps to an assigned n exactly as long as it never advances:
whenever a chunk is done, n has been assigned in an earlier iteration only. -/
theorem advances_right_iff (img : Firmware) (c : Client) (s : Stream' FwReadings) (σ : Sys) :
    AdvancesRight img c s σ ↔ Unanswered img σ.bt s := by
  refine ⟨fun h r t hr ha => ?_, advancesRight_of_unanswered⟩
  cases hr with
  | staged hb hn =>
      have hsent := ((advancesRight_again (PassMove.stage hb hn).eq).mp h).2
      exact hsent.not_acked (show ¬(1 : Int) = 0 by decide) rfl ha
  | inSlot hr =>
      cases hr with
      | ready hb h0 => exact (h.submit hb h0).not_acked hb rfl ha
      | sent hb h1 => exact h.not_acked hb h1 ha

theorem first_chunk_advances_wrong : loading.bt.loadingFw = 2 ∧
    ¬AdvancesRight smallImage dummyClient (.const (always .done)) loading := by
  refine ⟨by decide +kernel, fun h => ?_⟩
  have hsecond := h 1 (by decide +kernel) (by decide +kernel)
  cases hsecond

end Uubt.LoaderLoop
