import Mathlib.Logic.Relation
import Uubt.History
import Uubt.OneSlot
import Uubt.Runs

namespace Uubt.PortReset

open History OneSlot Runs

/-- A pointer or a msg_t. Both have 32 bits on the port, so the casts
between them keep the value. -/
abbrev Word := UInt32

inductive ThreadPtr
  | null | usbResetThread
deriving DecidableEq

/-- What the kernel knows of usb_reset_thread. It is ready also while it
runs, and while it sleeps inside USB_OTG_ResetPort: only the suspension in
chSchGoSleepS waits for somebody else. -/
inductive ThreadState
  | absent | ready | suspended
deriving DecidableEq

/-- Where usb_reset_thread stands in its loop: before chSysLock, in
chSchGoSleepS, behind chSysUnlock, or inside USB_OTG_ResetPort. -/
inductive Point
  | loopHead | goSleep | unlocked | resetting
deriving DecidableEq

inductive Event
  | resetPortI (pdev : Word) (accepted : Bool)
  | readyI (found : ThreadState)
  | goSleepS
  | resetPort (pdev : Word)
deriving DecidableEq

structure Kernel where
  usbResetTp : ThreadPtr
  pState : ThreadState
  point : Point
  rdymsg : Word
  msg : Word
  trace : List Event

def Kernel.emit (e : Event) (k : Kernel) : Kernel := { k with trace := k.trace ++ [e] }

def boot : Kernel :=
  { usbResetTp := .null, pState := .absent, point := .loopHead, rdymsg := 0, msg := 0, trace := [] }

def chSchReadyI (k : Kernel) : Kernel := { k.emit (.readyI k.pState) with pState := .ready }

/-- Called from the interrupt handler, which holds the kernel lock. -/
def usbOtgResetPortI (pdev : Word) (k : Kernel) : Kernel :=
  if k.usbResetTp ≠ .null then
    let k := { k with rdymsg := pdev }
    let k := chSchReadyI k
    { k with usbResetTp := .null }.emit (.resetPortI pdev true)
  else k.emit (.resetPortI pdev false)

def myUsbBspInit (k : Kernel) : Kernel := { k with pState := .ready, point := .loopHead, rdymsg := 0 }

/-- One stretch of usb_reset_thread that no interrupt divides: from
chSysLock to the context switch in chSchGoSleepS, from there to chSysUnlock,
and the two ends of USB_OTG_ResetPort. The delays in the latter put the
thread to sleep, and leave something in its message slot. -/
def usbResetThread (slot : Word) (k : Kernel) : Kernel :=
  if k.pState = .ready then
    match k.point with
    | .loopHead => { k.emit .goSleepS with usbResetTp := .usbResetThread, pState := .suspended, point := .goSleep }
    | .goSleep => { k with msg := k.rdymsg, point := .unlocked }
    | .unlocked => { k.emit (.resetPort k.msg) with point := .resetting }
    | .resetting => { k with rdymsg := slot, point := .loopHead }
  else k

/-- The interrupt may come between any two stretches of the thread, and
before there is one. -/
inductive Step (k : Kernel) : Kernel → Prop
  | interrupt (pdev : Word) : Step k (usbOtgResetPortI pdev k)
  | create (h : k.pState = .absent) : Step k (myUsbBspInit k)
  | thread (slot : Word) (h : k.pState = .ready) : Step k (usbResetThread slot k)

abbrev Reachable (k : Kernel) : Prop := Relation.ReflTransGen Step boot k

def acceptedRequest : Event → Option Word
  | .resetPortI pdev true => some pdev
  | _ => none

def accepted (t : List Event) : List Word := t.filterMap acceptedRequest

def startedReset : Event → Option Word
  | .resetPort pdev => some pdev
  | _ => none

def started (t : List Event) : List Word := t.filterMap startedReset

@[simp] theorem accepted_concat (t : List Event) (e : Event) :
    accepted (t ++ [e]) = accepted t ++ (acceptedRequest e).toList := by
  cases h : acceptedRequest e <;> simp [accepted, h]

@[simp] theorem started_concat (t : List Event) (e : Event) :
    started (t ++ [e]) = started t ++ (startedReset e).toList := by
  cases h : startedReset e <;> simp [started, h]

def asleep : Observer Event Bool where
  init := false
  step s e := match e with
    | .goSleepS => true
    | .readyI _ => false
    | _ => s

def unanswered : Observer Event Bool where
  init := false
  step s e := match e with
    | .goSleepS => true
    | .resetPortI _ true => false
    | _ => s

/-- chSchReadyI finds the thread suspended, and for the first time since it
went to sleep. -/
def WakesOnce (past : List Event) (e : Event) : Prop :=
  ∀ found, e = .readyI found → found = .suspended ∧ asleep.after past = true

/-- A reset takes the request that is accepted and not yet served: the one
that woke the thread. -/
def ServesWaker (past : List Event) (e : Event) : Prop :=
  ∀ pdev, e = .resetPort pdev → accepted past = started past ++ [pdev]

def carried (k : Kernel) : Option Word :=
  match k.pState, k.point with
  | .ready, .goSleep => some k.rdymsg
  | .ready, .unlocked => some k.msg
  | _, _ => none

structure Handoff (l : Ledger Word) (k : Kernel) : Prop where
  accepted : l.accepted = accepted k.trace
  ended : l.ended = started k.trace
  pending : l.pending = carried k
  published : k.usbResetTp ≠ .null ↔ k.pState = .suspended
  suspended : k.pState = .suspended → k.point = .goSleep
  asleep : asleep.after k.trace = true ↔ k.pState = .suspended
  unanswered : unanswered.after k.trace = true ↔ k.pState = .suspended
  wakesOnce : AtEach WakesOnce k.trace
  servesWaker : AtEach ServesWaker k.trace

variable {l : Ledger Word} {k : Kernel}

theorem Handoff.of_suspended (h : Handoff l k) (hs : k.pState = .suspended) : l.pending = none := by
  rw [h.pending, carried, hs]

theorem interrupt_accepted {pdev : Word} (ht : k.usbResetTp ≠ .null) :
    usbOtgResetPortI pdev k = { k with
      usbResetTp := .null, pState := .ready, rdymsg := pdev
      trace := k.trace ++ [.readyI k.pState] ++ [.resetPortI pdev true] } := by
  rw [usbOtgResetPortI, if_pos ht]
  rfl

theorem interrupt_refused {pdev : Word} (ht : k.usbResetTp = .null) :
    usbOtgResetPortI pdev k = k.emit (.resetPortI pdev false) := by
  rw [usbOtgResetPortI, if_neg (not_not.mpr ht)]

theorem accepted_handoff (h : Handoff l k) (pdev : Word) (ht : k.usbResetTp ≠ .null) :
    ∃ l', Steps l l' ∧ Handoff l' (usbOtgResetPortI pdev k) := by
  have hs := h.published.mp ht
  have hp := h.suspended hs
  rw [interrupt_accepted ht]
  refine ⟨_, .single (.put l pdev (h.of_suspended hs)), ?_⟩
  exact {
    accepted := by
      rw [accepted_concat, accepted_concat]
      simp [Ledger.put, h.accepted, acceptedRequest]
    ended := by
      rw [started_concat, started_concat]
      simp [Ledger.put, h.ended, startedReset]
    pending := by simp [Ledger.put, carried, hp]
    published := by simp
    suspended := by simp
    asleep := by
      rw [Observer.after_concat, Observer.after_concat]
      simp [PortReset.asleep]
    unanswered := by
      rw [Observer.after_concat]
      simp [PortReset.unanswered]
    wakesOnce := by
      refine (atEach_concat _ _ _).mpr ⟨(atEach_concat _ _ _).mpr ⟨h.wakesOnce, ?_⟩, by simp [WakesOnce]⟩
      intro found hf
      obtain rfl := Event.readyI.inj hf
      exact ⟨hs, h.asleep.mpr hs⟩
    servesWaker := by
      refine (atEach_concat _ _ _).mpr ⟨(atEach_concat _ _ _).mpr ⟨h.servesWaker, ?_⟩, ?_⟩ <;> simp [ServesWaker] }

theorem refused_handoff (h : Handoff l k) (pdev : Word) (ht : k.usbResetTp = .null) :
    Handoff l (usbOtgResetPortI pdev k) := by
  rw [interrupt_refused ht]
  exact { h with
    accepted := by simp [Kernel.emit, h.accepted, acceptedRequest]
    ended := by simp [Kernel.emit, h.ended, startedReset]
    asleep := by simpa [Kernel.emit, PortReset.asleep] using h.asleep
    unanswered := by simpa [Kernel.emit, PortReset.unanswered] using h.unanswered
    wakesOnce := (atEach_concat _ _ _).mpr ⟨h.wakesOnce, by simp [WakesOnce]⟩
    servesWaker := (atEach_concat _ _ _).mpr ⟨h.servesWaker, by simp [ServesWaker]⟩ }

theorem create_handoff (h : Handoff l k) (ha : k.pState = .absent) : Handoff l (myUsbBspInit k) := by
  have hn : ¬k.pState = .suspended := by rw [ha]; decide
  exact { h with
    pending := by rw [h.pending, carried, ha]; rfl
    published := iff_of_false (mt h.published.mp hn) (by simp [myUsbBspInit])
    suspended := by simp [myUsbBspInit]
    asleep := iff_of_false (mt h.asleep.mp hn) (by simp [myUsbBspInit])
    unanswered := iff_of_false (mt h.unanswered.mp hn) (by simp [myUsbBspInit]) }

theorem goSleep_handoff (h : Handoff l k) (hr : k.pState = .ready) (hp : k.point = .loopHead) :
    Handoff l { k.emit .goSleepS with usbResetTp := .usbResetThread, pState := .suspended, point := .goSleep } where
  accepted := by simp [Kernel.emit, h.accepted, acceptedRequest]
  ended := by simp [Kernel.emit, h.ended, startedReset]
  pending := by simp [h.pending, carried, hr, hp]
  published := by simp
  suspended := by simp
  asleep := by simp [Kernel.emit, PortReset.asleep]
  unanswered := by simp [Kernel.emit, PortReset.unanswered]
  wakesOnce := (atEach_concat _ _ _).mpr ⟨h.wakesOnce, by simp [WakesOnce]⟩
  servesWaker := (atEach_concat _ _ _).mpr ⟨h.servesWaker, by simp [ServesWaker]⟩

theorem wakeUp_handoff (h : Handoff l k) (hr : k.pState = .ready) (hp : k.point = .goSleep) :
    Handoff l { k with msg := k.rdymsg, point := .unlocked } :=
  { h with
    pending := by simp [h.pending, carried, hr, hp]
    suspended := by simp [hr] }

theorem start_handoff (h : Handoff l k) (hr : k.pState = .ready) (hp : k.point = .unlocked) :
    ∃ l', Steps l l' ∧ Handoff l' { k.emit (.resetPort k.msg) with point := .resetting } := by
  have hc : l.pending = some k.msg := by simp [h.pending, carried, hr, hp]
  have hw : ServesWaker k.trace (.resetPort k.msg) := by
    intro pdev he
    obtain rfl := Event.resetPort.inj he
    rw [← h.accepted, ← h.ended, l.balanced, hc]
    rfl
  refine ⟨_, .single (.take l k.msg hc), ?_⟩
  exact {
    accepted := by simp [Kernel.emit, Ledger.take, h.accepted, acceptedRequest]
    ended := by simp [Kernel.emit, Ledger.take, h.ended, startedReset]
    pending := by simp [Kernel.emit, Ledger.take, carried, hr]
    published := h.published
    suspended := by simp [Kernel.emit, hr]
    asleep := by simpa [Kernel.emit, PortReset.asleep] using h.asleep
    unanswered := by simpa [Kernel.emit, PortReset.unanswered] using h.unanswered
    wakesOnce := (atEach_concat _ _ _).mpr ⟨h.wakesOnce, by simp [WakesOnce]⟩
    servesWaker := (atEach_concat _ _ _).mpr ⟨h.servesWaker, hw⟩ }

theorem return_handoff (h : Handoff l k) (hr : k.pState = .ready) (hp : k.point = .resetting) (slot : Word) :
    Handoff l { k with rdymsg := slot, point := .loopHead } :=
  { h with
    pending := by simp [h.pending, carried, hr, hp]
    suspended := by simp [hr] }

theorem thread_handoff (h : Handoff l k) (hr : k.pState = .ready) (slot : Word) :
    ∃ l', Steps l l' ∧ Handoff l' (usbResetThread slot k) := by
  rw [usbResetThread, if_pos hr]
  cases hp : k.point with
  | loopHead => exact ⟨l, .refl, goSleep_handoff h hr hp⟩
  | goSleep => exact ⟨l, .refl, wakeUp_handoff h hr hp⟩
  | unlocked => exact start_handoff h hr hp
  | resetting => exact ⟨l, .refl, return_handoff h hr hp slot⟩

theorem step_handoff (h : Handoff l k) {k' : Kernel} (hs : Step k k') : ∃ l', Steps l l' ∧ Handoff l' k' := by
  cases hs with
  | interrupt pdev =>
      by_cases ht : k.usbResetTp = .null
      · exact ⟨l, .refl, refused_handoff h pdev ht⟩
      · exact accepted_handoff h pdev ht
  | create ha => exact ⟨l, .refl, create_handoff h ha⟩
  | thread slot hr => exact thread_handoff h hr slot

theorem boot_handoff : Handoff .empty boot where
  accepted := rfl
  ended := rfl
  pending := rfl
  published := by simp [boot]
  suspended := by simp [boot]
  asleep := by simp [boot, asleep]
  unanswered := by simp [boot, unanswered]
  wakesOnce := atEach_nil _
  servesWaker := atEach_nil _

theorem reachable_handoff (h : Reachable k) : ∃ l, Steps .empty l ∧ Handoff l k := by
  induction h with
  | refl => exact ⟨_, .refl, boot_handoff⟩
  | tail _ hs ih =>
      obtain ⟨l, hl, hk⟩ := ih
      obtain ⟨l', hl', hk'⟩ := step_handoff hk hs
      exact ⟨l', hl.trans hl', hk'⟩

/-- The hand-off of a port reset from the interrupt to the thread is sound:
chSchReadyI is called for a suspended thread, once in a suspension; the
pointer is set exactly while the thread is suspended and no request has been
accepted; each reset has the handle of the request that woke the thread for
it, and no accepted request but the last one is still without its reset. -/
theorem reset_handoff_sound (k : Kernel) (h : Reachable k) :
    AtEach WakesOnce k.trace ∧
      (k.usbResetTp ≠ .null ↔
        k.pState = .suspended ∧ k.point = .goSleep ∧ unanswered.after k.trace = true) ∧
      AtEach ServesWaker k.trace ∧
      (∃ pending : Option Word, accepted k.trace = started k.trace ++ pending.toList) ∧
      (started k.trace).length ≤ (accepted k.trace).length ∧
      (accepted k.trace).length ≤ (started k.trace).length + 1 := by
  obtain ⟨l, -, hk⟩ := reachable_handoff h
  have hb : accepted k.trace = started k.trace ++ l.pending.toList := by
    rw [← hk.accepted, ← hk.ended, l.balanced]
  have hlen : l.pending.toList.length ≤ 1 := by cases l.pending <;> simp
  refine ⟨hk.wakesOnce, ⟨fun ht => ?_, fun hs => hk.published.mpr hs.1⟩, hk.servesWaker, ⟨_, hb⟩, ?_, ?_⟩
  · have hs := hk.published.mp ht
    exact ⟨hs, hk.suspended hs, hk.unanswered.mpr hs⟩
  · rw [hb, List.length_append]
    omega
  · rw [hb, List.length_append]
    omega

def woken : Kernel := usbOtgResetPortI 7 (usbResetThread 0 (myUsbBspInit boot))

theorem woken_reachable : Reachable woken :=
  ((Relation.ReflTransGen.refl.tail (.create rfl)).tail (.thread 0 rfl)).tail (.interrupt 7)

theorem woken_sound : accepted woken.trace = [7] ∧ started woken.trace = [] ∧ woken.usbResetTp = .null ∧
    (accepted woken.trace).length ≤ (started woken.trace).length + 1 :=
  ⟨by decide, by decide, by decide, (reset_handoff_sound woken woken_reachable).2.2.2.2.2⟩

def threadAlone (k : Kernel) (slots : List Word) : Kernel := run (fun k slot => usbResetThread slot k) k slots

/-- However far the thread is run, if it is suspended again a reset has
been started after the call. -/
def Followed (pdev : Word) (k : Kernel) : Prop :=
  ∀ slots, (threadAlone (usbOtgResetPortI pdev k) slots).pState = .suspended →
    (started (usbOtgResetPortI pdev k).trace).length <
      (started (threadAlone (usbOtgResetPortI pdev k) slots).trace).length

def Listening (k : Kernel) : Prop := k.point = .goSleep ∨ k.point = .unlocked

instance (k : Kernel) : Decidable (Listening k) := inferInstanceAs (Decidable (_ ∨ _))

theorem started_le_thread (slot : Word) (k : Kernel) :
    (started k.trace).length ≤ (started (usbResetThread slot k).trace).length := by
  rw [usbResetThread]
  split
  · split <;> simp [Kernel.emit]
  · exact Nat.le_refl _

theorem started_le_threadAlone (k : Kernel) (slots : List Word) :
    (started k.trace).length ≤ (started (threadAlone k slots).trace).length :=
  run_preserves (I := fun k' => (started k.trace).length ≤ (started k'.trace).length)
    (fun k' slot h => Nat.le_trans h (started_le_thread slot k')) (Nat.le_refl _) slots

theorem reset_starts (hr : k.pState = .ready) (hl : Listening k) (slots : List Word)
    (hs : (threadAlone k slots).pState = .suspended) :
    (started k.trace).length < (started (threadAlone k slots).trace).length := by
  induction slots generalizing k with
  | nil =>
      rw [threadAlone, run_nil, hr] at hs
      contradiction
  | cons slot slots ih =>
      rw [threadAlone, run_cons] at hs ⊢
      rcases hl with hp | hp
      · have he : usbResetThread slot k = { k with msg := k.rdymsg, point := .unlocked } := by
          rw [usbResetThread, if_pos hr, hp]
        rw [he] at hs ⊢
        exact ih (k := { k with msg := k.rdymsg, point := .unlocked }) hr (.inr rfl) hs
      · have he : (started (usbResetThread slot k).trace).length = (started k.trace).length + 1 := by
          rw [usbResetThread, if_pos hr, hp]
          simp [Kernel.emit, startedReset]
        have hle := started_le_threadAlone (usbResetThread slot k) slots
        rw [threadAlone] at hle
        omega

theorem deaf_sleeps (hr : k.pState = .ready) (hl : ¬Listening k) :
    ∃ slots, (threadAlone k slots).pState = .suspended ∧ started (threadAlone k slots).trace = started k.trace := by
  cases hp : k.point with
  | loopHead =>
      refine ⟨[0], ?_, ?_⟩ <;> simp [threadAlone, usbResetThread, hr, hp, Kernel.emit, startedReset]
  | resetting =>
      refine ⟨[0, 0], ?_, ?_⟩ <;> simp [threadAlone, usbResetThread, hr, hp, Kernel.emit, startedReset]
  | goSleep => exact absurd (.inl hp) hl
  | unlocked => exact absurd (.inr hp) hl

theorem thread_sleeps (hc : k.pState ≠ .absent) : ∃ slots, (threadAlone k slots).pState = .suspended := by
  by_cases hr : k.pState = .ready
  · cases hp : k.point with
    | loopHead => exact ⟨[0], by simp [threadAlone, usbResetThread, hr, hp, Kernel.emit]⟩
    | goSleep => exact ⟨[0, 0, 0, 0], by simp [threadAlone, usbResetThread, hr, hp, Kernel.emit]⟩
    | unlocked => exact ⟨[0, 0, 0], by simp [threadAlone, usbResetThread, hr, hp, Kernel.emit]⟩
    | resetting => exact ⟨[0, 0], by simp [threadAlone, usbResetThread, hr, hp, Kernel.emit]⟩
  · refine ⟨[], ?_⟩
    cases hs : k.pState with
    | absent => exact absurd hs hc
    | ready => exact absurd hs hr
    | suspended => exact hs

/-- A request for a port reset is followed by a reset exactly if it comes
while the thread listens. -/
theorem followed_iff_listening (k : Kernel) (h : Reachable k) (hc : k.pState ≠ .absent) (pdev : Word) :
    Followed pdev k ↔ Listening k := by
  obtain ⟨l, -, hk⟩ := reachable_handoff h
  by_cases hs : k.pState = .suspended
  · have hp := hk.suspended hs
    refine iff_of_true (fun slots hslots => ?_) (.inl hp)
    have hk' : usbOtgResetPortI pdev k = _ := interrupt_accepted (hk.published.mpr hs)
    refine reset_starts (k := usbOtgResetPortI pdev k) ?_ ?_ slots hslots
    · rw [hk']
    · rw [hk']
      exact .inl hp
  · have hr : k.pState = .ready := by
      cases hps : k.pState with
      | absent => exact absurd hps hc
      | ready => rfl
      | suspended => exact absurd hps hs
    have ht : k.usbResetTp = .null := not_not.mp (mt hk.published.mp hs)
    rw [Followed, interrupt_refused ht]
    constructor
    · intro hf
      by_contra hl
      have hl' : ¬Listening (k.emit (.resetPortI pdev false)) := hl
      obtain ⟨slots, hsleep, hsame⟩ := deaf_sleeps (k := k.emit (.resetPortI pdev false)) hr hl'
      have hlt := hf slots hsleep
      rw [hsame] at hlt
      exact Nat.lt_irrefl _ hlt
    · intro hl slots hslots
      exact reset_starts (k := k.emit (.resetPortI pdev false)) hr hl slots hslots

def resettingKernel : Kernel := usbResetThread 0 (usbResetThread 0 woken)

theorem resetting_reachable : Reachable resettingKernel :=
  (woken_reachable.tail (.thread 0 rfl)).tail (.thread 0 rfl)

theorem request_during_reset_is_lost :
    Reachable resettingKernel ∧ resettingKernel.pState ≠ .absent ∧ ¬Followed 7 resettingKernel := by
  refine ⟨resetting_reachable, by decide, fun hf => ?_⟩
  exact absurd (hf [0, 0] (by decide)) (by decide)

theorem second_request_is_followed : Listening woken ∧ Followed 9 woken := by
  have hl : Listening woken := by decide
  exact ⟨hl, (followed_iff_listening woken woken_reachable (by decide) 9).mpr hl⟩

end Uubt.PortReset
