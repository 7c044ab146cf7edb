import Mathlib.Order.Nat

namespace Uubt.Delay

inductive DelayUnit
  | msec | usec
deriving DecidableEq

def timPeriod : DelayUnit → Nat
  | .usec => 11
  | .msec => 11999

def timPrescaler : Nat := 5

/-- TIM2 with its control bits, its update flag, and the clocks since its
last update. -/
structure Tim where
  cen : Bool
  uie : Bool
  uif : Bool
  psc : Nat
  arr : Nat
  clocks : Nat

def Tim.cmd (on : Bool) (t : Tim) : Tim := { t with cen := on }

def Tim.itConfig (on : Bool) (t : Tim) : Tim := { t with uie := on }

/-- TIM_TimeBaseInit generates an update, to have the prescaler loaded. -/
def Tim.timeBaseInit (u : DelayUnit) (t : Tim) : Tim :=
  { t with psc := timPrescaler, arr := timPeriod u, clocks := 0, uif := true }

def Tim.clearPending (t : Tim) : Tim := { t with uif := false }

def Tim.clock (t : Tim) : Tim :=
  if !t.cen then t
  else if t.clocks + 1 < (t.psc + 1) * (t.arr + 1) then { t with clocks := t.clocks + 1 }
  else { t with clocks := 0, uif := true }

/-- The statements of BSP_Delay, with those of BSP_SetTime. -/
inductive Stmt
  | store | cmdOff | itOff | timeBaseInit | clearPending | arrPreload | itOn | cmdOn | wait | stop
deriving DecidableEq

/-- A call of BSP_Delay. All but the first three fields are notes: when it
was called and when it has returned, whether it was called while another one
was active, the clocks that it has waited for itself, the ticks of another
delay's timer that it has taken for its own, and whether another delay came
while it had time left. -/
structure Frame where
  nTime : Nat
  unit : DelayUnit
  pc : Stmt
  called : Nat
  ended : Nat
  nested : Bool
  waited : Nat
  stolen : Nat
  cut : Bool
deriving DecidableEq

def Frame.elapsed (f : Frame) : Nat := f.ended - f.called

/-- The calls that are active stand innermost first: a call preempts another
one if it comes from an interrupt. The clocks since the reset are a note. -/
structure Board where
  now : Nat
  bspDelay : Nat
  tim : Tim
  active : List Frame
  returned : List Frame

def Stmt.settingUp : Stmt → Bool
  | .store | .wait | .stop => false
  | _ => true

def Board.next (pc : Stmt) (b : Board) : Board :=
  { b with active := b.active.modifyHead ({ · with pc := pc }) }

def Board.timer (f : Tim → Tim) (b : Board) : Board := { b with tim := f b.tim }

def exec (b : Board) : Board :=
  match b.active with
  | [] => b
  | f :: rest =>
      match f.pc with
      | .store => { b with bspDelay := f.nTime }.next .cmdOff
      | .cmdOff => (b.timer (.cmd false)).next .itOff
      | .itOff => (b.timer (.itConfig false)).next .timeBaseInit
      | .timeBaseInit => (b.timer (.timeBaseInit f.unit)).next .clearPending
      | .clearPending => (b.timer .clearPending).next .arrPreload
      | .arrPreload => b.next .itOn
      | .itOn => (b.timer (.itConfig true)).next .cmdOn
      | .cmdOn => (b.timer (.cmd true)).next .wait
      | .wait => if b.bspDelay ≠ 0 then b else b.next .stop
      | .stop => { b.timer (.cmd false) with active := rest, returned := b.returned ++ [{ f with ended := b.now }] }

def noteClock (b : Board) (f : Frame) : Frame :=
  if f.pc = .wait ∧ b.bspDelay ≠ 0 then { f with waited := f.waited + 1 } else f

def noteTick (f : Frame) : Frame := if f.pc.settingUp then { f with stolen := f.stolen + 1 } else f

def noteCall (b : Board) (f : Frame) : Frame := if f.pc ≠ .store ∧ b.bspDelay ≠ 0 then { f with cut := true } else f

def usbOtgBspTimerIRQ (b : Board) : Board :=
  if b.tim.uif && b.tim.uie then
    let b := b.timer .clearPending
    if b.bspDelay > 0 then
      { b with bspDelay := b.bspDelay - 1, active := b.active.modifyHead noteTick }
    else b.timer (.cmd false)
  else b

def clock (b : Board) : Board :=
  { b.timer .clock with now := b.now + 1, active := b.active.modifyHead (noteClock b) }

def bspDelayCall (nTime : Nat) (u : DelayUnit) (b : Board) : Board :=
  { b with active := { nTime := nTime, unit := u, pc := .store, called := b.now, ended := 0,
                       nested := !b.active.isEmpty, waited := 0, stolen := 0, cut := false } ::
                     b.active.modifyHead (noteCall b) }

inductive Move
  | clock
  | exec
  | call (nTime : Nat) (u : DelayUnit)

/-- The interrupt of the timer has the highest priority, so it is taken as
soon as it is pending. -/
def step (b : Board) : Move → Board
  | .clock => usbOtgBspTimerIRQ (clock b)
  | .exec => usbOtgBspTimerIRQ (exec b)
  | .call nTime u => bspDelayCall nTime u b

def reset : Board :=
  { now := 0, bspDelay := 0, tim := { cen := false, uie := false, uif := false, psc := 0, arr := 0, clocks := 0 },
    active := [], returned := [] }

def unitClocks (u : DelayUnit) : Nat := (timPrescaler + 1) * (timPeriod u + 1)

theorem unitClocks_pos (u : DelayUnit) : 0 < unitClocks u := by cases u <;> decide

/-- What BSP_SetTime has achieved when it comes to a statement. -/
def SetUp (u : DelayUnit) (t : Tim) : Stmt → Prop
  | .store | .cmdOff => True
  | .itOff => t.cen = false
  | .timeBaseInit => t.cen = false ∧ t.uie = false
  | .clearPending => t.cen = false ∧ t.uie = false ∧ t.psc = timPrescaler ∧ t.arr = timPeriod u ∧ t.clocks = 0
  | .arrPreload | .itOn =>
      t.cen = false ∧ t.uif = false ∧ t.uie = false ∧ t.psc = timPrescaler ∧ t.arr = timPeriod u ∧ t.clocks = 0
  | .cmdOn => t.cen = false ∧ t.uif = false ∧ t.uie = true ∧ t.psc = timPrescaler ∧ t.arr = timPeriod u ∧ t.clocks = 0
  | .wait => t.cen = true ∧ t.uif = false ∧ t.uie = true ∧ t.psc = timPrescaler ∧ t.arr = timPeriod u ∧
      t.clocks < unitClocks u
  | .stop => False

structure Fresh (f : Frame) : Prop where
  waited : f.waited = 0
  stolen : f.stolen = 0
  uncut : f.cut = false

structure Expired (f : Frame) : Prop where
  stolen : f.stolen ≤ f.nTime
  uncut : f.cut = false → f.waited = (f.nTime - f.stolen) * unitClocks f.unit
  short : f.cut = true → f.waited < f.nTime * unitClocks f.unit

theorem Expired.full_iff {f : Frame} (h : Expired f) :
    f.waited = f.nTime * unitClocks f.unit ↔ f.cut = false ∧ f.stolen = 0 := by
  have hU := unitClocks_pos f.unit
  cases hc : f.cut with
  | true => simpa using (h.short hc).ne
  | false =>
      rw [h.uncut hc, Nat.mul_left_inj hU.ne']
      have hs := h.stolen
      simp only [true_and]
      omega

theorem Expired.waited_le {f : Frame} (h : Expired f) : f.waited ≤ f.nTime * unitClocks f.unit := by
  cases hc : f.cut with
  | true => exact (h.short hc).le
  | false =>
      rw [h.uncut hc]
      exact Nat.mul_le_mul_right _ (Nat.sub_le _ _)

/-- A call with time left: the timer is its own, or is being set up for it. -/
structure Running (f : Frame) (d : Nat) (t : Tim) : Prop where
  uncut : f.cut = false
  left : f.stolen + d ≤ f.nTime
  waited : f.waited + d * unitClocks f.unit =
    (f.nTime - f.stolen) * unitClocks f.unit + if f.pc = .wait then t.clocks else 0
  setUp : SetUp f.unit t f.pc

inductive Innermost (f : Frame) (d : Nat) (t : Tim) : Prop
  | fresh (hp : f.pc = .store) (h : Fresh f)
  | expired (hp : f.pc ≠ .store) (hd : d = 0) (h : Expired f)
  | running (hp : f.pc ≠ .store) (hd : d ≠ 0) (h : Running f d t)

inductive Preempted (f : Frame) : Prop
  | fresh (hp : f.pc = .store) (h : Fresh f)
  | expired (hp : f.pc ≠ .store) (h : Expired f)

theorem Innermost.preempted {f : Frame} {b : Board} (h : Innermost f b.bspDelay b.tim) :
    Preempted (noteCall b f) := by
  cases h with
  | fresh hp h =>
      rw [noteCall, if_neg (fun hc => hc.1 hp)]
      exact .fresh hp h
  | expired hp hd h =>
      rw [noteCall, if_neg (fun hc => hc.2 hd)]
      exact .expired hp h
  | running hp hd h =>
      rw [noteCall, if_pos ⟨hp, hd⟩]
      refine .expired hp ⟨?_, fun hc => Bool.noConfusion hc, fun _ => ?_⟩
      · have hl := h.left
        exact Nat.le_trans (Nat.le_add_right _ _) hl
      · have hU := unitClocks_pos f.unit
        have hclocks : (if f.pc = .wait then b.tim.clocks else 0) < unitClocks f.unit := by
          split_ifs with hw
          · have hs := h.setUp
            rw [hw] at hs
            exact hs.2.2.2.2.2
          · exact hU
        have hd' : unitClocks f.unit ≤ b.bspDelay * unitClocks f.unit :=
          Nat.le_mul_of_pos_left _ (Nat.pos_of_ne_zero hd)
        have hn : (f.nTime - f.stolen) * unitClocks f.unit ≤ f.nTime * unitClocks f.unit :=
          Nat.mul_le_mul_right _ (Nat.sub_le _ _)
        have hw := h.waited
        change f.waited < f.nTime * unitClocks f.unit
        omega

theorem Preempted.resumed {f : Frame} (h : Preempted f) (t : Tim) : Innermost f 0 t := by
  cases h with
  | fresh hp h => exact .fresh hp h
  | expired hp h => exact .expired hp rfl h

def Tim.Taken (t : Tim) : Prop := ¬(t.uif = true ∧ t.uie = true)

variable {b : Board}

theorem irq_none (h : b.tim.Taken) : usbOtgBspTimerIRQ b = b := by
  rw [usbOtgBspTimerIRQ, if_neg]
  simpa [Tim.Taken] using h

theorem irq_tick (hf : b.tim.uif = true) (he : b.tim.uie = true) (hd : b.bspDelay ≠ 0) :
    usbOtgBspTimerIRQ b = { b.timer .clearPending with
      bspDelay := b.bspDelay - 1, active := b.active.modifyHead noteTick } := by
  simp [usbOtgBspTimerIRQ, hf, he, Board.timer, Nat.pos_of_ne_zero hd]

theorem irq_expired (hd : b.bspDelay = 0) :
    ∃ t : Tim, usbOtgBspTimerIRQ b = { b with tim := t } ∧ t.Taken ∧ (t.cen = true → b.tim.cen = true) := by
  by_cases h : b.tim.uif = true ∧ b.tim.uie = true
  · refine ⟨(b.tim.clearPending).cmd false, ?_, ?_, ?_⟩
    · simp [usbOtgBspTimerIRQ, h.1, h.2, Board.timer, hd]
    · simp [Tim.Taken, Tim.clearPending, Tim.cmd]
    · simp [Tim.cmd]
  · exact ⟨b.tim, irq_none h, h, id⟩

structure Sound (b : Board) : Prop where
  taken : b.tim.Taken
  innermost : ∀ f rest, b.active = f :: rest → Innermost f b.bspDelay b.tim ∧ ∀ g ∈ rest, Preempted g
  returned : ∀ f ∈ b.returned, Expired f

theorem call_sound (h : Sound b) (nTime : Nat) (u : DelayUnit) : Sound (bspDelayCall nTime u b) := by
  refine ⟨h.taken, ?_, h.returned⟩
  intro f rest he
  obtain ⟨rfl, rfl⟩ := List.cons.inj he
  refine ⟨.fresh rfl ⟨rfl, rfl, rfl⟩, ?_⟩
  cases ha : b.active with
  | nil => simp
  | cons g outer =>
      obtain ⟨hg, houter⟩ := h.innermost g outer ha
      intro x hx
      rcases List.mem_cons.mp hx with rfl | hx
      · exact hg.preempted
      · exact houter x hx

variable {f : Frame} {rest : List Frame}

def Stmt.left : Stmt → Nat
  | .store => 10
  | .cmdOff => 9
  | .itOff => 8
  | .timeBaseInit => 7
  | .clearPending => 6
  | .arrPreload => 5
  | .itOn => 4
  | .cmdOn => 3
  | .wait => 2
  | .stop => 1

/-- What a statement of the set-up does to the timer, and the statement
behind it. -/
def Stmt.effect (u : DelayUnit) : Stmt → Option ((Tim → Tim) × Stmt)
  | .cmdOff => some (.cmd false, .itOff)
  | .itOff => some (.itConfig false, .timeBaseInit)
  | .timeBaseInit => some (.timeBaseInit u, .clearPending)
  | .clearPending => some (.clearPending, .arrPreload)
  | .arrPreload => some (id, .itOn)
  | .itOn => some (.itConfig true, .cmdOn)
  | .cmdOn => some (.cmd true, .wait)
  | .store | .wait | .stop => none

theorem Stmt.effect_left {u : DelayUnit} {pc pc' : Stmt} {g : Tim → Tim} (h : pc.effect u = some (g, pc')) :
    pc' ≠ .store ∧ pc'.left < pc.left := by
  cases pc <;> cases h <;> decide

theorem exec_effect (ha : b.active = f :: rest) {g : Tim → Tim} {pc : Stmt}
    (h : f.pc.effect f.unit = some (g, pc)) :
    exec b = { b with tim := g b.tim, active := { f with pc := pc } :: rest } := by
  cases hpc : f.pc <;> rw [hpc] at h <;> cases h <;> simp [exec, ha, hpc, Board.next, Board.timer]

theorem exec_fresh (ha : b.active = f :: rest) (hp : f.pc = .store) :
    exec b = { b with bspDelay := f.nTime, active := { f with pc := .cmdOff } :: rest } := by
  simp [exec, ha, hp, Board.next]

theorem exec_expired (ha : b.active = f :: rest) (hp : f.pc ≠ .store) (hd : b.bspDelay = 0) :
    (∃ t pc, pc ≠ .store ∧ pc.left < f.pc.left ∧
        exec b = { b with tim := t, active := { f with pc := pc } :: rest }) ∨
      ∃ t, exec b = { b with tim := t, active := rest, returned := b.returned ++ [{ f with ended := b.now }] } := by
  cases he : f.pc.effect f.unit with
  | some r =>
      obtain ⟨hne, hlt⟩ := Stmt.effect_left he
      exact .inl ⟨_, _, hne, hlt, exec_effect ha he⟩
  | none =>
      cases hpc : f.pc with
      | store => exact absurd hpc hp
      | wait => exact .inl ⟨b.tim, .stop, by decide, by decide, by simp [exec, ha, hpc, hd, Board.next]⟩
      | stop => exact .inr ⟨b.tim.cmd false, by simp [exec, ha, hpc, Board.timer]⟩
      | _ =>
          rw [hpc] at he
          cases he

theorem Running.next {t t' : Tim} {d : Nat} (h : Running f d t) (hp : f.pc ≠ .wait) {pc : Stmt}
    (hs : SetUp f.unit t' pc) (hc : pc = .wait → t'.clocks = 0) : Running { f with pc := pc } d t' := by
  refine ⟨h.uncut, h.left, ?_, hs⟩
  have hw := h.waited
  rw [if_neg hp] at hw
  change f.waited + d * unitClocks f.unit =
    (f.nTime - f.stolen) * unitClocks f.unit + if pc = .wait then t'.clocks else 0
  rw [hw]
  split_ifs with hpc
  · rw [hc hpc]
  · rfl

theorem exec_running (ha : b.active = f :: rest) (ht : b.tim.Taken) (hp : f.pc ≠ .store) (hd : b.bspDelay ≠ 0)
    (h : Running f b.bspDelay b.tim) :
    ∃ t pc, pc ≠ .store ∧ (f.pc ≠ .wait → pc.left < f.pc.left) ∧
      exec b = { b with tim := t, active := { f with pc := pc } :: rest } ∧ t.Taken ∧
      Running { f with pc := pc } b.bspDelay t := by
  have hs := h.setUp
  have hgo {g : Tim → Tim} {pc : Stmt} (he : f.pc.effect f.unit = some (g, pc)) (ht' : (g b.tim).Taken)
      (hrun : Running { f with pc := pc } b.bspDelay (g b.tim)) :
      ∃ t pc, pc ≠ .store ∧ (f.pc ≠ .wait → pc.left < f.pc.left) ∧
        exec b = { b with tim := t, active := { f with pc := pc } :: rest } ∧ t.Taken ∧
        Running { f with pc := pc } b.bspDelay t :=
    ⟨_, _, (Stmt.effect_left he).1, fun _ => (Stmt.effect_left he).2, exec_effect ha he, ht', hrun⟩
  cases hpc : f.pc with
  | store => exact absurd hpc hp
  | stop =>
      rw [hpc] at hs
      exact hs.elim
  | wait =>
      have hf : { f with pc := .wait } = f := by rw [← hpc]
      have hb : exec b = b := by simp [exec, ha, hpc, hd]
      exact ⟨b.tim, .wait, by decide, fun hw => absurd rfl hw, by rw [hb, hf, ← ha], ht, hf ▸ h⟩
  | cmdOff =>
      rw [hpc] at hgo
      exact hgo rfl ht (h.next (by simp [hpc]) rfl (fun hc => by cases hc))
  | itOff =>
      rw [hpc] at hs hgo
      exact hgo rfl (fun hc => Bool.noConfusion hc.2) (h.next (by simp [hpc]) ⟨hs, rfl⟩ (fun hc => by cases hc))
  | timeBaseInit =>
      rw [hpc] at hs hgo
      exact hgo rfl (fun hc => by simp [Tim.timeBaseInit, hs.2] at hc)
        (h.next (by simp [hpc]) ⟨hs.1, hs.2, rfl, rfl, rfl⟩ (fun hc => by cases hc))
  | clearPending =>
      rw [hpc] at hs hgo
      obtain ⟨hc, he, hbase⟩ := hs
      exact hgo rfl (fun hc => Bool.noConfusion hc.1)
        (h.next (by simp [hpc]) ⟨hc, rfl, he, hbase⟩ (fun hc => by cases hc))
  | arrPreload =>
      rw [hpc] at hs hgo
      exact hgo rfl ht (h.next (by simp [hpc]) hs (fun hc => by cases hc))
  | itOn =>
      rw [hpc] at hs hgo
      obtain ⟨hc, hf, -, hbase⟩ := hs
      exact hgo rfl (fun hc => by simp [Tim.itConfig, hf] at hc)
        (h.next (by simp [hpc]) ⟨hc, hf, rfl, hbase⟩ (fun hc => by cases hc))
  | cmdOn =>
      rw [hpc] at hs hgo
      obtain ⟨-, hf, he, hp, hr, hz⟩ := hs
      refine hgo rfl (fun hc => by simp [Tim.cmd, hf] at hc)
        (h.next (by simp [hpc]) ⟨rfl, hf, he, hp, hr, ?_⟩ (fun _ => hz))
      change b.tim.clocks < _
      rw [hz]
      exact unitClocks_pos _

theorem exec_sound (h : Sound b) : Sound (usbOtgBspTimerIRQ (exec b)) := by
  cases ha : b.active with
  | nil =>
      have he : exec b = b := by simp [exec, ha]
      rw [he, irq_none h.taken]
      exact h
  | cons f rest =>
      obtain ⟨hf, hrest⟩ := h.innermost f rest ha
      cases hf with
      | fresh hp hfresh =>
          have htaken : (exec b).tim.Taken := by
            rw [exec_fresh ha hp]
            exact h.taken
          rw [irq_none htaken, exec_fresh ha hp]
          refine ⟨h.taken, ?_, h.returned⟩
          rintro g outer he
          obtain ⟨rfl, rfl⟩ := List.cons.inj he
          refine ⟨?_, hrest⟩
          obtain ⟨hw, hs, hc⟩ := hfresh
          by_cases hn : f.nTime = 0
          · refine .expired (by simp) hn ⟨hs ▸ Nat.zero_le _, fun _ => ?_, fun hcut => ?_⟩
            · simp [hw, hs, hn]
            · simp [hc] at hcut
          · refine .running (by simp) hn ⟨hc, by simp [hs], ?_, trivial⟩
            simp [hw, hs]
      | expired hp hd hx =>
          have hresume : ∀ (t : Tim) (g : Frame) (outer : List Frame), rest = g :: outer →
              Innermost g 0 t ∧ ∀ x ∈ outer, Preempted x := by
            rintro t g outer rfl
            obtain ⟨hg, houter⟩ := List.forall_mem_cons.mp hrest
            exact ⟨hg.resumed t, houter⟩
          rcases exec_expired ha hp hd with ⟨t, pc, hpc, -, he⟩ | ⟨t, he⟩
          · obtain ⟨t', hirq, htaken, -⟩ := irq_expired (b := exec b) (by rw [he]; exact hd)
            rw [hirq, he]
            refine ⟨htaken, ?_, h.returned⟩
            intro g outer hg
            obtain ⟨rfl, rfl⟩ := List.cons.inj hg
            exact ⟨.expired hpc hd ⟨hx.stolen, hx.uncut, hx.short⟩, hrest⟩
          · obtain ⟨t', hirq, htaken, -⟩ := irq_expired (b := exec b) (by rw [he]; exact hd)
            rw [hirq, he]
            refine ⟨htaken, fun g outer hg => ?_, ?_⟩
            · rw [hd]
              exact hresume t' g outer hg
            · intro g hg
              rcases List.mem_append.mp hg with hg | hg
              · exact h.returned g hg
              · obtain rfl := List.mem_singleton.mp hg
                exact ⟨hx.stolen, hx.uncut, hx.short⟩
      | running hp hd hr =>
          obtain ⟨t, pc, hpc, -, he, htaken, hr'⟩ := exec_running ha h.taken hp hd hr
          rw [irq_none (by rw [he]; exact htaken), he]
          refine ⟨htaken, ?_, h.returned⟩
          intro g outer hg
          obtain ⟨rfl, rfl⟩ := List.cons.inj hg
          exact ⟨.running hpc hd hr', hrest⟩

theorem irq_taken (b : Board) : (usbOtgBspTimerIRQ b).tim.Taken := by
  by_cases h : b.tim.uif = true ∧ b.tim.uie = true
  · by_cases hd : b.bspDelay = 0
    · obtain ⟨t, he, ht, -⟩ := irq_expired hd
      rw [he]
      exact ht
    · rw [irq_tick h.1 h.2 hd]
      exact fun hc => Bool.noConfusion hc.1
  · rw [irq_none h]
    exact h

theorem irq_returned (b : Board) : (usbOtgBspTimerIRQ b).returned = b.returned := by
  unfold usbOtgBspTimerIRQ
  split_ifs
  · dsimp only
    split_ifs <;> rfl
  · rfl

theorem irq_active (b : Board) :
    (usbOtgBspTimerIRQ b).active = b.active ∨ (usbOtgBspTimerIRQ b).active = b.active.modifyHead noteTick := by
  unfold usbOtgBspTimerIRQ
  split_ifs
  · dsimp only
    split_ifs
    · exact .inr rfl
    · exact .inl rfl
  · exact .inl rfl

theorem clock_eq (ha : b.active = f :: rest) (hn : ¬(f.pc = .wait ∧ b.bspDelay ≠ 0)) :
    clock b = { b.timer .clock with now := b.now + 1 } := by
  rw [clock, ha, List.modifyHead_cons, noteClock, if_neg hn, ← ha]
  rfl

theorem Running.tick {t t' : Tim} {d : Nat} (h : Running f d t) (hp : f.pc = .cmdOff) (hd : d ≠ 0) :
    Innermost (noteTick f) (d - 1) t' := by
  have hnote : noteTick f = { f with stolen := f.stolen + 1 } := by simp [noteTick, hp, Stmt.settingUp]
  have hl := h.left
  have hw := h.waited
  rw [if_neg (by simp [hp])] at hw
  have hsub : f.nTime - f.stolen = f.nTime - (f.stolen + 1) + 1 := by omega
  have hdd : d = d - 1 + 1 := by omega
  rw [hsub, hdd, Nat.add_mul, Nat.add_mul] at hw
  have hw' : f.waited + (d - 1) * unitClocks f.unit = (f.nTime - (f.stolen + 1)) * unitClocks f.unit := by omega
  rw [hnote]
  by_cases hz : d - 1 = 0
  · refine .expired (by simp [hp]) hz ⟨by simp; omega, fun _ => ?_, fun hc => ?_⟩
    · simpa [hz] using hw'
    · simp [h.uncut] at hc
  · refine .running (by simp [hp]) hz ⟨h.uncut, by simp; omega, ?_, by rw [hp]; trivial⟩
    rw [if_neg (by simp [hp])]
    exact hw'

theorem Tim.clock_count {t : Tim} {u : DelayUnit} (hs : SetUp u t .wait) (h : t.clocks + 1 < unitClocks u) :
    t.clock = { t with clocks := t.clocks + 1 } := by
  obtain ⟨hc, -, -, hp, hr, -⟩ := hs
  rw [Tim.clock, hc, hp, hr]
  exact if_pos h

theorem Tim.clock_update {t : Tim} {u : DelayUnit} (hs : SetUp u t .wait) (h : t.clocks + 1 = unitClocks u) :
    t.clock = { t with clocks := 0, uif := true } := by
  obtain ⟨hc, -, -, hp, hr, -⟩ := hs
  rw [Tim.clock, hc, hp, hr]
  exact if_neg (Nat.not_lt.mpr h.ge)

/-- A clock for the call that waits: it waits for one clock less from now on. -/
theorem wait_clock (ha : b.active = f :: rest) (hp : f.pc = .wait) (hd : b.bspDelay ≠ 0)
    (h : Running f b.bspDelay b.tim) :
    ∃ d t, usbOtgBspTimerIRQ (clock b) =
        { b with now := b.now + 1, bspDelay := d, tim := t, active := { f with waited := f.waited + 1 } :: rest } ∧
      Innermost { f with waited := f.waited + 1 } d t ∧
      d * unitClocks f.unit + b.tim.clocks + 1 = b.bspDelay * unitClocks f.unit + t.clocks := by
  have hs := h.setUp
  rw [hp] at hs
  have hw := h.waited
  rw [if_pos hp] at hw
  have hclock : clock b =
      { b with now := b.now + 1, tim := b.tim.clock, active := { f with waited := f.waited + 1 } :: rest } := by
    simp [clock, ha, noteClock, hp, hd, Board.timer]
  obtain ⟨hcen, huif, huie, hpsc, harr, hlt⟩ := hs
  rcases Nat.lt_or_eq_of_le (Nat.succ_le_of_lt hlt) with hcount | hupdate
  · have htim := Tim.clock_count ⟨hcen, huif, huie, hpsc, harr, hlt⟩ hcount
    refine ⟨b.bspDelay, { b.tim with clocks := b.tim.clocks + 1 }, ?_, ?_, ?_⟩
    · rw [hclock, htim]
      exact irq_none fun hc => by simp [huif] at hc
    · refine .running (by simp [hp]) hd ⟨h.uncut, h.left, ?_, by rw [hp]; exact ⟨hcen, huif, huie, hpsc, harr, hcount⟩⟩
      simp only [hp, if_true]
      omega
    · simp only
      omega
  · have htim := Tim.clock_update ⟨hcen, huif, huie, hpsc, harr, hlt⟩ hupdate
    obtain ⟨d, hd1⟩ := Nat.exists_eq_succ_of_ne_zero hd
    have hl := h.left
    rw [hd1, Nat.succ_mul] at hw
    rw [hd1] at hl
    have hw' : f.waited + 1 + d * unitClocks f.unit = (f.nTime - f.stolen) * unitClocks f.unit := by omega
    refine ⟨d, { b.tim with clocks := 0, uif := false }, ?_, ?_, ?_⟩
    · have hpend : (clock b).tim.uif = true := by rw [hclock, htim]
      have hon : (clock b).tim.uie = true := by rw [hclock, htim, huie]
      have hleft : (clock b).bspDelay ≠ 0 := by rwa [hclock]
      rw [irq_tick hpend hon hleft, hclock, htim]
      simp [Board.timer, Tim.clearPending, noteTick, hp, Stmt.settingUp, hd1]
    · by_cases hz : d = 0
      · refine .expired (by simp [hp]) hz ⟨by simp; omega, fun _ => ?_, fun hc => ?_⟩
        · simpa [hz] using hw'
        · simp [h.uncut] at hc
      · refine .running (by simp [hp]) hz ⟨h.uncut, by simp; omega, ?_, ?_⟩
        · simp only [hp, if_true]
          omega
        · rw [hp]
          exact ⟨hcen, rfl, huie, hpsc, harr, unitClocks_pos _⟩
    · rw [hd1, Nat.succ_mul]
      simp only
      omega

theorem clock_setUp {t : Tim} {u : DelayUnit} {pc : Stmt} (hs : SetUp u t pc) (h1 : pc ≠ .store)
    (h2 : pc ≠ .cmdOff) (h3 : pc ≠ .wait) : t.clock = t := by
  have hcen : t.cen = false := by
    cases pc with
    | store | cmdOff | wait => contradiction
    | stop => exact hs.elim
    | itOff => exact hs
    | timeBaseInit | clearPending | arrPreload | itOn | cmdOn => exact hs.1
  simp [Tim.clock, hcen]

structure SameCall (f g : Frame) : Prop where
  pc : g.pc = f.pc
  nTime : g.nTime = f.nTime
  unit : g.unit = f.unit
  called : g.called = f.called
  waited : g.waited = f.waited

theorem noteTick_call (f : Frame) : SameCall f (noteTick f) := by
  unfold noteTick
  split_ifs <;> exact ⟨rfl, rfl, rfl, rfl, rfl⟩

/-- A clock for a call that does not wait. Ticks may come still, until the
timer is stopped. -/
theorem clock_moves (h : Sound b) (ha : b.active = f :: rest) (hn : ¬(f.pc = .wait ∧ b.bspDelay ≠ 0)) :
    ∃ d t g, usbOtgBspTimerIRQ (clock b) =
        { b with now := b.now + 1, bspDelay := d, tim := t, active := g :: rest } ∧
      d ≤ b.bspDelay ∧ SameCall f g ∧ Innermost g d t := by
  have hsame : SameCall f f := ⟨rfl, rfl, rfl, rfl, rfl⟩
  have hclock := clock_eq ha hn
  obtain ⟨hf, -⟩ := h.innermost f rest ha
  by_cases hd : b.bspDelay = 0
  · obtain ⟨t, he, -, -⟩ := irq_expired (b := clock b) (by rw [hclock]; exact hd)
    refine ⟨b.bspDelay, t, f, by rw [he, hclock, ← ha]; rfl, le_rfl, hsame, ?_⟩
    cases hf with
    | fresh hp hx => exact .fresh hp hx
    | expired hp hd hx => exact .expired hp hd hx
    | running hp hd' => exact absurd hd hd'
  by_cases hpend : (clock b).tim.uif = true ∧ (clock b).tim.uie = true
  · have htick : usbOtgBspTimerIRQ (clock b) = { b with
        now := b.now + 1, bspDelay := b.bspDelay - 1, tim := b.tim.clock.clearPending,
        active := noteTick f :: rest } := by
      rw [irq_tick hpend.1 hpend.2 (by rw [hclock]; exact hd), hclock]
      simp [Board.timer, ha]
    refine ⟨b.bspDelay - 1, _, _, htick, Nat.sub_le _ _, noteTick_call f, ?_⟩
    cases hf with
    | fresh hp hx =>
        have hnote : noteTick f = f := by simp [noteTick, hp, Stmt.settingUp]
        rw [hnote]
        exact .fresh hp hx
    | expired hp hd' => exact absurd hd' hd
    | running hp _ hr =>
        by_cases hoff : f.pc = .cmdOff
        · exact hr.tick hoff hd
        · have hstill : (clock b).tim = b.tim := by
            rw [hclock]
            exact clock_setUp hr.setUp hp hoff fun hw => hn ⟨hw, hd⟩
          rw [hstill] at hpend
          exact absurd hpend h.taken
  · refine ⟨b.bspDelay, b.tim.clock, f, by rw [irq_none hpend, hclock, ← ha]; rfl, le_rfl, hsame, ?_⟩
    cases hf with
    | fresh hp hx => exact .fresh hp hx
    | expired hp hd' => exact absurd hd' hd
    | running hp _ hr =>
        by_cases hoff : f.pc = .cmdOff
        · refine .running hp hd ⟨hr.uncut, hr.left, ?_, by rw [hoff]; trivial⟩
          have hw := hr.waited
          rwa [if_neg (by simp [hoff])] at hw ⊢
        · rw [clock_setUp hr.setUp hp hoff fun hw => hn ⟨hw, hd⟩]
          exact .running hp hd hr

theorem clock_sound (h : Sound b) : Sound (usbOtgBspTimerIRQ (clock b)) := by
  refine ⟨irq_taken _, ?_, fun f hf => h.returned f (by rwa [irq_returned] at hf)⟩
  cases ha : b.active with
  | nil =>
      intro f rest he
      rcases irq_active (clock b) with hi | hi <;> rw [hi, clock, ha] at he <;> simp at he
  | cons f rest =>
      obtain ⟨hf, hrest⟩ := h.innermost f rest ha
      have hnext : ∃ d t g, usbOtgBspTimerIRQ (clock b) =
          { b with now := b.now + 1, bspDelay := d, tim := t, active := g :: rest } ∧ Innermost g d t := by
        by_cases hn : f.pc = .wait ∧ b.bspDelay ≠ 0
        · cases hf with
          | fresh hp => simp [hp] at hn
          | expired hp hd => exact absurd hd hn.2
          | running hp hd hr =>
              obtain ⟨d, t, he, hin, -⟩ := wait_clock ha hn.1 hd hr
              exact ⟨d, t, _, he, hin⟩
        · obtain ⟨d, t, g, he, -, -, hin⟩ := clock_moves h ha hn
          exact ⟨d, t, g, he, hin⟩
      obtain ⟨d, t, g, he, hin⟩ := hnext
      rw [he]
      intro x outer hx
      obtain ⟨rfl, rfl⟩ := List.cons.inj hx
      exact ⟨hin, hrest⟩

theorem step_sound (h : Sound b) (m : Move) : Sound (step b m) := by
  cases m with
  | clock => exact clock_sound h
  | exec => exact exec_sound h
  | call nTime u => exact call_sound h nTime u

theorem reset_sound : Sound reset :=
  ⟨fun hc => Bool.noConfusion hc.1, fun _ _ he => absurd he.symm (List.cons_ne_nil _ _),
    fun _ hf => absurd hf List.not_mem_nil⟩

end Uubt.Delay
