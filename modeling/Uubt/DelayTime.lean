import Mathlib.Algebra.GroupWithZero.Nat
import Uubt.Delay
import Uubt.Eventually
import Uubt.Runs

namespace Uubt.DelayTime

open Delay Runs Eventually

variable {b : Board} {f : Frame} {rest : List Frame}

/-- A timer that runs has been started by a call that is active still. -/
def Owned (b : Board) : Prop := b.tim.cen = true → ∃ f ∈ b.active, f.pc = .wait ∨ f.pc = .stop

theorem exists_modifyHead {l : List Frame} {g : Frame → Frame} (hg : ∀ f, (g f).pc = f.pc) {P : Stmt → Prop}
    (h : ∃ f ∈ l, P f.pc) : ∃ f ∈ l.modifyHead g, P f.pc := by
  cases l with
  | nil => exact h
  | cons x xs =>
      obtain ⟨f, hf, hp⟩ := h
      rcases List.mem_cons.mp hf with rfl | hf
      · exact ⟨g f, by simp, (hg f).symm ▸ hp⟩
      · exact ⟨f, by simp [hf], hp⟩

theorem noteClock_pc (b : Board) (f : Frame) : (noteClock b f).pc = f.pc := by
  unfold noteClock
  split_ifs <;> rfl

theorem noteTick_pc (f : Frame) : (noteTick f).pc = f.pc := by
  unfold noteTick
  split_ifs <;> rfl

theorem noteCall_pc (b : Board) (f : Frame) : (noteCall b f).pc = f.pc := by
  unfold noteCall
  split_ifs <;> rfl

theorem exec_owned (h : Owned b) : Owned (exec b) := by
  cases ha : b.active with
  | nil => simpa [exec, ha] using h
  | cons f rest =>
      cases hpc : f.pc with
      | stop | cmdOff => simp [Owned, exec, ha, hpc, Board.timer, Board.next, Tim.cmd]
      | cmdOn => exact fun _ => ⟨{ f with pc := .wait }, by simp [exec, ha, hpc, Board.timer, Board.next], .inl rfl⟩
      | wait =>
          by_cases hd : b.bspDelay = 0
          · exact fun _ => ⟨{ f with pc := .stop }, by simp [exec, ha, hpc, hd, Board.next], .inr rfl⟩
          · simpa [exec, ha, hpc, hd] using h
      | store | itOff | timeBaseInit | clearPending | arrPreload | itOn =>
          simpa [Owned, exec, ha, hpc, Board.timer, Board.next, Tim.itConfig, Tim.timeBaseInit, Tim.clearPending]
            using h

theorem irq_cen (h : (usbOtgBspTimerIRQ b).tim.cen = true) : b.tim.cen = true := by
  by_cases hp : b.tim.uif = true ∧ b.tim.uie = true
  · by_cases hd : b.bspDelay = 0
    · obtain ⟨t, he, -, ht⟩ := irq_expired hd
      rw [he] at h
      exact ht h
    · rwa [irq_tick hp.1 hp.2 hd] at h
  · rwa [irq_none hp] at h

theorem irq_owned (h : Owned b) : Owned (usbOtgBspTimerIRQ b) := by
  intro hc
  have hf := h (irq_cen hc)
  rcases irq_active b with hi | hi <;> rw [hi]
  · exact hf
  · exact exists_modifyHead (P := fun pc => pc = .wait ∨ pc = .stop) noteTick_pc hf

theorem clock_cen (t : Tim) : t.clock.cen = t.cen := by
  unfold Tim.clock
  split_ifs <;> rfl

theorem step_owned (h : Owned b) (m : Move) : Owned (step b m) := by
  cases m with
  | exec => exact irq_owned (exec_owned h)
  | clock =>
      refine irq_owned fun hc => ?_
      have hcen : b.tim.cen = true := (clock_cen b.tim).symm.trans hc
      exact exists_modifyHead (P := fun pc => pc = .wait ∨ pc = .stop) (noteClock_pc b) (h hcen)
  | call nTime u =>
      intro hc
      obtain ⟨f, hf, hp⟩ := exists_modifyHead (P := fun pc => pc = .wait ∨ pc = .stop) (noteCall_pc b) (h hc)
      exact ⟨f, List.mem_cons_of_mem _ hf, hp⟩

/-- Only a call that has preempted another one can have taken its ticks. -/
structure Placed (active : List Frame) : Prop where
  nested : ∀ f ∈ active.dropLast, f.nested = true
  stolen : ∀ f ∈ active, f.stolen ≠ 0 → f.nested = true

theorem Placed.head {f g : Frame} {rest : List Frame} (h : Placed (f :: rest)) (hn : g.nested = f.nested)
    (hs : g.stolen ≠ 0 → g.nested = true) : Placed (g :: rest) := by
  refine ⟨?_, List.forall_mem_cons.mpr ⟨hs, (List.forall_mem_cons.mp h.stolen).2⟩⟩
  cases rest with
  | nil => simp
  | cons x xs =>
      have hnest := h.nested
      rw [List.dropLast_cons_cons, List.forall_mem_cons] at hnest ⊢
      exact ⟨hn.trans hnest.1, hnest.2⟩

theorem Placed.tail {f : Frame} {rest : List Frame} (h : Placed (f :: rest)) : Placed rest := by
  refine ⟨fun g hg => ?_, (List.forall_mem_cons.mp h.stolen).2⟩
  cases rest with
  | nil => simp at hg
  | cons x xs => exact h.nested g (by rw [List.dropLast_cons_cons]; exact List.mem_cons_of_mem _ hg)

theorem Placed.modifyHead {l : List Frame} (h : Placed l) {g : Frame → Frame}
    (hg : ∀ f, (g f).nested = f.nested ∧ (g f).stolen = f.stolen) : Placed (l.modifyHead g) := by
  cases l with
  | nil => exact h
  | cons f rest =>
      refine h.head (hg f).1 fun hs => ?_
      rw [(hg f).2] at hs
      exact (hg f).1.trans (h.stolen f (by simp) hs)

theorem noteClock_same (b : Board) (f : Frame) :
    (noteClock b f).nested = f.nested ∧ (noteClock b f).stolen = f.stolen := by
  unfold noteClock
  split_ifs <;> exact ⟨rfl, rfl⟩

theorem noteCall_same (b : Board) (f : Frame) :
    (noteCall b f).nested = f.nested ∧ (noteCall b f).stolen = f.stolen := by
  unfold noteCall
  split_ifs <;> exact ⟨rfl, rfl⟩

/-- A tick that a call takes while it sets the timer up comes from a timer
that another call has started. -/
theorem noteTick_placed (h : Placed b.active) (ho : Owned b) (hc : b.tim.cen = true) :
    Placed (b.active.modifyHead noteTick) := by
  cases ha : b.active with
  | nil => simpa [ha] using h
  | cons f rest =>
      rw [ha] at h
      rw [List.modifyHead_cons]
      by_cases hs : f.pc.settingUp = true
      · obtain ⟨g, hg, hp⟩ := ho hc
        rw [ha] at hg
        have hrest : g ∈ rest := by
          rcases List.mem_cons.mp hg with rfl | hg
          · rcases hp with hp | hp <;> simp [hp, Stmt.settingUp] at hs
          · exact hg
        have hnested : f.nested = true := by
          cases rest with
          | nil => exact absurd hrest List.not_mem_nil
          | cons x xs => exact h.nested f (by simp)
        rw [noteTick, if_pos hs]
        exact h.head rfl fun _ => hnested
      · rw [noteTick, if_neg hs]
        exact h

theorem irq_placed (h : Placed b.active) (ho : Owned b) (hp : b.tim.cen = true ∨ b.tim.Taken ∨ b.bspDelay = 0) :
    Placed (usbOtgBspTimerIRQ b).active := by
  by_cases hpend : b.tim.uif = true ∧ b.tim.uie = true
  · by_cases hd : b.bspDelay = 0
    · obtain ⟨t, he, -⟩ := irq_expired hd
      rwa [he]
    · have hc : b.tim.cen = true := hp.resolve_right fun hn => hn.elim (fun ht => ht hpend) hd
      rw [irq_tick hpend.1 hpend.2 hd]
      exact noteTick_placed h ho hc
  · rwa [irq_none hpend]

structure Orderly (b : Board) : Prop where
  sound : Sound b
  owned : Owned b
  active : Placed b.active
  returned : ∀ f ∈ b.returned, f.stolen ≠ 0 → f.nested = true

theorem exec_settled (h : Sound b) : (exec b).tim.Taken ∨ (exec b).bspDelay = 0 := by
  cases ha : b.active with
  | nil =>
      left
      simpa [exec, ha] using h.taken
  | cons f rest =>
      obtain ⟨hf, -⟩ := h.innermost f rest ha
      cases hf with
      | fresh hp hx =>
          left
          rw [exec_fresh ha hp]
          exact h.taken
      | expired hp hd hx =>
          right
          rcases exec_expired ha hp hd with ⟨t, pc, -, -, he⟩ | ⟨t, he⟩ <;> rw [he] <;> exact hd
      | running hp hd hr =>
          left
          obtain ⟨t, pc, -, -, he, ht, -⟩ := exec_running ha h.taken hp hd hr
          rw [he]
          exact ht

theorem exec_active (h : Orderly b) :
    Placed (exec b).active ∧ ∀ f ∈ (exec b).returned, f.stolen ≠ 0 → f.nested = true := by
  have hs := h.active
  cases ha : b.active with
  | nil =>
      have he : exec b = b := by simp [exec, ha]
      rw [he]
      exact ⟨hs, h.returned⟩
  | cons f rest =>
      rw [ha] at hs
      have hnext (pc : Stmt) : Placed ({ f with pc := pc } :: rest) := hs.head rfl (hs.stolen f (by simp))
      cases hpc : f.pc with
      | stop =>
          simp only [exec, ha, hpc]
          refine ⟨hs.tail, fun g hg => ?_⟩
          rcases List.mem_append.mp hg with hg | hg
          · exact h.returned g hg
          · rw [List.mem_singleton.mp hg]
            exact hs.stolen f (by simp)
      | wait =>
          by_cases hd : b.bspDelay = 0
          · simpa [exec, ha, hpc, hd, Board.next] using ⟨hnext .stop, h.returned⟩
          · simpa [exec, ha, hpc, hd] using ⟨hs, h.returned⟩
      | store | cmdOff | itOff | timeBaseInit | clearPending | arrPreload | itOn | cmdOn =>
          simpa [exec, ha, hpc, Board.next, Board.timer] using ⟨hnext _, h.returned⟩

theorem step_orderly (h : Orderly b) (m : Move) : Orderly (step b m) := by
  refine ⟨step_sound h.sound m, step_owned h.owned m, ?_, ?_⟩
  · cases m with
    | exec => exact irq_placed (exec_active h).1 (exec_owned h.owned) (.inr (exec_settled h.sound))
    | clock =>
        have hp : Placed (clock b).active := h.active.modifyHead (noteClock_same b)
        have ho : Owned (clock b) := fun hc =>
          exists_modifyHead (P := fun pc => pc = .wait ∨ pc = .stop) (noteClock_pc b)
            (h.owned ((clock_cen b.tim).symm.trans hc))
        refine irq_placed hp ho ?_
        by_cases hc : b.tim.cen = true
        · exact .inl ((clock_cen b.tim).trans hc)
        · right
          left
          have hstill : (clock b).tim = b.tim := by simp [clock, Board.timer, Tim.clock, hc]
          rw [hstill]
          exact h.sound.taken
    | call nTime u =>
        have hp := h.active.modifyHead (noteCall_same b)
        refine ⟨?_, ?_⟩
        · change ∀ f ∈ (_ :: b.active.modifyHead (noteCall b)).dropLast, _
          cases ha : b.active with
          | nil => simp
          | cons f rest =>
              rw [ha] at hp
              simp only [List.modifyHead_cons] at hp ⊢
              rw [List.dropLast_cons_cons, List.forall_mem_cons]
              exact ⟨by simp, hp.nested⟩
        · exact List.forall_mem_cons.mpr ⟨fun hc => absurd rfl hc, hp.stolen⟩
  · cases m with
    | exec =>
        rw [step, irq_returned]
        exact (exec_active h).2
    | clock =>
        rw [step, irq_returned]
        exact h.returned
    | call nTime u => exact h.returned

theorem reset_orderly : Orderly reset where
  sound := reset_sound
  owned hc := Bool.noConfusion hc
  active := ⟨fun _ hf => absurd hf List.not_mem_nil, fun _ hf => absurd hf List.not_mem_nil⟩
  returned _ hf := absurd hf List.not_mem_nil

theorem run_orderly (moves : List Move) : Orderly (run step reset moves) :=
  run_preserves (I := Orderly) (fun _ m h => step_orderly h m) reset_orderly moves

/-- No call has waited for longer than it has been under way. -/
structure Timed (b : Board) : Prop where
  active : ∀ f ∈ b.active, f.called + f.waited ≤ b.now
  returned : ∀ f ∈ b.returned, f.called + f.waited ≤ f.ended

theorem forall_modifyHead {l : List Frame} {g : Frame → Frame} {P Q : Frame → Prop} (hg : ∀ f, P f → Q (g f))
    (hw : ∀ f, P f → Q f) (h : ∀ f ∈ l, P f) : ∀ f ∈ l.modifyHead g, Q f := by
  cases l with
  | nil => exact fun f hf => absurd hf List.not_mem_nil
  | cons f rest =>
      obtain ⟨hf, hrest⟩ := List.forall_mem_cons.mp h
      exact List.forall_mem_cons.mpr ⟨hg f hf, fun x hx => hw x (hrest x hx)⟩

theorem noteClock_waited (b : Board) (f : Frame) :
    (noteClock b f).called = f.called ∧ (noteClock b f).waited ≤ f.waited + 1 := by
  unfold noteClock
  split_ifs
  · exact ⟨rfl, le_rfl⟩
  · exact ⟨rfl, Nat.le_succ _⟩

theorem noteCall_waited (b : Board) (f : Frame) :
    (noteCall b f).called = f.called ∧ (noteCall b f).waited = f.waited := by
  unfold noteCall
  split_ifs <;> exact ⟨rfl, rfl⟩

theorem irq_now (b : Board) : (usbOtgBspTimerIRQ b).now = b.now := by
  unfold usbOtgBspTimerIRQ
  split_ifs
  · dsimp only
    split_ifs <;> rfl
  · rfl

theorem irq_timed (h : Timed b) : Timed (usbOtgBspTimerIRQ b) := by
  refine ⟨?_, by rw [irq_returned]; exact h.returned⟩
  rw [irq_now]
  rcases irq_active b with hi | hi <;> rw [hi]
  · exact h.active
  · refine forall_modifyHead (fun f hf => ?_) (fun _ hf => hf) h.active
    rwa [(noteTick_call f).called, (noteTick_call f).waited]

theorem exec_timed (h : Timed b) : Timed (exec b) := by
  cases ha : b.active with
  | nil =>
      have he : exec b = b := by simp [exec, ha]
      rwa [he]
  | cons f rest =>
      have hs := h.active
      rw [ha, List.forall_mem_cons] at hs
      have hnext (pc : Stmt) : ∀ g ∈ { f with pc := pc } :: rest, g.called + g.waited ≤ b.now :=
        List.forall_mem_cons.mpr hs
      cases hpc : f.pc with
      | stop =>
          refine ⟨?_, ?_⟩ <;> simp only [exec, ha, hpc]
          · exact hs.2
          · exact List.forall_mem_append.mpr ⟨h.returned, List.forall_mem_singleton.mpr hs.1⟩
      | wait =>
          by_cases hd : b.bspDelay = 0
          · refine ⟨?_, ?_⟩ <;> simp only [exec, ha, hpc, hd, Board.next]
            · exact hnext .stop
            · exact h.returned
          · have he : exec b = b := by simp [exec, ha, hpc, hd]
            rwa [he]
      | store | cmdOff | itOff | timeBaseInit | clearPending | arrPreload | itOn | cmdOn =>
          refine ⟨?_, ?_⟩ <;> simp only [exec, ha, hpc, Board.next, Board.timer]
          · exact hnext _
          · exact h.returned

theorem step_timed (h : Timed b) (m : Move) : Timed (step b m) := by
  cases m with
  | exec => exact irq_timed (exec_timed h)
  | clock =>
      refine irq_timed ⟨?_, h.returned⟩
      refine forall_modifyHead (fun f hf => ?_) (fun f hf => Nat.le_succ_of_le hf) h.active
      obtain ⟨hc, hw⟩ := noteClock_waited b f
      change (noteClock b f).called + (noteClock b f).waited ≤ b.now + 1
      omega
  | call nTime u =>
      refine ⟨List.forall_mem_cons.mpr ⟨le_rfl, ?_⟩, h.returned⟩
      refine forall_modifyHead (fun f hf => ?_) (fun _ hf => hf) h.active
      rwa [(noteCall_waited b f).1, (noteCall_waited b f).2]

theorem reset_timed : Timed reset :=
  ⟨fun _ hf => absurd hf List.not_mem_nil, fun _ hf => absurd hf List.not_mem_nil⟩

/-- Whatever interrupts come and start delays of their own: a call takes the
time that was asked for at least, and waits just as long itself, unless
another delay starts while it has time left, or a tick of the delay that it
preempts comes in while it takes the timer over. Then it waits for less
itself; how long it takes depends on the others. -/
theorem delay_full_iff (moves : List Move) (f : Frame) (hf : f ∈ (run step reset moves).returned) :
    (f.cut = false ∧ f.stolen = 0 → f.nTime * unitClocks f.unit ≤ f.elapsed) ∧
      (f.waited = f.nTime * unitClocks f.unit ↔ f.cut = false ∧ f.stolen = 0) ∧
      f.waited ≤ f.nTime * unitClocks f.unit ∧ f.waited ≤ f.elapsed ∧ (f.nested = false → f.stolen = 0) := by
  have h := run_orderly moves
  have hx := h.sound.returned f hf
  have ht := (run_preserves (I := Timed) (fun _ m h => step_timed h m) reset_timed moves).returned f hf
  have hw : f.waited ≤ f.elapsed := Nat.le_sub_of_add_le' ht
  refine ⟨fun hfull => ?_, hx.full_iff, hx.waited_le, hw, fun hn => ?_⟩
  · rwa [← hx.full_iff.mpr hfull]
  · by_contra hs
    have hn' := h.returned f hf hs
    rw [hn] at hn'
    contradiction

/-- The call of a main program, and one of an interrupt that comes when it
has just started its timer. -/
def interruptedCall (nTime : Nat) : List Move :=
  .call 1 .usec :: List.replicate 8 .exec ++ .call nTime .usec :: List.replicate 8 .exec ++
    List.replicate (nTime * unitClocks .usec) .clock ++ List.replicate 4 .exec

theorem interrupted_call_short : ∃ f ∈ (run step reset (interruptedCall 0)).returned,
    f.nTime = 1 ∧ f.nested = false ∧ f.elapsed = 0 ∧ f.waited ≠ 1 * unitClocks f.unit := by
  have hf : ({ nTime := 1, unit := .usec, pc := .stop, called := 0, ended := 0, nested := false, waited := 0,
               stolen := 0, cut := true } : Frame) ∈ (run step reset (interruptedCall 0)).returned := by
    decide +kernel
  obtain ⟨-, hiff, -⟩ := delay_full_iff (interruptedCall 0) _ hf
  exact ⟨_, hf, rfl, rfl, rfl, fun hw => Bool.noConfusion (hiff.mp hw).1⟩

-- a longer delay in the interrupt makes the same call last too long
example : ∃ f ∈ (run step reset (interruptedCall 2)).returned,
    f.nTime = 1 ∧ f.waited = 0 ∧ f.elapsed = 2 * unitClocks .usec := by decide +kernel

def timeLeft (f : Frame) (d : Nat) (t : Tim) : Nat :=
  match f.pc with
  | .store => f.nTime * unitClocks f.unit
  | .wait => d * unitClocks f.unit - t.clocks
  | _ => d * unitClocks f.unit

def workLeft (f : Frame) : Nat := f.pc.left + timeLeft f 0 reset.tim

/-- The statements and the clocks that are left for all calls to return. -/
def rank (b : Board) : Nat :=
  match b.active with
  | [] => 0
  | f :: rest => f.pc.left + timeLeft f b.bspDelay b.tim + (rest.map workLeft).sum

theorem rank_cons (ha : b.active = f :: rest) :
    rank b = f.pc.left + timeLeft f b.bspDelay b.tim + (rest.map workLeft).sum := by
  rw [rank, ha]

theorem timeLeft_zero (f : Frame) (t t' : Tim) : timeLeft f 0 t = timeLeft f 0 t' := by
  unfold timeLeft
  cases f.pc <;> simp

def Waiting (b : Board) : Prop := ∃ f rest, b.active = f :: rest ∧ f.pc = .wait ∧ b.bspDelay ≠ 0

theorem waiting_cons (ha : b.active = f :: rest) : Waiting b ↔ f.pc = .wait ∧ b.bspDelay ≠ 0 := by
  constructor
  · rintro ⟨g, outer, hg, hw⟩
    obtain ⟨rfl, rfl⟩ := List.cons.inj (ha.symm.trans hg)
    exact hw
  · exact fun hw => ⟨f, rest, ha, hw⟩

theorem exec_waiting (h : Sound b) (hw : Waiting b) : step b .exec = b := by
  obtain ⟨f, rest, ha, hp, hd⟩ := hw
  have he : exec b = b := by simp [exec, ha, hp, hd]
  rw [step, he, irq_none h.taken]

theorem clock_waiting (h : Sound b) (hw : Waiting b) : rank (step b .clock) < rank b := by
  obtain ⟨f, rest, ha, hp, hd⟩ := hw
  obtain ⟨hf, -⟩ := h.innermost f rest ha
  cases hf with
  | fresh hp' => simp [hp] at hp'
  | expired _ hd' => exact absurd hd' hd
  | running hp' _ hr =>
      have hs := hr.setUp
      rw [hp] at hs
      have hlt := hs.2.2.2.2.2
      have hU : unitClocks f.unit ≤ b.bspDelay * unitClocks f.unit :=
        Nat.le_mul_of_pos_left _ (Nat.pos_of_ne_zero hd)
      obtain ⟨d, t, he, -, hsum⟩ := wait_clock ha hp hd hr
      rw [step, he, rank_cons ha, rank]
      simp only [timeLeft, hp]
      omega

theorem timeLeft_le {g : Frame} (h : SameCall f g) {d d' : Nat} (t t' : Tim) (hd : d' ≤ d)
    (hn : ¬(f.pc = .wait ∧ d ≠ 0)) : timeLeft g d' t' ≤ timeLeft f d t := by
  have hmul : d' * unitClocks f.unit ≤ d * unitClocks f.unit := Nat.mul_le_mul_right _ hd
  unfold timeLeft
  rw [h.pc, h.nTime, h.unit]
  cases hp : f.pc with
  | wait =>
      have hz : d = 0 := by
        by_contra hc
        exact hn ⟨hp, hc⟩
      obtain rfl : d' = 0 := by omega
      simp
  | store => exact le_rfl
  | cmdOff | itOff | timeBaseInit | clearPending | arrPreload | itOn | cmdOn | stop => exact hmul

theorem clock_rest (h : Sound b) (ha : b.active ≠ []) (hn : ¬Waiting b) :
    (step b .clock).active ≠ [] ∧ ¬Waiting (step b .clock) ∧ rank (step b .clock) ≤ rank b := by
  obtain ⟨f, rest, ha⟩ := List.exists_cons_of_ne_nil ha
  have hn' := mt (waiting_cons ha).mpr hn
  obtain ⟨d, t, g, he, hd, hsame, -⟩ := clock_moves h ha hn'
  rw [step, he]
  refine ⟨List.cons_ne_nil _ _, ?_, ?_⟩
  · rw [waiting_cons rfl, hsame.pc]
    rintro ⟨hp, hd'⟩
    exact hn' ⟨hp, by simp only at hd'; omega⟩
  · rw [rank_cons ha, rank]
    have ht := timeLeft_le hsame b.tim t hd hn'
    simp only [hsame.pc]
    omega

theorem exec_rest (h : Sound b) (ha : b.active ≠ []) (hn : ¬Waiting b) : rank (step b .exec) < rank b := by
  obtain ⟨f, rest, ha⟩ := List.exists_cons_of_ne_nil ha
  have hn' := mt (waiting_cons ha).mpr hn
  obtain ⟨hf, -⟩ := h.innermost f rest ha
  rw [rank_cons ha]
  cases hf with
  | fresh hp hx =>
      have htaken : (exec b).tim.Taken := by
        rw [exec_fresh ha hp]
        exact h.taken
      rw [step, irq_none htaken, exec_fresh ha hp, rank]
      simp [timeLeft, hp, Stmt.left]
  | expired hp hd hx =>
      have hnone (t : Tim) : timeLeft f 0 t = 0 := by
        unfold timeLeft
        cases hpc : f.pc <;> simp_all
      rw [hd, hnone]
      rcases exec_expired ha hp hd with ⟨t, pc, hpc, hleft, he⟩ | ⟨t, he⟩
      · obtain ⟨t', hirq, -⟩ := irq_expired (b := exec b) (by rw [he]; exact hd)
        have hnone' : timeLeft { f with pc := pc } 0 t' = 0 := by
          unfold timeLeft
          cases pc <;> simp_all
        rw [step, hirq, he, rank]
        simp only [hd, hnone']
        omega
      · obtain ⟨t', hirq, -⟩ := irq_expired (b := exec b) (by rw [he]; exact hd)
        have hpos : 0 < f.pc.left := by cases f.pc <;> decide
        rw [step, hirq, he, rank]
        cases hr : rest with
        | nil =>
            simp only [List.map_nil, List.sum_nil]
            omega
        | cons g outer =>
            have hg : workLeft g = g.pc.left + timeLeft g 0 t' := congrArg (g.pc.left + ·) (timeLeft_zero g _ _)
            simp only [hd, List.map_cons, List.sum_cons, hg]
            omega
  | running hp hd hr =>
      obtain ⟨t, pc, hpc, hleft, he, htaken, -⟩ := exec_running ha h.taken hp hd hr
      have hwait : f.pc ≠ .wait := fun hw => hn' ⟨hw, hd⟩
      have hlt := hleft hwait
      have htime : timeLeft { f with pc := pc } b.bspDelay t ≤ timeLeft f b.bspDelay b.tim := by
        unfold timeLeft
        cases hf : f.pc <;> cases pc <;> simp_all
      rw [step, irq_none (by rw [he]; exact htaken), he, rank]
      simp only
      omega

/-- The timer gets its clocks and the innermost call its turns, for ever. -/
structure Scheduled (inputs : Nat → Move) : Prop where
  clocked : ∀ n, ∃ m, n ≤ m ∧ inputs m = .clock
  executed : ∀ n, ∃ m, n ≤ m ∧ inputs m = .exec
  uncalled : ∀ n, inputs n = .clock ∨ inputs n = .exec

variable {inputs : Nat → Move}

theorem waiting_ends (hb : Sound b) (hs : Scheduled inputs) (k : Nat) :
    LeadsTo (fun n => Waiting (path step b inputs n) ∧ rank (path step b inputs n) = k)
      (fun n => rank (path step b inputs n) < k) := by
  have hsound (n : Nat) : Sound (path step b inputs n) :=
    path_invariant (I := Sound) (fun b n h => step_sound h (inputs n)) hb n
  have hclock (n : Nat) (hi : inputs n = .clock) (hw : Waiting (path step b inputs n)) :
      rank (path step b inputs (n + 1)) < rank (path step b inputs n) := by
    rw [path, hi]
    exact clock_waiting (hsound n) hw
  refine LeadsTo.of_helpful (H := fun n => inputs n = .clock) ?_ ?_ ?_
  · rintro n ⟨hw, hk⟩
    rcases hs.uncalled n with hi | hi
    · exact .inr (hk ▸ hclock n hi hw)
    · left
      rw [path, hi, exec_waiting (hsound n) hw]
      exact ⟨hw, hk⟩
  · intro n _
    obtain ⟨m, hnm, hm⟩ := hs.clocked n
    exact ⟨m, hnm, .inl hm⟩
  · rintro n ⟨hw, hk⟩ hi
    exact hk ▸ hclock n hi hw

theorem work_ends (hb : Sound b) (hs : Scheduled inputs) (k : Nat) :
    LeadsTo (fun n => ((path step b inputs n).active ≠ [] ∧ ¬Waiting (path step b inputs n)) ∧
      rank (path step b inputs n) = k) (fun n => rank (path step b inputs n) < k) := by
  have hsound (n : Nat) : Sound (path step b inputs n) :=
    path_invariant (I := Sound) (fun b n h => step_sound h (inputs n)) hb n
  have hexec (n : Nat) (hi : inputs n = .exec) (ha : (path step b inputs n).active ≠ [])
      (hw : ¬Waiting (path step b inputs n)) :
      rank (path step b inputs (n + 1)) < rank (path step b inputs n) := by
    rw [path, hi]
    exact exec_rest (hsound n) ha hw
  refine LeadsTo.of_helpful (H := fun n => inputs n = .exec) ?_ ?_ ?_
  · rintro n ⟨⟨ha, hw⟩, hk⟩
    rcases hs.uncalled n with hi | hi
    · obtain ⟨ha', hw', hle⟩ := clock_rest (hsound n) ha hw
      rw [path, hi]
      rcases Nat.lt_or_eq_of_le hle with hlt | heq
      · exact .inr (hk ▸ hlt)
      · exact .inl ⟨⟨ha', hw'⟩, heq.trans hk⟩
    · exact .inr (hk ▸ hexec n hi ha hw)
  · intro n _
    obtain ⟨m, hnm, hm⟩ := hs.executed n
    exact ⟨m, hnm, .inl hm⟩
  · rintro n ⟨⟨ha, hw⟩, hk⟩ hi
    exact hk ▸ hexec n hi ha hw

/-- No delay waits for a timer that has been stopped: from every state that
calls and interrupts can lead to, all the calls that are active return. -/
theorem delays_return (moves : List Move) (inputs : Nat → Move) (hs : Scheduled inputs) :
    ∃ n, (path step (run step reset moves) inputs n).active = [] := by
  have hb := (run_orderly moves).sound
  generalize run step reset moves = b at hb
  by_cases ha : b.active = []
  · exact ⟨0, ha⟩
  have hleads :
      LeadsTo (fun n => (path step b inputs n).active ≠ []) (fun n => (path step b inputs n).active = []) := by
    refine LeadsTo.of_decreasing (r := fun n => rank (path step b inputs n)) fun k n hn => ?_
    have hlt : ∃ m, n ≤ m ∧ rank (path step b inputs m) < k := by
      by_cases hw : Waiting (path step b inputs n)
      · exact waiting_ends hb hs k n ⟨hw, hn.2⟩
      · exact work_ends hb hs k n ⟨⟨hn.1, hw⟩, hn.2⟩
    obtain ⟨m, hnm, hm⟩ := hlt
    by_cases he : (path step b inputs m).active = []
    · exact ⟨m, hnm, .inl he⟩
    · exact ⟨m, hnm, .inr ⟨he, hm⟩⟩
  obtain ⟨n, -, hn⟩ := hleads 0 ha
  exact ⟨n, hn⟩

def inTurn (n : Nat) : Move := if n % 2 = 0 then .clock else .exec

theorem inTurn_scheduled : Scheduled inTurn where
  clocked n := ⟨2 * n, by omega, if_pos (by omega)⟩
  executed n := ⟨2 * n + 1, by omega, if_neg (by omega)⟩
  uncalled n := by
    unfold inTurn
    split_ifs
    · exact .inl rfl
    · exact .inr rfl

theorem interrupted_call_returns :
    ∃ n, (path step (run step reset [.call 500 .msec, .exec, .call 200 .msec]) inTurn n).active = [] :=
  delays_return [.call 500 .msec, .exec, .call 200 .msec] inTurn inTurn_scheduled

end Uubt.DelayTime
