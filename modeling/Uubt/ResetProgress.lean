import Uubt.Eventually
import Uubt.PortReset

namespace Uubt.ResetProgress

open OneSlot PortReset Eventually

inductive Move
  | interrupt (pdev : Word)
  | create
  | thread (slot : Word)

def act (k : Kernel) : Move → Kernel
  | .interrupt pdev => usbOtgResetPortI pdev k
  | .create => if k.pState = .absent then myUsbBspInit k else k
  | .thread slot => usbResetThread slot k

abbrev states (inputs : Nat → Move) : Nat → Kernel := path act boot inputs

/-- There is a thread at some time, and the scheduler does not forget it. -/
structure Served (inputs : Nat → Move) : Prop where
  created : ∃ n, inputs n = .create
  scheduled : ∀ n, ∃ m, n ≤ m ∧ ∃ slot, inputs m = .thread slot

def Requested (inputs : Nat → Move) : Prop := ∀ n, ∃ m, n ≤ m ∧ ∃ pdev, inputs m = .interrupt pdev

/-- The stretches that the thread has to run until it sleeps. -/
def distance (k : Kernel) : Nat :=
  match k.pState, k.point with
  | .absent, _ => 5
  | .ready, .goSleep => 4
  | .ready, .unlocked => 3
  | .ready, .resetting => 2
  | .ready, .loopHead => 1
  | .suspended, _ => 0

variable {k : Kernel} {inputs : Nat → Move}

theorem distance_ready : k.pState = .ready ↔ 0 < distance k ∧ distance k ≤ 4 := by
  rw [distance]
  cases k.pState <;> cases k.point <;> simp

theorem distance_suspended : k.pState = .suspended ↔ distance k = 0 := by
  rw [distance]
  cases k.pState <;> cases k.point <;> simp

theorem distance_present : k.pState ≠ .absent ↔ distance k ≤ 4 := by
  rw [distance]
  cases k.pState <;> cases k.point <;> simp

theorem carried_none_iff (hp : k.pState ≠ .absent) : carried k = none ↔ distance k ≤ 2 := by
  rw [carried, distance]
  cases hs : k.pState <;> cases k.point <;> simp_all

theorem act_reachable (h : Reachable k) (m : Move) : Reachable (act k m) := by
  cases m with
  | interrupt pdev => exact h.tail (.interrupt pdev)
  | create =>
      rw [act]
      split
      · rename_i ha
        exact h.tail (.create ha)
      · exact h
  | thread slot =>
      by_cases hr : k.pState = .ready
      · exact h.tail (.thread slot hr)
      · rw [act, usbResetThread, if_neg hr]
        exact h

theorem thread_closer (hr : k.pState = .ready) (slot : Word) : distance (usbResetThread slot k) + 1 = distance k := by
  rw [usbResetThread, if_pos hr]
  cases hp : k.point <;> simp [distance, hr, hp, Kernel.emit]

theorem interrupt_same (h : Reachable k) (hr : k.pState = .ready) (pdev : Word) :
    distance (usbOtgResetPortI pdev k) = distance k := by
  obtain ⟨l, -, hk⟩ := reachable_handoff h
  have ht : k.usbResetTp = .null := by
    by_contra hne
    have hs := hk.published.mp hne
    rw [hr] at hs
    contradiction
  rw [interrupt_refused ht]
  rfl

theorem interrupt_wakes (h : Reachable k) (hs : k.pState = .suspended) (pdev : Word) :
    distance (usbOtgResetPortI pdev k) = 4 := by
  obtain ⟨l, -, hk⟩ := reachable_handoff h
  rw [interrupt_accepted (hk.published.mpr hs)]
  simp [distance, hk.suspended hs]

theorem act_present (hp : k.pState ≠ .absent) (m : Move) : (act k m).pState ≠ .absent := by
  cases m with
  | interrupt pdev =>
      rw [act, usbOtgResetPortI]
      split
      · simp [chSchReadyI, Kernel.emit]
      · exact hp
  | create =>
      rw [act, if_neg hp]
      exact hp
  | thread slot =>
      rw [act, usbResetThread]
      split
      · rename_i hr
        split <;> simp [Kernel.emit, hr]
      · exact hp

theorem states_succ (inputs : Nat → Move) (n : Nat) : states inputs (n + 1) = act (states inputs n) (inputs n) := rfl

theorem states_reachable (inputs : Nat → Move) (n : Nat) : Reachable (states inputs n) :=
  path_invariant (I := Reachable) (fun _ n h => act_reachable h (inputs n)) .refl n

theorem states_present (h : Served inputs) : ∃ n, ∀ m, n ≤ m → (states inputs m).pState ≠ .absent := by
  obtain ⟨n, hn⟩ := h.created
  refine ⟨n + 1, fun m hm => ?_⟩
  induction m, hm using Nat.le_induction with
  | base =>
      rw [states_succ, hn, act]
      split
      · simp [myUsbBspInit]
      · assumption
  | succ m _ ih => exact act_present ih (inputs m)

theorem act_grows (k : Kernel) (m : Move) : k.trace <+: (act k m).trace := by
  cases m with
  | interrupt pdev =>
      rw [act, usbOtgResetPortI]
      split
      · exact (List.prefix_append _ _).trans (List.prefix_append _ _)
      · exact List.prefix_append _ _
  | create =>
      rw [act]
      split <;> exact List.prefix_rfl
  | thread slot =>
      rw [act, usbResetThread]
      split
      · split
        · exact List.prefix_append _ _
        · exact List.prefix_rfl
        · exact List.prefix_append _ _
        · exact List.prefix_rfl
      · exact List.prefix_rfl

theorem states_grow (inputs : Nat → Move) {n m : Nat} (hnm : n ≤ m) :
    (states inputs n).trace <+: (states inputs m).trace :=
  path_related (R := fun k k' : Kernel => k.trace <+: k'.trace) (fun _ => List.prefix_rfl) List.IsPrefix.trans act_grows
    hnm

/-- One stretch nearer to sleep. Interrupts in between change nothing. -/
theorem comes_closer (h : Served inputs) {d : Nat} (hd : d < 4) :
    LeadsTo (fun n => distance (states inputs n) = d + 1) (fun n => distance (states inputs n) = d) := by
  have hready {n : Nat} (hn : distance (states inputs n) = d + 1) : (states inputs n).pState = .ready :=
    distance_ready.mpr (by omega)
  have hthread {n : Nat} (hn : distance (states inputs n) = d + 1) {slot : Word} (hi : inputs n = .thread slot) :
      distance (states inputs (n + 1)) = d := by
    have hc := thread_closer (hready hn) slot
    rw [states_succ, hi, act]
    omega
  refine LeadsTo.of_helpful (H := fun n => ∃ slot, inputs n = .thread slot) (fun n hn => ?_) (fun n _ => ?_)
    (fun n hn ⟨slot, hi⟩ => hthread hn hi)
  · cases hi : inputs n with
    | interrupt pdev =>
        left
        rw [states_succ, hi, act, interrupt_same (states_reachable inputs n) (hready hn), hn]
    | create =>
        left
        rw [states_succ, hi, act, if_neg (by rw [hready hn]; decide), hn]
    | thread slot => exact .inr (hthread hn hi)
  · obtain ⟨m, hnm, hm⟩ := h.scheduled n
    exact ⟨m, hnm, .inl hm⟩

theorem reaches_distance (h : Served inputs) (e d n : Nat) (hd : d ≤ 4) (he : e ≤ d)
    (hn : distance (states inputs n) = d) : ∃ m, n ≤ m ∧ distance (states inputs m) = e := by
  induction d generalizing n with
  | zero => exact ⟨n, le_rfl, by omega⟩
  | succ d ih =>
      rcases Nat.lt_or_eq_of_le he with hlt | rfl
      · obtain ⟨m, hnm, hm⟩ := comes_closer h hd n hn
        obtain ⟨l, hml, hl⟩ := ih m (by omega) (by omega) hm
        exact ⟨l, le_trans hnm hml, hl⟩
      · exact ⟨n, le_rfl, hn⟩

theorem accepted_eq_started (h : Reachable k) (hc : carried k = none) : accepted k.trace = started k.trace := by
  obtain ⟨l, -, hk⟩ := reachable_handoff h
  rw [← hk.accepted, ← hk.ended, l.balanced, hk.pending, hc]
  exact List.append_nil _

theorem accepted_served (h : Served inputs) (n : Nat) :
    ∃ m, n ≤ m ∧ accepted (states inputs n).trace <+: started (states inputs m).trace := by
  obtain ⟨n₀, hn₀⟩ := states_present h
  have hpres := hn₀ (max n n₀) (Nat.le_max_right _ _)
  have hle := distance_present.mp hpres
  obtain ⟨m, hm, hrest⟩ : ∃ m, max n n₀ ≤ m ∧ carried (states inputs m) = none := by
    by_cases h2 : distance (states inputs (max n n₀)) ≤ 2
    · exact ⟨_, le_rfl, (carried_none_iff hpres).mpr h2⟩
    · obtain ⟨m, hm, hd⟩ := reaches_distance h 2 _ (max n n₀) hle (by omega) rfl
      exact ⟨m, hm, (carried_none_iff (hn₀ m (by omega))).mpr (by omega)⟩
  refine ⟨m, by omega, ?_⟩
  rw [← accepted_eq_started (states_reachable inputs m) hrest]
  exact (states_grow inputs (by omega)).filterMap _

theorem sleep_ends (hreq : Requested inputs) :
    LeadsTo (fun n => distance (states inputs n) = 0) (fun n => distance (states inputs n) = 4) := by
  have hsusp {n : Nat} (hn : distance (states inputs n) = 0) : (states inputs n).pState = .suspended :=
    distance_suspended.mpr hn
  have hwake {n : Nat} (hn : distance (states inputs n) = 0) {pdev : Word} (hi : inputs n = .interrupt pdev) :
      distance (states inputs (n + 1)) = 4 := by
    rw [states_succ, hi, act, interrupt_wakes (states_reachable inputs n) (hsusp hn)]
  refine LeadsTo.of_helpful (H := fun n => ∃ pdev, inputs n = .interrupt pdev) (fun n hn => ?_) (fun n _ => ?_)
    (fun n hn ⟨pdev, hi⟩ => hwake hn hi)
  · cases hi : inputs n with
    | interrupt pdev => exact .inr (hwake hn hi)
    | create =>
        left
        rw [states_succ, hi, act, if_neg (by rw [hsusp hn]; decide), hn]
    | thread slot =>
        left
        rw [states_succ, hi, act, usbResetThread, if_neg (by rw [hsusp hn]; decide), hn]
  · obtain ⟨m, hnm, hm⟩ := hreq n
    exact ⟨m, hnm, .inl hm⟩

theorem another_reset (h : Served inputs) (hreq : Requested inputs) (n : Nat) :
    ∃ m, (started (states inputs n).trace).length < (started (states inputs m).trace).length := by
  obtain ⟨n₀, hn₀⟩ := states_present h
  have hle := distance_present.mp (hn₀ (max n n₀) (Nat.le_max_right _ _))
  obtain ⟨s, hs, hsleep⟩ := reaches_distance h 0 _ (max n n₀) hle (Nat.zero_le _) rfl
  obtain ⟨w, hw, hwoken⟩ := sleep_ends hreq s hsleep
  obtain ⟨m, hm, hserved⟩ := accepted_served h w
  have hmore : (started (states inputs w).trace).length < (accepted (states inputs w).trace).length := by
    obtain ⟨l, -, hk⟩ := reachable_handoff (states_reachable inputs w)
    have hc : carried (states inputs w) ≠ none := by
      rw [Ne, carried_none_iff (hn₀ w (by omega))]
      omega
    rw [← hk.accepted, ← hk.ended, l.balanced, hk.pending]
    cases hcar : carried (states inputs w) with
    | none => exact absurd hcar hc
    | some pdev => simp
  have hpast := ((states_grow inputs (show n ≤ w by omega)).filterMap startedReset).length_le
  have hend := hserved.length_le
  exact ⟨m, Nat.lt_of_le_of_lt hpast (Nat.lt_of_lt_of_le hmore hend)⟩

/-- The hand-off does not come to a stop: whatever the interleaving, every
request that has been accepted gets its reset, in the order of the requests,
and as long as requests keep coming, so do resets. -/
theorem resets_keep_coming (inputs : Nat → Move) (h : Served inputs) :
    (∀ n, ∃ m, n ≤ m ∧ accepted (states inputs n).trace <+: started (states inputs m).trace) ∧
      (Requested inputs → ∀ count, ∃ n, count ≤ (started (states inputs n).trace).length) :=
  ⟨accepted_served h, fun hreq => unbounded (another_reset h hreq)⟩

def takingTurns : Nat → Move
  | 0 => .create
  | n + 1 => if n % 2 = 0 then .interrupt 7 else .thread 0

theorem takingTurns_served : Served takingTurns where
  created := ⟨0, rfl⟩
  scheduled n := ⟨2 * n + 2, by omega, 0, if_neg (by omega)⟩

theorem takingTurns_requested : Requested takingTurns := fun n => ⟨2 * n + 1, by omega, 7, if_pos (by omega)⟩

theorem resets_in_turn : ∃ n, 3 ≤ (started (states takingTurns n).trace).length :=
  (resets_keep_coming takingTurns takingTurns_served).2 takingTurns_requested 3

end Uubt.ResetProgress
