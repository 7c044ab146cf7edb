import Uubt.Reception

namespace Uubt.StallRecovery

open History HostLibrary Driver Transport Endpoints Clients ClassDriver Moves Runs Channels Reception

def Recovered (l : Log) : Prop := l.stalled = false

instance (l : Log) : Decidable (Recovered l) := inferInstanceAs (Decidable (_ = _))

structure Recovering (ep : Ep) (σ : Sys) : Prop where
  inFlight : (log ep σ).live = true → (log ep σ).urb.final = false
  held : (log ep σ).stalled = true → phase ep σ.bt = .waiting ∧ (log ep σ).urb = .stall

variable {ep : Ep} {m : Move} {σ σ' : Sys}

theorem recovering_fresh (ep : Ep) (bt : BtState) (txBusy : Int) : Recovering ep (fresh bt txBusy) := by
  constructor <;> intro h <;> simp [log, fresh, monitor] at h

theorem Recovering.recovered (h : Recovering ep σ) (hn : phase ep σ.bt ≠ .waiting ∨ (log ep σ).urb ≠ .stall) :
    Recovered (log ep σ) := by
  by_contra hs
  obtain ⟨hp, hu⟩ := h.held (by simpa [Recovered] using hs)
  exact hn.elim (absurd hp) (absurd hu)

theorem Recovering.of_recovered (hi : (log ep σ).live = true → (log ep σ).urb.final = false)
    (hs : Recovered (log ep σ)) : Recovering ep σ := by
  refine ⟨hi, fun h => ?_⟩
  rw [hs] at h
  contradiction

/-- One move keeps a stall in sight, unless it gives up a transfer that has
stalled. -/
theorem recovering_turn (h : Recovering ep σ) (ht : Turn ep m σ σ') (hk : Keeps .stall ep σ m) :
    Recovering ep σ' := by
  cases ht with
  | rest hp ht =>
      have hl := log_rest ht
      exact ⟨hl ▸ h.inFlight, by rw [hl, hp]; exact h.held⟩
  | arm hp hp' ht =>
      have hl := log_rest ht
      exact .of_recovered (hl ▸ h.inFlight) (hl ▸ h.recovered (.inl (hp.trans_ne (by decide))))
  | submit e past he hp hp' ht ht' =>
      have hl := (log_concat ht ht').trans (monitor_submit he _)
      refine .of_recovered ?_ ?_
      · rw [hl]
        exact fun _ => rfl
      · rw [hl]
        exact h.recovered (.inl (hp.trans_ne (by decide)))
  | abandon rd hm hd hev hp hp' ht =>
      subst hm hev
      have hl := log_rest ht
      exact .of_recovered (hl ▸ h.inFlight) (hl ▸ h.recovered (.inr fun hu => hk rfl hp hu hd))
  | deliver type past past' hr hu hp hp' ht hx ht' =>
      have hl := log_deliver hr ht hx ht'
      refine .of_recovered (hl ▸ h.inFlight) ?_
      rw [hl]
      exact h.recovered (.inr (hu.trans_ne (by decide)))
  | sent hr hu hp hp' ht =>
      have hl := log_rest ht
      exact .of_recovered (hl ▸ h.inFlight) (hl ▸ h.recovered (.inr (hu.trans_ne (by decide))))
  | clear hcn past hu hp hp' ht ht' =>
      have hl := log_clear ht ht'
      exact .of_recovered (hl ▸ h.inFlight) (by rw [hl]; rfl)
  | reported urb data hm hc hp ht =>
      subst hm
      have hl := log_reported ht
      have hi : (log ep σ').live = true → (log ep σ').urb.final = false := by
        rw [hl]
        simp [Log.reported]
      by_cases hs : urb = .stall
      · refine ⟨hi, fun _ => ⟨hp.trans (hk rfl hs hc.1), ?_⟩⟩
        rw [hl]
        exact hs
      · refine .of_recovered hi ?_
        have hr := h.recovered (.inr fun hu => absurd (h.inFlight hc.1) (by rw [hu]; decide))
        rw [hl]
        simpa [Recovered, Log.reported, hs] using hr

theorem recovered_run {c : Client} (hc : Polite c) (bt : BtState) (txBusy : Int) {moves : List Move}
    (hk : Along (world c) (Keeps .stall ep) (fresh bt txBusy) moves) :
    AtEach (AtSubmit ep Recovered) (run (world c) (fresh bt txBusy) moves).trace := by
  refine (run_invariant (I := fun τ => Recovering ep τ ∧ AtEach (AtSubmit ep Recovered) τ.trace) ?_
    ⟨recovering_fresh ep bt txBusy, atEach_nil _⟩ hk).2
  rintro τ m ⟨h, hs⟩ hm
  have ht := world_turn hc ep τ m
  exact ⟨recovering_turn h ht hm,
    atSubmit_turn ht hs (fun hp => h.recovered (.inl (hp.trans_ne (by decide))))⟩

/-- After a stall nothing is submitted on the endpoint before the clear
request has succeeded. The event endpoint keeps to this in a run in which
the deadline does not fire over a stalled transfer. -/
theorem stall_cleared_before_submission (ep : Ep) (bt : BtState) (txBusy : Int) (moves : List Move)
    (hk : ep = .evt → Along (world h2Client) (Keeps .stall .evt) (fresh bt txBusy) moves) :
    AtEach (AtSubmit ep Recovered) (run (world h2Client) (fresh bt txBusy) moves).trace := by
  by_cases hep : ep = .evt
  · subst hep
    exact recovered_run h2Client_polite bt txBusy (hk rfl)
  · exact recovered_run h2Client_polite bt txBusy (along_keeps h2Client_polite hep .stall bt txBusy moves)

def quietPoll (frame : Nat) : PollReadings where
  cmd := { st := .busy, calls := [] }
  evt := { frame := frame, urb := .idle, received := [], clr := .ok, calls := [] }
  aclo := { urb := .idle, clr := .ok, calls := [] }
  acli := { urb := .idle, received := [], clr := .ok, calls := [] }
  loop := []

/-- The event transfer stalls in the frame after the submission, and the
next polls come two and three frames after it. -/
def lateStall : List Move :=
  pollMoves (quietPoll 0) ++ .hardware .evt .stall [] :: pollMoves (quietPoll 2) ++ pollMoves (quietPoll 3)

theorem late_stall_is_dropped :
    ¬AtEach (AtSubmit .evt Recovered) (run (world h2Client) (fresh .zero 0) lateStall).trace := by
  intro h
  have hs := h [.currentFrame 0, .interruptReceive 272 0, .bulkReceive 64 0, .transferStatus .evt .stall [],
    .currentFrame 2, .urbState .acli 0 .idle, .currentFrame 3] (.interruptReceive 272 0)
    [.urbState .acli 0 .idle] (by rfl) rfl
  exact absurd hs (by decide)

def promptStall : List Move :=
  pollMoves (quietPoll 0) ++ .hardware .evt .stall [] :: pollMoves (quietPoll 1) ++ pollMoves (quietPoll 2)

theorem prompt_stall_is_cleared :
    (Ep.evt = .evt → Along (world h2Client) (Keeps .stall .evt) (fresh .zero 0) promptStall) ∧
      AtEach (AtSubmit .evt Recovered) (run (world h2Client) (fresh .zero 0) promptStall).trace := by
  have hk : Along (world h2Client) (Keeps .stall .evt) (fresh .zero 0) promptStall := by decide +kernel
  exact ⟨fun _ => hk, stall_cleared_before_submission .evt .zero 0 promptStall (fun _ => hk)⟩

end Uubt.StallRecovery
