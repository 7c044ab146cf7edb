import Uubt.Channels

namespace Uubt.Reception

open History HostLibrary Driver Transport Endpoints Clients ClassDriver Moves Runs Channels

def unread (ep : Ep) (σ : Sys) : List (List UInt8) :=
  if phase ep σ.bt = .waiting ∧ (log ep σ).urb = .done then [(log ep σ).data] else []

def sized (data : List UInt8) : List UInt8 × Nat := (data, data.length)

def AllTaken (l : Log) : Prop := l.delivered = l.finished.map sized ∧ l.returned = l.finished.length

/-- The handler gets the bytes of a transfer that is done, and of the next
one. -/
def Delivers (ep : Ep) (past : Trace) (e : Event) : Prop :=
  ∀ type data size, Ep.receives ep = some type → e = .rx type data size →
    ((monitor ep).after past).urb = .done ∧
      ((monitor ep).after past).finished.map sized = ((monitor ep).after past).delivered ++ [(data, size)]

structure Receiving (ep : Ep) (σ : Sys) : Prop where
  inFlight : (log ep σ).live = true → (log ep σ).urb.final = false
  room : (log ep σ).data.length ≤ bufferSize ep
  books : (log ep σ).finished.map sized = (log ep σ).delivered ++ (unread ep σ).map sized
  returned : (log ep σ).returned = (log ep σ).delivered.length

variable {ep : Ep} {m : Move} {σ σ' : Sys}

theorem bufferSize_lt (ep : Ep) : bufferSize ep < 65536 := by
  cases ep <;> decide

theorem receiving_fresh (ep : Ep) (bt : BtState) (txBusy : Int) : Receiving ep (fresh bt txBusy) where
  inFlight h := by simp [log, fresh, monitor] at h
  room := Nat.zero_le _
  books := by simp [log, unread, fresh, monitor]
  returned := rfl

theorem unread_of_phase (h : phase ep σ.bt ≠ .waiting) : unread ep σ = [] := if_neg (fun hw => h hw.1)

theorem unread_of_urb (h : (log ep σ).urb ≠ .done) : unread ep σ = [] := if_neg (fun hw => h hw.2)

theorem unread_congr (hp : phase ep σ'.bt = phase ep σ.bt) (hl : log ep σ' = log ep σ) :
    unread ep σ' = unread ep σ := by
  rw [unread, unread, hp, hl]

theorem Receiving.settled (h : Receiving ep σ) (hu : unread ep σ = []) :
    (log ep σ).finished.map sized = (log ep σ).delivered := by
  simpa [hu] using h.books

theorem Receiving.allTaken (h : Receiving ep σ) (hp : phase ep σ.bt = .ready) : AllTaken (log ep σ) := by
  have hb := h.settled (unread_of_phase (hp.trans_ne (by decide)))
  refine ⟨hb.symm, ?_⟩
  rw [h.returned, ← hb, List.length_map]

theorem Receiving.quiet (h : Receiving ep σ) (hl : log ep σ' = log ep σ) (hu : unread ep σ' = unread ep σ) :
    Receiving ep σ' :=
  ⟨hl ▸ h.inFlight, hl ▸ h.room, by rw [hl, hu]; exact h.books, hl ▸ h.returned⟩

theorem uint16_data (h : Receiving ep σ) : uint16 (log ep σ).data.length = (log ep σ).data.length :=
  uint16_natCast (Nat.lt_of_le_of_lt h.room (bufferSize_lt ep))

theorem receiving_deliver (h : Receiving ep σ) (hu : (log ep σ).urb = .done) (hp : phase ep σ.bt = .waiting)
    (hp' : phase ep σ'.bt ≠ .waiting) (hl : log ep σ' = { log ep σ with
      delivered := (log ep σ).delivered ++ [sized (log ep σ).data], returned := (log ep σ).returned + 1 }) :
    Receiving ep σ' := by
  have hun : unread ep σ = [(log ep σ).data] := if_pos ⟨hp, hu⟩
  refine ⟨hl ▸ h.inFlight, hl ▸ h.room, ?_, ?_⟩
  · rw [hl, unread_of_phase hp', List.map_nil, List.append_nil]
    simpa [hun] using h.books
  · rw [hl, List.length_append]
    exact congrArg Nat.succ h.returned

theorem receiving_reported (h : Receiving ep σ) {urb : Urb} {data : List UInt8} (hc : InFlight σ ep data)
    (hk : urb = .done → phase ep σ.bt = .waiting) (hp : phase ep σ'.bt = phase ep σ.bt)
    (hl : log ep σ' = (log ep σ).reported urb data) : Receiving ep σ' := by
  have hb := h.settled (unread_of_urb fun hu => absurd (h.inFlight hc.1) (by rw [hu]; decide))
  refine ⟨by rw [hl]; simp [Log.reported], by rw [hl]; exact hc.2, ?_, by rw [hl]; exact h.returned⟩
  by_cases hd : urb = .done
  · have hun' : unread ep σ' = [data] := by
      rw [unread, hl]
      exact if_pos ⟨hp.trans (hk hd), hd⟩
    rw [hl, hun']
    simp [Log.reported, hd, hb]
  · have hun' : unread ep σ' = [] := unread_of_urb (by rw [hl]; exact hd)
    rw [hl, hun']
    simp [Log.reported, hd, hb]

/-- One move keeps the books, unless it gives up a transfer that is done. -/
theorem receiving_turn (h : Receiving ep σ) (ht : Turn ep m σ σ') (hr : ep ≠ .aclo)
    (hk : Keeps .done ep σ m) : Receiving ep σ' := by
  cases ht with
  | rest hp ht => exact h.quiet (log_rest ht) (unread_congr hp (log_rest ht))
  | arm hp hp' ht =>
      refine h.quiet (log_rest ht) ?_
      rw [unread_of_phase (hp.trans_ne (by decide)), unread_of_phase (hp'.trans_ne (by decide))]
  | submit e past he hp hp' ht ht' =>
      have hl := (log_concat ht ht').trans (monitor_submit he _)
      have hb := h.settled (unread_of_phase (hp.trans_ne (by decide)))
      refine ⟨by rw [hl]; exact fun _ => rfl, by rw [hl]; exact Nat.zero_le _, ?_, by rw [hl]; exact h.returned⟩
      rw [unread_of_urb (by rw [hl]; simp [Log.submitted]), hl, List.map_nil, List.append_nil]
      exact hb
  | abandon rd hm hd hev hp hp' ht =>
      subst hm hev
      have hu : (log .evt σ).urb ≠ .done := fun hu => hk rfl hp hu hd
      refine h.quiet (log_rest ht) ?_
      rw [unread_of_urb hu, unread_of_phase (hp'.trans_ne (by decide))]
  | deliver type past past' hrc hu hp hp' ht hx ht' =>
      rw [uint16_data h, List.take_length] at hx
      refine receiving_deliver h hu hp ?_ (log_deliver hrc ht hx ht')
      rcases hp' with hp' | hp' <;> exact hp'.trans_ne (by decide)
  | sent hrc => cases ep <;> contradiction
  | clear hcn past hu hp hp' ht ht' =>
      have hl := log_clear ht ht'
      have hb := h.settled (unread_of_urb (hu.trans_ne (by decide)))
      refine ⟨hl ▸ h.inFlight, hl ▸ h.room, ?_, hl ▸ h.returned⟩
      rw [hl, unread_of_phase (hp'.trans_ne (by decide)), List.map_nil, List.append_nil]
      exact hb
  | reported urb data hm hc hp ht =>
      subst hm
      exact receiving_reported h hc (fun hd => hk rfl hd hc.1) hp (log_reported ht)

theorem delivers_neutral {e : Event} (he : Neutral ep e) (past : Trace) : Delivers ep past e := by
  rintro type data size hr rfl
  have hs := congrArg Log.delivered (he.2 (monitor ep).init)
  simp [monitorStep, hr, monitor] at hs

theorem delivers_other {e : Event} (he : ∀ type data size, e ≠ .rx type data size) (past : Trace) :
    Delivers ep past e :=
  fun type data size _ h => absurd h (he type data size)

theorem delivers_turn (h : Receiving ep σ) (ht : Turn ep m σ σ') (hd : AtEach (Delivers ep) σ.trace) :
    AtEach (Delivers ep) σ'.trace := by
  have hext {g g' : Trace} (hg : Extends (Neutral ep) g g') (hd : AtEach (Delivers ep) g) :
      AtEach (Delivers ep) g' := hg.atEach hd (fun past _ he => delivers_neutral he past)
  cases ht with
  | rest _ ht | arm _ _ ht | abandon _ _ _ _ _ _ ht | sent _ _ _ _ ht => exact hext ht hd
  | submit e past he hp hp' ht ht' =>
      rw [ht', atEach_concat]
      exact ⟨hext ht hd, delivers_other (by rintro type data size rfl; simp [Event.submits] at he) _⟩
  | clear hcn past hu hp hp' ht ht' =>
      rw [ht', atEach_concat]
      exact ⟨hext ht hd, delivers_other (by simp) _⟩
  | reported urb data hm hc hp ht =>
      rw [ht, atEach_concat]
      exact ⟨hd, delivers_other (by simp) _⟩
  | deliver type past past' hrc hu hp hp' ht hx ht' =>
      rw [uint16_data h, List.take_length] at hx
      rw [ht', atEach_concat]
      refine ⟨hext hx ((atEach_concat _ _ _).mpr ⟨hext ht hd, ?_⟩), delivers_other (by simp) _⟩
      rintro type' data size - he
      obtain ⟨-, rfl, rfl⟩ := Event.rx.inj he
      rw [monitor_extends ht]
      have hun : unread ep σ = [(log ep σ).data] := if_pos ⟨hp, hu⟩
      have hb := h.books
      rw [hun] at hb
      exact ⟨hu, hb⟩

structure Received (ep : Ep) (σ : Sys) : Prop extends Receiving ep σ where
  submits : AtEach (AtSubmit ep AllTaken) σ.trace
  delivers : AtEach (Delivers ep) σ.trace

theorem received_run {c : Client} (hc : Polite c) (hr : ep ≠ .aclo) (bt : BtState) (txBusy : Int)
    {moves : List Move} (hk : Along (world c) (Keeps .done ep) (fresh bt txBusy) moves) :
    Received ep (run (world c) (fresh bt txBusy) moves) := by
  refine run_invariant (I := Received ep) ?_ ⟨receiving_fresh ep bt txBusy, atEach_nil _, atEach_nil _⟩ hk
  intro τ m h hm
  have ht := world_turn hc ep τ m
  exact ⟨receiving_turn h.toReceiving ht hr hm, atSubmit_turn ht h.submits h.toReceiving.allTaken,
    delivers_turn h.toReceiving ht h.delivers⟩

theorem waits_run {c : Client} (hc : Polite c) (hep : ep ≠ .evt) (bt : BtState) (txBusy : Int)
    (moves : List Move) : Waits ep (run (world c) (fresh bt txBusy) moves) :=
  run_preserves (I := Waits ep) (fun τ m h => waits_turn h (world_turn hc ep τ m) hep)
    (waits_fresh ep bt txBusy) moves

theorem along_keeps {c : Client} (hc : Polite c) (hep : ep ≠ .evt) (o : Urb) (bt : BtState) (txBusy : Int)
    (moves : List Move) : Along (world c) (Keeps o ep) (fresh bt txBusy) moves := by
  rw [along_iff_split]
  intro past m rest _
  exact (waits_run hc hep bt txBusy past).keeps hep o m

end Uubt.Reception
