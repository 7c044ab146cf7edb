import Mathlib.Order.Basic
import Mathlib.Order.Nat
import Mathlib.Data.Nat.Init

namespace Uubt.Eventually

variable {σ ι : Type}

/-- The states of a run that takes inputs for ever. -/
def path (step : σ → ι → σ) (s : σ) (inputs : Nat → ι) : Nat → σ
  | 0 => s
  | n + 1 => step (path step s inputs n) (inputs n)

variable {step : σ → ι → σ} {s : σ} {inputs : Nat → ι}

theorem path_invariant {I : σ → Prop} (hstep : ∀ s n, I s → I (step s (inputs n))) (hs : I s) (n : Nat) :
    I (path step s inputs n) := by
  induction n with
  | zero => exact hs
  | succ n ih => exact hstep _ n ih

theorem path_related {R : σ → σ → Prop} (hrefl : ∀ s, R s s) (htrans : ∀ {s t u}, R s t → R t u → R s u)
    (hstep : ∀ s i, R s (step s i)) {n m : Nat} (hnm : n ≤ m) : R (path step s inputs n) (path step s inputs m) := by
  induction m, hnm using Nat.le_induction with
  | base => exact hrefl _
  | succ m _ ih => exact htrans ih (hstep _ _)

/-- Whenever P holds at a position of the run, Q holds there or later. -/
def LeadsTo (P Q : Nat → Prop) : Prop := ∀ n, P n → ∃ m, n ≤ m ∧ Q m

variable {P Q R H : Nat → Prop}

theorem LeadsTo.trans (h : LeadsTo P Q) (h' : LeadsTo Q R) : LeadsTo P R := by
  intro n hn
  obtain ⟨m, hnm, hm⟩ := h n hn
  obtain ⟨k, hmk, hk⟩ := h' m hm
  exact ⟨k, le_trans hnm hmk, hk⟩

theorem LeadsTo.or (h : LeadsTo P R) (h' : LeadsTo Q R) : LeadsTo (fun n => P n ∨ Q n) R := by
  rintro n (hn | hn)
  · exact h n hn
  · exact h' n hn

theorem LeadsTo.of_imp (h : ∀ n, P n → Q n) : LeadsTo P Q := fun n hn => ⟨n, le_rfl, h n hn⟩

/-- A helpful input comes sooner or later, and P stays until then: with the
input Q is there. -/
theorem LeadsTo.of_helpful (hkeep : ∀ n, P n → P (n + 1) ∨ Q (n + 1))
    (hhelp : LeadsTo P (fun n => H n ∨ Q n)) (hstep : ∀ n, P n → H n → Q (n + 1)) : LeadsTo P Q := by
  intro n hn
  obtain ⟨m, hnm, hm | hm⟩ := hhelp n hn
  · have huntil : P m ∨ ∃ k, n ≤ k ∧ Q k := by
      clear hm
      induction m, hnm using Nat.le_induction with
      | base => exact .inl hn
      | succ m hnm ih =>
          rcases ih with hp | hq
          · exact (hkeep m hp).imp_right fun hq => ⟨m + 1, Nat.le_succ_of_le hnm, hq⟩
          · exact .inr hq
    rcases huntil with hp | hq
    · exact ⟨m + 1, Nat.le_succ_of_le hnm, hstep m hp hm⟩
    · exact hq
  · exact ⟨m, hnm, hm⟩

/-- What either happens or makes a measure smaller happens in the end. -/
theorem LeadsTo.of_decreasing {r : Nat → Nat}
    (h : ∀ k, LeadsTo (fun n => P n ∧ r n = k) (fun n => Q n ∨ P n ∧ r n < k)) : LeadsTo P Q := by
  have hk : ∀ k, LeadsTo (fun n => P n ∧ r n = k) Q := by
    intro k
    induction k using Nat.strongRecOn with
    | ind k ih =>
        intro n hn
        obtain ⟨m, hnm, hq | ⟨hp, hlt⟩⟩ := h k n hn
        · exact ⟨m, hnm, hq⟩
        · obtain ⟨l, hml, hq⟩ := ih (r m) hlt m ⟨hp, rfl⟩
          exact ⟨l, le_trans hnm hml, hq⟩
  exact fun n hn => hk (r n) n ⟨hn, rfl⟩

/-- A count that is always exceeded later exceeds every bound. -/
theorem unbounded {f : Nat → Nat} (h : ∀ n, ∃ m, f n < f m) (k : Nat) : ∃ n, k ≤ f n := by
  induction k with
  | zero => exact ⟨0, Nat.zero_le _⟩
  | succ k ih =>
      obtain ⟨n, hn⟩ := ih
      obtain ⟨m, hm⟩ := h n
      exact ⟨m, by omega⟩

end Uubt.Eventually
