import Mathlib.Data.List.Basic

namespace Uubt.Runs

variable {σ τ ι : Type}

/-- A run of a machine that takes one input at a time. -/
def run (step : σ → ι → σ) (s : σ) (inputs : List ι) : σ := inputs.foldl step s

@[simp]
theorem run_nil (step : σ → ι → σ) (s : σ) : run step s [] = s := rfl

@[simp]
theorem run_cons (step : σ → ι → σ) (s : σ) (i : ι) (is : List ι) :
    run step s (i :: is) = run step (step s i) is := rfl

theorem run_append (step : σ → ι → σ) (s : σ) (is js : List ι) :
    run step s (is ++ js) = run step (run step s is) js := by
  simp [run]

theorem run_map {κ : Type} (step : σ → ι → σ) (f : κ → ι) (s : σ) (ks : List κ) :
    run step s (ks.map f) = run (fun s k => step s (f k)) s ks := List.foldl_map

/-- Every input of a run meets a condition in the state it is taken in. -/
def Along (step : σ → ι → σ) (C : σ → ι → Prop) : σ → List ι → Prop
  | _, [] => True
  | s, i :: is => C s i ∧ Along step C (step s i) is

instance Along.decidable (step : σ → ι → σ) (C : σ → ι → Prop) [∀ s i, Decidable (C s i)] :
    ∀ (s : σ) (is : List ι), Decidable (Along step C s is)
  | _, [] => inferInstanceAs (Decidable True)
  | s, i :: is =>
      have := Along.decidable step C (step s i) is
      inferInstanceAs (Decidable (C s i ∧ Along step C (step s i) is))

theorem along_append (step : σ → ι → σ) (C : σ → ι → Prop) (s : σ) (is js : List ι) :
    Along step C s (is ++ js) ↔ Along step C s is ∧ Along step C (run step s is) js := by
  induction is generalizing s with
  | nil => simp [Along]
  | cons i is ih => simp [Along, ih, and_assoc]

theorem along_of_forall (step : σ → ι → σ) {C : σ → ι → Prop} {is : List ι}
    (h : ∀ i ∈ is, ∀ s, C s i) (s : σ) : Along step C s is := by
  induction is generalizing s with
  | nil => trivial
  | cons i is ih =>
      refine ⟨h i (by simp) s, ih ?_ _⟩
      intro j hj
      exact h j (by simp [hj])

theorem Along.and {step : σ → ι → σ} {C D : σ → ι → Prop} {s : σ} {is : List ι}
    (hC : Along step C s is) (hD : Along step D s is) : Along step (fun t i => C t i ∧ D t i) s is := by
  induction is generalizing s with
  | nil => trivial
  | cons i is ih => exact ⟨⟨hC.1, hD.1⟩, ih hC.2 hD.2⟩

theorem along_iff_split (step : σ → ι → σ) (C : σ → ι → Prop) (s : σ) (is : List ι) :
    Along step C s is ↔ ∀ past i rest, is = past ++ i :: rest → C (run step s past) i := by
  induction is generalizing s with
  | nil => simp [Along]
  | cons j is ih =>
      rw [Along, ih]
      constructor
      · rintro ⟨hj, hrest⟩ past i rest he
        cases past with
        | nil =>
            obtain ⟨rfl, -⟩ := List.cons.inj he
            exact hj
        | cons k past =>
            obtain ⟨rfl, ht⟩ := List.cons.inj he
            exact hrest past i rest ht
      · intro h
        refine ⟨h [] j is rfl, ?_⟩
        intro past i rest he
        exact h (j :: past) i rest (by rw [he]; rfl)

/-- The induction behind every safety result: a property of the start that
each allowed input preserves holds at the end of the run. -/
theorem run_invariant {step : σ → ι → σ} {C : σ → ι → Prop} {I : σ → Prop}
    (hstep : ∀ s i, I s → C s i → I (step s i)) {s : σ} {is : List ι}
    (hs : I s) (hC : Along step C s is) : I (run step s is) := by
  induction is generalizing s with
  | nil => exact hs
  | cons i is ih => exact ih (hstep s i hs hC.1) hC.2

/-- Two conditions that agree wherever an invariant holds agree along a
run, if the first one keeps the invariant. -/
theorem along_congr {step : σ → ι → σ} {C D E : σ → ι → Prop} {I : σ → Prop}
    (hiff : ∀ s i, I s → C s i → (D s i ↔ E s i)) (hkeep : ∀ s i, I s → C s i → D s i → I (step s i))
    {s : σ} {is : List ι} (hs : I s) (hC : Along step C s is) : Along step D s is ↔ Along step E s is := by
  induction is generalizing s with
  | nil => exact Iff.rfl
  | cons i is ih =>
      rw [Along, Along, ← hiff s i hs hC.1]
      exact and_congr_right fun hD => ih (hkeep s i hs hC.1 hD) hC.2

theorem run_preserves {step : σ → ι → σ} {I : σ → Prop} (hstep : ∀ s i, I s → I (step s i))
    {s : σ} (hs : I s) (is : List ι) : I (run step s is) :=
  run_invariant (C := fun _ _ => True) (fun s i h _ => hstep s i h) hs
    (along_of_forall step (fun _ _ _ => trivial) s)

theorem run_related {step : σ → ι → σ} {step' : τ → ι → τ} {R : σ → τ → Prop}
    (hstep : ∀ s t i, R s t → R (step s i) (step' t i)) {s : σ} {t : τ} (h : R s t) (is : List ι) :
    R (run step s is) (run step' t is) := by
  induction is generalizing s t with
  | nil => exact h
  | cons i is ih => exact ih (hstep s t i h)

/-- Unwinding: inputs that a relation does not notice may be left out of one
of two runs, if the others keep it when both runs take them. -/
theorem run_purge {κ : Type} {step : σ → ι → σ} {step' : τ → κ → τ} {f : ι → Option κ} {R : σ → τ → Prop}
    (hquiet : ∀ s t i, R s t → f i = none → R (step s i) t)
    (hboth : ∀ s t i k, R s t → f i = some k → R (step s i) (step' t k)) {s : σ} {t : τ} (h : R s t) (is : List ι) :
    R (run step s is) (run step' t (is.filterMap f)) := by
  induction is generalizing s t with
  | nil => exact h
  | cons i is ih =>
      cases hf : f i with
      | none =>
          rw [List.filterMap_cons_none hf]
          exact ih (hquiet s t i h hf)
      | some k =>
          rw [List.filterMap_cons_some hf]
          exact ih (hboth s t i k h hf)

end Uubt.Runs
