import Mathlib.Data.List.Count
import Mathlib.Logic.Function.Basic
import Uubt.Runs

namespace Uubt.Leases

open Runs Function

/-- Where a resource of a pool is. What the pool does not have is with
somebody else. -/
inductive Stage
  | elsewhere | free | lent | ready | stopped
deriving DecidableEq

/-- A resource is taken from the pool, made ready, used, stopped and given
back. -/
inductive Op (ρ : Type)
  | acquire (r : ρ)
  | prepare (r : ρ)
  | employ (r : ρ)
  | stop (r : ρ)
  | release (r : ρ)
deriving DecidableEq

variable {ρ : Type} [DecidableEq ρ]

abbrev Book (ρ : Type) := ρ → Stage

def enter (s : Book ρ) : Op ρ → Book ρ
  | .acquire r => update s r .lent
  | .prepare r => update s r .ready
  | .employ _ => s
  | .stop r => update s r .stopped
  | .release r => update s r .free

def Allowed (s : Book ρ) : Op ρ → Prop
  | .acquire r => s r = .free
  | .prepare r => s r = .lent
  | .employ r => s r = .ready
  | .stop r => s r = .lent ∨ s r = .ready
  | .release r => s r = .stopped

abbrev Lawful (s : Book ρ) (ops : List (Op ρ)) : Prop := Along enter Allowed s ops

theorem employed {s : Book ρ} {ops : List (Op ρ)} (h : ∀ o ∈ ops, ∃ r, o = .employ r ∧ s r = .ready) :
    Lawful s ops ∧ run enter s ops = s := by
  induction ops with
  | nil => exact ⟨trivial, rfl⟩
  | cons o ops ih =>
      obtain ⟨r, rfl, hr⟩ := h o (by simp)
      obtain ⟨hl, hs⟩ := ih fun o' ho' => h o' (by simp [ho'])
      exact ⟨⟨hr, hl⟩, hs⟩

theorem returned {s : Book ρ} {r : ρ} (h : s r = .lent ∨ s r = .ready) :
    Lawful s [.stop r, .release r] ∧ run enter s [.stop r, .release r] = update s r .free := by
  refine ⟨⟨h, update_self r _ s, trivial⟩, ?_⟩
  simp [enter]

def Stage.held : Stage → Nat
  | .elsewhere | .free => 0
  | .lent | .ready | .stopped => 1

def Stage.live : Stage → Nat
  | .elsewhere | .free | .stopped => 0
  | .lent | .ready => 1

/-- One operation moves a resource into or out of the hands of the user, and
ends its service, as it says. -/
theorem enter_balance {s : Book ρ} {o : Op ρ} (h : Allowed s o) (r : ρ) :
    (s r).held + [o].count (.acquire r) = (enter s o r).held + [o].count (.release r) ∧
      (s r).live + [o].count (.acquire r) = (enter s o r).live + [o].count (.stop r) := by
  cases o with
  | acquire r' =>
      by_cases hr : r = r'
      · subst hr
        have hs : s r = .free := h
        simp [enter, hs, Stage.held, Stage.live]
      · simp [enter, update_of_ne hr, Ne.symm hr]
  | prepare r' =>
      by_cases hr : r = r'
      · subst hr
        have hs : s r = .lent := h
        simp [enter, hs, Stage.held, Stage.live]
      · simp [enter, update_of_ne hr]
  | employ r' => simp [enter]
  | stop r' =>
      by_cases hr : r = r'
      · subst hr
        have hs : s r = .lent ∨ s r = .ready := h
        rcases hs with hs | hs <;> simp [enter, hs, Stage.held, Stage.live]
      · simp [enter, update_of_ne hr, Ne.symm hr]
  | release r' =>
      by_cases hr : r = r'
      · subst hr
        have hs : s r = .stopped := h
        simp [enter, hs, Stage.held, Stage.live]
      · simp [enter, update_of_ne hr, Ne.symm hr]

theorem balance {s : Book ρ} {ops : List (Op ρ)} (h : Lawful s ops) (r : ρ) :
    (s r).held + ops.count (.acquire r) = (run enter s ops r).held + ops.count (.release r) ∧
      (s r).live + ops.count (.acquire r) = (run enter s ops r).live + ops.count (.stop r) := by
  induction ops generalizing s with
  | nil => simp
  | cons o ops ih =>
      obtain ⟨hheld, hlive⟩ := enter_balance h.1 r
      obtain ⟨hheld', hlive'⟩ := ih h.2
      rw [run_cons, ← List.singleton_append, List.count_append, List.count_append, List.count_append]
      omega

/-- A resource that is back where it was has been stopped once and given
back once for each time it was taken. -/
theorem once_each {s : Book ρ} {ops : List (Op ρ)} (h : Lawful s ops) {r : ρ} (hr : run enter s ops r = s r) :
    ops.count (.stop r) = ops.count (.acquire r) ∧ ops.count (.release r) = ops.count (.acquire r) := by
  obtain ⟨hheld, hlive⟩ := balance h r
  rw [hr] at hheld hlive
  omega

end Uubt.Leases
