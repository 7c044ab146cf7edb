import Mathlib.Data.List.Induction

namespace Uubt.History

variable {ε σ τ : Type}

/-- Every event of a history meets the property relative to the events
before it. The property speaks about the past only, so it is closed under
prefixes and is checked one event at a time. -/
def AtEach (P : List ε → ε → Prop) (h : List ε) : Prop :=
  ∀ past e future, h = past ++ e :: future → P past e

theorem atEach_nil (P : List ε → ε → Prop) : AtEach P [] := by
  intro past e future h
  simp at h

theorem concat_eq_split {h past future : List ε} {e x : ε} (hs : h ++ [x] = past ++ e :: future) :
    (future = [] ∧ h = past ∧ x = e) ∨ ∃ rest, future = rest ++ [x] ∧ h = past ++ e :: rest := by
  rcases List.eq_nil_or_concat future with rfl | ⟨rest, y, hf⟩
  · obtain ⟨hp, hx⟩ := List.append_inj' hs rfl
    exact .inl ⟨rfl, hp, by simpa using hx⟩
  · subst hf
    have hs' : h ++ [x] = (past ++ e :: rest) ++ [y] := by simpa using hs
    obtain ⟨hp, hx⟩ := List.append_inj' hs' rfl
    have hy : x = y := by simpa using hx
    subst hy
    exact .inr ⟨rest, by simp, hp⟩

@[simp]
theorem atEach_concat (P : List ε → ε → Prop) (h : List ε) (x : ε) :
    AtEach P (h ++ [x]) ↔ AtEach P h ∧ P h x := by
  constructor
  · intro hall
    refine ⟨?_, hall h x [] rfl⟩
    intro past e future hs
    exact hall past e (future ++ [x]) (by simp [hs])
  · rintro ⟨hall, hx⟩ past e future hs
    rcases concat_eq_split hs with ⟨-, rfl, rfl⟩ | ⟨rest, -, hr⟩
    · exact hx
    · exact hall past e rest hr

structure Observer (ε σ : Type) where
  init : σ
  step : σ → ε → σ

def Observer.after (o : Observer ε σ) (h : List ε) : σ := h.foldl o.step o.init

@[simp]
theorem Observer.after_nil (o : Observer ε σ) : o.after [] = o.init := rfl

@[simp]
theorem Observer.after_concat (o : Observer ε σ) (h : List ε) (e : ε) :
    o.after (h ++ [e]) = o.step (o.after h) e := by
  simp [Observer.after]

/-- The second history is the first one followed by events of one kind. -/
def Extends (K : ε → Prop) (h h' : List ε) : Prop := ∃ new, h' = h ++ new ∧ ∀ e ∈ new, K e

theorem Extends.refl (K : ε → Prop) (h : List ε) : Extends K h h := ⟨[], by simp, by simp⟩

theorem Extends.trans {K : ε → Prop} {h h' h'' : List ε} (hh : Extends K h h') (hh' : Extends K h' h'') :
    Extends K h h'' := by
  obtain ⟨new, rfl, hn⟩ := hh
  obtain ⟨new', rfl, hn'⟩ := hh'
  refine ⟨new ++ new', by simp, ?_⟩
  intro e he
  rcases List.mem_append.mp he with he | he
  · exact hn e he
  · exact hn' e he

theorem Extends.concat {K : ε → Prop} {h h' : List ε} (hh : Extends K h h') {e : ε} (he : K e) :
    Extends K h (h' ++ [e]) :=
  hh.trans ⟨[e], rfl, by simpa using he⟩

theorem Extends.mono {K L : ε → Prop} {h h' : List ε} (hh : Extends K h h') (hKL : ∀ e, K e → L e) :
    Extends L h h' := by
  obtain ⟨new, rfl, hn⟩ := hh
  exact ⟨new, rfl, fun e he => hKL e (hn e he)⟩

theorem Extends.concat_induction {K : ε → Prop} {h h' : List ε} (hh : Extends K h h') (P : List ε → Prop)
    (base : P h) (step : ∀ g e, P g → K e → P (g ++ [e])) : P h' := by
  obtain ⟨new, rfl, hn⟩ := hh
  induction new using List.reverseRecOn with
  | nil => simpa using base
  | append_singleton new e ih =>
      have hnew := ih (fun x hx => hn x (by simp [hx]))
      simpa using step _ e hnew (hn e (by simp))

theorem Extends.after_eq {K : ε → Prop} {h h' : List ε} (hh : Extends K h h') (o : Observer ε σ)
    (hig : ∀ s e, K e → o.step s e = s) : o.after h' = o.after h :=
  hh.concat_induction (fun g => o.after g = o.after h) rfl (fun g e hg he => by rw [o.after_concat, hig _ e he, hg])

theorem Extends.atEach {K : ε → Prop} {h h' : List ε} (hh : Extends K h h') {P : List ε → ε → Prop}
    (hP : AtEach P h) (hK : ∀ past e, K e → P past e) : AtEach P h' :=
  hh.concat_induction (AtEach P) hP (fun g e hg he => (atEach_concat P g e).mpr ⟨hg, hK g e he⟩)

end Uubt.History
