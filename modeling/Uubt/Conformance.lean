import Uubt.History

namespace Uubt.Conformance

open History

variable {ε σ : Type}

/-- What a party may do in each state of a conversation; none where it may
not. -/
structure Protocol (ε σ : Type) where
  start : σ
  next : σ → ε → Option σ

def Protocol.after (p : Protocol ε σ) (h : List ε) : Option σ := h.foldlM p.next p.start

/-- The whole history is allowed, and it ends in the state. -/
def Protocol.Reaches (p : Protocol ε σ) (h : List ε) (s : σ) : Prop := p.after h = some s

variable {p : Protocol ε σ} {h h' : List ε} {s s' : σ} {e : ε}

theorem Protocol.reaches_nil (p : Protocol ε σ) : p.Reaches [] p.start := rfl

theorem Protocol.after_append (p : Protocol ε σ) (h h' : List ε) :
    p.after (h ++ h') = (p.after h).bind fun s => h'.foldlM p.next s := List.foldlM_append

theorem Protocol.Reaches.concat (hs : p.Reaches h s) (he : p.next s e = some s') : p.Reaches (h ++ [e]) s' := by
  have hone : [e].foldlM p.next s = some s' := by simp [he]
  rw [Reaches, p.after_append, show p.after h = some s from hs, Option.bind_some, hone]

/-- Events that the protocol does not look at may be added anywhere. -/
theorem Protocol.Reaches.extends (hs : p.Reaches h s) (hh : Extends (fun e => p.next s e = some s) h h') :
    p.Reaches h' s :=
  hh.concat_induction (fun g => p.Reaches g s) hs (fun _ _ hg he => hg.concat he)

/-- A protocol is a safety property: it holds of a history if and only if it
holds of every event after those before it. -/
theorem Protocol.Reaches.split {past future : List ε} (hs : p.Reaches (past ++ e :: future) s) :
    ∃ t t', p.Reaches past t ∧ p.next t e = some t' := by
  rw [Reaches, p.after_append] at hs
  obtain ⟨t, ht, hrest⟩ := Option.bind_eq_some_iff.mp hs
  rw [List.foldlM_cons] at hrest
  obtain ⟨t', ht', -⟩ := Option.bind_eq_some_iff.mp hrest
  exact ⟨t, t', ht, ht'⟩

theorem Protocol.Reaches.forall {P : ε → Prop} (hs : p.Reaches h s) (hP : ∀ t t' e, p.next t e = some t' → P e) :
    ∀ e ∈ h, P e := by
  intro e he
  obtain ⟨past, future, rfl⟩ := List.append_of_mem he
  obtain ⟨t, t', -, ht⟩ := hs.split
  exact hP t t' e ht

end Uubt.Conformance
