import Uubt.ClassDriver
import Uubt.Moves

namespace Uubt.LoaderMoves

open HostLibrary Driver Endpoints ClassDriver Moves Runs

/-- The length of the next chunk. At the end of the image it is not
positive. -/
def chunk (img : Firmware) (fwOffset : Int) : Int :=
  let n := int32 (img.ath3kFwData.length - fwOffset)
  if n > aclMps then aclMps else n

def staged (img : Firmware) (σ : Sys) : Sys :=
  σ.write ({ · with acloLen := uint16 (chunk img σ.bt.fwOffset), acloState := 0, acloBusy := 1 })

def submitted (img : Firmware) (σ : Sys) : Sys :=
  (σ.emit (.bulkSend ((img.ath3kFwData.drop σ.bt.fwOffset.toNat).take σ.bt.acloLen) σ.bt.acloLen σ.bt.acloHcn)).write
    ({ · with acloState := 1 })

def completed (rd : FwReadings) (n : Option Int) (σ : Sys) : Sys :=
  (acloRead rd.aclo σ).write (fun bt => { bt with
    acloState := 0
    acloBusy := 0
    fwOffset := bt.fwOffset + n.getD rd.stale })

def cleared (rd : FwReadings) (σ : Sys) : Sys :=
  (acloRead rd.aclo σ).emit (.clrFeature .aclo σ.bt.acloHcn rd.aclo.clr)

def after : Pass → Sys
  | .leave σ | .again _ σ => σ

/-- All that one iteration of the download loop can do. -/
inductive PassMove (img : Firmware) (rd : FwReadings) (n : Option Int) (σ : Sys) : Pass → Prop
  | leave (hb : σ.bt.acloBusy = 0) (hn : chunk img σ.bt.fwOffset ≤ 0) :
      PassMove img rd n σ (.leave (σ.write ({ · with loadingFw := 3 })))
  | stage (hb : σ.bt.acloBusy = 0) (hn : 0 < chunk img σ.bt.fwOffset) :
      PassMove img rd n σ (.again (some (chunk img σ.bt.fwOffset)) (submitted img (staged img σ)))
  | submit (hb : σ.bt.acloBusy ≠ 0) (h0 : σ.bt.acloState = 0) : PassMove img rd n σ (.again n (submitted img σ))
  | done (hb : σ.bt.acloBusy ≠ 0) (h1 : σ.bt.acloState = 1) (hu : rd.aclo.urb = .done) :
      PassMove img rd n σ (.again n (completed rd n σ))
  | clear (hb : σ.bt.acloBusy ≠ 0) (h1 : σ.bt.acloState = 1) (hu : rd.aclo.urb = .stall) (hc : rd.aclo.clr = .ok) :
      PassMove img rd n σ (.again n ((cleared rd σ).write ({ · with acloState := 0 })))
  | stalled (hb : σ.bt.acloBusy ≠ 0) (h1 : σ.bt.acloState = 1) (hu : rd.aclo.urb = .stall) (hc : rd.aclo.clr ≠ .ok) :
      PassMove img rd n σ (.again n (cleared rd σ))
  | wait (hb : σ.bt.acloBusy ≠ 0) (h1 : σ.bt.acloState = 1) (hn : rd.aclo.urb ≠ .done) (hs : rd.aclo.urb ≠ .stall) :
      PassMove img rd n σ (.again n (acloRead rd.aclo σ))
  | lost (hb : σ.bt.acloBusy ≠ 0) (h0 : σ.bt.acloState ≠ 0) (h1 : σ.bt.acloState ≠ 1) :
      PassMove img rd n σ (.again n σ)

variable {img : Firmware} {c : Client} {rd : FwReadings} {n : Option Int} {σ : Sys}

theorem fwStage_free (hb : σ.bt.acloBusy = 0) : fwStage img n σ =
    if chunk img σ.bt.fwOffset ≤ 0 then none else some (some (chunk img σ.bt.fwOffset), staged img σ) := by
  simp only [fwStage, hb, if_true]
  rfl

/-- The loop behind the staging, which needs a piece in the slot. -/
theorem fwPass_staged {n' : Option Int} {σ' : Sys} (hs : fwStage img n σ = some (n', σ')) {τ : Sys}
    (hm : AcloMove c (some (img.ath3kFwData.drop σ'.bt.fwOffset.toNat)) rd.aclo σ' τ) :
    fwPass img c rd n σ = .again n' (if τ.bt.acloBusy = 0 then
      τ.write (fun bt => { bt with fwOffset := bt.fwOffset + n'.getD rd.stale }) else τ) := by
  simp only [fwPass, hs, hm.eq]

theorem fwPass_busy (hb : σ.bt.acloBusy ≠ 0) {τ : Sys}
    (hm : AcloMove c (some (img.ath3kFwData.drop σ.bt.fwOffset.toNat)) rd.aclo σ τ) :
    fwPass img c rd n σ = .again n (if τ.bt.acloBusy = 0 then
      τ.write (fun bt => { bt with fwOffset := bt.fwOffset + n.getD rd.stale }) else τ) :=
  fwPass_staged (if_neg hb) hm

theorem PassMove.eq {p : Pass} (h : PassMove img rd n σ p) : fwPass img c rd n σ = p := by
  cases h with
  | leave hb hn => rw [fwPass, fwStage_free hb, if_pos hn]
  | stage hb hn =>
      have hs : fwStage img n σ = some (some (chunk img σ.bt.fwOffset), staged img σ) := by
        rw [fwStage_free hb, if_neg (Int.not_le.mpr hn)]
      rw [fwPass_staged hs (.submit (show ¬(1 : Int) = 0 by decide) rfl)]
      rfl
  | submit hb h0 =>
      rw [fwPass_busy hb (.submit hb h0)]
      exact congrArg (Pass.again n) (if_neg hb)
  | done hb h1 hu =>
      rw [fwPass_busy hb (.done hb h1 hu)]
      rfl
  | clear hb h1 hu hc =>
      rw [fwPass_busy hb (.clear hb h1 hu hc)]
      exact congrArg (Pass.again n) (if_neg hb)
  | stalled hb h1 hu hc =>
      rw [fwPass_busy hb (.stalled hb h1 hu hc)]
      exact congrArg (Pass.again n) (if_neg hb)
  | wait hb h1 hn hs =>
      rw [fwPass_busy hb (.wait hb h1 hn hs)]
      exact congrArg (Pass.again n) (if_neg hb)
  | lost hb h0 h1 =>
      rw [fwPass_busy hb (.lost hb h0 h1)]
      exact congrArg (Pass.again n) (if_neg hb)

theorem pass_moves (img : Firmware) (c : Client) (rd : FwReadings) (n : Option Int) (σ : Sys) :
    PassMove img rd n σ (fwPass img c rd n σ) := by
  suffices h : ∃ p, PassMove img rd n σ p by
    obtain ⟨p, h⟩ := h
    exact h.eq (c := c) ▸ h
  by_cases hb : σ.bt.acloBusy = 0
  · by_cases hn : chunk img σ.bt.fwOffset ≤ 0
    · exact ⟨_, .leave hb hn⟩
    · exact ⟨_, .stage hb (Int.not_le.mp hn)⟩
  have hm := aclo_moves dummyClient none rd.aclo σ
  generalize (usbBtAcloProcess dummyClient none rd.aclo σ).2 = τ at hm
  cases hm with
  | idle h0 => exact absurd h0 hb
  | submit _ h0 => exact ⟨_, .submit hb h0⟩
  | done _ h1 hu => exact ⟨_, .done hb h1 hu⟩
  | clear _ h1 hu hc => exact ⟨_, .clear hb h1 hu hc⟩
  | stalled _ h1 hu hc => exact ⟨_, .stalled hb h1 hu hc⟩
  | wait _ h1 hn hs => exact ⟨_, .wait hb h1 hn hs⟩
  | lost _ h0 h1 => exact ⟨_, .lost hb h0 h1⟩

variable {b : Build} {I : Sys → Prop}

/-- The rule for the download loop: what every iteration keeps, the loop
keeps. -/
theorem fwLoop_preserves (hpass : ∀ τ rd n p, I τ → PassMove img rd n τ p → I (after p)) (b : Build) (c : Client)
    (rds : List FwReadings) (n : Option Int) (h : I σ) : I (fwLoop b img c rds n σ).sys := by
  induction rds generalizing n σ with
  | nil => exact h
  | cons rd rds ih =>
      have hp := hpass σ rd n _ h (pass_moves img c rd n σ)
      rw [fwLoop]
      generalize fwPass img c rd n σ = p at hp ⊢
      cases p with
      | leave σ' => exact hp
      | again n' σ' => exact ih _ hp

/-- The rule for a poll, by the mode that it finds the driver in. -/
theorem usbhBtStMachine_preserves (rd : PollReadings)
    (hstep : (b.firmware.isSome → σ.bt.loadingFw = 0) → ∀ τ s, I τ → I (step c τ s))
    (hsetup : ∀ img ∈ b.firmware, σ.bt.loadingFw = 1 → I (fwSetup img rd.cmd σ))
    (hpass : ∀ img ∈ b.firmware, σ.bt.loadingFw = 2 → ∀ τ rd n p, I τ → PassMove img rd n τ p → I (after p))
    (h : I σ) : I (usbhBtStMachine b c rd σ).sys := by
  have hnormal (hm : b.firmware.isSome → σ.bt.loadingFw = 0) : I (pollEndpoints c rd σ) :=
    run_preserves (hstep hm) h (pollSteps rd)
  unfold usbhBtStMachine
  cases hb : b.firmware with
  | none =>
      refine hnormal fun hsome => ?_
      rw [hb] at hsome
      contradiction
  | some img =>
      dsimp only
      split_ifs with h0 h1 h2
      · exact hsetup img hb h1
      · exact fwLoop_preserves (hpass img hb h2) b c rd.loop none h
      · exact h
      · exact hnormal fun _ => not_not.mp h0

theorem usbhBtStMachine_header (hb : b.firmware = some img) (c : Client) (rd : PollReadings)
    (h1 : σ.bt.loadingFw = 1) : usbhBtStMachine b c rd σ = ⟨fwSetup img rd.cmd σ, true⟩ := by
  simp only [usbhBtStMachine, hb, h1, ne_eq, Int.reduceEq, not_false_eq_true, if_true]

theorem usbhBtStMachine_loader (hb : b.firmware = some img) (c : Client) (rd : PollReadings)
    (h2 : σ.bt.loadingFw = 2) : usbhBtStMachine b c rd σ = fwLoop b img c rd.loop none σ := by
  simp only [usbhBtStMachine, hb, h2, ne_eq, Int.reduceEq, not_false_eq_true, if_true, if_false]

theorem usbhBtStMachine_loaded (hb : b.firmware = some img) (c : Client) (rd : PollReadings)
    (h0 : σ.bt.loadingFw ≠ 0) (h1 : σ.bt.loadingFw ≠ 1) (h2 : σ.bt.loadingFw ≠ 2) :
    usbhBtStMachine b c rd σ = ⟨σ, true⟩ := by
  simp only [usbhBtStMachine, hb, h0, h1, h2, ne_eq, not_false_eq_true, if_true, if_false]

end Uubt.LoaderMoves
