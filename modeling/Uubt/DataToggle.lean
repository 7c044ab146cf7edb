import Mathlib.Logic.Function.Basic
import Mathlib.Logic.Relation
import Uubt.HostLibrary

namespace Uubt.DataToggle

open HostLibrary Function Relation

inductive RequestState
  | cmdSend | cmdWait
deriving DecidableEq

/-- How far phost->Control.state is with a control write. Behind an error the
library begins the same request again from its setup. The state is elsewhere
when there is no request, or one whose data stage has ended. -/
inductive CtrlState
  | setup | ctrlDataOut | ctrlDataOutWait | ctrlError | elsewhere
deriving DecidableEq

inductive Pid
  | data0 | data1
deriving DecidableEq

variable {ρ : Type}

structure HostCore (ρ : Type) where
  requestState : RequestState
  controlState : CtrlState
  hcNumOut : Nat
  toggleOut : Nat → UInt8
  rest : ρ

def HostCore.toggle (s : HostCore ρ) : UInt8 := s.toggleOut s.hcNumOut

def HostCore.setToggle (s : HostCore ρ) (toggle : UInt8) : HostCore ρ :=
  { s with toggleOut := update s.toggleOut s.hcNumOut toggle }

/-- The library around the patches: USBH_SubmitSetupRequest, the case
CMD_WAIT of USBH_CtlReq, the case CTRL_DATA_OUT of USBH_HandleControl with
the packet that it sends, and all the others of its steps. -/
structure Library (ρ : Type) where
  submitSetupRequest : List UInt8 → Nat → HostCore ρ → HostCore ρ
  cmdWait : HostCore ρ → UsbhStatus × HostCore ρ
  ctrlDataOut : HostCore ρ → Pid × HostCore ρ
  others : HostCore ρ → HostCore ρ → Prop

def usbhCtlReq (lib : Library ρ) (buff : List UInt8) (length : Nat) (s : HostCore ρ) : UsbhStatus × HostCore ρ :=
  match s.requestState with
  | .cmdSend => (.busy, { lib.submitSetupRequest buff length (s.setToggle 0) with requestState := .cmdWait })
  | .cmdWait => lib.cmdWait s

/-- The branch of USBH_HandleControl for a data stage that the device has
NAKed. -/
def dataOutNak (s : HostCore ρ) : HostCore ρ :=
  { s.setToggle (s.toggle ^^^ 1) with controlState := .ctrlDataOut }

def Keeps (s t : HostCore ρ) : Prop :=
  s.controlState ≠ .elsewhere → t.controlState ≠ .elsewhere → t.toggle = s.toggle

/-- What the patches rely on. The case CTRL_DATA_OUT flips the toggle, and
then sends the data stage by it; no other step touches it. Where the library
goes in a request, and how often, is left to it. -/
structure Rules (lib : Library ρ) : Prop where
  submit : ∀ buff length s, (lib.submitSetupRequest buff length s).toggle = s.toggle
  cmdWait : ∀ s, Keeps s (lib.cmdWait s).2
  others : ∀ s t, lib.others s t → Keeps s t
  dataOut_toggle : ∀ s, s.controlState = .ctrlDataOut → (lib.ctrlDataOut s).2.toggle = s.toggle ^^^ 1
  dataOut_pid : ∀ s, s.controlState = .ctrlDataOut →
    ((lib.ctrlDataOut s).1 = .data1 ↔ (lib.ctrlDataOut s).2.toggle = 1)

/-- What has become of the data stage of a request since its CMD_SEND. Behind
a NAK that answers no data stage it counts as ended. -/
inductive DataStage
  | awaited | onBus | nacked | ended
deriving DecidableEq

def DataStage.afterNak : DataStage → DataStage
  | .onBus => .nacked
  | _ => .ended

structure Attempt where
  stage : DataStage
  pid : Pid
deriving DecidableEq

structure Host (ρ : Type) where
  core : HostCore ρ
  stage : DataStage
  sent : List Attempt

def Host.goOn (w : Host ρ) (core : HostCore ρ) (stage : DataStage) : Host ρ :=
  { w with core := core, stage := if core.controlState = .elsewhere then .ended else stage }

def Host.attempt (w : Host ρ) (pid : Pid) : Host ρ :=
  { w with sent := w.sent ++ [{ stage := w.stage, pid := pid }] }

/-- Somebody calls USBH_CtlReq, or the library works on the transfer. -/
inductive Step (lib : Library ρ) (w : Host ρ) : Host ρ → Prop
  | ctlReq (buff : List UInt8) (length : Nat) :
      Step lib w (w.goOn (usbhCtlReq lib buff length w.core).2
        (if w.core.requestState = .cmdSend then .awaited else w.stage))
  | dataOut (hc : w.core.controlState = .ctrlDataOut) :
      Step lib w ((w.attempt (lib.ctrlDataOut w.core).1).goOn (lib.ctrlDataOut w.core).2 .onBus)
  | nak (hc : w.core.controlState = .ctrlDataOutWait) : Step lib w (w.goOn (dataOutNak w.core) w.stage.afterNak)
  | others {core : HostCore ρ} (h : lib.others w.core core) : Step lib w (w.goOn core w.stage)

abbrev Steps (lib : Library ρ) (w w' : Host ρ) : Prop := ReflTransGen (Step lib) w w'

def Attempt.Straight (a : Attempt) : Prop := a.stage = .awaited ∨ a.stage = .nacked

def DataStage.toggle : DataStage → Option UInt8
  | .awaited | .nacked => some 0
  | .onBus => some 1
  | .ended => none

structure InPhase (w : Host ρ) : Prop where
  inside : w.stage ≠ .ended → w.core.controlState ≠ .elsewhere
  toggle : ∀ x, w.stage.toggle = some x → w.core.toggle = x

variable {lib : Library ρ} {w w' : Host ρ}

@[simp] theorem toggle_setToggle (s : HostCore ρ) (toggle : UInt8) : (s.setToggle toggle).toggle = toggle :=
  update_self _ _ _

theorem goOn_inPhase {core : HostCore ρ} {stage : DataStage}
    (h : core.controlState ≠ .elsewhere → ∀ x, stage.toggle = some x → core.toggle = x) :
    InPhase (w.goOn core stage) := by
  by_cases hc : core.controlState = .elsewhere
  · refine ⟨fun hs => ?_, fun x hx => ?_⟩
    · simp [Host.goOn, hc] at hs
    · simp [Host.goOn, hc, DataStage.toggle] at hx
  · refine ⟨fun _ => hc, fun x hx => h hc x ?_⟩
    rwa [Host.goOn, if_neg hc] at hx

theorem Keeps.inPhase (h : InPhase w) {core : HostCore ρ} (hk : Keeps w.core core) :
    InPhase (w.goOn core w.stage) := by
  refine goOn_inPhase fun hc x hx => ?_
  have hin : w.core.controlState ≠ .elsewhere := h.inside fun hs => by simp [hs, DataStage.toggle] at hx
  rw [hk hin hc]
  exact h.toggle x hx

theorem ctlReq_inPhase (hlib : Rules lib) (h : InPhase w) (buff : List UInt8) (length : Nat) :
    InPhase (w.goOn (usbhCtlReq lib buff length w.core).2
      (if w.core.requestState = .cmdSend then .awaited else w.stage)) := by
  unfold usbhCtlReq
  cases w.core.requestState with
  | cmdWait => exact Keeps.inPhase h (hlib.cmdWait w.core)
  | cmdSend =>
      refine goOn_inPhase fun _ x hx => ?_
      obtain rfl := Option.some.inj hx
      exact (hlib.submit buff length (w.core.setToggle 0)).trans (toggle_setToggle w.core 0)

theorem dataOut_inPhase (hlib : Rules lib) (hc : w.core.controlState = .ctrlDataOut)
    (hd : (lib.ctrlDataOut w.core).1 = .data1) (pid : Pid) :
    InPhase ((w.attempt pid).goOn (lib.ctrlDataOut w.core).2 .onBus) := by
  refine goOn_inPhase fun _ x hx => ?_
  obtain rfl := Option.some.inj hx
  exact (hlib.dataOut_pid w.core hc).mp hd

theorem nak_inPhase (h : InPhase w) : InPhase (w.goOn (dataOutNak w.core) w.stage.afterNak) := by
  refine goOn_inPhase fun _ x hx => ?_
  cases hs : w.stage with
  | awaited | nacked | ended => simp [hs, DataStage.afterNak, DataStage.toggle] at hx
  | onBus =>
      rw [hs] at hx
      obtain rfl := Option.some.inj hx
      -- the flip takes back the one of the attempt before
      have hone : w.core.toggle = 1 := h.toggle 1 (by rw [hs]; rfl)
      change (w.core.setToggle (w.core.toggle ^^^ 1)).toggle = 0
      rw [toggle_setToggle, hone]
      decide

theorem dataOut_pid (hlib : Rules lib) (h : InPhase w) (hc : w.core.controlState = .ctrlDataOut) {x : UInt8}
    (hx : w.stage.toggle = some x) : (lib.ctrlDataOut w.core).1 = .data1 ↔ x ^^^ 1 = 1 := by
  rw [hlib.dataOut_pid w.core hc, hlib.dataOut_toggle w.core hc, h.toggle x hx]

theorem step_sent (hs : Step lib w w') : w'.sent = w.sent ∨
    w.core.controlState = .ctrlDataOut ∧ w'.sent = w.sent ++ [⟨w.stage, (lib.ctrlDataOut w.core).1⟩] := by
  cases hs with
  | ctlReq | nak | others => exact .inl rfl
  | dataOut hc => exact .inr ⟨hc, rfl⟩

theorem step_inPhase (hlib : Rules lib) (h : InPhase w) (hs : Step lib w w')
    (hd : ∀ a ∈ w'.sent, a.pid = .data1) : InPhase w' := by
  cases hs with
  | ctlReq buff length => exact ctlReq_inPhase hlib h buff length
  | dataOut hc => exact dataOut_inPhase hlib hc (hd ⟨w.stage, _⟩ (by simp [Host.goOn, Host.attempt])) _
  | nak => exact nak_inPhase h
  | others ho => exact Keeps.inPhase h (hlib.others _ _ ho)

theorem steps_inPhase (hlib : Rules lib) (h : InPhase w) (hs : Steps lib w w') :
    (∀ a ∈ w'.sent, a.pid = .data1) → InPhase w' := by
  induction hs with
  | refl => exact fun _ => h
  | tail _ hstep ih =>
      intro hd
      refine step_inPhase hlib (ih fun a ha => hd a ?_) hstep hd
      rcases step_sent hstep with hsent | ⟨-, hsent⟩ <;> rw [hsent]
      · exact ha
      · exact List.mem_append_left _ ha

theorem straight_data1 (hlib : Rules lib) (h : InPhase w) (hn : w.sent = []) (hs : Steps lib w w') :
    (∀ a ∈ w'.sent, a.Straight) → ∀ a ∈ w'.sent, a.pid = .data1 := by
  induction hs with
  | refl => simp [hn]
  | @tail u v hu hstep ih =>
      rcases step_sent hstep with hsent | ⟨hc, hsent⟩
      · rwa [hsent]
      · simp only [hsent, List.forall_mem_append, List.forall_mem_singleton]
        rintro ⟨hall, hlast⟩
        have hph := steps_inPhase hlib h hu (ih hall)
        have hzero : u.stage.toggle = some 0 := by
          rcases hlast with he | he <;> rw [show u.stage = _ from he] <;> rfl
        exact ⟨ih hall, (dataOut_pid hlib hph hc hzero).mpr (by decide)⟩

theorem data1_not_resent (hlib : Rules lib) (h : InPhase w) (hn : w.sent = []) (hs : Steps lib w w') :
    (∀ a ∈ w'.sent, a.pid = .data1) → ∀ a ∈ w'.sent, a.stage ≠ .onBus := by
  induction hs with
  | refl => simp [hn]
  | @tail u v hu hstep ih =>
      rcases step_sent hstep with hsent | ⟨hc, hsent⟩
      · rwa [hsent]
      · simp only [hsent, List.forall_mem_append, List.forall_mem_singleton]
        rintro ⟨hall, hlast⟩
        refine ⟨ih hall, fun he => ?_⟩
        have hone : u.stage.toggle = some 1 := by rw [show u.stage = _ from he]; rfl
        exact absurd ((dataOut_pid hlib (steps_inPhase hlib h hu hall) hc hone).mp hlast) (by decide)

theorem inPhase_of_ended (ho : w.stage = .ended) : InPhase w := by
  refine ⟨fun hs => absurd ho hs, fun x hx => ?_⟩
  rw [ho] at hx
  contradiction

/-- In any sequence of requests, wherever they end and whatever toggle they
leave behind: if a data stage is sent again behind a NAK only, however often,
each one goes out as DATA1. If one is sent again by another way while its
request is under way, not all of them do. -/
theorem data1_unless_resent (hlib : Rules lib) (ho : w.stage = .ended) (hn : w.sent = []) (hs : Steps lib w w') :
    ((∀ a ∈ w'.sent, a.Straight) → ∀ a ∈ w'.sent, a.pid = .data1) ∧
      ((∀ a ∈ w'.sent, a.pid = .data1) → ∀ a ∈ w'.sent, a.stage ≠ .onBus) :=
  ⟨straight_data1 hlib (inPhase_of_ended ho) hn hs, data1_not_resent hlib (inPhase_of_ended ho) hn hs⟩

inductive ModelStep (s : HostCore Unit) : HostCore Unit → Prop
  | setupDone (h : s.controlState = .setup) : ModelStep s { s with controlState := .ctrlDataOut }
  | urbError (h : s.controlState = .ctrlDataOutWait) : ModelStep s { s with controlState := .ctrlError }
  | again (h : s.controlState = .ctrlError) : ModelStep s { s with controlState := .setup }
  | ends (toggle : UInt8) :
      ModelStep s { s.setToggle toggle with controlState := .elsewhere, requestState := .cmdSend }

/-- A library that does what the rules ask for, and behind an error begins
the request again. A request can end at any point, and its status stage and
the other users of the channel leave some toggle behind. -/
def modelLibrary : Library Unit where
  submitSetupRequest _ _ s := { s with controlState := .setup }
  cmdWait s := if s.controlState = .elsewhere then (.ok, { s with requestState := .cmdSend }) else (.busy, s)
  ctrlDataOut s :=
    let s := s.setToggle (s.toggle ^^^ 1)
    (if s.toggle = 1 then .data1 else .data0, { s with controlState := .ctrlDataOutWait })
  others := ModelStep

theorem modelLibrary_rules : Rules modelLibrary where
  submit _ _ _ := rfl
  cmdWait s _ _ := by
    change (if s.controlState = .elsewhere then
      (UsbhStatus.ok, { s with requestState := .cmdSend }) else (UsbhStatus.busy, s)).2.toggle = s.toggle
    split <;> rfl
  others s t ho _ ht := by
    cases ho with
    | setupDone | urbError | again => rfl
    | ends => exact absurd rfl ht
  dataOut_toggle _ _ := update_self _ _ _
  dataOut_pid s _ := by
    change (if (s.setToggle (s.toggle ^^^ 1)).toggle = 1 then Pid.data1 else Pid.data0) = .data1 ↔
      (s.setToggle (s.toggle ^^^ 1)).toggle = 1
    split_ifs with h
    · exact iff_of_true rfl h
    · exact iff_of_false (by decide) h

def idle : Host Unit :=
  { core := { requestState := .cmdSend, controlState := .elsewhere, hcNumOut := 1, toggleOut := fun _ => 5,
              rest := () }
    stage := .ended
    sent := [] }

theorem two_naks_use_data1 : ∃ w, Steps modelLibrary idle w ∧
    w.sent = [⟨.awaited, .data1⟩, ⟨.awaited, .data1⟩, ⟨.nacked, .data1⟩, ⟨.nacked, .data1⟩] ∧
      ∀ a ∈ w.sent, a.pid = .data1 := by
  have hsteps : ∃ w, Steps modelLibrary idle w ∧
      w.sent = [⟨.awaited, .data1⟩, ⟨.awaited, .data1⟩, ⟨.nacked, .data1⟩, ⟨.nacked, .data1⟩] := by
    refine ⟨_, ((((((((((ReflTransGen.refl.tail (.ctlReq [1] 1)).tail (.others (.setupDone rfl))).tail
      (.dataOut rfl)).tail (.others (.ends 7))).tail (.ctlReq [2] 1)).tail
      (.others (.setupDone rfl))).tail (.dataOut rfl)).tail (.nak rfl)).tail (.dataOut rfl)).tail
      (.nak rfl)).tail (.dataOut rfl), ?_⟩
    decide
  obtain ⟨w, hs, hsent⟩ := hsteps
  refine ⟨w, hs, hsent, (data1_unless_resent modelLibrary_rules rfl rfl hs).1 ?_⟩
  rw [hsent]
  simp [Attempt.Straight]

/-- The data stage meets an error, and the library comes to it again from the
setup: nothing has taken back the flip of the first attempt. -/
theorem retry_from_setup_uses_data0 :
    ¬∀ lib : Library Unit, Rules lib → ∀ w, Steps lib idle w → ∀ a ∈ w.sent, a.pid = .data1 := by
  intro h
  have hsteps : ∃ w, Steps modelLibrary idle w ∧ w.sent = [⟨.awaited, .data1⟩, ⟨.onBus, .data0⟩] := by
    refine ⟨_, ((((((ReflTransGen.refl.tail (.ctlReq [1] 1)).tail (.others (.setupDone rfl))).tail
      (.dataOut rfl)).tail (.others (.urbError rfl))).tail (.others (.again rfl))).tail
      (.others (.setupDone rfl))).tail (.dataOut rfl), ?_⟩
    decide
  obtain ⟨w, hs, hsent⟩ := hsteps
  have hd := h modelLibrary modelLibrary_rules w hs ⟨.onBus, .data0⟩ (by simp [hsent])
  contradiction

end Uubt.DataToggle
