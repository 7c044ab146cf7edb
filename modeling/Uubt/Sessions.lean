import Uubt.ClassDriver
import Uubt.Frames

namespace Uubt.Sessions

open HostLibrary Driver Endpoints Clients ClassDriver Frames Runs

/-- What can happen to the driver in normal mode: the user calls between two
polls, or the host core polls. -/
inductive Input
  | call (x : Call)
  | poll (rd : PollReadings)

def react (b : Build) (c : Client) (σ : Sys) : Input → Sys
  | .call x => c.call σ x
  | .poll rd => (usbhBtStMachine b c rd σ).sys

def Input.steps : Input → List Step
  | .call x => [.call x]
  | .poll rd => pollSteps rd

variable {c : Client}

theorem step_loadingFw (hc : Polite c) (σ : Sys) (s : Step) : (step c σ s).bt.loadingFw = σ.bt.loadingFw := by
  cases s with
  | call x => exact (hc.call σ x).reach.sameReceiver.loadingFw
  | cmd rd => exact (cmd_works hc rd σ).frame.loadingFw
  | evt rd => exact (evt_works hc rd σ).frame.loadingFw
  | aclo rd => exact (aclo_works hc none rd σ).frame.loadingFw
  | acli rd => exact (acli_works hc rd σ).frame.loadingFw

theorem run_loadingFw (hc : Polite c) (σ : Sys) (steps : List Step) :
    (run (step c) σ steps).bt.loadingFw = σ.bt.loadingFw :=
  run_preserves (I := fun τ => τ.bt.loadingFw = σ.bt.loadingFw)
    (fun τ s h => (step_loadingFw hc τ s).trans h) rfl steps

theorem react_eq (b : Build) {σ : Sys} (h : σ.bt.loadingFw = 0) (i : Input) :
    react b c σ i = run (step c) σ i.steps := by
  cases i with
  | call x => rfl
  | poll rd => rw [react, usbhBtStMachine_normal b c rd σ h]; rfl

/-- A session in normal mode is a run of its steps, and stays in normal
mode. -/
theorem run_react (b : Build) (hc : Polite c) {σ : Sys} (h : σ.bt.loadingFw = 0) (inputs : List Input) :
    run (react b c) σ inputs = run (step c) σ (inputs.flatMap Input.steps) := by
  induction inputs generalizing σ with
  | nil => rfl
  | cons i is ih =>
      have h' : (react b c σ i).bt.loadingFw = 0 := by
        rw [react_eq b h, run_loadingFw hc, h]
      rw [run_cons, ih h', react_eq b h, List.flatMap_cons, run_append]

theorem opened_loadingFw (b : Build) {dev : Device} (ch : Channels) (bt : BtState) (txBusy : Int)
    (hdev : dev.bInterfaceClass = wirelessClass) : (opened b dev ch bt txBusy).bt.loadingFw = 0 := by
  rw [opened_wireless b ch bt txBusy hdev]
  rfl

/-- A wireless dongle behind the channels 2, 3 and 4; the control pipe of
the host core has 0 and 1. -/
def dongle : Device :=
  { bInterfaceClass := wirelessClass, idVendor := 0x0a12, idProduct := 1, address := 1, speed := 1 }

def dongleChannels : Channels := { evt := 2, aclo := 3, acli := 4 }

def plain : Build := { firmware := none, keepsN := true }

end Uubt.Sessions
