import Mathlib.Algebra.GroupWithZero.Nat
import Mathlib.Data.List.Basic
import Uubt.Heartbeat

namespace Uubt.CounterLines

open HostLibrary Heartbeat Runs

def sentLine : BtCall → Option (List Char)
  | .rfcommSend _ line => some line
  | _ => none

def sentLines (app : App) : List (List Char) := app.calls.filterMap sentLine

def isBeat : Delivery → Bool
  | .heartbeat => true
  | .packet _ _ => false

/-- What a peer makes of a line: the number behind the text. -/
def readCounter (line : List Char) : Nat := Nat.ofDigitChars 10 ((line.drop 16).takeWhile Char.isDigit) 0

def padded (n : Nat) : List Char := List.replicate (4 - (Nat.toDigits 10 n).length) '0' ++ Nat.toDigits 10 n

theorem counterLine_eq (counter : UInt32) :
    counterLine counter = "BTstack counter ".toList ++ (padded counter.toNat ++ "\r\n".toList) := by
  unfold counterLine padded
  rw [List.append_assoc, List.append_assoc, List.append_assoc]

theorem padded_isDigit {n : Nat} : ∀ c ∈ padded n, c.isDigit := by
  intro c hc
  rcases List.mem_append.mp hc with hc | hc
  · rw [List.eq_of_mem_replicate hc]
    rfl
  · exact Nat.isDigit_of_mem_toDigits (by decide) (by decide) hc

theorem padded_value (n : Nat) : Nat.ofDigitChars 10 (padded n) 0 = n := by
  rw [padded, Nat.ofDigitChars_append, Nat.ofDigitChars_replicate_zero, Nat.mul_zero, Nat.ofDigitChars_ten_toDigits]

theorem readCounter_counterLine (counter : UInt32) : readCounter (counterLine counter) = counter.toNat := by
  have hhead : "BTstack counter ".toList.length = 16 := rfl
  have htail : "\r\n".toList.takeWhile Char.isDigit = [] := rfl
  rw [readCounter, counterLine_eq, List.drop_left' hhead, List.takeWhile_append_of_pos padded_isDigit, htail,
    List.append_nil, padded_value]

/-- The line is its own format string: printf finds nothing to fill in. -/
theorem counterLine_literal (counter : UInt32) : '%' ∉ counterLine counter := by
  intro h
  rw [counterLine_eq] at h
  rcases List.mem_append.mp h with h | h
  · simp at h
  rcases List.mem_append.mp h with h | h
  · have hd := padded_isDigit '%' h
    contradiction
  · simp at h

variable {bts : Btstack}

theorem packetHandler_calls (bts : Btstack) (type : PacketType) (packet : List UInt8) (app : App) :
    (packetHandler bts type packet app).counter = app.counter ∧
      ∃ calls, (packetHandler bts type packet app).calls = app.calls ++ calls ∧
        ∀ x ∈ calls, sentLine x = none ∧ x ≠ .runLoopAddTimer := by
  have hnone : ∃ calls, app.calls = app.calls ++ calls ∧ ∀ x ∈ calls, sentLine x = none ∧ x ≠ .runLoopAddTimer :=
    ⟨[], by simp, by simp⟩
  have hone (x : BtCall) (hx : sentLine x = none ∧ x ≠ .runLoopAddTimer) :
      ∃ calls, app.calls ++ [x] = app.calls ++ calls ∧ ∀ x ∈ calls, sentLine x = none ∧ x ≠ .runLoopAddTimer :=
    ⟨[x], rfl, by simpa using hx⟩
  rw [packetHandler]
  split
  · cases bts.eventCode (octet packet 0) with
    | none => exact ⟨rfl, hnone⟩
    | some code =>
        cases code with
        | btstackEventState =>
            dsimp only
            split_ifs
            · exact ⟨rfl, hone _ ⟨rfl, by simp⟩⟩
            · exact ⟨rfl, hnone⟩
        | hciEventCommandComplete =>
            dsimp only
            split_ifs
            · exact ⟨rfl, hnone⟩
            · exact ⟨rfl, hone _ ⟨rfl, by simp⟩⟩
            · exact ⟨rfl, hnone⟩
        | hciEventLinkKeyRequest | hciEventPinCodeRequest | rfcommEventIncomingConnection =>
            exact ⟨rfl, hone _ ⟨rfl, by simp⟩⟩
        | rfcommEventOpenChannelComplete =>
            dsimp only
            split_ifs <;> exact ⟨rfl, hnone⟩
        | rfcommEventChannelClosed => exact ⟨rfl, hnone⟩
  · exact ⟨rfl, hnone⟩

/-- The counter tells how many lines have gone out, and they are numbered in
turn. -/
structure Numbered (app : App) : Prop where
  counter : app.counter = UInt32.ofNat (sentLines app).length
  lines : sentLines app = (List.range (sentLines app).length).map fun i => counterLine (UInt32.ofNat (i + 1))

theorem sentLines_append (app : App) (calls : List BtCall) (id : UInt16) (counter : UInt32) :
    sentLines ⟨id, counter, app.calls ++ calls⟩ = sentLines app ++ calls.filterMap sentLine := List.filterMap_append

theorem Numbered.silent {app app' : App} (h : Numbered app) (hc : app'.counter = app.counter)
    (hl : sentLines app' = sentLines app) : Numbered app' :=
  ⟨by rw [hc, hl, h.counter], by rw [hl, ← h.lines]⟩

theorem numbered_packet {app : App} (h : Numbered app) (type : PacketType) (packet : List UInt8) :
    Numbered (packetHandler bts type packet app) := by
  obtain ⟨hc, calls, hcalls, hnone⟩ := packetHandler_calls bts type packet app
  have hsilent : calls.filterMap sentLine = [] := List.filterMap_eq_nil_iff.mpr fun x hx => (hnone x hx).1
  refine h.silent hc ?_
  rw [sentLines, hcalls, List.filterMap_append, hsilent, List.append_nil, sentLines]

theorem numbered_heartbeat {app : App} (h : Numbered app) : Numbered (heartbeatHandler app) := by
  by_cases hid : app.rfcommChannelId = 0
  · have hsame : heartbeatHandler app =
        { app with calls := app.calls ++ [.runLoopSetTimer heartbeatPeriodMs, .runLoopAddTimer] } := by
      simp [heartbeatHandler, hid, App.call]
    rw [hsame]
    exact h.silent rfl (by simp [sentLines, sentLine])
  · have hsend : heartbeatHandler app = ⟨app.rfcommChannelId, app.counter + 1, app.calls ++
        [.rfcommSend app.rfcommChannelId (counterLine (app.counter + 1)), .runLoopSetTimer heartbeatPeriodMs,
          .runLoopAddTimer]⟩ := by
      simp [heartbeatHandler, hid, App.call]
    have hlines : sentLines (heartbeatHandler app) = sentLines app ++ [counterLine (app.counter + 1)] := by
      rw [hsend, sentLines_append]
      rfl
    have hnext : app.counter + 1 = UInt32.ofNat ((sentLines app).length + 1) := by
      rw [h.counter]
      simp
    constructor
    · rw [hlines, List.length_append, List.length_singleton, ← hnext, hsend]
    · rw [hlines, List.length_append, List.length_singleton, List.range_succ, List.map_append, ← h.lines, hnext]
      rfl

theorem follow_numbered (w : World) (d : Delivery) (h : Numbered w.app) : Numbered (follow bts w d).app := by
  cases d with
  | packet type packet => exact numbered_packet h type packet
  | heartbeat => exact numbered_heartbeat h

def rearms (app : App) : Nat := app.calls.count .runLoopAddTimer

theorem follow_rearms (w : World) (d : Delivery) :
    rearms (follow bts w d).app = rearms w.app + if isBeat d then 1 else 0 := by
  cases d with
  | packet type packet =>
      obtain ⟨-, calls, hcalls, hnone⟩ := packetHandler_calls bts type packet w.app
      have hzero : calls.count .runLoopAddTimer = 0 := List.count_eq_zero.mpr fun hx => (hnone _ hx).2 rfl
      simp [rearms, follow, hcalls, hzero, isBeat]
  | heartbeat =>
      by_cases hid : w.app.rfcommChannelId = 0 <;> simp [rearms, follow, heartbeatHandler, hid, App.call, isBeat]

theorem run_rearms (w : World) (deliveries : List Delivery) :
    rearms (run (follow bts) w deliveries).app = rearms w.app + deliveries.countP isBeat := by
  induction deliveries generalizing w with
  | nil => rfl
  | cons d deliveries ih =>
      rw [run_cons, ih, follow_rearms, List.countP_cons]
      omega

/-- Whatever comes and goes on the RFCOMM side, the lines that have gone out
are numbered from 1 on without a gap or a repetition, each can be read back
and printed as it is, and each heartbeat has set its timer again, once. The
counter is an int: that it goes on modulo 2^32 behind 2^31 - 1 lines is what
the build with -O0 makes of it. -/
theorem lines_count_up (bts : Btstack) (deliveries : List Delivery) :
    let app := (run (follow bts) powerUp deliveries).app
    sentLines app = (List.range (sentLines app).length).map (fun i => counterLine (UInt32.ofNat (i + 1))) ∧
      (sentLines app).map readCounter = (List.range (sentLines app).length).map (fun i => (i + 1) % 2 ^ 32) ∧
      (∀ line ∈ sentLines app, '%' ∉ line) ∧ rearms app = deliveries.countP isBeat := by
  intro app
  have h : Numbered app :=
    run_preserves (I := fun w => Numbered w.app) (fun w d hw => follow_numbered w d hw) ⟨rfl, rfl⟩ deliveries
  refine ⟨h.lines, ?_, fun line hline => ?_, ?_⟩
  · have hread := congrArg (List.map readCounter) h.lines
    rw [List.map_map] at hread
    refine hread.trans (List.map_congr_left fun i _ => ?_)
    rw [Function.comp_apply, readCounter_counterLine, UInt32.toNat_ofNat']
  · rw [h.lines] at hline
    obtain ⟨i, -, rfl⟩ := List.mem_map.mp hline
    exact counterLine_literal _
  · rw [run_rearms]
    exact Nat.zero_add _

end Uubt.CounterLines
