import Uubt.LoaderMoves
import Uubt.Tiles

namespace Uubt.FirmwareLoading

open ByteBuffer History HostLibrary Driver Endpoints ClassDriver Moves LoaderMoves Tiles

/-- What a monitor has seen of a download: the setup packet that stands, if
the header has been sent with its own, the piece that was handed over last,
and the pieces whose transfer is done. -/
structure Log where
  setup : Option Setup
  header : Bool
  current : List UInt8
  acked : List (List UInt8)

def monitorStep (img : Firmware) (l : Log) : Event → Log
  | .setSetup setup => { l with setup := some setup }
  | .ctlReq data len .ok =>
      { l with header := l.header ||
          decide (l.setup = some (dfuSetup img.ath3kFwCmd.length) ∧ data = img.ath3kFwCmd ∧
            len = img.ath3kFwCmd.length) }
  | .bulkSend data _ _ => { l with current := data }
  | .urbState .aclo _ .done => { l with acked := l.acked ++ [l.current] }
  | _ => l

def monitor (img : Firmware) : Observer Event Log := ⟨⟨none, false, [], []⟩, monitorStep img⟩

def log (img : Firmware) (σ : Sys) : Log := (monitor img).after σ.trace

@[simp] theorem log_emit (img : Firmware) (e : Event) (σ : Sys) :
    log img (σ.emit e) = monitorStep img (log img σ) e := (monitor img).after_concat _ _

@[simp] theorem log_write (img : Firmware) (f : BtState → BtState) (σ : Sys) : log img (σ.write f) = log img σ := rfl

def Log.offset (l : Log) : Nat := l.acked.flatten.length

/-- A piece is handed over after the header, and it is the next one. -/
def Submits (img : Firmware) (past : Trace) (e : Event) : Prop :=
  ∀ data len hcn, e = .bulkSend data len hcn →
    let l := (monitor img).after past
    l.header = true ∧ l.offset % aclMps = 0 ∧ 0 < len ∧ len = min aclMps (img.ath3kFwData.length - l.offset) ∧
      data = tile aclMps img.ath3kFwData l.offset

structure Loading (img : Firmware) (σ : Sys) : Prop where
  header : (log img σ).header = true
  tiled : Tiled aclMps img.ath3kFwData (log img σ).acked
  offset : σ.bt.fwOffset = (log img σ).offset
  submits : AtEach (Submits img) σ.trace

/-- The piece in work, and the loop variable n that goes with it. -/
def InWork (img : Firmware) (n : Option Int) (σ : Sys) : Prop :=
  σ.bt.acloBusy ≠ 0 → n = some (σ.bt.acloLen : Int) ∧ 0 < σ.bt.acloLen ∧
    σ.bt.acloLen = min aclMps (img.ath3kFwData.length - (log img σ).offset) ∧
    (σ.bt.acloState = 1 → (log img σ).current = tile aclMps img.ath3kFwData (log img σ).offset)

variable {img : Firmware} {σ : Sys}

theorem int32_natCast {n : Nat} (h : n < 2147483648) : int32 n = n := by
  rw [int32, Int.bmod_eq_of_le] <;> omega

theorem Loading.emit (h : Loading img σ) {e : Event} (hl : monitorStep img (log img σ) e = log img σ)
    (hs : Submits img σ.trace e) : Loading img (σ.emit e) := by
  have hlog : log img (σ.emit e) = log img σ := (log_emit img e σ).trans hl
  exact ⟨hlog ▸ h.header, hlog ▸ h.tiled, hlog ▸ h.offset, (atEach_concat _ _ _).mpr ⟨h.submits, hs⟩⟩

theorem Loading.write (h : Loading img σ) {f : BtState → BtState} (hf : (f σ.bt).fwOffset = σ.bt.fwOffset) :
    Loading img (σ.write f) :=
  ⟨h.header, h.tiled, hf.trans h.offset, h.submits⟩

theorem Loading.in_range (h : Loading img σ) : (log img σ).offset ≤ img.ath3kFwData.length := by
  rw [Log.offset, h.tiled.length_flatten]
  exact Nat.min_le_right _ _

theorem chunk_eq (h : Loading img σ) (hN : img.ath3kFwData.length < 2147483648) :
    chunk img σ.bt.fwOffset = ((min aclMps (img.ath3kFwData.length - (log img σ).offset) : Nat) : Int) := by
  have hr := h.in_range
  have hsub : (img.ath3kFwData.length : Int) - σ.bt.fwOffset =
      ((img.ath3kFwData.length - (log img σ).offset : Nat) : Int) := by
    rw [h.offset]
    omega
  simp only [chunk, hsub, int32_natCast (Nat.lt_of_le_of_lt (Nat.sub_le _ _) hN)]
  split <;> omega

theorem staged_loading (h : Loading img σ) (hN : img.ath3kFwData.length < 2147483648)
    (hn : 0 < chunk img σ.bt.fwOffset) :
    Loading img (staged img σ) ∧ InWork img (some (chunk img σ.bt.fwOffset)) (staged img σ) := by
  have h16 : uint16 ((min aclMps (img.ath3kFwData.length - (log img σ).offset) : Nat) : Int) =
      min aclMps (img.ath3kFwData.length - (log img σ).offset) :=
    uint16_natCast (Nat.lt_of_le_of_lt (Nat.min_le_left _ _) (by decide))
  rw [chunk_eq h hN] at hn
  rw [staged, chunk_eq h hN, h16]
  refine ⟨h.write rfl, fun _ => ⟨rfl, by exact_mod_cast hn, rfl, fun h1 => ?_⟩⟩
  exact absurd h1 (show ¬(0 : Int) = 1 by decide)

theorem InWork.emit {n : Option Int} (h : InWork img n σ) {e : Event}
    (hl : monitorStep img (log img σ) e = log img σ) : InWork img n (σ.emit e) := by
  rw [InWork, log_emit, hl]
  exact h

theorem InWork.restart {n : Option Int} (h : InWork img n σ) :
    InWork img n (σ.write ({ · with acloState := 0 })) := by
  intro hb
  obtain ⟨hn, hpos, hlen, -⟩ := h hb
  exact ⟨hn, hpos, hlen, fun h1 => absurd h1 (show ¬(0 : Int) = 1 by decide)⟩

theorem monitor_urbState (img : Firmware) (l : Log) (hcn : Nat) {urb : Urb} (hu : urb ≠ .done) :
    monitorStep img l (.urbState .aclo hcn urb) = l := by
  cases urb <;> first | rfl | contradiction

variable {n : Option Int}

theorem take_eq_tile (h : Loading img σ) (hb : σ.bt.acloBusy ≠ 0) (hw : InWork img n σ) :
    (img.ath3kFwData.drop σ.bt.fwOffset.toNat).take σ.bt.acloLen =
      tile aclMps img.ath3kFwData (log img σ).offset := by
  obtain ⟨-, -, hlen, -⟩ := hw hb
  have hoff : σ.bt.fwOffset.toNat = (log img σ).offset := by
    rw [h.offset]
    rfl
  rw [hlen, hoff, tile, ← List.length_drop, List.take_eq_take_min]
  rw [Nat.min_assoc, Nat.min_self]
  exact List.take_eq_take_min.symm

theorem submit_loading (h : Loading img σ) (hb : σ.bt.acloBusy ≠ 0) (hw : InWork img n σ) :
    Loading img (σ.emit (.bulkSend (tile aclMps img.ath3kFwData (log img σ).offset) σ.bt.acloLen σ.bt.acloHcn)) ∧
      InWork img n ((σ.emit (.bulkSend (tile aclMps img.ath3kFwData (log img σ).offset) σ.bt.acloLen
        σ.bt.acloHcn)).write ({ · with acloState := 1 })) := by
  obtain ⟨hn, hpos, hlen, -⟩ := hw hb
  have hlt : (log img σ).offset < img.ath3kFwData.length := by omega
  have hborder : (log img σ).offset % aclMps = 0 := by
    rw [Log.offset, h.tiled.offset hlt, Nat.mul_mod_right]
  have hlog := log_emit img (.bulkSend (tile aclMps img.ath3kFwData (log img σ).offset) σ.bt.acloLen σ.bt.acloHcn) σ
  constructor
  · refine ⟨by rw [hlog]; exact h.header, by rw [hlog]; exact h.tiled, by rw [hlog]; exact h.offset, ?_⟩
    refine (atEach_concat _ _ _).mpr ⟨h.submits, ?_⟩
    rintro data len hcn he
    obtain ⟨rfl, rfl, -⟩ := Event.bulkSend.inj he
    exact ⟨h.header, hborder, hpos, hlen, rfl⟩
  · rw [InWork, log_write, hlog]
    exact fun _ => ⟨hn, hpos, hlen, fun _ => rfl⟩

theorem done_loading (h : Loading img σ) (hb : σ.bt.acloBusy ≠ 0) (hw : InWork img n σ) (h1 : σ.bt.acloState = 1) :
    Loading img (((σ.emit (.urbState .aclo σ.bt.acloHcn .done)).write ({ · with acloState := 0, acloBusy := 0 })).write
      (fun bt => { bt with fwOffset := bt.fwOffset + (σ.bt.acloLen : Int) })) := by
  obtain ⟨-, hpos, hlen, hcur⟩ := hw hb
  have hlt : (log img σ).offset < img.ath3kFwData.length := by omega
  have hlog : log img (σ.emit (.urbState .aclo σ.bt.acloHcn .done)) =
      { log img σ with acked := (log img σ).acked ++ [tile aclMps img.ath3kFwData (log img σ).offset] } := by
    rw [log_emit, ← hcur h1]
    rfl
  refine ⟨?_, ?_, ?_, (atEach_concat _ _ _).mpr ⟨h.submits, by simp [Submits]⟩⟩
  · rw [log_write, log_write, hlog]
    exact h.header
  · rw [log_write, log_write, hlog]
    exact h.tiled.concat hlt
  · rw [log_write, log_write, hlog]
    change σ.bt.fwOffset + (σ.bt.acloLen : Int) = _
    simp only [Log.offset, List.flatten_append, List.flatten_singleton, List.length_append, length_tile]
    have hoff := h.offset
    simp only [Log.offset] at hoff hlen
    omega

theorem submitted_loading (h : Loading img σ) (hb : σ.bt.acloBusy ≠ 0) (hw : InWork img n σ) :
    Loading img (submitted img σ) ∧ InWork img n (submitted img σ) := by
  rw [submitted, take_eq_tile h hb hw]
  obtain ⟨hl, hi⟩ := submit_loading h hb hw
  exact ⟨hl.write rfl, hi⟩

theorem pass_loading (h : Loading img σ) (hN : img.ath3kFwData.length < 2147483648) (hw : InWork img n σ)
    (h2 : σ.bt.loadingFw = 2) {rd : FwReadings} {p : Pass} (hm : PassMove img rd n σ p) :
    (∃ σ', p = .leave σ' ∧ Loading img σ' ∧ σ'.bt.loadingFw = 3 ∧ img.ath3kFwData.length ≤ (log img σ').offset) ∨
      ∃ n' σ', p = .again n' σ' ∧ Loading img σ' ∧ InWork img n' σ' ∧ σ'.bt.loadingFw = 2 := by
  have hread (hu : rd.aclo.urb ≠ .done) : Loading img (acloRead rd.aclo σ) ∧ InWork img n (acloRead rd.aclo σ) :=
    ⟨h.emit (monitor_urbState _ _ _ hu) (by simp [Submits]), hw.emit (monitor_urbState _ _ _ hu)⟩
  have hclr (hu : rd.aclo.urb ≠ .done) : Loading img (cleared rd σ) ∧ InWork img n (cleared rd σ) :=
    ⟨(hread hu).1.emit rfl (by simp [Submits]), (hread hu).2.emit rfl⟩
  cases hm with
  | leave hb hn =>
      rw [chunk_eq h hN] at hn
      refine .inl ⟨_, rfl, h.write rfl, rfl, ?_⟩
      change img.ath3kFwData.length ≤ (log img σ).offset
      unfold aclMps at hn
      omega
  | stage hb hn =>
      obtain ⟨hl, hi⟩ := staged_loading h hN hn
      obtain ⟨hl', hi'⟩ := submitted_loading hl (show ¬(1 : Int) = 0 by decide) hi
      exact .inr ⟨_, _, rfl, hl', hi', h2⟩
  | submit hb h0 =>
      obtain ⟨hl, hi⟩ := submitted_loading h hb hw
      exact .inr ⟨_, _, rfl, hl, hi, h2⟩
  | done hb h1 hu =>
      obtain ⟨hn, -⟩ := hw hb
      have hl := done_loading h hb hw h1
      refine .inr ⟨_, _, rfl, ?_, fun hb' => absurd rfl hb', h2⟩
      rw [completed, acloRead, hu, hn]
      exact hl
  | clear hb h1 hu =>
      obtain ⟨hl, hi⟩ := hclr (hu.trans_ne (by decide))
      exact .inr ⟨_, _, rfl, hl.write rfl, hi.restart, h2⟩
  | stalled hb h1 hu =>
      obtain ⟨hl, hi⟩ := hclr (hu.trans_ne (by decide))
      exact .inr ⟨_, _, rfl, hl, hi, h2⟩
  | wait hb h1 hn =>
      obtain ⟨hl, hi⟩ := hread hn
      exact .inr ⟨_, _, rfl, hl, hi, h2⟩
  | lost => exact .inr ⟨_, _, rfl, h, hw, h2⟩

theorem fwLoop_inv (c : Client) (h : Loading img σ) (hN : img.ath3kFwData.length < 2147483648)
    (hw : InWork img n σ) (h2 : σ.bt.loadingFw = 2) (rds : List FwReadings) :
    Loading img (fwLoop ⟨some img, true⟩ img c rds n σ).sys ∧
      ((fwLoop ⟨some img, true⟩ img c rds n σ).sys.bt.loadingFw = 2 ∧
          (fwLoop ⟨some img, true⟩ img c rds n σ).returned = false ∨
        (fwLoop ⟨some img, true⟩ img c rds n σ).sys.bt.loadingFw = 3 ∧
          img.ath3kFwData.length ≤ (log img (fwLoop ⟨some img, true⟩ img c rds n σ).sys).offset) := by
  induction rds generalizing n σ with
  | nil => exact ⟨h, .inl ⟨h2, rfl⟩⟩
  | cons rd rds ih =>
      rcases pass_loading h hN hw h2 (pass_moves img c rd n σ) with ⟨σ', hp, hl, h3, hend⟩ | ⟨n', σ', hp, hl, hw', h2'⟩
      · simp only [fwLoop, hp]
        exact ⟨hl, .inr ⟨h3, hend⟩⟩
      · simp only [fwLoop, hp, if_true]
        exact ih hl hw' h2'

structure Header (img : Firmware) (σ : Sys) : Prop where
  first : σ.bt.loadingFw = 1
  free : σ.bt.acloBusy = 0
  start : σ.bt.fwOffset = 0
  nothing : (log img σ).acked = []
  staged : σ.bt.cmdState ≠ 0 → σ.bt.cmdLen = img.ath3kFwCmd.length ∧
    σ.bt.cmdPacket.read σ.bt.cmdLen = img.ath3kFwCmd ∧ (log img σ).setup = some (dfuSetup img.ath3kFwCmd.length)
  submits : AtEach (Submits img) σ.trace

def fwHeader (img : Firmware) (σ : Sys) : Sys :=
  if σ.bt.cmdState = 0 then
    (σ.emit (.setSetup (dfuSetup (uint16 img.ath3kFwCmd.length)))).write (fun bt => { bt with
      cmdLen := uint16 img.ath3kFwCmd.length
      cmdPacket := bt.cmdPacket.memcpy (img.ath3kFwCmd.take (uint16 img.ath3kFwCmd.length))
      cmdState := 1 })
  else σ

theorem fwHeader_inv (h : Header img σ) (hhdr : img.ath3kFwCmd.length ≤ cmdAlignedMaxSize) :
    Header img (fwHeader img σ) ∧ (fwHeader img σ).bt.cmdState ≠ 0 := by
  rw [fwHeader]
  by_cases h0 : σ.bt.cmdState = 0
  · have h16 : uint16 img.ath3kFwCmd.length = img.ath3kFwCmd.length :=
      uint16_natCast (Nat.lt_of_le_of_lt hhdr (by decide))
    rw [if_pos h0, h16, List.take_length]
    refine ⟨⟨h.first, h.free, h.start, ?_, fun _ => ⟨rfl, Buffer.read_memcpy _ _ hhdr, ?_⟩, ?_⟩, by simp⟩
    · rw [log_write, log_emit]
      exact h.nothing
    · rw [log_write, log_emit]
      rfl
    · exact (atEach_concat _ _ _).mpr ⟨h.submits, by simp [Submits]⟩
  · rw [if_neg h0]
    exact ⟨h, h0⟩

theorem header_ctlReq (h : Header img σ) {st : UsbhStatus} (data : List UInt8) (len : Nat) :
    Header img (σ.emit (.ctlReq data len st)) := by
  have hl : (monitorStep img (log img σ) (.ctlReq data len st)).acked = (log img σ).acked ∧
      (monitorStep img (log img σ) (.ctlReq data len st)).setup = (log img σ).setup := by
    cases st <;> exact ⟨rfl, rfl⟩
  refine ⟨h.first, h.free, h.start, ?_, ?_, (atEach_concat _ _ _).mpr ⟨h.submits, by simp [Submits]⟩⟩
  · rw [log_emit, hl.1]
    exact h.nothing
  · rw [log_emit, hl.2]
    exact h.staged

def fwRequest (img : Firmware) (st : UsbhStatus) (σ : Sys) : Sys :=
  (fwHeader img σ).emit (.ctlReq ((fwHeader img σ).bt.cmdPacket.read (fwHeader img σ).bt.cmdLen)
    (fwHeader img σ).bt.cmdLen st)

theorem fwSetup_eq (img : Firmware) (rd : CmdReadings) (σ : Sys) : fwSetup img rd σ =
    if rd.st = .ok then (fwRequest img rd.st σ).write ({ · with cmdState := 0, loadingFw := 2 })
    else if rd.st = .fail then (fwRequest img rd.st σ).write ({ · with cmdState := 0 })
    else fwRequest img rd.st σ := rfl

theorem fwSetup_inv (h : Header img σ) (hhdr : img.ath3kFwCmd.length ≤ cmdAlignedMaxSize) (rd : CmdReadings) :
    Header img (fwSetup img rd σ) ∨
      Loading img (fwSetup img rd σ) ∧ (fwSetup img rd σ).bt.loadingFw = 2 ∧ (fwSetup img rd σ).bt.acloBusy = 0 := by
  obtain ⟨h1, hne⟩ := fwHeader_inv h hhdr
  obtain ⟨hlen, hread, hsetup⟩ := h1.staged hne
  have h2 : Header img (fwRequest img rd.st σ) := header_ctlReq h1 _ _
  rw [fwSetup_eq]
  by_cases hok : rd.st = .ok
  · rw [if_pos hok]
    refine .inr ⟨⟨?_, ?_, ?_, h2.submits⟩, rfl, h2.free⟩
    · rw [log_write, fwRequest, log_emit, hok, hread, hlen]
      simp [monitorStep, hsetup]
    · rw [log_write, h2.nothing]
      exact tiled_nil _ _
    · rw [log_write, Log.offset, h2.nothing]
      exact h2.start
  rw [if_neg hok]
  by_cases hf : rd.st = .fail
  · rw [if_pos hf]
    exact .inl ⟨h2.first, h2.free, h2.start, h2.nothing, fun h0 => absurd rfl h0, h2.submits⟩
  · rw [if_neg hf]
    exact .inl h2

/-- The calls of USBH_BT_StMachine in a session, up to the first one that
has not come back. -/
def session (b : Build) (c : Client) : List PollReadings → Sys → Sys
  | [], σ => σ
  | rd :: rds, σ =>
      if (usbhBtStMachine b c rd σ).returned then session b c rds (usbhBtStMachine b c rd σ).sys
      else (usbhBtStMachine b c rd σ).sys

def Done (img : Firmware) (σ : Sys) : Prop :=
  Loading img σ ∧ σ.bt.loadingFw = 3 ∧ img.ath3kFwData.length ≤ (log img σ).offset

def Ready (img : Firmware) (σ : Sys) : Prop := Loading img σ ∧ σ.bt.loadingFw = 2 ∧ σ.bt.acloBusy = 0

theorem poll_inv (c : Client) (hhdr : img.ath3kFwCmd.length ≤ cmdAlignedMaxSize)
    (hN : img.ath3kFwData.length < 2147483648) (h : Header img σ ∨ Ready img σ ∨ Done img σ) (rd : PollReadings)
    {r : PollResult} (hr : r = usbhBtStMachine ⟨some img, true⟩ c rd σ) :
    (Header img r.sys ∨ Ready img r.sys ∨ Done img r.sys) ∨
      r.returned = false ∧ Loading img r.sys ∧ r.sys.bt.loadingFw = 2 := by
  subst hr
  rcases h with h | ⟨h, h2, hfree⟩ | ⟨h, h3, hend⟩
  · rw [usbhBtStMachine_header rfl c rd h.first]
    exact .inl ((fwSetup_inv h hhdr rd.cmd).imp_right .inl)
  · rw [usbhBtStMachine_loader rfl c rd h2]
    obtain ⟨hl, hcase⟩ := fwLoop_inv (n := none) c h hN (fun hb => absurd hfree hb) h2 rd.loop
    rcases hcase with ⟨h2', hret⟩ | ⟨h3, hend⟩
    · exact .inr ⟨hret, hl, h2'⟩
    · exact .inl (.inr (.inr ⟨hl, h3, hend⟩))
  · rw [usbhBtStMachine_loaded rfl c rd (h3.trans_ne (by decide)) (h3.trans_ne (by decide)) (h3.trans_ne (by decide))]
    exact .inl (.inr (.inr ⟨h, h3, hend⟩))

theorem session_inv (c : Client) (hhdr : img.ath3kFwCmd.length ≤ cmdAlignedMaxSize)
    (hN : img.ath3kFwData.length < 2147483648) (h : Header img σ ∨ Ready img σ ∨ Done img σ)
    (polls : List PollReadings) :
    Header img (session ⟨some img, true⟩ c polls σ) ∨ Done img (session ⟨some img, true⟩ c polls σ) ∨
      Loading img (session ⟨some img, true⟩ c polls σ) ∧ (session ⟨some img, true⟩ c polls σ).bt.loadingFw = 2 := by
  induction polls generalizing σ with
  | nil =>
      rcases h with h | ⟨h, h2, -⟩ | h
      · exact .inl h
      · exact .inr (.inr ⟨h, h2⟩)
      · exact .inr (.inl h)
  | cons rd rds ih =>
      rw [session]
      rcases poll_inv c hhdr hN h rd rfl with hnext | ⟨hret, hl, h2⟩
      · by_cases hret : (usbhBtStMachine ⟨some img, true⟩ c rd σ).returned = true
        · rw [if_pos hret]
          exact ih hnext
        · rw [if_neg hret]
          rcases hnext with h | ⟨h, h2, -⟩ | h
          · exact .inl h
          · exact .inr (.inr ⟨h, h2⟩)
          · exact .inr (.inl h)
      · rw [hret, if_neg (by decide)]
        exact .inr (.inr ⟨hl, h2⟩)

theorem started_header (img : Firmware) {dev : Device} (ch : Channels) (bt : BtState) (txBusy : Int)
    (hclass : dev.bInterfaceClass ≠ wirelessClass) (hvendor : dev.idVendor = atherosIdVendor)
    (hproduct : dev.idProduct = ar3011IdProduct) :
    Header img (started ⟨some img, true⟩ dev ch bt txBusy) := by
  rw [started_loader rfl ch bt txBusy hclass hvendor hproduct]
  have hlog : log img ⟨attachedBt ch { bt with loadingFw := 1, fwOffset := 0 }, txBusy,
      allocTrace ch ++ openAcloTrace dev ch⟩ = (monitor img).init := rfl
  refine ⟨rfl, rfl, rfl, by rw [hlog]; rfl, fun h0 => absurd rfl h0, ?_⟩
  intro past e future hs data len hcn he
  have hs' : allocTrace ch ++ openAcloTrace dev ch = past ++ e :: future := hs
  have hmem : e ∈ allocTrace ch ++ openAcloTrace dev ch := by
    rw [hs']
    simp
  simp [he, allocTrace, openAcloTrace] at hmem

/-- The image arrives exactly: in every state of a download, also inside the
loop of a call that has not come back, the acknowledged pieces are the first
fw_offset bytes of it, and in the end all of it. -/
theorem firmware_delivered (img : Firmware) (c : Client) (dev : Device) (ch : Channels) (bt : BtState)
    (txBusy : Int) (hclass : dev.bInterfaceClass ≠ wirelessClass) (hvendor : dev.idVendor = atherosIdVendor)
    (hproduct : dev.idProduct = ar3011IdProduct) (hhdr : img.ath3kFwCmd.length ≤ cmdAlignedMaxSize)
    (hN : img.ath3kFwData.length < 2147483648) (polls : List PollReadings) :
    let σ := session ⟨some img, true⟩ c polls (started ⟨some img, true⟩ dev ch bt txBusy)
    let acked := (log img σ).acked
    AtEach (Submits img) σ.trace ∧ σ.bt.fwOffset = acked.flatten.length ∧
      acked.flatten = img.ath3kFwData.take σ.bt.fwOffset.toNat ∧
      (σ.bt.loadingFw = 3 → acked.flatten = img.ath3kFwData ∧
        acked.length = (img.ath3kFwData.length + aclMps - 1) / aclMps ∧ σ.bt.fwOffset = img.ath3kFwData.length) := by
  intro σ acked
  have hloading (h : Loading img σ) : AtEach (Submits img) σ.trace ∧ σ.bt.fwOffset = acked.flatten.length ∧
      acked.flatten = img.ath3kFwData.take σ.bt.fwOffset.toNat := by
    have ht : acked.flatten = img.ath3kFwData.take acked.flatten.length := h.tiled.flatten_eq_take
    have ho : σ.bt.fwOffset = acked.flatten.length := h.offset
    exact ⟨h.submits, ho, by rw [ho, Int.toNat_natCast]; exact ht⟩
  have hstart := started_header img ch bt txBusy hclass hvendor hproduct
  rcases session_inv c hhdr hN (.inl hstart) polls with h | ⟨h, -, hend⟩ | ⟨h, h2⟩
  · have hnil : acked = [] := h.nothing
    have h0 : σ.bt.fwOffset = 0 := h.start
    refine ⟨h.submits, by rw [h0, hnil]; rfl, by rw [h0, hnil]; rfl, fun h3 => ?_⟩
    have h1 : σ.bt.loadingFw = 1 := h.first
    rw [h1] at h3
    contradiction
  · obtain ⟨hs, ho, ht⟩ := hloading h
    obtain ⟨hall, hcount⟩ := h.tiled.complete (by decide) hend
    refine ⟨hs, ho, ht, fun _ => ⟨hall, hcount, ?_⟩⟩
    rw [ho, show acked.flatten = img.ath3kFwData from hall]
  · obtain ⟨hs, ho, ht⟩ := hloading h
    have h2' : σ.bt.loadingFw = 2 := h2
    refine ⟨hs, ho, ht, fun h3 => ?_⟩
    rw [h2'] at h3
    contradiction

def ar3011 : Device :=
  { bInterfaceClass := 0xff, idVendor := atherosIdVendor, idProduct := ar3011IdProduct, address := 1, speed := 1 }

def smallImage : Firmware := { ath3kFwCmd := [0x01, 0x02, 0x03], ath3kFwData := List.replicate 100 0xab }

def loaderPoll (st : UsbhStatus) (loop : List Urb) : PollReadings where
  cmd := { st := st, calls := [] }
  evt := { frame := 0, urb := .idle, received := [], clr := .ok, calls := [] }
  aclo := { urb := .idle, clr := .ok, calls := [] }
  acli := { urb := .idle, received := [], clr := .ok, calls := [] }
  loop := loop.map fun urb => { aclo := { urb := urb, clr := .ok, calls := [] }, stale := 0 }

def loaderPolls : List PollReadings :=
  [loaderPoll .fail [], loaderPoll .ok [], loaderPoll .ok [.idle, .stall, .idle, .done, .idle, .done, .idle]]

theorem small_image_delivered :
    (log smallImage (session ⟨some smallImage, true⟩ dummyClient loaderPolls
      (started ⟨some smallImage, true⟩ ar3011 ⟨2, 3, 4⟩ .zero 0))).acked.flatten = List.replicate 100 0xab :=
  ((firmware_delivered smallImage dummyClient ar3011 ⟨2, 3, 4⟩ .zero 0 (by decide) rfl rfl (by decide) (by decide)
    loaderPolls).2.2.2 (by decide +kernel)).1

end Uubt.FirmwareLoading
