import Uubt.Endpoints

namespace Uubt.Moves

open HostLibrary Driver Endpoints

variable (c : Client)

def cmdStart (σ : Sys) : Sys :=
  if σ.bt.cmdState = 0 then (σ.emit (.setSetup (cmdSetup σ.bt.cmdLen))).write ({ · with cmdState := 1 }) else σ

def cmdRequest (st : UsbhStatus) (σ : Sys) : Sys :=
  (cmdStart σ).emit (.ctlReq (σ.bt.cmdPacket.read σ.bt.cmdLen) σ.bt.cmdLen st)

def cmdDone (σ : Sys) : Sys := σ.write ({ · with cmdState := 0, cmdBusy := 0 })

theorem cmdStart_bt (σ : Sys) : ∃ st, (cmdStart σ).bt = { σ.bt with cmdState := st } := by
  rw [cmdStart]
  split
  · exact ⟨1, rfl⟩
  · exact ⟨σ.bt.cmdState, rfl⟩

theorem cmdStart_txBusy (σ : Sys) : (cmdStart σ).txBusy = σ.txBusy := by
  rw [cmdStart]
  split <;> rfl

theorem cmdRequest_eq (st : UsbhStatus) (σ : Sys) : cmdRequest st σ = (cmdStart σ).emit
    (.ctlReq ((cmdStart σ).bt.cmdPacket.read (cmdStart σ).bt.cmdLen) (cmdStart σ).bt.cmdLen st) := by
  obtain ⟨cmdState, hbt⟩ := cmdStart_bt σ
  rw [cmdRequest, hbt]

theorem cmdRequest_fields (st : UsbhStatus) (σ : Sys) : (cmdRequest st σ).txBusy = σ.txBusy ∧
    (cmdRequest st σ).bt.cmdBusy = σ.bt.cmdBusy ∧ (cmdRequest st σ).bt.acloBusy = σ.bt.acloBusy := by
  unfold cmdRequest cmdStart
  split <;> exact ⟨rfl, rfl, rfl⟩

theorem cmd_eq (rd : CmdReadings) (σ : Sys) : (usbBtCmdProcess c rd σ).2 =
    if σ.bt.cmdBusy = 0 then σ
    else if rd.st = .ok then cmdDone (callTxEndHandler c .hciCommandDataPacket rd.calls (cmdRequest rd.st σ))
    else if rd.st = .fail then cmdDone (cmdRequest rd.st σ)
    else cmdRequest rd.st σ := by
  have hreq := (cmdRequest_eq rd.st σ).symm
  unfold cmdStart at hreq
  simp only [usbBtCmdProcess, hreq]
  split_ifs <;> rfl

/-- All that one call of usb_bt_cmd_process can do. -/
inductive CmdMove (rd : CmdReadings) (σ : Sys) : Sys → Prop
  | idle (hb : σ.bt.cmdBusy = 0) : CmdMove rd σ σ
  | sent (hb : σ.bt.cmdBusy ≠ 0) (hs : rd.st = .ok) :
      CmdMove rd σ (cmdDone (callTxEndHandler c .hciCommandDataPacket rd.calls (cmdRequest .ok σ)))
  | failed (hb : σ.bt.cmdBusy ≠ 0) (hs : rd.st = .fail) : CmdMove rd σ (cmdDone (cmdRequest .fail σ))
  | waiting (hb : σ.bt.cmdBusy ≠ 0) (ho : rd.st ≠ .ok) (hf : rd.st ≠ .fail) :
      CmdMove rd σ (cmdRequest rd.st σ)

theorem cmd_moves (rd : CmdReadings) (σ : Sys) : CmdMove c rd σ (usbBtCmdProcess c rd σ).2 := by
  rw [cmd_eq]
  split_ifs with hb ho hf
  · exact .idle hb
  · rw [ho]
    exact .sent hb ho
  · rw [hf]
    exact .failed hb hf
  · exact .waiting hb ho hf

def due (rd : EvtReadings) (σ : Sys) : Prop := fnDiff (uint16 rd.frame) σ.bt.evtTmo < frnumPeriod / 2

instance (rd : EvtReadings) (σ : Sys) : Decidable (due rd σ) :=
  inferInstanceAs (Decidable (fnDiff (uint16 rd.frame) σ.bt.evtTmo < frnumPeriod / 2))

def evtRead (rd : EvtReadings) (σ : Sys) : Sys :=
  (σ.emit (.currentFrame rd.frame)).emit (.urbState .evt σ.bt.evtHcn rd.urb)

/-- All that one call of usb_bt_evt_process can do. -/
inductive EvtMove (rd : EvtReadings) (σ : Sys) : Sys → Prop
  | submit (h0 : σ.bt.evtState = 0) : EvtMove rd σ
      (((σ.emit (.currentFrame rd.frame)).emit (.interruptReceive evtAlignedMaxSize σ.bt.evtHcn)).write
        ({ · with evtTmo := (2 + uint16 rd.frame) % frnumPeriod, evtState := 1 }))
  | expire (h1 : σ.bt.evtState = 1) (hd : due rd σ) :
      EvtMove rd σ ((σ.emit (.currentFrame rd.frame)).write ({ · with evtState := 0 }))
  | deliver (h1 : σ.bt.evtState = 1) (hd : ¬due rd σ) (hu : rd.urb = .done) : EvtMove rd σ
      ((callRxHandler c .hciEventPacket rd.received rd.received.length rd.calls (evtRead rd σ)).write
        ({ · with evtState := 2 }))
  | clear (h1 : σ.bt.evtState = 1) (hd : ¬due rd σ) (hu : rd.urb = .stall) (hc : rd.clr = .ok) :
      EvtMove rd σ
        (((evtRead rd σ).emit (.clrFeature .evt σ.bt.evtHcn rd.clr)).write ({ · with evtState := 0 }))
  | stalled (h1 : σ.bt.evtState = 1) (hd : ¬due rd σ) (hu : rd.urb = .stall) (hc : rd.clr ≠ .ok) :
      EvtMove rd σ ((evtRead rd σ).emit (.clrFeature .evt σ.bt.evtHcn rd.clr))
  | wait (h1 : σ.bt.evtState = 1) (hd : ¬due rd σ) (hn : rd.urb ≠ .done) (hs : rd.urb ≠ .stall) :
      EvtMove rd σ (evtRead rd σ)
  | rearm (h2 : σ.bt.evtState = 2) (hd : due rd σ) :
      EvtMove rd σ ((σ.emit (.currentFrame rd.frame)).write ({ · with evtState := 0 }))
  | rest (h2 : σ.bt.evtState = 2) (hd : ¬due rd σ) : EvtMove rd σ (σ.emit (.currentFrame rd.frame))
  | lost (h0 : σ.bt.evtState ≠ 0) (h1 : σ.bt.evtState ≠ 1) (h2 : σ.bt.evtState ≠ 2) :
      EvtMove rd σ (σ.emit (.currentFrame rd.frame))

variable {c} in
theorem EvtMove.eq {rd : EvtReadings} {σ σ' : Sys} (h : EvtMove c rd σ σ') : (usbBtEvtProcess c rd σ).2 = σ' := by
  cases h with
  | submit h0 => simp only [usbBtEvtProcess, emit_bt, h0, ↓reduceIte]
  | expire h1 hd =>
      have hd' : fnDiff (uint16 rd.frame) σ.bt.evtTmo < frnumPeriod / 2 := hd
      simp only [usbBtEvtProcess, emit_bt, h1, hd', ↓reduceIte, Int.reduceEq]
  | deliver h1 hd hu =>
      have hd' : ¬fnDiff (uint16 rd.frame) σ.bt.evtTmo < frnumPeriod / 2 := hd
      simp only [usbBtEvtProcess, emit_bt, h1, hd', hu, evtRead, ↓reduceIte, Int.reduceEq]
  | clear h1 hd hu hk =>
      have hd' : ¬fnDiff (uint16 rd.frame) σ.bt.evtTmo < frnumPeriod / 2 := hd
      simp only [usbBtEvtProcess, emit_bt, h1, hd', hu, hk, evtRead, ↓reduceIte, Int.reduceEq]
  | stalled h1 hd hu hk =>
      have hd' : ¬fnDiff (uint16 rd.frame) σ.bt.evtTmo < frnumPeriod / 2 := hd
      simp only [usbBtEvtProcess, emit_bt, h1, hd', hu, hk, evtRead, ↓reduceIte, Int.reduceEq]
  | wait h1 hd hn hs =>
      have hd' : ¬fnDiff (uint16 rd.frame) σ.bt.evtTmo < frnumPeriod / 2 := hd
      simp only [usbBtEvtProcess, emit_bt, h1, hd', evtRead, ↓reduceIte, Int.reduceEq]
  | rearm h2 hd =>
      have hd' : fnDiff (uint16 rd.frame) σ.bt.evtTmo < frnumPeriod / 2 := hd
      simp only [usbBtEvtProcess, emit_bt, h2, hd', ↓reduceIte, Int.reduceEq]
  | rest h2 hd =>
      have hd' : ¬fnDiff (uint16 rd.frame) σ.bt.evtTmo < frnumPeriod / 2 := hd
      simp only [usbBtEvtProcess, emit_bt, h2, hd', ↓reduceIte, Int.reduceEq]
  | lost h0 h1 h2 => simp only [usbBtEvtProcess, emit_bt, h0, h1, h2, ↓reduceIte]

theorem evt_moves (rd : EvtReadings) (σ : Sys) : EvtMove c rd σ (usbBtEvtProcess c rd σ).2 := by
  suffices h : ∃ σ', EvtMove c rd σ σ' by
    obtain ⟨σ', h⟩ := h
    exact h.eq ▸ h
  by_cases h0 : σ.bt.evtState = 0
  · exact ⟨_, .submit h0⟩
  by_cases h1 : σ.bt.evtState = 1
  · by_cases hd : due rd σ
    · exact ⟨_, .expire h1 hd⟩
    by_cases hu : rd.urb = .done
    · exact ⟨_, .deliver h1 hd hu⟩
    by_cases hs : rd.urb = .stall
    · by_cases hk : rd.clr = .ok
      · exact ⟨_, .clear h1 hd hs hk⟩
      · exact ⟨_, .stalled h1 hd hs hk⟩
    · exact ⟨_, .wait h1 hd hu hs⟩
  by_cases h2 : σ.bt.evtState = 2
  · by_cases hd : due rd σ
    · exact ⟨_, .rearm h2 hd⟩
    · exact ⟨_, .rest h2 hd⟩
  · exact ⟨_, .lost h0 h1 h2⟩

def acloData (buf : Option (List UInt8)) (σ : Sys) : List UInt8 :=
  match buf with
  | some buf => buf.take σ.bt.acloLen
  | none => σ.bt.acloPacket.read σ.bt.acloLen

def acloRead (rd : AcloReadings) (σ : Sys) : Sys := σ.emit (.urbState .aclo σ.bt.acloHcn rd.urb)

def acloNotify (buf : Option (List UInt8)) (rd : AcloReadings) (σ : Sys) : Sys :=
  match buf with
  | some _ => σ
  | none => callTxEndHandler c .hciAclDataPacket rd.calls σ

/-- All that one call of usb_bt_aclo_process can do. -/
inductive AcloMove (buf : Option (List UInt8)) (rd : AcloReadings) (σ : Sys) : Sys → Prop
  | idle (hb : σ.bt.acloBusy = 0) : AcloMove buf rd σ σ
  | submit (hb : σ.bt.acloBusy ≠ 0) (h0 : σ.bt.acloState = 0) : AcloMove buf rd σ
      ((σ.emit (.bulkSend (acloData buf σ) σ.bt.acloLen σ.bt.acloHcn)).write ({ · with acloState := 1 }))
  | done (hb : σ.bt.acloBusy ≠ 0) (h1 : σ.bt.acloState = 1) (hu : rd.urb = .done) : AcloMove buf rd σ
      ((acloNotify c buf rd (acloRead rd σ)).write ({ · with acloState := 0, acloBusy := 0 }))
  | clear (hb : σ.bt.acloBusy ≠ 0) (h1 : σ.bt.acloState = 1) (hu : rd.urb = .stall) (hc : rd.clr = .ok) :
      AcloMove buf rd σ
        (((acloRead rd σ).emit (.clrFeature .aclo σ.bt.acloHcn rd.clr)).write ({ · with acloState := 0 }))
  | stalled (hb : σ.bt.acloBusy ≠ 0) (h1 : σ.bt.acloState = 1) (hu : rd.urb = .stall) (hc : rd.clr ≠ .ok) :
      AcloMove buf rd σ ((acloRead rd σ).emit (.clrFeature .aclo σ.bt.acloHcn rd.clr))
  | wait (hb : σ.bt.acloBusy ≠ 0) (h1 : σ.bt.acloState = 1) (hn : rd.urb ≠ .done) (hs : rd.urb ≠ .stall) :
      AcloMove buf rd σ (acloRead rd σ)
  | lost (hb : σ.bt.acloBusy ≠ 0) (h0 : σ.bt.acloState ≠ 0) (h1 : σ.bt.acloState ≠ 1) : AcloMove buf rd σ σ

variable {c} in
theorem AcloMove.eq {buf : Option (List UInt8)} {rd : AcloReadings} {σ σ' : Sys} (h : AcloMove c buf rd σ σ') :
    (usbBtAcloProcess c buf rd σ).2 = σ' := by
  cases h with
  | idle hb => simp only [usbBtAcloProcess, hb, ↓reduceIte]
  | submit hb h0 =>
      simp only [usbBtAcloProcess, hb, h0, ↓reduceIte]
      cases buf <;> rfl
  | done hb h1 hu =>
      simp only [usbBtAcloProcess, hb, h1, hu, acloRead, ↓reduceIte, Int.reduceEq]
      cases buf <;> rfl
  | clear hb h1 hu hk =>
      simp only [usbBtAcloProcess, emit_bt, hb, h1, hu, hk, acloRead, ↓reduceIte, Int.reduceEq]
  | stalled hb h1 hu hk =>
      simp only [usbBtAcloProcess, emit_bt, hb, h1, hu, hk, acloRead, ↓reduceIte, Int.reduceEq]
  | wait hb h1 hn hs =>
      simp only [usbBtAcloProcess, hb, h1, acloRead, ↓reduceIte, Int.reduceEq]
  | lost hb h0 h1 => simp only [usbBtAcloProcess, hb, h0, h1, ↓reduceIte]

theorem aclo_moves (buf : Option (List UInt8)) (rd : AcloReadings) (σ : Sys) :
    AcloMove c buf rd σ (usbBtAcloProcess c buf rd σ).2 := by
  suffices h : ∃ σ', AcloMove c buf rd σ σ' by
    obtain ⟨σ', h⟩ := h
    exact h.eq ▸ h
  by_cases hb : σ.bt.acloBusy = 0
  · exact ⟨_, .idle hb⟩
  by_cases h0 : σ.bt.acloState = 0
  · exact ⟨_, .submit hb h0⟩
  by_cases h1 : σ.bt.acloState = 1
  · by_cases hu : rd.urb = .done
    · exact ⟨_, .done hb h1 hu⟩
    by_cases hs : rd.urb = .stall
    · by_cases hk : rd.clr = .ok
      · exact ⟨_, .clear hb h1 hs hk⟩
      · exact ⟨_, .stalled hb h1 hs hk⟩
    · exact ⟨_, .wait hb h1 hu hs⟩
  · exact ⟨_, .lost hb h0 h1⟩

def acliRead (rd : AcliReadings) (σ : Sys) : Sys := σ.emit (.urbState .acli σ.bt.acliHcn rd.urb)

/-- All that one call of usb_bt_acli_process can do. -/
inductive AcliMove (rd : AcliReadings) (σ : Sys) : Sys → Prop
  | submit (h0 : σ.bt.acliState = 0) : AcliMove rd σ
      ((σ.emit (.bulkReceive aclAlignedMaxSize σ.bt.acliHcn)).write ({ · with acliState := 1 }))
  | deliver (h1 : σ.bt.acliState = 1) (hu : rd.urb = .done) : AcliMove rd σ
      ((callRxHandler c .hciAclDataPacket rd.received rd.received.length rd.calls (acliRead rd σ)).write
        ({ · with acliState := 0 }))
  | clear (h1 : σ.bt.acliState = 1) (hu : rd.urb = .stall) (hc : rd.clr = .ok) : AcliMove rd σ
      (((acliRead rd σ).emit (.clrFeature .acli σ.bt.acliHcn rd.clr)).write ({ · with acliState := 0 }))
  | stalled (h1 : σ.bt.acliState = 1) (hu : rd.urb = .stall) (hc : rd.clr ≠ .ok) :
      AcliMove rd σ ((acliRead rd σ).emit (.clrFeature .acli σ.bt.acliHcn rd.clr))
  | wait (h1 : σ.bt.acliState = 1) (hn : rd.urb ≠ .done) (hs : rd.urb ≠ .stall) :
      AcliMove rd σ (acliRead rd σ)
  | lost (h0 : σ.bt.acliState ≠ 0) (h1 : σ.bt.acliState ≠ 1) : AcliMove rd σ σ

variable {c} in
theorem AcliMove.eq {rd : AcliReadings} {σ σ' : Sys} (h : AcliMove c rd σ σ') : (usbBtAcliProcess c rd σ).2 = σ' := by
  cases h with
  | submit h0 => simp only [usbBtAcliProcess, h0, ↓reduceIte]
  | deliver h1 hu => simp only [usbBtAcliProcess, h1, hu, acliRead, ↓reduceIte, Int.reduceEq]
  | clear h1 hu hk => simp only [usbBtAcliProcess, emit_bt, h1, hu, hk, acliRead, ↓reduceIte, Int.reduceEq]
  | stalled h1 hu hk => simp only [usbBtAcliProcess, emit_bt, h1, hu, hk, acliRead, ↓reduceIte, Int.reduceEq]
  | wait h1 hn hs =>
      simp only [usbBtAcliProcess, h1, acliRead, ↓reduceIte, Int.reduceEq]
  | lost h0 h1 => simp only [usbBtAcliProcess, h0, h1, ↓reduceIte]

theorem acli_moves (rd : AcliReadings) (σ : Sys) : AcliMove c rd σ (usbBtAcliProcess c rd σ).2 := by
  suffices h : ∃ σ', AcliMove c rd σ σ' by
    obtain ⟨σ', h⟩ := h
    exact h.eq ▸ h
  by_cases h0 : σ.bt.acliState = 0
  · exact ⟨_, .submit h0⟩
  by_cases h1 : σ.bt.acliState = 1
  · by_cases hu : rd.urb = .done
    · exact ⟨_, .deliver h1 hu⟩
    by_cases hs : rd.urb = .stall
    · by_cases hk : rd.clr = .ok
      · exact ⟨_, .clear h1 hs hk⟩
      · exact ⟨_, .stalled h1 hs hk⟩
    · exact ⟨_, .wait h1 hu hs⟩
  · exact ⟨_, .lost h0 h1⟩

end Uubt.Moves
