import Uubt.Reception
import Uubt.Tiles

namespace Uubt.Framing

open History HostLibrary Driver Transport Endpoints Clients ClassDriver Moves Frames Runs Channels Reception Tiles

/-- An HCI ACL packet: a handle with its flags, the length of the payload
with its low byte first, and the payload. -/
structure AclPacket where
  handle : UInt16
  payload : List UInt8
  fits : payload.length < 65536

def AclPacket.bytes (p : AclPacket) : List UInt8 :=
  [p.handle.toUInt8, (p.handle >>> 8).toUInt8, UInt8.ofNat (p.payload.length % 256),
    UInt8.ofNat (p.payload.length / 256)] ++ p.payload

theorem AclPacket.length_bytes (p : AclPacket) : p.bytes.length = p.payload.length + 4 := by
  simp [AclPacket.bytes]

/-- What the controller puts on the bulk-IN pipe for the packets. -/
def usbPackets (packets : List AclPacket) : List (List UInt8) :=
  (packets.map AclPacket.bytes).flatMap (segments aclMps)

/-- The host, and the USB packets that the controller has still to send. -/
structure Link where
  sys : Sys
  queue : List (List UInt8)

/-- A bulk-IN request that is done has brought one USB packet, the next one
in the queue. Everything else happens as it may. -/
def link (c : Client) (l : Link) : Move → Link
  | .hardware .acli .done _ =>
      match l.queue with
      | [] => l
      | packet :: rest =>
          if InFlight l.sys .acli packet then ⟨world c l.sys (.hardware .acli .done packet), rest⟩ else l
  | m => ⟨world c l.sys m, l.queue⟩

def Drained (l : Link) : Prop := l.queue = [] ∧ unread .acli l.sys = []

instance (l : Link) : Decidable (Drained l) := inferInstanceAs (Decidable (_ ∧ _))

def rxPacket : Event → Option (List UInt8 × Nat)
  | .rx .hciAclDataPacket data size => some (data, size)
  | _ => none

def handledPacket : Event → Option (List UInt8 × Nat)
  | .packetHandler .hciAclDataPacket data size => some (data, size)
  | _ => none

def received (t : Trace) : List (List UInt8 × Nat) := t.filterMap rxPacket

def handled (t : Trace) : List (List UInt8 × Nat) := t.filterMap handledPacket

variable {c : Client} {l : Link} {σ : Sys}

theorem received_eq_delivered (t : Trace) : ((monitor .acli).after t).delivered = received t := by
  induction t using List.reverseRecOn with
  | nil => rfl
  | append_singleton t e ih =>
      rw [Observer.after_concat, received, List.filterMap_append, ← received, ← ih]
      cases e with
      | rx type data size => cases type <;> simp [monitor, monitorStep, Ep.receives, rxPacket]
      | rxReturn type => cases type <;> simp [monitor, monitorStep, Ep.receives, rxPacket]
      | interruptReceive | bulkSend | bulkReceive => simp [monitor, monitorStep, rxPacket, Log.submitted]
      | transferStatus ep urb data =>
          simp only [monitor, monitorStep]
          split <;> simp [rxPacket, Log.reported]
      | clrFeature ep hcn st =>
          simp only [monitor, monitorStep]
          split <;> simp [rxPacket]
      | _ => simp [monitor, monitorStep, rxPacket]

/-- What the transport adds to the record: each packet that comes in goes
out to the packet handler. -/
def Passes (h h' : Trace) : Prop := ∃ new, h' = h ++ new ∧ handled new = received new

theorem Passes.refl (h : Trace) : Passes h h := ⟨[], by simp, rfl⟩

theorem Passes.trans {h h' h'' : Trace} (hp : Passes h h') (hp' : Passes h' h'') : Passes h h'' := by
  obtain ⟨new, rfl, hn⟩ := hp
  obtain ⟨new', rfl, hn'⟩ := hp'
  refine ⟨new ++ new', by simp, ?_⟩
  rw [handled, received, List.filterMap_append, List.filterMap_append]
  exact congrArg₂ (· ++ ·) hn hn'

theorem Passes.emit {h h' : Trace} (hp : Passes h h') {e : Event} (hr : rxPacket e = none)
    (hh : handledPacket e = none) : Passes h (h' ++ [e]) :=
  hp.trans ⟨[e], rfl, by simp [handled, received, hr, hh]⟩

theorem stackCall_passes (σ : Sys) (x : Call) : Passes σ.trace (stackCall σ x).trace := by
  cases x with
  | canSend type => exact (Passes.refl _).emit rfl rfl
  | send type packet =>
      obtain ⟨-, ht⟩ := h2SendPacket_reach type packet packet.length σ
      change Passes σ.trace ((h2SendPacket type packet packet.length σ).2.trace ++ _)
      rw [ht]
      exact (Passes.refl _).emit rfl rfl

theorem stackCalls_passes (σ : Sys) (calls : List Call) : Passes σ.trace (calls.foldl stackCall σ).trace :=
  run_preserves (I := fun τ => Passes σ.trace τ.trace) (fun τ x h => h.trans (stackCall_passes τ x)) (.refl _) calls

theorem rxHandler_passes (σ : Sys) (type : PacketType) (packet : List UInt8) (len : Nat) (calls : List Call) :
    Passes σ.trace (callRxHandler h2Client type packet len calls σ).trace := by
  have hpair : Passes σ.trace (σ.trace ++ [.rx type (packet.take (uint16 len)) (uint16 len),
      .packetHandler type (packet.take (uint16 len)) (uint16 len)]) :=
    ⟨_, rfl, by cases type <;> rfl⟩
  have hcalls := stackCalls_passes ((σ.emit (.rx type (packet.take (uint16 len)) (uint16 len))).emit
    (.packetHandler type (packet.take (uint16 len)) (uint16 len))) calls
  rw [emit_trace, emit_trace, List.append_assoc] at hcalls
  exact (hpair.trans hcalls).emit rfl rfl

theorem txEndHandler_passes (σ : Sys) (type : PacketType) (calls : List Call) :
    Passes σ.trace (callTxEndHandler h2Client type calls σ).trace :=
  (((Passes.refl _).emit rfl rfl).emit rfl rfl).trans
    (stackCalls_passes ((σ.emit (.txEnd type)).emit .packetSent) calls)

theorem own_silent {o : Owner} {hcn : Nat} {e : Event} (he : Own o hcn e) :
    rxPacket e = none ∧ handledPacket e = none := by
  cases e with
  | rx | packetHandler => exact he.elim
  | _ => exact ⟨rfl, rfl⟩

theorem passes_grows (o : Owner) (hcn : Nat) : Grows h2Client o hcn Passes where
  refl := .refl
  trans := .trans
  own h _ he := (Passes.refl h).emit (own_silent he).1 (own_silent he).2
  rxHandler type packet len calls σ := rxHandler_passes σ type packet len calls
  txEndHandler type calls σ := txEndHandler_passes σ type calls

theorem world_passes (σ : Sys) (m : Move) : Passes σ.trace (world h2Client σ m).trace := by
  cases m with
  | hardware ep urb data =>
      rw [world]
      split
      · exact (Passes.refl _).emit rfl rfl
      · exact .refl _
  | driver s =>
      cases s with
      | call x => exact stackCall_passes σ x
      | cmd rd => exact (passes_grows .cmd 0).cmd rd σ
      | evt rd => exact (passes_grows _ _).evt _
      | aclo rd => exact (passes_grows _ _).aclo none _
      | acli rd => exact (passes_grows _ _).acli _

theorem finished_turn {m : Move} {σ' : Sys} (ht : Turn .acli m σ σ')
    (hm : ∀ data, m ≠ .hardware .acli .done data) : (log .acli σ').finished = (log .acli σ).finished := by
  cases ht with
  | rest _ ht | arm _ _ ht | abandon _ _ _ _ _ _ ht | sent _ _ _ _ ht => rw [log_rest ht]
  | submit e past he _ _ ht ht' =>
      rw [log_concat ht ht', monitor_submit he]
      rfl
  | deliver type past past' hr _ _ _ ht hx ht' => rw [log_deliver hr ht hx ht']
  | clear hcn past _ _ _ ht ht' => rw [log_clear ht ht']
  | reported urb data hmv _ _ ht =>
      have hu : urb ≠ .done := by
        rintro rfl
        exact hm data hmv
      rw [log_reported ht, Log.reported, if_neg hu]

structure Carries (packets : List AclPacket) (l : Link) : Prop where
  books : (log .acli l.sys).finished ++ l.queue = usbPackets packets
  passes : handled l.sys.trace = received l.sys.trace
  world : ∃ moves bt txBusy, l.sys = run (world h2Client) (fresh bt txBusy) moves

theorem Carries.move {packets : List AclPacket} (h : Carries packets l) (m : Move) {queue : List (List UInt8)}
    (hb : (log .acli (Channels.world h2Client l.sys m)).finished ++ queue = usbPackets packets) :
    Carries packets ⟨Channels.world h2Client l.sys m, queue⟩ := by
  refine ⟨hb, ?_, ?_⟩
  · obtain ⟨new, ht, hn⟩ := world_passes l.sys m
    rw [ht, handled, received, List.filterMap_append, List.filterMap_append]
    exact congrArg₂ (· ++ ·) h.passes hn
  · obtain ⟨moves, bt, txBusy, hs⟩ := h.world
    exact ⟨moves ++ [m], bt, txBusy, by rw [run_append, ← hs]; rfl⟩

theorem link_other (c : Client) (l : Link) {m : Move} (hm : ∀ data, m ≠ .hardware .acli .done data) :
    link c l m = ⟨world c l.sys m, l.queue⟩ := by
  cases m with
  | driver s => rfl
  | hardware ep urb data =>
      cases ep <;> cases urb <;> first | rfl | exact absurd rfl (hm data)

theorem link_packet (c : Client) (data : List UInt8) {packet : List UInt8} {rest : List (List UInt8)}
    (hq : l.queue = packet :: rest) (hin : InFlight l.sys .acli packet) :
    link c l (.hardware .acli .done data) = ⟨world c l.sys (.hardware .acli .done packet), rest⟩ := by
  simp only [link, hq, if_pos hin]

theorem world_packet (c : Client) {packet : List UInt8} (hin : InFlight σ .acli packet) :
    world c σ (.hardware .acli .done packet) = σ.emit (.transferStatus .acli .done packet) := if_pos hin

theorem link_carries {packets : List AclPacket} (h : Carries packets l) (m : Move) :
    Carries packets (link h2Client l m) := by
  by_cases hm : ∃ data, m = .hardware .acli .done data
  · obtain ⟨data, rfl⟩ := hm
    cases hq : l.queue with
    | nil =>
        simp only [link, hq]
        exact h
    | cons packet rest =>
        by_cases hf : InFlight l.sys .acli packet
        · rw [link_packet _ _ hq hf]
          refine h.move _ ?_
          have hb := h.books
          rw [hq] at hb
          rw [world_packet _ hf, log_reported rfl, Log.reported, if_pos rfl, List.append_assoc]
          exact hb
        · simp only [link, hq, if_neg hf]
          exact h
  · have hm' : ∀ data, m ≠ .hardware .acli .done data := fun data he => hm ⟨data, he⟩
    rw [link_other _ _ hm']
    refine h.move m ?_
    rw [finished_turn (world_turn h2Client_polite .acli l.sys m) hm']
    exact h.books

theorem run_carries (packets : List AclPacket) (bt : BtState) (txBusy : Int) (moves : List Move) :
    Carries packets (run (link h2Client) ⟨fresh bt txBusy, usbPackets packets⟩ moves) :=
  run_preserves (I := Carries packets) (fun _ m h => link_carries h m) ⟨rfl, rfl, [], bt, txBusy, rfl⟩ moves

theorem sized_injective : Function.Injective sized := fun _ _ h => (Prod.mk.inj h).1

theorem Carries.drained {packets : List AclPacket} (h : Carries packets l) (hd : Drained l) :
    received l.sys.trace = (usbPackets packets).map sized ∧
      handled l.sys.trace = (usbPackets packets).map sized := by
  obtain ⟨moves, bt, txBusy, hs⟩ := h.world
  have hacli : Ep.acli ≠ .evt := by decide
  have hr : Received .acli l.sys := by
    rw [hs]
    exact received_run h2Client_polite (by decide) bt txBusy (along_keeps h2Client_polite hacli .done bt txBusy moves)
  have hb := h.books
  rw [hd.1, List.append_nil] at hb
  have hrx : received l.sys.trace = (usbPackets packets).map sized := by
    rw [← received_eq_delivered, ← hb]
    exact (hr.settled hd.2).symm
  exact ⟨hrx, h.passes.trans hrx⟩

theorem usbPackets_eq_iff (packets : List AclPacket) :
    (usbPackets packets).map sized = packets.map (fun p => sized p.bytes) ↔
      ∀ p ∈ packets, p.bytes.length < aclMps := by
  have hmap : packets.map (fun p => sized p.bytes) = (packets.map AclPacket.bytes).map sized := by
    rw [List.map_map]
    rfl
  rw [hmap, sized_injective.list_map.eq_iff, usbPackets, flatMap_segments_eq_self_iff (by decide)]
  exact List.forall_mem_map

/-- ACL packets come through one in each call, complete and in order,
exactly if all of them are shorter than a full USB packet: in every session
that has taken all that the controller had to send. -/
theorem acl_framing_iff (packets : List AclPacket) (bt : BtState) (txBusy : Int) (moves : List Move)
    (hd : Drained (run (link h2Client) ⟨fresh bt txBusy, usbPackets packets⟩ moves)) :
    let t := (run (link h2Client) ⟨fresh bt txBusy, usbPackets packets⟩ moves).sys.trace
    (received t = packets.map (fun p => sized p.bytes) ∧ handled t = packets.map (fun p => sized p.bytes)) ↔
      ∀ p ∈ packets, p.bytes.length < aclMps := by
  intro t
  obtain ⟨hr, hh⟩ : received t = _ ∧ handled t = _ := (run_carries packets bt txBusy moves).drained hd
  rw [hr, hh, and_self, usbPackets_eq_iff]

def acliPoll : Move := .driver (.acli { urb := .idle, received := [], clr := .ok, calls := [] })

def takeOne : List Move := [acliPoll, .hardware .acli .done [], acliPoll]

theorem acliPoll_submit (h0 : σ.bt.acliState = 0) :
    world h2Client σ acliPoll =
      (σ.emit (.bulkReceive aclAlignedMaxSize σ.bt.acliHcn)).write ({ · with acliState := 1 }) :=
  (AcliMove.submit (c := h2Client) h0).eq

theorem acliPoll_deliver (h1 : σ.bt.acliState = 1) (hu : (log .acli σ).urb = .done) :
    (world h2Client σ acliPoll).bt.acliState = 0 := by
  have hm : (usbBtAcliProcess h2Client
    { urb := (log .acli σ).urb, received := (log .acli σ).data, clr := .ok, calls := [] } σ).2 = _ :=
    (AcliMove.deliver h1 hu).eq
  change (usbBtAcliProcess h2Client _ σ).2.bt.acliState = 0
  rw [hm]
  rfl

theorem takeOne_takes {packet : List UInt8} {rest : List (List UInt8)} (hq : l.queue = packet :: rest)
    (hfit : packet.length ≤ aclMps) (h0 : l.sys.bt.acliState = 0) :
    (run (link h2Client) l takeOne).queue = rest ∧ (run (link h2Client) l takeOne).sys.bt.acliState = 0 := by
  let σ := (l.sys.emit (.bulkReceive aclAlignedMaxSize l.sys.bt.acliHcn)).write ({ · with acliState := 1 })
  have hlive : (log .acli σ).live = true := by
    have ht : σ.trace = l.sys.trace ++ [.bulkReceive aclAlignedMaxSize l.sys.bt.acliHcn] := rfl
    rw [log_concat (.refl _ _) ht, monitor_submit rfl]
    rfl
  have hpoll (l : Link) : link h2Client l acliPoll = ⟨world h2Client l.sys acliPoll, l.queue⟩ := rfl
  have hin : InFlight σ .acli packet := ⟨hlive, hfit⟩
  have hdone : (log .acli (σ.emit (.transferStatus .acli .done packet))).urb = .done := by
    rw [log_reported rfl]
    rfl
  have hrun : run (link h2Client) l takeOne =
      ⟨world h2Client (σ.emit (.transferStatus .acli .done packet)) acliPoll, rest⟩ := by
    simp only [takeOne, run_cons, run_nil]
    rw [hpoll l, acliPoll_submit h0, hq, link_packet _ _ rfl hin, world_packet _ hin]
    rfl
  rw [hrun]
  exact ⟨rfl, acliPoll_deliver rfl hdone⟩

/-- Every sequence of packets has a schedule that drains it. -/
theorem packets_drain (packets : List AclPacket) (bt : BtState) (txBusy : Int) (h0 : bt.acliState = 0) :
    ∃ moves, Drained (run (link h2Client) ⟨fresh bt txBusy, usbPackets packets⟩ moves) := by
  have hfit : ∀ packet ∈ usbPackets packets, packet.length ≤ aclMps := by
    intro packet hp
    obtain ⟨bytes, -, hmem⟩ := List.mem_flatMap.mp hp
    exact length_le_of_mem_segments (by decide) hmem
  generalize usbPackets packets = queue at hfit
  suffices h : ∀ l : Link, l.queue = queue → l.sys.bt.acliState = 0 →
      ∃ moves, Drained (run (link h2Client) l moves) from
    h ⟨fresh bt txBusy, queue⟩ rfl h0
  induction queue with
  | nil =>
      intro l hq h0
      exact ⟨[], hq, unread_of_phase (by simp [phase, aclPhase, h0])⟩
  | cons packet rest ih =>
      intro l hq h0
      obtain ⟨hp, hrest⟩ := List.forall_mem_cons.mp hfit
      obtain ⟨hq', h0'⟩ := takeOne_takes hq hp h0
      obtain ⟨moves, hd⟩ := ih hrest _ hq' h0'
      exact ⟨takeOne ++ moves, by rw [run_append]; exact hd⟩

def signalPacket : AclPacket :=
  { handle := 0x2001, payload := [0x04, 0x00, 0x01, 0x00, 0x01, 0x02, 0x00, 0x00], fits := by decide }

def longPacket : AclPacket := { handle := 0x2001, payload := List.replicate 59 0x55, fits := by decide }

/-- The second packet meets a stalled endpoint first. -/
def takeBoth : List Move := takeOne ++ [acliPoll, .hardware .acli .stall [], acliPoll] ++ takeOne

theorem both_drained :
    Drained (run (link h2Client) ⟨fresh .zero 0, usbPackets [signalPacket, longPacket]⟩ takeBoth) := by
  have hu : usbPackets [signalPacket, longPacket] = [signalPacket.bytes, longPacket.bytes] :=
    (flatMap_segments_eq_self_iff (by decide) _).mpr (by decide)
  rw [hu]
  decide +kernel

theorem short_packets_come_through :
    let t := (run (link h2Client) ⟨fresh .zero 0, usbPackets [signalPacket, longPacket]⟩ takeBoth).sys.trace
    received t = [sized signalPacket.bytes, sized longPacket.bytes] ∧
      handled t = [sized signalPacket.bytes, sized longPacket.bytes] :=
  (acl_framing_iff [signalPacket, longPacket] .zero 0 takeBoth both_drained).mpr (by decide)

/-- A payload of 60 bytes fills one USB packet, which is then closed by an
empty one. -/
def fullPacket : AclPacket := { handle := 0x2001, payload := List.replicate 60 0, fits := by decide }

theorem usbPackets_full : usbPackets [fullPacket] = [fullPacket.bytes, []] := by
  have hlen : fullPacket.bytes.length = 64 := by decide
  have hdrop : fullPacket.bytes.drop 64 = [] := by decide
  rw [usbPackets, List.map_singleton, List.flatMap_singleton, aclMps, segments_long (by decide) (by rw [hlen]),
    hdrop, segments_short (by decide), List.take_of_length_le (by rw [hlen])]

theorem full_packet_is_followed_by_another :
    Drained (run (link h2Client) ⟨fresh .zero 0, usbPackets [fullPacket]⟩ (takeOne ++ takeOne)) ∧
      received (run (link h2Client) ⟨fresh .zero 0, usbPackets [fullPacket]⟩ (takeOne ++ takeOne)).sys.trace ≠
        [sized fullPacket.bytes] := by
  rw [usbPackets_full]
  constructor <;> decide +kernel

end Uubt.Framing
