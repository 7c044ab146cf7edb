import Uubt.Framing
import Uubt.Records

namespace Uubt.AclStream

open HostLibrary Driver Transport Clients Runs Channels Reception Tiles Framing Records

/-- The packet at the start of a string of bytes, if it is there as a whole. -/
def nextAcl : List UInt8 → Option (AclPacket × List UInt8)
  | handle0 :: handle1 :: len0 :: len1 :: rest =>
      if h : len0.toNat + 256 * len1.toNat ≤ rest.length then
        some ({ handle := UInt16.ofNat (handle0.toNat + 256 * handle1.toNat)
                payload := rest.take (len0.toNat + 256 * len1.toNat)
                fits := by
                  rw [List.length_take, Nat.min_eq_left h]
                  have h0 := len0.toNat_lt
                  have h1 := len1.toNat_lt
                  omega },
          rest.drop (len0.toNat + 256 * len1.toNat))
      else none
  | _ => none

theorem handle_bytes (handle : UInt16) :
    UInt16.ofNat (handle.toUInt8.toNat + 256 * (handle >>> 8).toUInt8.toNat) = handle := by
  have hlt := handle.toNat_lt
  have hhigh : (handle >>> 8).toNat = handle.toNat / 256 := by
    rw [UInt16.toNat_shiftRight]
    exact Nat.shiftRight_eq_div_pow _ _
  rw [UInt16.toNat_toUInt8, UInt16.toNat_toUInt8, hhigh]
  apply UInt16.toNat_inj.mp
  rw [UInt16.toNat_ofNat']
  omega

theorem payload_length (p : AclPacket) :
    (UInt8.ofNat (p.payload.length % 256)).toNat + 256 * (UInt8.ofNat (p.payload.length / 256)).toNat =
      p.payload.length := by
  have hfits := p.fits
  rw [UInt8.toNat_ofNat', UInt8.toNat_ofNat']
  omega

theorem nextAcl_encode (p : AclPacket) (rest : List UInt8) : nextAcl (p.bytes ++ rest) = some (p, rest) := by
  have hlen := payload_length p
  simp only [AclPacket.bytes, List.cons_append, List.nil_append, nextAcl, hlen, handle_bytes]
  rw [dif_pos (by simp)]
  simp

theorem nextAcl_part (p : AclPacket) (s : List UInt8) (hs : s <+: p.bytes) (hlt : s.length < p.bytes.length) :
    nextAcl s = none := by
  obtain ⟨missing, hs⟩ := hs
  match s with
  | [] | [_] | [_, _] | [_, _, _] => rfl
  | handle0 :: handle1 :: len0 :: len1 :: rest =>
      have hlen := payload_length p
      rw [AclPacket.length_bytes, List.length_cons, List.length_cons, List.length_cons, List.length_cons] at hlt
      simp only [AclPacket.bytes, List.cons_append, List.nil_append, List.cons.injEq] at hs
      obtain ⟨-, -, rfl, rfl, -⟩ := hs
      rw [nextAcl]
      exact dif_neg (by rw [hlen]; omega)

theorem nextAcl_shorter {s : List UInt8} {p : AclPacket} {rest : List UInt8} (h : nextAcl s = some (p, rest)) :
    rest.length < s.length := by
  unfold nextAcl at h
  split at h
  · split at h
    · obtain ⟨-, rfl⟩ := Prod.mk.inj (Option.some.inj h)
      simp only [List.length_drop, List.length_cons]
      omega
    · contradiction
  · contradiction

def aclFormat : Format AclPacket UInt8 where
  encode := AclPacket.bytes
  next := nextAcl
  next_encode := nextAcl_encode
  next_part := nextAcl_part
  next_shorter := nextAcl_shorter

theorem flatten_usbPackets (packets : List AclPacket) :
    (usbPackets packets).flatten = packets.flatMap AclPacket.bytes := by
  induction packets with
  | nil => rfl
  | cons p packets ih =>
      rw [usbPackets, List.map_cons, List.flatMap_cons, List.flatten_append, ← usbPackets, ih,
        flatten_segments, List.flatMap_cons]

/-- The bytes that the stack's packet handler has got on the ACL channel. -/
def stream (t : Trace) : List UInt8 := ((handled t).map Prod.fst).flatten

theorem sized_fst (pieces : List (List UInt8)) : (pieces.map sized).map Prod.fst = pieces := by
  rw [List.map_map]
  exact List.map_id pieces

/-- What has come through is at every time the beginning of what the
controller has sent. -/
theorem stream_carried {packets : List AclPacket} {l : Link} (h : Carries packets l) :
    stream l.sys.trace <+: packets.flatMap AclPacket.bytes := by
  obtain ⟨moves, bt, txBusy, hs⟩ := h.world
  have hr : Received .acli l.sys := by
    rw [hs]
    exact received_run h2Client_polite (by decide) bt txBusy
      (along_keeps h2Client_polite (by decide) .done bt txBusy moves)
  have hpieces : (handled l.sys.trace).map Prod.fst <+: usbPackets packets := by
    rw [h.passes, ← received_eq_delivered]
    have hbooks := congrArg (List.map Prod.fst) hr.books
    rw [List.map_append, sized_fst, sized_fst] at hbooks
    refine List.IsPrefix.trans ⟨unread .acli l.sys, hbooks.symm⟩ ⟨l.queue, h.books⟩
  obtain ⟨rest, hrest⟩ := hpieces
  rw [stream, ← flatten_usbPackets, ← hrest, List.flatten_append]
  exact List.prefix_append _ _

/-- Packets of any size survive the transport as a stream of bytes, although
long ones reach the stack in pieces: at every time the first of them can be
read off what has come, and all of them when nothing is left to come. -/
theorem stream_reassembles (packets : List AclPacket) (bt : BtState) (txBusy : Int) (moves : List Move) :
    let l := run (link h2Client) ⟨fresh bt txBusy, usbPackets packets⟩ moves
    (aclFormat.parse (stream l.sys.trace)).1 <+: packets ∧
      (Drained l → aclFormat.parse (stream l.sys.trace) = (packets, [])) := by
  intro l
  have hl : Carries packets l := run_carries packets bt txBusy moves
  refine ⟨aclFormat.parse_initial (stream_carried hl), fun hd => ?_⟩
  have hstream : stream l.sys.trace = packets.flatMap AclPacket.bytes := by
    rw [stream, (hl.drained hd).2, sized_fst, flatten_usbPackets]
  rw [hstream]
  exact aclFormat.parse_flatMap packets

theorem full_packet_reassembles :
    aclFormat.parse (stream (run (link h2Client) ⟨fresh .zero 0, usbPackets [fullPacket]⟩
      (takeOne ++ takeOne)).sys.trace) = ([fullPacket], []) := by
  have hd : Drained (run (link h2Client) ⟨fresh .zero 0, usbPackets [fullPacket]⟩ (takeOne ++ takeOne)) := by
    rw [usbPackets_full]
    decide +kernel
  exact (stream_reassembles [fullPacket] .zero 0 (takeOne ++ takeOne)).2 hd

end Uubt.AclStream
