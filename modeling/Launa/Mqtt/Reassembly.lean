import Launa.Lib.Mealy
import Launa.Mqtt.Packet

/-!
# Packets out of a stream

The bytes of the broker arrive in reads that cut the packets anywhere. Each read is appended to the
receive buffer, and `try_extract_packet` is called until it finds no packet (`receive`). Then the
buffer is a proper prefix of the packet that is on its way, and this carries the run
(`receive_run`): the packets come out as they were sent, and the prefix of the next one stays
(`receive_packets`).
-/

namespace Launa.Mqtt

open Varint

/-- A well-formed packet: a first byte, a remaining length of at most four bytes, and a body that
is as long as it says. -/
def IsPacket (packet : List UInt8) : Prop :=
  ∃ kind field body, packet = kind :: (field ++ body) ∧ IsField field ∧ field.length ≤ 4 ∧
    body.length = fieldValue field

/-- A packet that has not arrived as a whole. -/
def IsPartial (buffer : List UInt8) : Prop :=
  ∃ packet, IsPacket packet ∧ buffer <+: packet ∧ buffer ≠ packet

/-! ## One call -/

/-- What an extracted packet leaves in the buffer is shorter. -/
theorem tryExtractPacket_length_lt {buffer packet rest : List UInt8}
    (h : tryExtractPacket buffer = (some packet, rest)) : rest.length < buffer.length := by
  unfold tryExtractPacket at h
  split at h
  · exact absurd (congrArg Prod.fst h) (Option.some_ne_none _).symm
  · rename_i hlen
    split at h
    · exact absurd (congrArg Prod.fst h) (Option.some_ne_none _).symm
    · rename_i remainingLen headerSize hdec
      obtain ⟨kind, field, tail, rfl, hfield, -, -, rfl⟩ := decodeRemainingLength_eq_some.1 hdec
      dsimp only at h
      split at h
      · obtain ⟨-, rfl⟩ := Prod.mk.inj h
        rw [List.length_drop]
        omega
      · exact absurd (congrArg Prod.fst h) (Option.some_ne_none _).symm

/-- A whole packet at the front of the buffer is extracted. -/
theorem tryExtractPacket_append {packet : List UInt8} (h : IsPacket packet)
    (rest : List UInt8) : tryExtractPacket (packet ++ rest) = (some packet, rest) := by
  obtain ⟨kind, field, body, rfl, hfield, hle, hbody⟩ := h
  have hpos := hfield.length_pos
  have hdec : decodeRemainingLength (kind :: (field ++ body) ++ rest) =
      some (fieldValue field, 1 + field.length) :=
    decodeRemainingLength_eq_some.2
      ⟨kind, field, body ++ rest, by simp, hfield, by omega, rfl, rfl⟩
  have htotal : 1 + field.length + fieldValue field = (kind :: (field ++ body)).length := by
    simp only [List.length_cons, List.length_append, hbody]
    omega
  have hlength : (kind :: (field ++ body) ++ rest).length =
      1 + field.length + body.length + rest.length := by
    rw [List.length_append, List.length_cons, List.length_append]
    omega
  rw [tryExtractPacket, if_neg (by omega), hdec]
  dsimp only
  rw [htotal, if_pos (by omega), List.take_left, List.drop_left]

/-- A packet that has not arrived as a whole stays in the buffer. -/
theorem tryExtractPacket_of_isPartial {buffer : List UInt8} (h : IsPartial buffer) :
    tryExtractPacket buffer = (none, buffer) := by
  obtain ⟨packet, ⟨kind, field, body, rfl, hfield, hle, hbody⟩, hpre, hne⟩ := h
  rw [tryExtractPacket]
  split
  · rfl
  · cases hdec : decodeRemainingLength buffer with
    | none => rfl
    | some header =>
      obtain ⟨value, size⟩ := header
      obtain ⟨kind', field', rest, rfl, hfield', -, rfl, rfl⟩ :=
        decodeRemainingLength_eq_some.1 hdec
      -- The field that was read is the packet's, so the length is that of the packet.
      obtain ⟨tail, hbytes⟩ := hpre
      rw [List.cons_append, List.append_assoc] at hbytes
      obtain ⟨rfl, hfields⟩ := List.cons.inj hbytes
      obtain ⟨rfl, rfl⟩ := hfield'.eq_of_append_eq hfield hfields
      have htail : tail ≠ [] := by
        rintro rfl
        exact hne (by simp)
      have hpos := List.length_pos_of_ne_nil htail
      rw [List.length_append] at hbody
      refine if_neg ?_
      simp only [List.length_cons, List.length_append]
      omega

/-! ## Calls until there is no packet -/

/-- `try_extract_packet`, called until it returns no packet. -/
def extractPackets (buffer : List UInt8) : List (List UInt8) × List UInt8 :=
  match _h : tryExtractPacket buffer with
  | (none, buffer') => ([], buffer')
  | (some packet, buffer') =>
    let (packets, rest) := extractPackets buffer'
    (packet :: packets, rest)
termination_by buffer.length
decreasing_by exact tryExtractPacket_length_lt (by assumption)

/-- A read is appended to the buffer, and the packets in it are extracted. -/
def receive (buffer read : List UInt8) : List (List UInt8) × List UInt8 :=
  extractPackets (buffer ++ read)

/-- Without a whole packet nothing is extracted. -/
theorem extractPackets_of_none {buffer rest : List UInt8}
    (h : tryExtractPacket buffer = (none, rest)) : extractPackets buffer = ([], rest) := by
  rw [extractPackets]
  split
  · rename_i h'
    rw [h] at h'
    rw [(Prod.mk.inj h').2]
  · rename_i h'
    rw [h] at h'
    exact absurd (congrArg Prod.fst h') (Option.some_ne_none _).symm

/-- A whole packet is extracted before those behind it. -/
theorem extractPackets_of_some {buffer packet rest : List UInt8}
    (h : tryExtractPacket buffer = (some packet, rest)) :
    extractPackets buffer = (packet :: (extractPackets rest).1, (extractPackets rest).2) := by
  rw [extractPackets]
  split
  · rename_i h'
    rw [h] at h'
    exact absurd (congrArg Prod.fst h') (Option.some_ne_none _)
  · rename_i h'
    rw [h] at h'
    obtain ⟨hpacket, rfl⟩ := Prod.mk.inj h'
    rw [Option.some.inj hpacket]

/-- Out of the first bytes of a stream come its first packets, and what stays is the first bytes of
the rest, which has no packet that is whole. -/
theorem extractPackets_stream {packets : List (List UInt8)} {tail : List UInt8}
    (hpackets : ∀ packet ∈ packets, IsPacket packet) (htail : IsPartial tail)
    {buffer more : List UInt8} (h : buffer ++ more = packets.flatten ++ tail) :
    ∃ sent left, packets = sent ++ left ∧ (extractPackets buffer).1 = sent ∧
      (extractPackets buffer).2 ++ more = left.flatten ++ tail ∧
      tryExtractPacket (extractPackets buffer).2 = (none, (extractPackets buffer).2) := by
  induction packets generalizing buffer with
  | nil =>
    -- The buffer is a prefix of the partial packet.
    have hnone : tryExtractPacket buffer = (none, buffer) := by
      obtain ⟨packet, hpacket, hpre, hne⟩ := htail
      have hbuffer : buffer <+: tail := ⟨more, h⟩
      refine tryExtractPacket_of_isPartial ⟨packet, hpacket, hbuffer.trans hpre, ?_⟩
      rintro rfl
      exact hne (hpre.eq_of_length_le hbuffer.length_le)
    rw [extractPackets_of_none hnone]
    exact ⟨[], [], rfl, rfl, h, hnone⟩
  | cons packet packets ih =>
    have hpacket := hpackets packet List.mem_cons_self
    rw [List.flatten_cons, List.append_assoc] at h
    rcases Nat.lt_or_ge buffer.length packet.length with hlen | hlen
    -- The first packet has not arrived as a whole.
    · have hnone : tryExtractPacket buffer = (none, buffer) := by
        refine tryExtractPacket_of_isPartial ⟨packet, hpacket, ?_, ?_⟩
        · exact List.prefix_of_prefix_length_le ⟨more, h⟩ (List.prefix_append _ _)
            (Nat.le_of_lt hlen)
        · rintro rfl
          exact Nat.lt_irrefl _ hlen
      rw [extractPackets_of_none hnone]
      exact ⟨[], packet :: packets, rfl, rfl, by simpa using h, hnone⟩
    -- It has, and the calls go on behind it.
    · obtain ⟨rest, rfl⟩ : packet <+: buffer :=
        List.prefix_of_prefix_length_le (List.prefix_append _ _) ⟨more, h⟩ hlen
      rw [List.append_assoc, List.append_cancel_left_eq] at h
      obtain ⟨sent, left, rfl, hsent, hleft, hnone⟩ :=
        ih (fun p hp => hpackets p (List.mem_cons_of_mem _ hp)) h
      rw [extractPackets_of_some (tryExtractPacket_append hpacket rest)]
      exact ⟨packet :: sent, left, rfl, congrArg _ hsent, hleft, hnone⟩

/-! ## Reads -/

/-- From a buffer with no whole packet, the reads of the rest of a stream give its packets. -/
theorem receive_run {packets : List (List UInt8)} {tail : List UInt8}
    (hpackets : ∀ packet ∈ packets, IsPacket packet) (htail : IsPartial tail)
    {buffer : List UInt8} (hbuffer : tryExtractPacket buffer = (none, buffer))
    (reads : List (List UInt8)) (h : buffer ++ reads.flatten = packets.flatten ++ tail) :
    Mealy.run receive buffer reads = (packets, tail) := by
  induction reads generalizing buffer packets with
  | nil =>
    rw [List.flatten_nil, List.append_nil] at h
    cases packets with
    | nil => exact congrArg _ h
    | cons packet packets =>
      -- A first packet would be whole in the buffer.
      rw [h, List.flatten_cons, List.append_assoc,
        tryExtractPacket_append (hpackets packet List.mem_cons_self)] at hbuffer
      exact absurd (congrArg Prod.fst hbuffer) (Option.some_ne_none _)
  | cons read reads ih =>
    rw [List.flatten_cons, ← List.append_assoc] at h
    obtain ⟨sent, left, rfl, hsent, hleft, hnone⟩ := extractPackets_stream hpackets htail h
    have hrest := ih (fun p hp => hpackets p (List.mem_append_right _ hp)) hnone hleft
    rw [Mealy.run_cons, receive, hrest, hsent]

/-- Packets, and a proper prefix of another, arrive in reads that cut them anywhere: the packets
come out, in order and unmodified, and the prefix stays in the buffer. -/
theorem receive_packets (packets : List (List UInt8)) (tail : List UInt8)
    (reads : List (List UInt8)) (hpackets : ∀ packet ∈ packets, IsPacket packet)
    (htail : IsPartial tail) (hreads : reads.flatten = packets.flatten ++ tail) :
    Mealy.run receive [] reads = (packets, tail) :=
  receive_run hpackets htail rfl reads hreads

/-- A PINGRESP and a PUBLISH, cut in the header and in the body, and the first byte of a PUBACK. -/
theorem receive_packets_pingresp :
    Mealy.run receive [] [[0xD0], [0x00, 0x30], [0x03, 0x00], [0x01, 0x61, 0x40]] =
      ([[0xD0, 0x00], [0x30, 0x03, 0x00, 0x01, 0x61]], [0x40]) := by
  refine receive_packets _ _ _ ?_ ?_ rfl
  · intro packet hpacket
    simp only [List.mem_cons, List.not_mem_nil, or_false] at hpacket
    rcases hpacket with rfl | rfl
    · exact ⟨0xD0, [0x00], [], rfl, .last (by decide), by decide, rfl⟩
    · exact ⟨0x30, [0x03], [0x00, 0x01, 0x61], rfl, .last (by decide), by decide, rfl⟩
  · exact ⟨[0x40, 0x02, 0x00, 0x01], ⟨0x40, [0x02], [0x00, 0x01], rfl, .last (by decide),
      by decide, rfl⟩, ⟨[0x02, 0x00, 0x01], rfl⟩, by decide⟩

end Launa.Mqtt
