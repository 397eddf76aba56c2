import Launa.App.MqttReceive

/-!
# The packets of the broker

A conforming broker sends packets (`BrokerPacket`), of which `process_packets` finds the messages
(`processPackets_bytes`). Where the receive buffer starts at a packet, `try_extract_packet` finds
the packet if it is there as a whole (`tryExtractPacket_stream`).
-/

namespace Launa.App

open Mqtt Varint

/-- What a packet with this first byte has behind its fixed header, and the message if it is a
PUBLISH packet. -/
inductive Carries (first : UInt8) : List UInt8 → Option Message → Prop
  | publish (kind : first >>> 4 = 3) (topic : String) (fits : (asBytes topic).length < 2 ^ 16)
      (pktId : UInt16) (payload : List UInt8) :
      Carries first (publishBody topic payload ((first >>> 1) &&& 0x03) (some pktId))
        (some (topic, payload))
  | other (kind : first >>> 4 ≠ 3) (body : List UInt8) : Carries first body none

/-- A packet of a conforming broker. -/
structure BrokerPacket where
  first : UInt8
  field : List UInt8
  body : List UInt8
  message : Option Message
  isField : IsField field
  length_field : field.length ≤ 4
  length_body : body.length = fieldValue field
  carries : Carries first body message

namespace BrokerPacket

/-- The bytes of the packet. -/
def bytes (p : BrokerPacket) : List UInt8 := p.first :: (p.field ++ p.body)

/-- The CONNACK. -/
def connack (flags code : UInt8) : BrokerPacket where
  first := 0x20
  field := [0x02]
  body := [flags, code]
  message := none
  isField := .last (by decide)
  length_field := by decide
  length_body := rfl
  carries := .other (by decide) _

/-- The bytes of a packet are those of one. -/
theorem isPacket (p : BrokerPacket) : IsPacket p.bytes :=
  ⟨p.first, p.field, p.body, rfl, p.isField, p.length_field, p.length_body⟩

/-- A packet has bytes. -/
theorem bytes_ne_nil (p : BrokerPacket) : p.bytes ≠ [] := List.cons_ne_nil _ _

/-- A packet of another kind has no message. -/
theorem message_eq_none {p : BrokerPacket} (h : p.first >>> 4 ≠ 3) : p.message = none := by
  obtain ⟨first, field, body, message, isField, hle, hlen, hcarries⟩ := p
  cases hcarries with
  | publish kind => exact absurd kind h
  | other => rfl

end BrokerPacket

/-- The bytes of the packets. -/
def stream (packets : List BrokerPacket) : List UInt8 :=
  (packets.map BrokerPacket.bytes).flatten

/-- The messages of the PUBLISH packets. -/
def published (packets : List BrokerPacket) : List Message :=
  packets.filterMap BrokerPacket.message

/-- The bytes of the first packet come first. -/
theorem stream_cons (p : BrokerPacket) (packets : List BrokerPacket) :
    stream (p :: packets) = p.bytes ++ stream packets := rfl

/-- What two lists of packets publish is put behind each other. -/
@[simp] theorem published_append (done left : List BrokerPacket) :
    published (done ++ left) = published done ++ published left := List.filterMap_append

/-- What the last packet publishes comes last. -/
theorem published_concat (done : List BrokerPacket) (p : BrokerPacket) :
    published (done ++ [p]) = published done ++ p.message.toList := by
  rw [published_append]
  cases h : p.message <;> simp [published, h]

/-- `process_packets` finds the topic and the payload of a PUBLISH packet. -/
theorem processPublish_publishBody (first : UInt8) {field : List UInt8} {topic : String}
    (fits : (asBytes topic).length < 2 ^ 16) (pktId : UInt16) (payload : List UInt8)
    (isField : IsField field) (hle : field.length ≤ 4) :
    ∃ pktId', processPublish (first ::
        (field ++ publishBody topic payload ((first >>> 1) &&& 0x03) (some pktId))) =
      .message (topic, payload) pktId' := by
  set qos := (first >>> 1) &&& 0x03 with hqos
  set header := first :: field with hheader
  set size := UInt16.ofNat (asBytes topic).length with hsize
  have hsizeval : size.toNat = (asBytes topic).length := by
    rw [hsize, UInt16.toNat_ofNat']
    exact Nat.mod_eq_of_lt fits
  have hpacket : first :: (field ++ publishBody topic payload qos (some pktId)) =
      header ++ (toBeBytes size ++ (asBytes topic ++ (idBytes qos (some pktId) ++ payload))) := rfl
  have hdec := decodeRemainingLength_eq_some.2 ⟨first, field,
    publishBody topic payload qos (some pktId), rfl, isField, by omega, rfl, rfl⟩
  have hlen : header.length = 1 + field.length := by
    rw [hheader, List.length_cons, Nat.add_comm]
  -- The length of the topic stands behind the header, and the topic behind it.
  have htopicLen := fromBeBytes_append header size
    (asBytes topic ++ (idBytes qos (some pktId) ++ payload))
  have hdrop : (header ++ (toBeBytes size ++
      (asBytes topic ++ (idBytes qos (some pktId) ++ payload)))).drop (header.length + 2) =
      asBytes topic ++ (idBytes qos (some pktId) ++ payload) := by
    rw [← List.drop_drop, List.drop_left]
    rfl
  have hdrop' : (header ++ (toBeBytes size ++
      (asBytes topic ++ (idBytes qos (some pktId) ++ payload)))).drop
        (header.length + 2 + (asBytes topic).length) = idBytes qos (some pktId) ++ payload := by
    rw [← List.drop_drop, hdrop, List.drop_left]
  have hlength : (header ++ (toBeBytes size ++
      (asBytes topic ++ (idBytes qos (some pktId) ++ payload)))).length =
      header.length + 2 + (asBytes topic).length +
        (idBytes qos (some pktId) ++ payload).length := by
    rw [List.length_append, List.length_append, List.length_append, ← Nat.add_assoc,
      ← Nat.add_assoc]
    rfl
  unfold processPublish
  rw [hdec]
  dsimp only
  rw [hpacket, ← hlen, htopicLen, hsizeval, hdrop, List.take_left, fromUtf8_asBytes,
    Option.getD_some, hdrop',
    if_neg (by omega), if_neg (by omega)]
  show ∃ pktId', (if qos > 0 then _ else _) = _
  -- The packet id stands between the topic and the payload.
  by_cases hpos : qos > 0
  · have hid : idBytes qos (some pktId) = toBeBytes pktId := if_pos hpos
    rw [if_pos hpos, if_neg (by rw [hid]; simp; omega), ← List.drop_drop, hdrop', hid]
    exact ⟨_, rfl⟩
  · have hid : idBytes qos (some pktId) = [] := if_neg hpos
    rw [if_neg hpos, hid]
    exact ⟨none, rfl⟩

/-- `process_packets` finds the message of a packet, and no other. -/
theorem processPackets_bytes (p : BrokerPacket) :
    match p.message with
    | some m => ∃ pktId, processPackets p.bytes = .message m pktId
    | none => ∀ m pktId, processPackets p.bytes ≠ .message m pktId := by
  obtain ⟨first, field, body, message, isField, hle, hlen, hcarries⟩ := p
  dsimp only
  cases hcarries with
  | publish kind topic fits pktId payload =>
    obtain ⟨pktId', h⟩ := processPublish_publishBody first fits pktId payload isField hle
    refine ⟨pktId', ?_⟩
    rw [processPackets, if_neg (BrokerPacket.bytes_ne_nil _), ← h]
    exact if_pos kind
  | other kind =>
    intro m pktId
    rw [processPackets, if_neg (BrokerPacket.bytes_ne_nil _)]
    show (if first >>> 4 = 3 then _ else _) ≠ _
    rw [if_neg kind]
    split
    · exact Processed.noConfusion
    split <;> exact Processed.noConfusion

/-! ## What is left of the stream -/

/-- The receive buffer starts with the first packet that is left, or it holds no whole packet. -/
theorem tryExtractPacket_stream {buffer unread : List UInt8} {left : List BrokerPacket}
    (h : buffer ++ unread = stream left) :
    tryExtractPacket buffer = (none, buffer) ∧ (unread = [] → left = []) ∨
      ∃ p left' rest, left = p :: left' ∧ tryExtractPacket buffer = (some p.bytes, rest) ∧
        rest ++ unread = stream left' := by
  cases left with
  | nil =>
    obtain ⟨rfl, -⟩ := List.append_eq_nil_iff.1 h
    exact .inl ⟨rfl, fun _ => rfl⟩
  | cons p left =>
    rw [stream_cons] at h
    rcases Nat.lt_or_ge buffer.length p.bytes.length with hlen | hlen
    · left
      have hpre : buffer <+: p.bytes := List.prefix_of_prefix_length_le ⟨unread, h⟩
        (List.prefix_append _ _) (Nat.le_of_lt hlen)
      refine ⟨tryExtractPacket_of_isPartial ⟨p.bytes, p.isPacket, hpre, ?_⟩, ?_⟩
      · rintro rfl
        exact Nat.lt_irrefl _ hlen
      · rintro rfl
        -- The buffer would be all of the stream.
        rw [List.append_nil] at h
        rw [h, List.length_append] at hlen
        omega
    · right
      obtain ⟨rest, rfl⟩ : p.bytes <+: buffer :=
        List.prefix_of_prefix_length_le (List.prefix_append _ _) ⟨unread, h⟩ hlen
      rw [List.append_assoc, List.append_cancel_left_eq] at h
      exact ⟨p, left, rest, rfl, tryExtractPacket_append p.isPacket rest, h⟩

/-- The bytes are whole packets, and none of them is a PUBLISH packet. -/
def NoPublish (bytes : List UInt8) : Prop :=
  (extractPackets bytes).2 = [] ∧
    ∀ packet ∈ (extractPackets bytes).1, packet.getD 0 0 >>> 4 ≠ 3

instance (bytes : List UInt8) : Decidable (NoPublish bytes) := inferInstanceAs (Decidable (_ ∧ _))

/-- Bytes that publish nothing are those of whole packets. -/
theorem NoPublish.split {bytes unread : List UInt8} {packets : List BrokerPacket}
    (hno : NoPublish bytes) (h : bytes ++ unread = stream packets) :
    ∃ done left, packets = done ++ left ∧ published done = [] ∧ unread = stream left := by
  have hpackets : ∀ packet ∈ packets.map BrokerPacket.bytes, IsPacket packet := by
    intro packet hpacket
    obtain ⟨p, -, rfl⟩ := List.mem_map.1 hpacket
    exact p.isPacket
  have htail : IsPartial [] :=
    ⟨_, (BrokerPacket.connack 0 0).isPacket, List.nil_prefix, List.cons_ne_nil _ _ ∘ Eq.symm⟩
  obtain ⟨sent, left, hsplit, hsent, hleft, -⟩ :=
    extractPackets_stream hpackets htail (h.trans (List.append_nil _).symm)
  obtain ⟨done, left, rfl, rfl, rfl⟩ := List.map_eq_append_iff.1 hsplit
  rw [hno.1, List.nil_append, List.append_nil] at hleft
  refine ⟨done, left, rfl, List.filterMap_eq_nil_iff.2 fun p hp => ?_, hleft⟩
  refine BrokerPacket.message_eq_none (hno.2 p.bytes ?_)
  rw [hsent]
  exact List.mem_map_of_mem hp

end Launa.App
