import Launa.Mqtt.Packet
import Mathlib.Data.List.GetD

/-!
# PUBLISH packets

`encode_publish` writes the topic with a length of two bytes, and everything behind the fixed header
with a remaining length, and checks neither. So a packet is parsed back to the topic, the payload
and the packet id that were encoded exactly when both lengths fit
(`parseIncomingPublish_encodePublish_iff`).
-/

namespace Launa.Mqtt

/-- `str::as_bytes`. -/
def asBytes (s : String) : List UInt8 := s.toByteArray.data.toList

/-- `str::from_utf8`. -/
def fromUtf8 (bytes : List UInt8) : Option String := String.fromUTF8? ⟨bytes.toArray⟩

/-- `u16::to_be_bytes`. -/
def toBeBytes (n : UInt16) : List UInt8 := [UInt8.ofNat (n.toNat / 256), UInt8.ofNat n.toNat]

/-- `u16::from_be_bytes` of the bytes at `i` and behind it. -/
def fromBeBytes (bytes : List UInt8) (i : ℕ) : UInt16 :=
  UInt16.ofNat ((bytes.getD i 0).toNat * 256 + (bytes.getD (i + 1) 0).toNat)

/-- Why a message cannot be encoded. -/
inductive PublishError where
  | invalidQoS (qos : UInt8)
  | missingPacketId
  deriving DecidableEq, Repr

/-- The number of bytes behind the fixed header. -/
def remainingLength (topic : String) (payload : List UInt8) (qos : UInt8) : ℕ :=
  2 + (asBytes topic).length + payload.length + if qos > 0 then 2 else 0

/-- `encode_publish`. -/
def encodePublish (topic : String) (payload : List UInt8) (qos : UInt8) (retain : Bool)
    (packetId : Option UInt16) : Except PublishError (List UInt8) :=
  if qos > 1 then .error (.invalidQoS qos)
  else
    let retainFlag : UInt8 := if retain then 0x01 else 0x00
    let qosFlag := (qos &&& 0x03) <<< 1
    let topicBytes := asBytes topic
    -- The cast to `u16` truncates.
    let packet := (0x30 ||| qosFlag ||| retainFlag) ::
      (encodeRemainingLength (remainingLength topic payload qos) ++
        (toBeBytes (UInt16.ofNat topicBytes.length) ++ topicBytes))
    if qos > 0 then
      match packetId with
      | none => .error .missingPacketId
      | some id => .ok (packet ++ (toBeBytes id ++ payload))
    else .ok (packet ++ payload)

/-- A parsed PUBLISH packet. -/
structure IncomingPublish where
  topic : String
  payload : List UInt8
  packetId : Option UInt16
  deriving DecidableEq, Repr

/-- Why bytes are not a message. -/
inductive PublishParseError where
  | tooShort
  | notPublish (first : UInt8)
  | invalidRemainingLength
  | invalidTopic
  deriving DecidableEq, Repr

/-- What `parse_incoming_publish` does with the bytes behind the fixed header. -/
def parsePublishBody (first : UInt8) (body : List UInt8) :
    Except PublishParseError IncomingPublish :=
  if body.length < 2 then .error .tooShort
  else
    let topicLen := (fromBeBytes body 0).toNat
    if body.length < 2 + topicLen then .error .tooShort
    else match fromUtf8 ((body.drop 2).take topicLen) with
      | none => .error .invalidTopic
      | some topic =>
        let qos := (first >>> 1) &&& 0x03
        let idx := 2 + topicLen
        if qos > 0 then
          if body.length < idx + 2 then .error .tooShort
          else .ok ⟨topic, body.drop (idx + 2), some (fromBeBytes body idx)⟩
        else .ok ⟨topic, body.drop idx, none⟩

/-- `parse_incoming_publish`. -/
def parseIncomingPublish (buf : List UInt8) : Except PublishParseError IncomingPublish :=
  match buf with
  | [] => .error .tooShort
  | first :: _ =>
    if first >>> 4 ≠ 3 then .error (.notPublish first)
    else match decodeRemainingLength buf with
      | none => .error .invalidRemainingLength
      | some (remainingLen, headerSize) =>
        if buf.length < headerSize + remainingLen then .error .tooShort
        else parsePublishBody first ((buf.drop headerSize).take remainingLen)

/-! ## Strings and numbers -/

/-- A string is read back from its bytes. -/
theorem fromUtf8_asBytes (s : String) : fromUtf8 (asBytes s) = some s := by
  rw [fromUtf8, asBytes, Array.toArray_toList, String.fromUTF8?, dif_pos s.isValidUTF8]
  rfl

/-- The bytes are those of the string that is read from them. -/
theorem asBytes_of_fromUtf8 {bytes : List UInt8} {s : String} (h : fromUtf8 bytes = some s) :
    asBytes s = bytes := by
  rw [fromUtf8, String.fromUTF8?] at h
  split at h
  · cases h
    rfl
  · cases h

/-- A number is read back where it was written. -/
theorem fromBeBytes_append (pre : List UInt8) (n : UInt16) (rest : List UInt8) :
    fromBeBytes (pre ++ (toBeBytes n ++ rest)) pre.length = n := by
  have hhi : (pre ++ (toBeBytes n ++ rest)).getD pre.length 0 = UInt8.ofNat (n.toNat / 256) := by
    rw [List.getD_append_right _ _ _ _ (Nat.le_refl _), Nat.sub_self]
    rfl
  have hlo : (pre ++ (toBeBytes n ++ rest)).getD (pre.length + 1) 0 = UInt8.ofNat n.toNat := by
    rw [List.getD_append_right _ _ _ _ (Nat.le_add_right _ 1), Nat.add_sub_cancel_left]
    rfl
  have hlt := n.toNat_lt
  rw [fromBeBytes, hhi, hlo, ← UInt16.toNat_inj, UInt16.toNat_ofNat', UInt8.toNat_ofNat',
    UInt8.toNat_ofNat']
  omega

/-- A word of sixteen bits has two bytes. -/
@[simp] theorem length_toBeBytes (n : UInt16) : (toBeBytes n).length = 2 := rfl

/-! ## The two halves of a packet -/

variable {topic : String} {payload : List UInt8} {qos : UInt8} {retain : Bool}
  {packetId : Option UInt16} {bytes : List UInt8}

/-- The first byte of a PUBLISH packet. -/
def firstByte (qos : UInt8) (retain : Bool) : UInt8 :=
  (0x30 : UInt8) ||| (qos &&& 0x03) <<< 1 ||| (if retain then 0x01 else 0x00 : UInt8)

/-- The packet id of a packet of the quality of service, as bytes. -/
def idBytes (qos : UInt8) (packetId : Option UInt16) : List UInt8 :=
  if qos > 0 then (packetId.map toBeBytes).getD [] else []

/-- What follows the fixed header of an encoded packet. -/
def publishBody (topic : String) (payload : List UInt8) (qos : UInt8) (packetId : Option UInt16) :
    List UInt8 :=
  toBeBytes (UInt16.ofNat (asBytes topic).length) ++
    (asBytes topic ++ (idBytes qos packetId ++ payload))

/-- An encoded packet: the quality of service is 0, or 1 with a packet id. -/
theorem encodePublish_eq_ok (h : encodePublish topic payload qos retain packetId = .ok bytes) :
    (qos = 0 ∨ qos = 1 ∧ ∃ id, packetId = some id) ∧
      bytes = firstByte qos retain ::
        (Varint.encode (remainingLength topic payload qos) ++
          publishBody topic payload qos packetId) := by
  unfold encodePublish at h
  split at h
  · cases h
  rename_i hqos
  dsimp only at h
  rw [encodeRemainingLength_eq] at h
  split at h
  · rename_i hpos
    -- The quality of service is neither 0 nor above 1.
    have hone : qos = 1 := by
      rw [← UInt8.toNat_inj]
      rw [gt_iff_lt, UInt8.lt_iff_toNat_lt] at hqos hpos
      have h0 : (0 : UInt8).toNat = 0 := rfl
      have h1 : (1 : UInt8).toNat = 1 := rfl
      omega
    split at h
    · cases h
    · rename_i id
      cases h
      refine ⟨.inr ⟨hone, id, rfl⟩, ?_⟩
      rw [publishBody, idBytes, if_pos hpos]
      simp only [Option.map_some, Option.getD_some, List.cons_append, List.append_assoc]
      rfl
  · rename_i hzero
    have hzero' : qos = 0 := by
      rw [← UInt8.toNat_inj]
      rw [gt_iff_lt, UInt8.lt_iff_toNat_lt] at hzero
      have h0 : (0 : UInt8).toNat = 0 := rfl
      omega
    cases h
    refine ⟨.inl hzero', ?_⟩
    rw [publishBody, idBytes, if_neg hzero]
    simp only [List.cons_append, List.append_assoc, List.nil_append]
    rfl

/-- The first byte says that the packet is a PUBLISH packet, and its quality of service. -/
theorem firstByte_shift (hqos : qos = 0 ∨ qos = 1) (retain : Bool) :
    firstByte qos retain >>> 4 = 3 ∧ (firstByte qos retain >>> 1) &&& 0x03 = qos := by
  rcases hqos with rfl | rfl <;> cases retain <;> decide

/-- The body of a message has the length that its header says. -/
theorem length_publishBody (hqos : qos = 0 ∨ qos = 1 ∧ ∃ id, packetId = some id) :
    (publishBody topic payload qos packetId).length = remainingLength topic payload qos := by
  rw [publishBody, remainingLength]
  simp only [List.length_append, length_toBeBytes]
  rcases hqos with rfl | ⟨rfl, id, rfl⟩
  · rw [if_neg (by decide), idBytes, if_neg (by decide), List.length_nil]
    omega
  · rw [if_pos (by decide), idBytes, if_pos (by decide)]
    simp only [Option.map_some, Option.getD_some, length_toBeBytes]
    omega

/-- What follows the fixed header is parsed back, if the length of the topic fits and there is a
packet id when the first byte says so. -/
theorem parsePublishBody_of_isSome_iff {first : UInt8} (hqos : (first >>> 1) &&& 0x03 = qos)
    (hid : packetId.isSome ↔ qos > 0) (htopic : (asBytes topic).length < 2 ^ 16) :
    parsePublishBody first (publishBody topic payload qos packetId) =
      .ok ⟨topic, payload, packetId⟩ := by
  have hlen : (UInt16.ofNat (asBytes topic).length).toNat = (asBytes topic).length := by
    rw [UInt16.toNat_ofNat']
    exact Nat.mod_eq_of_lt htopic
  have hbody : (publishBody topic payload qos packetId).length =
      2 + ((asBytes topic).length + (idBytes qos packetId ++ payload).length) := by
    rw [publishBody, List.length_append, List.length_append, length_toBeBytes]
  unfold parsePublishBody
  rw [if_neg (by omega)]
  -- The length of the topic.
  have htopicLen : fromBeBytes (publishBody topic payload qos packetId) 0 =
      UInt16.ofNat (asBytes topic).length := fromBeBytes_append [] _ _
  rw [htopicLen, hlen]
  dsimp only
  rw [if_neg (by omega)]
  -- The topic.
  have hdrop : (publishBody topic payload qos packetId).drop 2 =
      asBytes topic ++ (idBytes qos packetId ++ payload) := rfl
  rw [hdrop, List.take_left, fromUtf8_asBytes, hqos]
  have hrest : (publishBody topic payload qos packetId).drop (2 + (asBytes topic).length) =
      idBytes qos packetId ++ payload := by
    rw [← List.drop_drop, hdrop, List.drop_left]
  dsimp only
  by_cases hpos : qos > 0
  · obtain ⟨id, rfl⟩ := Option.isSome_iff_exists.1 (hid.2 hpos)
    have hbytes : idBytes qos (some id) = toBeBytes id := if_pos hpos
    have hread : fromBeBytes (publishBody topic payload qos (some id))
        (2 + (asBytes topic).length) = id := by
      have := fromBeBytes_append
        (toBeBytes (UInt16.ofNat (asBytes topic).length) ++ asBytes topic) id payload
      rwa [List.append_assoc, List.length_append, ← hbytes] at this
    rw [hbytes, List.length_append, length_toBeBytes] at hbody
    rw [if_pos hpos, if_neg (by omega), hread, ← List.drop_drop, hrest, hbytes]
    rfl
  · have hnone : packetId = none := Option.not_isSome_iff_eq_none.1 (mt hid.1 hpos)
    have hbytes : idBytes qos packetId = [] := if_neg hpos
    rw [if_neg hpos, hrest, hbytes, hnone]
    rfl

/-- What follows the fixed header of an encoded packet is parsed back, if the length of the topic
fits. -/
theorem parsePublishBody_publishBody (hqos : qos = 0 ∨ qos = 1 ∧ ∃ id, packetId = some id)
    (htopic : (asBytes topic).length < 2 ^ 16) (retain : Bool) :
    parsePublishBody (firstByte qos retain) (publishBody topic payload qos packetId) =
      .ok ⟨topic, payload, if qos = 0 then none else packetId⟩ := by
  have hshift := (firstByte_shift (hqos.imp_right And.left) retain).2
  rcases hqos with rfl | ⟨rfl, id, rfl⟩
  -- A packet of quality 0 is the one without a packet id.
  · have hnone : (none : Option UInt16).isSome ↔ (0 : UInt8) > 0 := by decide
    exact parsePublishBody_of_isSome_iff hshift hnone htopic
  · exact parsePublishBody_of_isSome_iff hshift (iff_of_true rfl (by decide)) htopic

/-- The fixed header of an encoded packet is parsed, if the remaining length has at most five
digits. -/
theorem parseIncomingPublish_cons {first : UInt8} {body : List UInt8} (hfirst : first >>> 4 = 3)
    (hlen : body.length < 2 ^ 35) :
    parseIncomingPublish (first :: (Varint.encode body.length ++ body)) =
      parsePublishBody first body := by
  have hdecode : Varint.decode 5 (Varint.encode body.length ++ body) = _ :=
    Varint.decode_encode hlen body
  rw [parseIncomingPublish, if_neg (not_not_intro hfirst), decodeRemainingLength_cons, hdecode]
  dsimp only [Option.map_some]
  rw [if_neg (by rw [List.length_cons, List.length_append]; omega), Nat.add_comm 1,
    List.drop_succ_cons,
    List.drop_left, List.take_length]

/-- A packet whose remaining length has more than five digits is not parsed. -/
theorem parseIncomingPublish_ne_ok {first : UInt8} {body : List UInt8} (hlen : 2 ^ 35 ≤ body.length)
    (p : IncomingPublish) :
    parseIncomingPublish (first :: (Varint.encode body.length ++ body)) ≠ .ok p := by
  have hdecode : Varint.decode 5 (Varint.encode body.length ++ body) = none :=
    Varint.decode_encode_eq_none hlen body
  intro h
  rw [parseIncomingPublish] at h
  split at h
  · cases h
  · rw [decodeRemainingLength_cons, hdecode] at h
    cases h

/-- A parsed topic is no longer than two bytes say. -/
theorem length_topic_of_parsePublishBody {first : UInt8} {body : List UInt8} {p : IncomingPublish}
    (h : parsePublishBody first body = .ok p) : (asBytes p.topic).length < 2 ^ 16 := by
  unfold parsePublishBody at h
  split at h
  · cases h
  dsimp only at h
  split at h
  · cases h
  split at h
  · cases h
  rename_i topic htopic
  have hlen : (asBytes topic).length < 2 ^ 16 := by
    rw [asBytes_of_fromUtf8 htopic, List.length_take]
    exact Nat.lt_of_le_of_lt (Nat.min_le_left _ _) (UInt16.toNat_lt _)
  split at h
  · split at h
    · cases h
    · cases h
      exact hlen
  · cases h
    exact hlen

/-- A topic that is parsed has a length of sixteen bits. -/
theorem length_topic_of_parse {p : IncomingPublish} (h : parseIncomingPublish bytes = .ok p) :
    (asBytes p.topic).length < 2 ^ 16 := by
  unfold parseIncomingPublish at h
  split at h
  · cases h
  split at h
  · cases h
  split at h
  · cases h
  split at h
  · cases h
  · exact length_topic_of_parsePublishBody h

/-- An encoded packet is parsed back exactly when the topic is shorter than `2^16` bytes, and what
follows the fixed header shorter than `2^35`. -/
theorem parseIncomingPublish_encodePublish_iff
    (h : encodePublish topic payload qos retain packetId = .ok bytes) :
    parseIncomingPublish bytes = .ok ⟨topic, payload, if qos = 0 then none else packetId⟩ ↔
      (asBytes topic).length < 2 ^ 16 ∧ remainingLength topic payload qos < 2 ^ 35 := by
  obtain ⟨hqos, rfl⟩ := encodePublish_eq_ok h
  have hfirst := (firstByte_shift (hqos.imp_right And.left) retain).1
  have hbody : (publishBody topic payload qos packetId).length = _ := length_publishBody hqos
  rw [← hbody]
  rcases Nat.lt_or_ge (publishBody topic payload qos packetId).length (2 ^ 35) with hlen | hlen
  -- A longer topic is truncated, and a topic that was parsed is no longer.
  · refine ⟨fun hp => ⟨length_topic_of_parse hp, hlen⟩, fun hfit => ?_⟩
    rw [parseIncomingPublish_cons hfirst hlen]
    exact parsePublishBody_publishBody hqos hfit.1 retain
  · exact iff_of_false (parseIncomingPublish_ne_ok hlen _) fun hfit =>
      absurd hfit.2 (Nat.not_lt.2 hlen)

/-- A message to the broker is parsed back. -/
theorem parseIncomingPublish_encodePublish_command :
    parseIncomingPublish [0x32, 0x09, 0x00, 0x03, 0x61, 0x2F, 0x62, 0x12, 0x34, 0x4F, 0x4E] =
      .ok ⟨"a/b", [0x4F, 0x4E], some 0x1234⟩ := by
  have h : encodePublish "a/b" [0x4F, 0x4E] 1 false (some 0x1234) =
      .ok [0x32, 0x09, 0x00, 0x03, 0x61, 0x2F, 0x62, 0x12, 0x34, 0x4F, 0x4E] := by decide +kernel
  exact (parseIncomingPublish_encodePublish_iff h).2 (by decide +kernel)

/-- The topic `aaa…`. -/
def longTopic (n : ℕ) : String := .ofList (List.replicate n 'a')

/-- A long topic is as long as it was asked to be. -/
theorem length_longTopic (n : ℕ) : (asBytes (longTopic n)).length = n := by
  rw [asBytes, longTopic, String.toByteArray_ofList, List.utf8Encode, List.data_toByteArray,
    List.toList_toArray, List.length_flatMap, List.map_replicate, List.sum_replicate_nat]
  exact Nat.mul_one n

/-- The length of a topic of `2^16` bytes is truncated. -/
theorem parseIncomingPublish_encodePublish_longTopic :
    ∃ bytes, encodePublish (longTopic 65536) [] 0 false none = .ok bytes ∧
      parseIncomingPublish bytes ≠ .ok ⟨longTopic 65536, [], none⟩ := by
  refine ⟨_, rfl, fun h => ?_⟩
  have := length_topic_of_parse h
  rw [length_longTopic] at this
  exact absurd this (by decide)

end Launa.Mqtt
