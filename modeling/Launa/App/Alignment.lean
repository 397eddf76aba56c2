import Launa.App.BrokerPacket
import Launa.Lib.Run

/-!
# The client keeps to the packets

The three parts of the client that read hand the stream on to one another: each takes itself to be
at a certain place in it, in a packet or between two. If no step loses a packet (`Careful`), the
client is where it takes itself to be (`Aligned`), and every step keeps this (`Aligned.step`).
-/

namespace Launa.App

open Mqtt Varint

/-! ## The condition -/

namespace Connection

/-- The message that `recv` is about to return. -/
def pending (self : Connection) : List Message :=
  match self.point with
  | .recv _ (.puback result) => [result]
  | _ => []

/-- A read loses no packet. What the last read of the CONNACK brings with it is whole packets, and
no PUBLISH packet. `subscribe` does not read a PUBLISH packet, and does not fail within a packet. -/
def ReadsCarefully (self : Connection) (event : SocketEvent) (late : Bool) : Point → Prop
  | .connack buf => ∀ bytes ∈ (self.read (64 - buf.length) event).1.toOption,
    parseConnack (buf ++ bytes) = .ok () → NoPublish ((buf ++ bytes).drop 4)
  | .suback _ _ _ .header => ∀ bytes ∈ (self.read 1 event).1.toOption, bytes.getD 0 0 >>> 4 ≠ 3
  | .suback _ _ _ (.remainingLength _ rlBuf) =>
    readExact [] 1 late (self.read 1 event).1 ≠ .failed ∧
      ∀ bytes ∈ (self.read 1 event).1.toOption, remainingLen (rlBuf ++ bytes) ≤ 128
  | .suback _ _ _ (.payload _ rlBuf payloadBuf) =>
    readExact payloadBuf (remainingLen rlBuf) late
      (self.read (remainingLen rlBuf - payloadBuf.length) event).1 ≠ .failed
  | _ => True

instance (self : Connection) (event : SocketEvent) (late : Bool) :
    (point : Point) → Decidable (self.ReadsCarefully event late point)
  | .connack _ => inferInstanceAs (Decidable (∀ bytes ∈ _, _ → _))
  | .suback _ _ _ .header => inferInstanceAs (Decidable (∀ bytes ∈ _, _ ≠ _))
  | .suback _ _ _ (.remainingLength _ _) =>
    inferInstanceAs (Decidable (_ ≠ _ ∧ ∀ bytes ∈ _, _ ≤ _))
  | .suback _ _ _ (.payload _ _ _) => inferInstanceAs (Decidable (_ ≠ _))
  | .suback _ _ _ .pingresp => isTrue trivial
  | .connecting | .publishing | .subscribing _ _ | .idle | .recv _ _ | .lost => isTrue trivial

/-- The step loses no packet: a read does not, and the call of `recv` that the timer drops is not
about to return a message. -/
def Careful (self : Connection) : ClientEvent → Prop
  | .read event late => self.ReadsCarefully event late self.point
  | .cancel => self.pending = []
  | _ => True

instance (self : Connection) : (event : ClientEvent) → Decidable (self.Careful event)
  | .read event late => inferInstanceAs (Decidable (self.ReadsCarefully event late self.point))
  | .cancel => inferInstanceAs (Decidable (self.pending = []))
  | .sent _ | .elapsed | .clock _ | .publish _ | .subscribe | .recv | .reconnect => isTrue trivial

end Connection

/-! ## The invariant -/

/-- Where the client is between two packets, and has not returned a message yet. -/
inductive Between : Point → Prop
  | publishing : Between .publishing
  | subscribing (topics : ℕ) (pktId : UInt16) : Between (.subscribing topics pktId)
  | header (topics : ℕ) (pktId : UInt16) (skipped : ℕ) :
      Between (.suback topics pktId skipped .header)
  | pingresp (topics : ℕ) (pktId : UInt16) (skipped : ℕ) :
      Between (.suback topics pktId skipped .pingresp)

/-- Where the client is between two packets of its receive buffer. -/
inductive Receiving : Point → Prop
  | idle : Receiving .idle
  | head (readRetries : ℕ) : Receiving (.recv readRetries .head)
  | pinging (readRetries : ℕ) : Receiving (.recv readRetries .pinging)
  | pingresp (readRetries : ℕ) : Receiving (.recv readRetries .pingresp)
  | backoff (readRetries : ℕ) : Receiving (.recv readRetries .backoff)

/-- Where the receive buffer holds no whole packet. -/
inductive Waiting : Point → Prop
  | pause (readRetries : ℕ) : Waiting (.recv readRetries .pause)
  | reading (readRetries : ℕ) : Waiting (.recv readRetries .reading)

/-- The client is in the stream where it takes itself to be, and has returned the messages of the
packets before. -/
inductive Aligned (all : List BrokerPacket) : Connection → Prop
  | connecting (nextId : UInt16) : Aligned all ⟨.connecting, stream all, [], nextId, []⟩
  | connack {buf unread : List UInt8} (nextId : UInt16)
      (bytes : buf ++ unread = stream all) : Aligned all ⟨.connack buf, unread, [], nextId, []⟩
  | between {point : Point} (hpoint : Between point) (nextId : UInt16)
      {done left : List BrokerPacket} (split : all = done ++ left) (quiet : published done = []) :
      Aligned all ⟨point, stream left, [], nextId, []⟩
  | inLength (topics : ℕ) (pktId : UInt16) (skipped : ℕ) (nextId : UInt16) {p : BrokerPacket}
      {done left : List BrokerPacket} (split : all = done ++ p :: left)
      (quiet : published done = []) (kind : p.first >>> 4 ≠ 3)
      {rlBuf tail : List UInt8} (field : p.field = rlBuf ++ tail) (ne : tail ≠ []) :
      Aligned all ⟨.suback topics pktId skipped (.remainingLength p.first rlBuf),
        tail ++ (p.body ++ stream left), [], nextId, []⟩
  | inPayload (topics : ℕ) (pktId : UInt16) (skipped : ℕ) (nextId : UInt16) {p : BrokerPacket}
      {done left : List BrokerPacket} (split : all = done ++ p :: left)
      (quiet : published done = []) (kind : p.first >>> 4 ≠ 3)
      {payloadBuf tail : List UInt8} (body : p.body = payloadBuf ++ tail) (ne : tail ≠ []) :
      Aligned all ⟨.suback topics pktId skipped (.payload p.first p.field payloadBuf),
        tail ++ stream left, [], nextId, []⟩
  | receiving {point : Point} (hpoint : Receiving point) (nextId : UInt16)
      {done left : List BrokerPacket} (split : all = done ++ left) {rxBuffer unread : List UInt8}
      (bytes : rxBuffer ++ unread = stream left) :
      Aligned all ⟨point, unread, rxBuffer, nextId, published done⟩
  | waiting {point : Point} (hpoint : Waiting point) (nextId : UInt16)
      {done left : List BrokerPacket} (split : all = done ++ left) {rxBuffer unread : List UInt8}
      (bytes : rxBuffer ++ unread = stream left)
      (drained : tryExtractPacket rxBuffer = (none, rxBuffer)) :
      Aligned all ⟨point, unread, rxBuffer, nextId, published done⟩
  | puback (readRetries : ℕ) (result : Message) (nextId : UInt16)
      {done left : List BrokerPacket} (split : all = done ++ left) {rxBuffer unread : List UInt8}
      (bytes : rxBuffer ++ unread = stream left) {returned : List Message}
      (held : returned ++ [result] = published done) :
      Aligned all ⟨.recv readRetries (.puback result), unread, rxBuffer, nextId, returned⟩
  | lost (unread rxBuffer : List UInt8) (nextId : UInt16) (returned : List Message) :
      Aligned all ⟨.lost, unread, rxBuffer, nextId, returned⟩

namespace Aligned

variable {all : List BrokerPacket}

/-- `post_connect_publish` is done, or `subscribe` has failed between two packets. -/
theorem afterConnect (nextId : UInt16) {done left : List BrokerPacket} (split : all = done ++ left)
    (quiet : published done = []) : Aligned all ⟨.idle, stream left, [], nextId, []⟩ := by
  rw [← quiet]
  exact receiving .idle nextId split (List.nil_append (stream left))

/-- `subscribe` has read a packet that is no PUBLISH packet. -/
theorem onSubscribePacket (topics : ℕ) (pktId : UInt16) (skipped : ℕ) (nextId : UInt16)
    {p : BrokerPacket} {done left : List BrokerPacket} (split : all = done ++ p :: left)
    (quiet : published done = []) (kind : p.first >>> 4 ≠ 3) (point : Point)
    (rlBuf payloadBuf : List UInt8) :
    Aligned all (Connection.onSubscribePacket ⟨point, stream left, [], nextId, []⟩ topics pktId
      skipped p.first rlBuf payloadBuf) := by
  have hsplit : all = (done ++ [p]) ++ left := by rw [split, List.append_assoc]; rfl
  have hquiet : published (done ++ [p]) = [] := by
    rw [published_concat, quiet, BrokerPacket.message_eq_none kind]
    rfl
  have hidle := afterConnect nextId hsplit hquiet
  unfold Connection.onSubscribePacket
  split
  · split
    · exact hidle
    · exact hidle
    · exact between (.subscribing _ _) _ hsplit hquiet
  split
  · exact hidle
  split
  · exact between (.pingresp _ _ _) _ hsplit hquiet
  · exact between (.header _ _ _) _ hsplit hquiet

/-- `recv` takes a packet out of its buffer, or finds none. -/
theorem extract (point : Point) (readRetries : ℕ) (nextId : UInt16) {done left : List BrokerPacket}
    (split : all = done ++ left) {rxBuffer unread : List UInt8}
    (bytes : rxBuffer ++ unread = stream left) :
    Aligned all (Connection.extract ⟨point, unread, rxBuffer, nextId, published done⟩
      readRetries) := by
  unfold Connection.extract
  dsimp only
  rcases tryExtractPacket_stream bytes with ⟨hnone, -⟩ | ⟨p, left', rest, rfl, hsome, hrest⟩
  -- No packet is there as a whole, and `recv` pauses before it reads.
  · rw [hnone]
    exact waiting (.pause _) nextId split bytes hnone
  · have hsplit : all = (done ++ [p]) ++ left' := by rw [split, List.append_assoc]; rfl
    have hp := processPackets_bytes p
    rw [hsome]
    dsimp only
    cases hmessage : p.message with
    | none =>
      rw [hmessage] at hp
      have hdone : published done = published (done ++ [p]) := by
        rw [published_concat, hmessage]
        exact (List.append_nil _).symm
      cases hprocessed : processPackets p.bytes with
      | fatal => exact lost _ _ _ _
      | handled =>
        rw [hdone]
        exact receiving (.head 0) nextId hsplit hrest
      | pingreq =>
        rw [hdone]
        exact receiving (.pingresp 0) nextId hsplit hrest
      | message m pktId => exact absurd hprocessed (hp m pktId)
    | some m =>
      rw [hmessage] at hp
      obtain ⟨pktId, hprocessed⟩ := hp
      have hdone : published done ++ [m] = published (done ++ [p]) := by
        rw [published_concat, hmessage]
        rfl
      rw [hprocessed]
      cases pktId with
      | none =>
        dsimp only [Connection.deliver]
        rw [hdone]
        exact receiving .idle nextId hsplit hrest
      | some pktId => exact puback 0 m nextId hsplit hrest hdone

/-- A read of the CONNACK, which brings with it no part of a packet and no PUBLISH packet. -/
theorem onConnack {flags code : UInt8} {packets : List BrokerPacket} {buf unread : List UInt8}
    (nextId : UInt16)
    (bytes : buf ++ unread = stream (.connack flags code :: packets)) (event : SocketEvent)
    (late : Bool)
    (hcareful : Connection.Careful ⟨.connack buf, unread, [], nextId, []⟩ (.read event late)) :
    Aligned (.connack flags code :: packets)
      (Connection.onConnack ⟨.connack buf, unread, [], nextId, []⟩ buf event late) := by
  unfold Connection.onConnack
  rcases Connection.read_cases ⟨.connack buf, unread, [], nextId, []⟩ (64 - buf.length) event with
    hread | ⟨taken, rest, hunread, -, hread⟩
  · rw [hread]
    exact lost _ _ _ _
  · replace hcareful := hcareful taken (by rw [hread]; rfl)
    rw [hread]
    dsimp only at hunread ⊢
    subst hunread
    rw [← List.append_assoc] at bytes
    rcases Nat.lt_or_ge (buf ++ taken).length 4 with hshort | hfull
    · rw [readExact_of_lt late hshort]
      cases late with
      | true => exact lost _ _ _ _
      | false => exact connack nextId bytes
    · rw [readExact_of_le late hfull]
      dsimp only
      cases hparse : parseConnack (buf ++ taken) with
      | error e => exact lost _ _ _ _
      | ok =>
        -- The surplus is the start of the packets behind the CONNACK.
        have hstream : (buf ++ taken).drop 4 ++ rest = stream packets := by
          rw [← List.drop_append_of_le_length hfull, bytes]
          rfl
        obtain ⟨done, left, rfl, hquiet, rfl⟩ := (hcareful hparse).split hstream
        have hsplit : BrokerPacket.connack flags code :: (done ++ left) =
            (BrokerPacket.connack flags code :: done) ++ left := rfl
        exact between .publishing nextId hsplit hquiet

/-- `subscribe` reads the first byte of a packet that is no PUBLISH packet. -/
theorem onSuback_header (topics : ℕ) (pktId : UInt16) (skipped : ℕ) (nextId : UInt16)
    {done left : List BrokerPacket} (split : all = done ++ left) (quiet : published done = [])
    (event : SocketEvent) (late : Bool)
    (hcareful : Connection.Careful
      ⟨.suback topics pktId skipped .header, stream left, [], nextId, []⟩ (.read event late)) :
    Aligned all (Connection.onSuback
      ⟨.suback topics pktId skipped .header, stream left, [], nextId, []⟩ topics pktId skipped
      .header event late) := by
  have hidle := afterConnect nextId split quiet
  unfold Connection.onSuback
  dsimp only
  rcases Connection.read_cases
    ⟨.suback topics pktId skipped .header, stream left, [], nextId, []⟩ 1 event with
    hread | ⟨taken, rest, hunread, hlen, hread⟩
  · rw [hread]
    exact hidle
  · replace hcareful := hcareful taken (by rw [hread]; rfl)
    rw [hread]
    dsimp only at hunread ⊢
    cases taken with
    | nil =>
      obtain rfl : stream left = rest := hunread
      rw [readExact_of_lt late Nat.one_pos]
      cases late with
      | true => exact hidle
      | false => exact between (.header _ _ _) nextId split quiet
    | cons b taken =>
      obtain rfl := List.eq_nil_of_length_eq_zero (Nat.le_zero.1 (Nat.le_of_succ_le_succ hlen))
      rw [readExact_of_le late (Nat.le_refl 1)]
      -- The byte is the first one of the next packet.
      cases left with
      | nil => exact absurd hunread (List.cons_ne_nil _ _).symm
      | cons p left =>
        obtain ⟨rfl, hrest⟩ := List.cons.inj (hunread : p.first :: _ = b :: rest)
        obtain rfl : (p.field ++ p.body) ++ stream left = rest := hrest
        rw [List.append_assoc]
        exact inLength topics pktId skipped nextId split quiet hcareful (List.nil_append _).symm
          (List.ne_nil_of_length_pos p.isField.length_pos)

/-- `subscribe` stops behind the last byte of the remaining length. -/
theorem stop_iff {p : BrokerPacket} {rlBuf tail : List UInt8} {b : UInt8}
    (field : p.field = rlBuf ++ b :: tail) :
    b &&& 0x80 = 0 ∨ 4 ≤ (rlBuf ++ [b]).length ↔ tail = [] := by
  rw [and_high, ← IsField.rest_eq_nil_iff (field ▸ p.isField)]
  have hfour := p.length_field
  rw [field, List.length_append, List.length_cons] at hfour
  constructor
  · rintro (h | h)
    · exact h
    · rw [List.length_append, List.length_singleton] at h
      exact List.eq_nil_of_length_eq_zero (by omega)
  · exact .inl

/-- `subscribe` reads a byte of the remaining length. -/
theorem onSuback_remainingLength (topics : ℕ) (pktId : UInt16) (skipped : ℕ) (nextId : UInt16)
    {p : BrokerPacket} {done left : List BrokerPacket} (split : all = done ++ p :: left)
    (quiet : published done = []) (kind : p.first >>> 4 ≠ 3) {rlBuf tail : List UInt8}
    (field : p.field = rlBuf ++ tail) (ne : tail ≠ []) (event : SocketEvent) (late : Bool)
    (hcareful : Connection.Careful
      ⟨.suback topics pktId skipped (.remainingLength p.first rlBuf),
        tail ++ (p.body ++ stream left), [], nextId, []⟩ (.read event late)) :
    Aligned all (Connection.onSuback
      ⟨.suback topics pktId skipped (.remainingLength p.first rlBuf),
        tail ++ (p.body ++ stream left), [], nextId, []⟩ topics pktId skipped
      (.remainingLength p.first rlBuf) event late) := by
  unfold Connection.onSuback
  dsimp only
  obtain ⟨hok, hle⟩ := hcareful
  rcases Connection.read_cases
    ⟨.suback topics pktId skipped (.remainingLength p.first rlBuf),
      tail ++ (p.body ++ stream left), [], nextId, []⟩ 1 event with
    hread | ⟨taken, rest, hunread, hlen, hread⟩
  · rw [hread] at hok
    exact absurd rfl hok
  · replace hle := hle taken (by rw [hread]; rfl)
    rw [hread] at hok
    rw [hread]
    dsimp only at hunread hok ⊢
    cases taken with
    | nil =>
      -- Nothing was read, and it waits for the byte again.
      obtain rfl : tail ++ (p.body ++ stream left) = rest := hunread
      rw [readExact_of_lt late Nat.one_pos] at hok ⊢
      cases late with
      | true => exact absurd rfl hok
      | false => exact inLength topics pktId skipped nextId split quiet kind field ne
    | cons b taken =>
      obtain rfl := List.eq_nil_of_length_eq_zero (Nat.le_zero.1 (Nat.le_of_succ_le_succ hlen))
      rw [readExact_of_le late (Nat.le_refl 1)]
      obtain ⟨c, tail, rfl⟩ := List.exists_cons_of_ne_nil ne
      obtain ⟨rfl, hrest⟩ := List.cons.inj (hunread : c :: _ = b :: rest)
      obtain rfl : tail ++ (p.body ++ stream left) = rest := hrest
      have hfield : p.field = (rlBuf ++ [c]) ++ tail := by rw [field, List.append_assoc]; rfl
      have hstop : [c].getD 0 0 &&& 0x80 = 0 ∨ 4 ≤ (rlBuf ++ [c]).length ↔ tail = [] :=
        stop_iff field
      dsimp only [List.nil_append]
      by_cases htail : tail = []
      · -- The byte ends the field.
        rw [if_pos (hstop.2 htail), if_neg (Nat.not_lt.2 hle)]
        rw [htail, List.append_nil] at hfield
        rw [htail, ← hfield, remainingLen_eq, ← p.length_body]
        split
        · rename_i hpos
          exact inPayload topics pktId skipped nextId split quiet kind (List.nil_append _).symm
            (List.ne_nil_of_length_pos hpos)
        · rename_i hpos
          have hbody : p.body = [] := List.eq_nil_of_length_eq_zero (Nat.eq_zero_of_not_pos hpos)
          rw [hbody]
          exact onSubscribePacket topics pktId skipped nextId split quiet kind _ _ _
      · -- The field goes on.
        rw [if_neg (mt hstop.1 htail)]
        exact inLength topics pktId skipped nextId split quiet kind hfield htail

/-- `subscribe` reads bytes of the payload. -/
theorem onSuback_payload (topics : ℕ) (pktId : UInt16) (skipped : ℕ) (nextId : UInt16)
    {p : BrokerPacket} {done left : List BrokerPacket} (split : all = done ++ p :: left)
    (quiet : published done = []) (kind : p.first >>> 4 ≠ 3) {payloadBuf tail : List UInt8}
    (body : p.body = payloadBuf ++ tail) (event : SocketEvent) (late : Bool)
    (hcareful : Connection.Careful
      ⟨.suback topics pktId skipped (.payload p.first p.field payloadBuf),
        tail ++ stream left, [], nextId, []⟩ (.read event late)) :
    Aligned all (Connection.onSuback
      ⟨.suback topics pktId skipped (.payload p.first p.field payloadBuf),
        tail ++ stream left, [], nextId, []⟩ topics pktId skipped
      (.payload p.first p.field payloadBuf) event late) := by
  unfold Connection.onSuback
  dsimp only
  have hsize : remainingLen p.field = p.body.length := by
    rw [remainingLen_eq, p.length_body]
  replace hcareful : readExact payloadBuf (remainingLen p.field) late _ ≠ .failed := hcareful
  have hbody : p.body.length = payloadBuf.length + tail.length := by
    rw [body, List.length_append]
  rw [hsize] at hcareful ⊢
  rcases Connection.read_cases
    ⟨.suback topics pktId skipped (.payload p.first p.field payloadBuf),
      tail ++ stream left, [], nextId, []⟩ (p.body.length - payloadBuf.length) event with
    hread | ⟨taken, rest, hunread, hlen, hread⟩
  · rw [hread] at hcareful
    exact absurd rfl hcareful
  · rw [hread] at hcareful ⊢
    dsimp only at hunread hcareful ⊢
    -- What is taken is of this packet.
    obtain ⟨tail, rfl⟩ : taken <+: tail :=
      List.prefix_of_prefix_length_le ⟨rest, hunread.symm⟩ (List.prefix_append _ _) (by omega)
    rw [List.append_assoc, List.append_cancel_left_eq] at hunread
    subst hunread
    have hbody' : p.body = (payloadBuf ++ taken) ++ tail := by rw [body, List.append_assoc]
    rcases Nat.lt_or_ge (payloadBuf ++ taken).length p.body.length with hshort | hfull
    · rw [readExact_of_lt late hshort] at hcareful ⊢
      cases late with
      | true => exact absurd rfl hcareful
      | false =>
        refine inPayload topics pktId skipped nextId split quiet kind hbody' ?_
        rintro rfl
        rw [hbody', List.append_nil] at hshort
        exact Nat.lt_irrefl _ hshort
    · rw [readExact_of_le late hfull]
      -- The payload is complete.
      obtain rfl : tail = [] := by
        rw [hbody', @List.length_append _ _ tail] at hfull
        exact List.eq_nil_of_length_eq_zero (by omega)
      exact onSubscribePacket topics pktId skipped nextId split quiet kind _ _ _

/-- A read of `recv`. -/
theorem onRecvRead {point : Point} (readRetries : ℕ) (nextId : UInt16)
    {done left : List BrokerPacket} (split : all = done ++ left) {rxBuffer unread : List UInt8}
    (bytes : rxBuffer ++ unread = stream left) (event : SocketEvent) :
    Aligned all (Connection.onRecvRead ⟨point, unread, rxBuffer, nextId, published done⟩ readRetries
      event) := by
  unfold Connection.onRecvRead
  rcases Connection.read_cases ⟨point, unread, rxBuffer, nextId, published done⟩ 512 event with
    hread | ⟨taken, rest, hunread, -, hread⟩
  · rw [hread]
    dsimp only
    split
    · exact lost _ _ _ _
    · exact receiving (.backoff _) nextId split bytes
  · rw [hread]
    dsimp only at hunread ⊢
    split
    · exact lost _ _ _ _
    split
    · exact lost _ _ _ _
    · rw [hunread, ← List.append_assoc] at bytes
      exact receiving (.head 0) nextId split bytes

/-- A packet that is sent keeps the connection aligned. -/
theorem onSent {self : Connection} (h : Aligned all self) (ok : Bool) :
    Aligned all (self.onSent ok) := by
  have hsame := h
  cases h with
  | connecting nextId =>
    cases ok with
    | true => exact connack nextId (List.nil_append _)
    | false => exact lost _ _ _ _
  | between hpoint nextId split quiet =>
    cases hpoint with
    | subscribing topics pktId =>
      cases ok with
      | true => exact between (.header topics pktId 0) nextId split quiet
      | false => exact afterConnect nextId split quiet
    | pingresp topics pktId skipped => exact between (.header _ _ _) nextId split quiet
    | _ => exact hsame
  | receiving hpoint nextId split bytes =>
    cases hpoint with
    | pinging readRetries =>
      cases ok with
      | true => exact extract _ 0 nextId split bytes
      | false => exact lost _ _ _ _
    | pingresp readRetries => exact receiving (.head 0) nextId split bytes
    | _ => exact hsame
  | puback readRetries result nextId split bytes held =>
    -- The message is returned, whether the PUBACK was sent or not.
    show Aligned all (Connection.deliver _ result)
    dsimp only [Connection.deliver]
    rw [held]
    exact receiving .idle nextId split bytes
  | waiting hpoint => cases hpoint <;> exact hsame
  | _ => exact hsame

/-- A careful read keeps the connection aligned. -/
theorem onRead {flags code : UInt8} {packets : List BrokerPacket} {self : Connection}
    (h : Aligned (.connack flags code :: packets) self) (event : SocketEvent) (late : Bool)
    (hcareful : self.Careful (.read event late)) :
    Aligned (.connack flags code :: packets) (self.onRead event late) := by
  have hsame := h
  cases h with
  | connack nextId bytes => exact onConnack nextId bytes event late hcareful
  | between hpoint nextId split quiet =>
    cases hpoint with
    | header topics pktId skipped =>
      exact onSuback_header topics pktId skipped nextId split quiet event late hcareful
    | _ => exact hsame
  | inLength topics pktId skipped nextId split quiet kind field ne =>
    exact onSuback_remainingLength topics pktId skipped nextId split quiet kind field ne event late
      hcareful
  | inPayload topics pktId skipped nextId split quiet kind body =>
    exact onSuback_payload topics pktId skipped nextId split quiet kind body event late hcareful
  | waiting hpoint nextId split bytes =>
    cases hpoint with
    | reading readRetries => exact onRecvRead readRetries nextId split bytes event
    | _ => exact hsame
  | receiving hpoint => cases hpoint <;> exact hsame
  | _ => exact hsame

/-- A time that has elapsed keeps the connection aligned. -/
theorem onElapsed {self : Connection} (h : Aligned all self) : Aligned all self.onElapsed := by
  have hsame := h
  cases h with
  | waiting hpoint nextId split bytes drained =>
    cases hpoint with
    | pause readRetries => exact waiting (.reading _) nextId split bytes drained
    | reading readRetries => exact receiving (.head _) nextId split bytes
  | receiving hpoint nextId split bytes =>
    cases hpoint with
    | backoff readRetries => exact receiving (.head _) nextId split bytes
    | _ => exact hsame
  | between hpoint => cases hpoint <;> exact hsame
  | _ => exact hsame

/-- The next packet id does not matter. -/
theorem of_nextPacketId {self : Connection} (h : Aligned all self) (nextId : UInt16) :
    Aligned all { self with nextPacketId := nextId } := by
  cases h with
  | connecting => exact connecting nextId
  | connack _ bytes => exact connack nextId bytes
  | between hpoint _ split quiet => exact between hpoint nextId split quiet
  | inLength topics pktId skipped _ split quiet kind field ne =>
    exact inLength topics pktId skipped nextId split quiet kind field ne
  | inPayload topics pktId skipped _ split quiet kind body ne =>
    exact inPayload topics pktId skipped nextId split quiet kind body ne
  | receiving hpoint _ split bytes => exact receiving hpoint nextId split bytes
  | waiting hpoint _ split bytes drained => exact waiting hpoint nextId split bytes drained
  | puback readRetries result _ split bytes held =>
    exact puback readRetries result nextId split bytes held
  | lost => exact lost _ _ nextId _

/-- The clock keeps the connection aligned. -/
theorem onClock {self : Connection} (h : Aligned all self) (due : Bool) :
    Aligned all (self.step (.clock due)) := by
  have hsame := h
  cases h with
  | receiving hpoint nextId split bytes =>
    cases hpoint with
    | head readRetries =>
      cases due with
      | true => exact receiving (.pinging _) nextId split bytes
      | false => exact extract _ _ nextId split bytes
    | _ => exact hsame
  | between hpoint => cases hpoint <;> exact hsame
  | waiting hpoint => cases hpoint <;> exact hsame
  | _ => exact hsame

/-- A call of `recv` that holds no message is dropped. -/
theorem onCancel {self : Connection} (h : Aligned all self) (hcareful : self.Careful .cancel) :
    Aligned all (self.step .cancel) := by
  have hsame := h
  cases h with
  | receiving hpoint nextId split bytes =>
    cases hpoint with
    | idle => exact hsame
    | _ => exact receiving .idle nextId split bytes
  | waiting hpoint nextId split bytes =>
    cases hpoint <;> exact receiving .idle nextId split bytes
  | puback => exact absurd hcareful (List.cons_ne_nil _ _)
  | between hpoint => cases hpoint <;> exact hsame
  | _ => exact hsame

/-- A call keeps the connection aligned. -/
theorem onCall {self : Connection} (h : Aligned all self) {event : ClientEvent}
    (hevent : event = .subscribe ∨ event = .recv ∨ event = .reconnect) :
    Aligned all (self.step event) := by
  have hsame := h
  cases h with
  | receiving hpoint nextId split bytes =>
    cases hpoint with
    | idle =>
      rcases hevent with rfl | rfl | rfl
      · exact hsame
      · exact receiving (.head 0) nextId split bytes
      · exact lost _ _ _ _
    | _ => rcases hevent with rfl | rfl | rfl <;> exact hsame
  | between hpoint nextId split quiet =>
    cases hpoint with
    | publishing =>
      rcases hevent with rfl | rfl | rfl
      · exact between (.subscribing _ _) _ split quiet
      · exact hsame
      · exact hsame
    | _ => rcases hevent with rfl | rfl | rfl <;> exact hsame
  | waiting hpoint => cases hpoint <;> rcases hevent with rfl | rfl | rfl <;> exact hsame
  | _ => rcases hevent with rfl | rfl | rfl <;> exact hsame

/-- A careful step keeps the client aligned. -/
theorem step {flags code : UInt8} {packets : List BrokerPacket} {self : Connection}
    (h : Aligned (.connack flags code :: packets) self) (event : ClientEvent)
    (hcareful : self.Careful event) :
    Aligned (.connack flags code :: packets) (self.step event) := by
  cases event with
  | sent ok => exact h.onSent ok
  | read event late => exact h.onRead event late hcareful
  | elapsed => exact h.onElapsed
  | clock due => exact h.onClock due
  | cancel => exact h.onCancel hcareful
  | publish qos =>
    -- Only the packet ids change, if anything.
    have hid : Aligned (.connack flags code :: packets)
        (if qos > 0 then self.allocatePacketId else self) := by
      split
      · exact h.of_nextPacketId _
      · exact h
    unfold Connection.step
    dsimp only
    split <;> first | exact hid | exact h
  | subscribe => exact h.onCall (.inl rfl)
  | recv => exact h.onCall (.inr (.inl rfl))
  | reconnect => exact h.onCall (.inr (.inr rfl))

end Aligned

end Launa.App
