import Launa.Mqtt.Codec
import Launa.Mqtt.Reassembly

/-!
# The reads of the MQTT client

A connection of the app's `mqtt_client.rs`, from its CONNECT on. Three parts of the client read the
bytes of the broker, each with a buffer of its own: `send_connect` the CONNACK, `subscribe` the
packets up to its SUBACK, and `recv` the rest. A step leads from one point where the client waits
(`Point`) to the next, and is taken on what it waits for (`ClientEvent`): a read, a write or a
timer. The clock is left out; what it says is part of the events. So is what a write sends, except
that the packet ids are counted.
-/

namespace Launa.Mqtt

/-! ## `mqtt_codec.rs` -/

/-- Why a connection is not accepted. -/
inductive ConnackError where
  | tooShort
  | wrongType (first : UInt8)
  | reasonCode (code : UInt8)
  deriving DecidableEq, Repr

/-- `parse_connack`. It does not look at what follows the first four bytes. -/
def parseConnack (buf : List UInt8) : Except ConnackError Unit :=
  if buf.length < 4 then .error .tooShort
  else if buf.getD 0 0 ≠ 0x20 then .error (.wrongType (buf.getD 0 0))
  else
    let reasonCode := buf.getD 3 0
    if reasonCode ≠ 0x00 then .error (.reasonCode reasonCode) else .ok ()

/-- Why a subscription is not accepted. -/
inductive SubackError where
  | tooShort
  | wrongType (first : UInt8)
  | invalidRemainingLength
  | payloadTooShort
  | packetIdMismatch (expected got : UInt16)
  | subscriptionFailed (code : UInt8)
  deriving DecidableEq, Repr

/-- `parse_suback`. -/
def parseSuback (buf : List UInt8) (expectedPacketId : UInt16) : Except SubackError Unit :=
  if buf = [] then .error .tooShort
  else if buf.getD 0 0 ≠ 0x90 then .error (.wrongType (buf.getD 0 0))
  else match decodeRemainingLength buf with
    | none => .error .invalidRemainingLength
    | some (remainingLen, headerSize) =>
      if buf.length < headerSize + remainingLen then .error .tooShort
      else
        let payload := (buf.drop headerSize).take remainingLen
        if payload.length < 3 then .error .payloadTooShort
        else
          let ackPktId := fromBeBytes payload 0
          if ackPktId ≠ expectedPacketId then
            .error (.packetIdMismatch expectedPacketId ackPktId)
          else
            let returnCode := payload.getD 2 0
            if returnCode = 0x80 then .error (.subscriptionFailed returnCode) else .ok ()

end Launa.Mqtt

namespace Launa.App

open Mqtt

/-- The topic and the payload that `recv` returns. -/
abbrev Message := String × List UInt8

/-! ## `process_packets` -/

/-- What `process_packets` does with a packet. -/
inductive Processed where
  /-- The connection is to be terminated. -/
  | fatal
  | handled
  /-- The packet is handled when a PINGRESP is sent. -/
  | pingreq
  /-- The message is returned, after a PUBACK if there is a packet id. -/
  | message (result : Message) (pktId : Option UInt16)
  deriving DecidableEq, Repr

/-- What `process_packets` does with a PUBLISH packet. -/
def processPublish (packet : List UInt8) : Processed :=
  let qos := (packet.getD 0 0 >>> 1) &&& 0x03
  match decodeRemainingLength packet with
  | none => .fatal
  | some (_, headerSize) =>
    if packet.length < headerSize + 2 then .fatal
    else
      let topicLen := (fromBeBytes packet headerSize).toNat
      if packet.length < headerSize + 2 + topicLen then .fatal
      else
        let topic := (fromUtf8 ((packet.drop (headerSize + 2)).take topicLen)).getD ""
        let idx := headerSize + 2 + topicLen
        if qos > 0 then
          if packet.length < idx + 2 then .fatal
          else .message (topic, packet.drop (idx + 2)) (some (fromBeBytes packet idx))
        else .message (topic, packet.drop idx) none

/-- `process_packets`. -/
def processPackets (packet : List UInt8) : Processed :=
  if packet = [] then .handled
  else
    let packetType := packet.getD 0 0 >>> 4
    if packetType = 3 then processPublish packet
    else if packetType = 12 then .pingreq
    else if packetType = 14 then .fatal
    -- PUBACK, SUBACK, PINGRESP, and what the client does not know.
    else .handled

/-! ## Where the client waits -/

/-- Where `subscribe` waits in the packet that it reads. -/
inductive PacketPart where
  | header
  | remainingLength (header : UInt8) (rlBuf : List UInt8)
  | payload (header : UInt8) (rlBuf payloadBuf : List UInt8)
  /-- The packet was a PINGREQ, and the PINGRESP is being sent. -/
  | pingresp
  deriving DecidableEq, Repr

/-- Where `recv` waits. -/
inductive RecvPart where
  /-- The head of the loop, where `maybe_ping` looks at the clock. -/
  | head
  | pinging
  | puback (result : Message)
  | pingresp
  /-- The millisecond before a read. -/
  | pause
  /-- The read, in a race with the keep-alive timer. -/
  | reading
  /-- The second after a failed read. -/
  | backoff
  deriving DecidableEq, Repr

/-- Where the client waits. -/
inductive Point where
  /-- `send_connect` sends the CONNECT. -/
  | connecting
  /-- `send_connect` reads the CONNACK, and has the bytes in its buffer. -/
  | connack (buf : List UInt8)
  /-- `post_connect_publish`, before it subscribes. -/
  | publishing
  /-- `subscribe` sends the SUBSCRIBE; as many topics are left after it. -/
  | subscribing (topics : ℕ) (pktId : UInt16)
  | suback (topics : ℕ) (pktId : UInt16) (skipped : ℕ) (part : PacketPart)
  /-- The MQTT task is connected, and not in `recv`. -/
  | idle
  | recv (readRetries : ℕ) (part : RecvPart)
  /-- The client has said that the connection is lost, or the task has given it up. -/
  | lost
  deriving DecidableEq, Repr

/-- What a read gives: at most `n + 1` of the next bytes (the end of the stream, when none is left),
the end of the stream, or an error. -/
inductive SocketEvent where
  | data (n : ℕ)
  | eof
  | error
  deriving DecidableEq, Repr

/-- What the client waits for, or is called for. -/
inductive ClientEvent where
  /-- A write is done. -/
  | sent (ok : Bool)
  /-- A read is done, and `read_exact` is late for another one. -/
  | read (event : SocketEvent) (late : Bool)
  /-- A timer of `recv` expires. -/
  | elapsed
  /-- `maybe_ping` looks at the clock. -/
  | clock (due : Bool)
  /-- The timer of the MQTT task expires, and the call of `recv` is dropped. -/
  | cancel
  /-- A call of `publish`. -/
  | publish (qos : UInt8)
  /-- `post_connect_publish` goes on to `subscribe_commands`. -/
  | subscribe
  /-- A call of `recv`. -/
  | recv
  /-- The MQTT task connects anew, since the WiFi was lost. -/
  | reconnect
  deriving DecidableEq, Repr

/-- The client in a connection, with the bytes of the broker that it has not read, and the messages
that `recv` has returned. -/
structure Connection where
  point : Point
  unread : List UInt8
  rxBuffer : List UInt8
  nextPacketId : UInt16
  returned : List Message
  deriving DecidableEq, Repr

/-- What `read_exact` has after a read. -/
inductive ReadExact where
  | done (buf : List UInt8)
  | more (buf : List UInt8)
  | failed
  deriving DecidableEq, Repr

/-- A round of the loop of `read_exact`. -/
def readExact (buf : List UInt8) (minBytes : ℕ) (late : Bool) :
    Except Unit (List UInt8) → ReadExact
  | .error _ => .failed
  | .ok bytes =>
    let buf' := buf ++ bytes
    if minBytes ≤ buf'.length then .done buf'
    else if late then .failed
    else .more buf'

/-- A read that brings enough bytes is done. -/
theorem readExact_of_le {buf bytes : List UInt8} {minBytes : ℕ} (late : Bool)
    (h : minBytes ≤ (buf ++ bytes).length) :
    readExact buf minBytes late (.ok bytes) = .done (buf ++ bytes) := if_pos h

/-- A read that brings too few goes on, unless it is late. -/
theorem readExact_of_lt {buf bytes : List UInt8} {minBytes : ℕ} (late : Bool)
    (h : (buf ++ bytes).length < minBytes) :
    readExact buf minBytes late (.ok bytes) = if late then .failed else .more (buf ++ bytes) :=
  if_neg (Nat.not_le.2 h)

/-- The length that `subscribe` computes. -/
def remainingLen (rlBuf : List UInt8) : ℕ :=
  (rlBuf.foldl (fun (len, multiplier) b =>
    (len + (b &&& 0x7F).toNat * multiplier, multiplier * 128)) (0, 1)).1

/-- The remaining length is the value of its field. -/
theorem remainingLen_eq (rlBuf : List UInt8) : remainingLen rlBuf = Varint.fieldValue rlBuf := by
  suffices ∀ len multiplier, (rlBuf.foldl (fun (len, multiplier) b =>
      (len + (b &&& 0x7F).toNat * multiplier, multiplier * 128)) (len, multiplier)).1 =
        len + multiplier * Varint.fieldValue rlBuf by
    rw [remainingLen, this, Nat.zero_add, Nat.one_mul]
  induction rlBuf with
  | nil => intro len multiplier; rfl
  | cons b rlBuf ih =>
    intro len multiplier
    rw [List.foldl_cons, ih, toNat_and_low, Varint.fieldValue]
    ring

namespace Connection

/-- `connect`, when the socket is connected: the buffer is cleared, and the CONNECT is sent. -/
def connect (stream : List UInt8) : Connection := ⟨.connecting, stream, [], 1, []⟩

/-- `allocate_packet_id`, of which the id is the one before. -/
def allocatePacketId (self : Connection) : Connection :=
  { self with
    nextPacketId := if self.nextPacketId + 1 = 0 then 1 else self.nextPacketId + 1 }

/-- A read of the socket into a buffer of `size` bytes. -/
def read (self : Connection) (size : ℕ) :
    SocketEvent → Except Unit (List UInt8) × Connection
  | .data n =>
    let taken := min (n + 1) size
    (.ok (self.unread.take taken), { self with unread := self.unread.drop taken })
  | .eof => (.ok [], self)
  | .error => (.error (), self)

/-- A read fails, or takes the next bytes, if any. -/
theorem read_cases (self : Connection) (size : ℕ) (event : SocketEvent) :
    self.read size event = (.error (), self) ∨
      ∃ bytes rest, self.unread = bytes ++ rest ∧ bytes.length ≤ size ∧
        self.read size event = (.ok bytes, { self with unread := rest }) := by
  cases event with
  | data n =>
    refine .inr ⟨self.unread.take (min (n + 1) size), self.unread.drop (min (n + 1) size),
      (List.take_append_drop _ _).symm, ?_, rfl⟩
    rw [List.length_take]
    omega
  | eof => exact .inr ⟨[], self.unread, rfl, Nat.zero_le _, rfl⟩
  | error => exact .inl rfl

/-! ## `send_connect` -/

/-- A read of `send_connect`. What its buffer holds behind the CONNACK is dropped with it. -/
def onConnack (self : Connection) (buf : List UInt8) (event : SocketEvent) (late : Bool) :
    Connection :=
  let (result, self) := self.read (64 - buf.length) event
  match readExact buf 4 late result with
  | .failed => { self with point := .lost }
  | .more buf => { self with point := .connack buf }
  | .done buf =>
    match parseConnack buf with
    | .error _ => { self with point := .lost }
    | .ok _ => { self with point := .publishing }

/-! ## `subscribe` -/

/-- A call of `subscribe`, with more topics to follow. -/
def subscribe (self : Connection) (topics : ℕ) : Connection :=
  { self.allocatePacketId with point := .subscribing topics self.nextPacketId }

/-- `subscribe` fails. `subscribe_commands` fails with it, and `post_connect_publish` does not. -/
def subscribeFailed (self : Connection) : Connection := { self with point := .idle }

/-- `subscribe` has read a packet. -/
def onSubscribePacket (self : Connection) (topics : ℕ) (pktId : UInt16) (skipped : ℕ)
    (header : UInt8) (rlBuf payloadBuf : List UInt8) : Connection :=
  if header = 0x90 then
    match parseSuback (header :: (rlBuf ++ payloadBuf)) pktId, topics with
    | .error _, _ => self.subscribeFailed
    | .ok _, 0 => { self with point := .idle }
    | .ok _, topics + 1 => self.subscribe topics
  -- The packet is skipped.
  else if skipped + 1 > 50 then self.subscribeFailed
  else if header >>> 4 = 12 then
    { self with point := .suback topics pktId (skipped + 1) .pingresp }
  else { self with point := .suback topics pktId (skipped + 1) .header }

/-- A read of `subscribe`. -/
def onSuback (self : Connection) (topics : ℕ) (pktId : UInt16) (skipped : ℕ) (part : PacketPart)
    (event : SocketEvent) (late : Bool) : Connection :=
  match part with
  | .header =>
    let (result, self) := self.read 1 event
    match readExact [] 1 late result with
    | .failed => self.subscribeFailed
    | .more _ => self
    | .done buf =>
      { self with point := .suback topics pktId skipped (.remainingLength (buf.getD 0 0) []) }
  | .remainingLength header rlBuf =>
    let (result, self) := self.read 1 event
    match readExact [] 1 late result with
    | .failed => self.subscribeFailed
    | .more _ => self
    | .done buf =>
      let rlBuf := rlBuf ++ buf
      if buf.getD 0 0 &&& 0x80 = 0 ∨ 4 ≤ rlBuf.length then
        if remainingLen rlBuf > 128 then self.subscribeFailed
        else if 0 < remainingLen rlBuf then
          { self with point := .suback topics pktId skipped (.payload header rlBuf []) }
        else self.onSubscribePacket topics pktId skipped header rlBuf []
      else { self with point := .suback topics pktId skipped (.remainingLength header rlBuf) }
  | .payload header rlBuf payloadBuf =>
    let (result, self) := self.read (remainingLen rlBuf - payloadBuf.length) event
    match readExact payloadBuf (remainingLen rlBuf) late result with
    | .failed => self.subscribeFailed
    | .more buf => { self with point := .suback topics pktId skipped (.payload header rlBuf buf) }
    | .done buf => self.onSubscribePacket topics pktId skipped header rlBuf buf
  | .pingresp => self

/-! ## `recv` -/

/-- `recv` returns a message. -/
def deliver (self : Connection) (result : Message) : Connection :=
  { self with point := .idle, returned := self.returned ++ [result] }

/-- `recv`, after `maybe_ping`: a packet of the buffer is processed, or there is none. -/
def extract (self : Connection) (readRetries : ℕ) : Connection :=
  match tryExtractPacket self.rxBuffer with
  | (none, rest) => { self with rxBuffer := rest, point := .recv readRetries .pause }
  | (some packet, rest) =>
    let self := { self with rxBuffer := rest }
    match processPackets packet with
    | .fatal => { self with point := .lost }
    | .handled => { self with point := .recv 0 .head }
    | .pingreq => { self with point := .recv 0 .pingresp }
    | .message result none => self.deliver result
    | .message result (some _) => { self with point := .recv 0 (.puback result) }

/-- A read of `recv`. -/
def onRecvRead (self : Connection) (readRetries : ℕ) (event : SocketEvent) : Connection :=
  match self.read 512 event with
  | (.error _, self) =>
    if readRetries + 1 > 100 then { self with point := .lost }
    else { self with point := .recv (readRetries + 1) .backoff }
  | (.ok bytes, self) =>
    if bytes = [] then { self with point := .lost }
    else if self.rxBuffer.length + bytes.length > 2048 then
      { self with rxBuffer := [], point := .lost }
    else { self with rxBuffer := self.rxBuffer ++ bytes, point := .recv 0 .head }

/-! ## Steps -/

/-- A write is done. -/
def onSent (self : Connection) (ok : Bool) : Connection :=
  match self.point with
  | .connecting => { self with point := if ok then .connack [] else .lost }
  | .subscribing topics pktId =>
    if ok then { self with point := .suback topics pktId 0 .header } else self.subscribeFailed
  | .suback topics pktId skipped .pingresp =>
    { self with point := .suback topics pktId skipped .header }
  | .recv _ .pinging => if ok then self.extract 0 else { self with point := .lost }
  -- That the PUBACK or the PINGRESP could not be sent is ignored.
  | .recv _ (.puback result) => self.deliver result
  | .recv _ .pingresp => { self with point := .recv 0 .head }
  | _ => self

/-- A read is done. -/
def onRead (self : Connection) (event : SocketEvent) (late : Bool) : Connection :=
  match self.point with
  | .connack buf => self.onConnack buf event late
  | .suback topics pktId skipped part => self.onSuback topics pktId skipped part event late
  | .recv readRetries .reading => self.onRecvRead readRetries event
  | _ => self

/-- A timer of `recv` expires. -/
def onElapsed (self : Connection) : Connection :=
  match self.point with
  | .recv readRetries .pause => { self with point := .recv readRetries .reading }
  | .recv readRetries .reading => { self with point := .recv readRetries .head }
  | .recv readRetries .backoff => { self with point := .recv readRetries .head }
  | _ => self

/-- A step of the connection. An event that the client does not wait for does nothing. -/
def step (self : Connection) : ClientEvent → Connection
  | .sent ok => self.onSent ok
  | .read event late => self.onRead event late
  | .elapsed => self.onElapsed
  | .clock due =>
    match self.point with
    | .recv readRetries .head =>
      if due then { self with point := .recv readRetries .pinging } else self.extract readRetries
    | _ => self
  | .cancel =>
    match self.point with
    | .recv _ _ => { self with point := .idle }
    | _ => self
  | .publish qos =>
    match self.point with
    | .publishing | .idle => if qos > 0 then self.allocatePacketId else self
    | _ => self
  | .subscribe =>
    match self.point with
    -- The topics of the commands, of the updates, and of Home Assistant's status.
    | .publishing => self.subscribe 2
    | _ => self
  | .recv =>
    match self.point with
    | .idle => { self with point := .recv 0 .head }
    | _ => self
  | .reconnect =>
    match self.point with
    | .idle => { self with point := .lost }
    | _ => self

end Connection

end Launa.App
