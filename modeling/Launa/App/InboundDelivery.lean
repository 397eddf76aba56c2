import Launa.App.Alignment

/-!
# Delivery of inbound messages

A client that keeps to the packets of the broker has returned the messages of the packets before,
and a call of `recv` that is left alone returns the next one (`returns_of_head`). So every PUBLISH
packet is delivered in a run that loses none on the way (`delivers_of_along`). Packets are lost in
four places: behind the CONNACK, before the last SUBACK, when `subscribe` fails within a packet, and
when the timer of the MQTT task drops a call of `recv` that sends a PUBACK.
-/

namespace Launa.App

open Run Mqtt

/-- What happens in a call of `recv` that is left alone, on a connection that works. -/
def ClientEvent.Prompt : ClientEvent → Prop
  | .recv | .clock false | .sent true | .elapsed | .read (.data _) _ => True
  | _ => False

namespace Connection

/-- The bytes that the client has read and not used yet. -/
def held (self : Connection) : List UInt8 :=
  match self.point with
  | .connack buf => buf
  | .suback _ _ _ (.remainingLength header rlBuf) => header :: rlBuf
  | .suback _ _ _ (.payload header rlBuf payloadBuf) => header :: (rlBuf ++ payloadBuf)
  | _ => self.rxBuffer

end Connection

/-- Prompt steps lead from the connection to one that has returned one more message than these, or
is lost. -/
def Returns (returned : List Message) (self : Connection) : Prop :=
  ∃ events : List ClientEvent, (∀ event ∈ events, event.Prompt) ∧
    ((events.foldl Connection.step self).point = .lost ∨
      ∃ m, (events.foldl Connection.step self).returned = returned ++ [m])

/-- Of the packets that the broker sends, every PUBLISH packet is returned once and in order. -/
structure Delivers (packets : List BrokerPacket) (conn : Connection) : Prop where
  /-- The messages of some first packets are returned, and the bytes of the others are there. -/
  inOrder : ∃ done left, packets = done ++ left ∧ conn.returned ++ conn.pending = published done ∧
    conn.held ++ conn.unread = stream left
  /-- When `recv` has read everything and waits for more, all messages are returned. -/
  complete : ∀ readRetries, conn.point = .recv readRetries .reading → conn.unread = [] →
    conn.returned = published packets
  /-- While there are messages, a call of `recv` that is left alone returns one, or loses the
  connection. -/
  progress : conn.point = .idle → conn.returned ≠ published packets → Returns conn.returned conn

namespace Aligned

variable {all : List BrokerPacket}

/-- What was returned and what is pending is what the packets so far publish. -/
theorem inOrder {self : Connection} (h : Aligned all self) (hlost : self.point ≠ .lost) :
    ∃ done left, all = done ++ left ∧ self.returned ++ self.pending = published done ∧
      self.held ++ self.unread = stream left := by
  cases h with
  | connecting => exact ⟨[], all, rfl, rfl, rfl⟩
  | connack _ bytes => exact ⟨[], all, rfl, rfl, bytes⟩
  | @between point hpoint _ done left split quiet =>
    refine ⟨done, left, split, ?_, ?_⟩
    · rw [quiet]
      cases hpoint <;> rfl
    · cases hpoint <;> rfl
  | @inLength topics pktId skipped _ p done left split quiet kind rlBuf tail field =>
    refine ⟨done, p :: left, split, quiet.symm, ?_⟩
    -- The client holds the first bytes of the packet.
    show p.first :: (rlBuf ++ (tail ++ (p.body ++ stream left))) = _
    rw [← List.append_assoc rlBuf, ← field, stream_cons, BrokerPacket.bytes, List.cons_append,
      List.append_assoc]
  | @inPayload topics pktId skipped _ p done left split quiet kind payloadBuf tail body =>
    refine ⟨done, p :: left, split, quiet.symm, ?_⟩
    show p.first :: ((p.field ++ payloadBuf) ++ (tail ++ stream left)) = _
    rw [List.append_assoc, ← List.append_assoc payloadBuf, ← body, stream_cons,
      BrokerPacket.bytes, List.cons_append, List.append_assoc]
  | @receiving point hpoint _ done left split rxBuffer unread bytes =>
    refine ⟨done, left, split, ?_, ?_⟩
    · cases hpoint <;> exact List.append_nil _
    · cases hpoint <;> exact bytes
  | @waiting point hpoint _ done left split rxBuffer unread bytes =>
    refine ⟨done, left, split, ?_, ?_⟩
    · cases hpoint <;> exact List.append_nil _
    · cases hpoint <;> exact bytes
  | @puback _ result _ done left split rxBuffer unread bytes returned held =>
    exact ⟨done, left, split, held, bytes⟩
  | lost => exact absurd rfl hlost

/-- When everything was read, everything was returned. -/
theorem complete {self : Connection} (h : Aligned all self) (readRetries : ℕ)
    (hpoint : self.point = .recv readRetries .reading) (hunread : self.unread = []) :
    self.returned = published all := by
  cases h with
  | @waiting point _ _ done left split rxBuffer unread bytes drained =>
    subst hunread
    -- With nothing left to read, the buffer would hold the rest of the packets.
    rcases tryExtractPacket_stream bytes with ⟨-, hleft⟩ | ⟨p, left', rest, -, hsome, -⟩
    · rw [split, hleft rfl, List.append_nil]
    · rw [drained] at hsome
      exact absurd (congrArg Prod.fst hsome) (Option.some_ne_none _).symm
  | between hbetween => cases hbetween <;> cases hpoint
  | receiving hreceiving => cases hreceiving <;> cases hpoint
  | _ => cases hpoint

end Aligned

/-- What is returned after a prompt event is returned. -/
theorem Returns.of_step {returned : List Message} {self : Connection} (event : ClientEvent)
    (hprompt : event.Prompt) (h : Returns returned (self.step event)) : Returns returned self := by
  obtain ⟨events, hevents, hresult⟩ := h
  exact ⟨event :: events, List.forall_mem_cons.2 ⟨hprompt, hevents⟩, hresult⟩

/-- A lost connection returns nothing more. -/
theorem returns_of_lost {returned : List Message} {self : Connection} (h : self.point = .lost) :
    Returns returned self := ⟨[], fun _ h => absurd h List.not_mem_nil, .inl h⟩

/-- A message that was returned is one more. -/
theorem returns_of_eq {returned : List Message} {self : Connection} {m : Message}
    (h : self.returned = returned ++ [m]) : Returns returned self :=
  ⟨[], fun _ h => absurd h List.not_mem_nil, .inr ⟨m, h⟩⟩

/-- A read gives `recv` more bytes. -/
theorem returns_of_read (readRetries : ℕ) (nextId : UInt16) {returned : List Message}
    {rxBuffer unread : List UInt8} (hunread : unread ≠ [])
    (hnext : Returns returned
      ⟨.recv 0 .head, unread.drop 512, rxBuffer ++ unread.take 512, nextId, returned⟩) :
    Returns returned (Connection.onRecvRead
      ⟨.recv readRetries .reading, unread, rxBuffer, nextId, returned⟩ readRetries
      (.data 511)) := by
  unfold Connection.onRecvRead
  dsimp only [Connection.read]
  have htaken : unread.take (min (511 + 1) 512) ≠ [] := by
    rw [Ne, List.take_eq_nil_iff]
    simpa using hunread
  rw [if_neg htaken]
  split
  · exact returns_of_lost rfl
  · exact hnext

/-- A packet of the buffer is returned, if it is a message, and it is processed otherwise. -/
theorem returns_of_packet (readRetries : ℕ) (nextId : UInt16) {returned : List Message}
    {p : BrokerPacket} {rxBuffer rest unread : List UInt8}
    (hsome : tryExtractPacket rxBuffer = (some p.bytes, rest))
    (hnext : p.message = none →
      Returns returned ⟨.recv 0 .head, unread, rest, nextId, returned⟩) :
    Returns returned (Connection.extract
      ⟨.recv readRetries .head, unread, rxBuffer, nextId, returned⟩ readRetries) := by
  unfold Connection.extract
  rw [hsome]
  dsimp only
  have hp := processPackets_bytes p
  cases hmessage : p.message with
  | some m =>
    rw [hmessage] at hp
    obtain ⟨pktId, hprocessed⟩ := hp
    rw [hprocessed]
    cases pktId with
    -- Without a packet id nothing is sent before.
    | none => exact returns_of_eq rfl
    | some pktId => exact .of_step (.sent true) trivial (returns_of_eq rfl)
  | none =>
    rw [hmessage] at hp
    cases hprocessed : processPackets p.bytes with
    | fatal => exact returns_of_lost rfl
    | handled => exact hnext hmessage
    | pingreq => exact .of_step (.sent true) trivial (hnext hmessage)
    | message m pktId => exact absurd hprocessed (hp m pktId)

/-- From the head of its loop `recv` gets to the next message, since it makes the bytes that are
left fewer, or moves them to its buffer. -/
theorem returns_of_head (size readRetries : ℕ) (nextId : UInt16) (returned : List Message)
    {left : List BrokerPacket} {rxBuffer unread : List UInt8}
    (bytes : rxBuffer ++ unread = stream left) (hleft : published left ≠ [])
    (hsize : 2 * unread.length + rxBuffer.length ≤ size) :
    Returns returned ⟨.recv readRetries .head, unread, rxBuffer, nextId, returned⟩ := by
  induction size generalizing readRetries left rxBuffer unread with
  | zero =>
    obtain rfl : unread = [] := List.eq_nil_of_length_eq_zero (by omega)
    obtain rfl : rxBuffer = [] := List.eq_nil_of_length_eq_zero (by omega)
    cases left with
    | nil => exact absurd rfl hleft
    | cons p left => exact absurd bytes (List.cons_ne_nil _ _).symm
  | succ size ih =>
    refine .of_step (.clock false) trivial ?_
    show Returns returned (Connection.extract _ readRetries)
    rcases tryExtractPacket_stream bytes with
      ⟨hnone, hnil⟩ | ⟨p, left', rest, rfl, hsome, hrest⟩
    · -- There is no packet in the buffer, and a read gives more bytes.
      have hunread : unread ≠ [] := by
        intro h
        rw [hnil h] at hleft
        exact hleft rfl
      have hpos := List.length_pos_of_ne_nil hunread
      unfold Connection.extract
      rw [hnone]
      refine .of_step .elapsed trivial (.of_step (.read (.data 511) false) trivial ?_)
      show Returns returned (Connection.onRecvRead
        ⟨.recv readRetries .reading, unread, rxBuffer, nextId, returned⟩ readRetries (.data 511))
      refine returns_of_read readRetries nextId hunread (ih 0 ?_ hleft ?_)
      · rwa [List.append_assoc, List.take_append_drop]
      · rw [List.length_append, List.length_take, List.length_drop]
        omega
    · -- The first packet is processed.
      refine returns_of_packet readRetries nextId hsome fun hmessage => ih 0 hrest ?_ ?_
      · rwa [published, List.filterMap_cons_none hmessage] at hleft
      · have hshorter := tryExtractPacket_length_lt hsome
        omega

/-- A client that waits and has not returned everything goes on. -/
theorem Aligned.progress {all : List BrokerPacket} {self : Connection} (h : Aligned all self)
    (hpoint : self.point = .idle) (hreturned : self.returned ≠ published all) :
    Returns self.returned self := by
  cases h with
  | @receiving point hreceiving nextId done left split rxBuffer unread bytes =>
    obtain rfl : point = .idle := hpoint
    refine .of_step .recv trivial (returns_of_head _ 0 nextId _ bytes ?_ (Nat.le_refl _))
    intro hleft
    refine hreturned ?_
    rw [split, published_append, hleft, List.append_nil]
  | between hbetween => cases hbetween <;> cases hpoint
  | waiting hwaiting => cases hwaiting <;> cases hpoint
  | _ => cases hpoint

/-- In every run in which no packet is lost on the way, every PUBLISH packet of the broker is
returned once and in order, unless the connection is lost. -/
theorem delivers_of_along (flags code : UInt8) (packets : List BrokerPacket)
    (events : List ClientEvent)
    (h : Along Connection.step Connection.Careful
      (.connect (stream (.connack flags code :: packets))) events) :
    let self := events.foldl Connection.step (.connect (stream (.connack flags code :: packets)))
    self.point = .lost ∨ Delivers (.connack flags code :: packets) self := by
  intro self
  have haligned : Aligned (.connack flags code :: packets) self :=
    h.invariant (I := Aligned _) (fun _ event hself hcareful => hself.step event hcareful)
      (.connecting 1)
  by_cases hlost : self.point = .lost
  · exact .inl hlost
  · exact .inr ⟨haligned.inOrder hlost, haligned.complete, haligned.progress⟩

/-- The SUBACK of a subscription with quality of service 1. -/
def subackPacket (pktId : UInt16) : BrokerPacket where
  first := 0x90
  field := [0x03]
  body := toBeBytes pktId ++ [0x01]
  message := none
  isField := .last (by decide)
  length_field := by decide
  length_body := rfl
  carries := .other (by decide) _

/-- A message of one byte on the topic `a`, with quality of service 1. -/
def publishPacket : BrokerPacket where
  first := 0x32
  field := [0x06]
  body := publishBody "a" [0x31] 1 (some 5)
  message := some ("a", [0x31])
  isField := .last (by decide)
  length_field := by decide
  length_body := by decide +kernel
  carries := .publish (by decide) "a" (by decide +kernel) 5 [0x31]

/-- The PUBACK of a message of the client. It has two bytes, as a CONNACK has. -/
def pubackPacket (pktId : UInt16) : BrokerPacket :=
  { BrokerPacket.connack 0 0 with
    first := 0x40
    body := toBeBytes pktId
    length_body := rfl
    carries := .other (by decide) _ }

/-- The availability, the boot and the discovery of 32 entities are published with quality of
service 1. -/
def publishCount : ℕ := 34

/-- Their PUBACKs. -/
def pubackPackets : List BrokerPacket :=
  (List.range publishCount).map fun i => pubackPacket (UInt16.ofNat (i + 1))

/-- The SUBACKs of the topics, whose ids are the next ones. -/
def subackPackets : List BrokerPacket := [subackPacket 35, subackPacket 36, subackPacket 37]

/-- The CONNECT is sent, the CONNACK is read, and no more, and what is known is published. -/
def connectEvents : List ClientEvent :=
  [.sent true, .read (.data 3) false] ++ List.replicate publishCount (.publish 1) ++ [.subscribe]

/-- `subscribe` reads a packet with so many bytes behind its length, and one more. -/
def packetEvents (n : ℕ) : List ClientEvent :=
  [.read (.data 0) false, .read (.data 0) false, .read (.data n) false]

/-- The PUBACKs are read. -/
def pubackEvents : List ClientEvent := (List.replicate publishCount (packetEvents 1)).flatten

/-- The SUBSCRIBE is sent, and the SUBACK is read. -/
def subscribeEvents : List ClientEvent := .sent true :: packetEvents 2

/-- The message comes behind the last SUBACK, in two reads between which the timer expires, and is
returned. -/
theorem delivers_publishPacket :
    let packets := pubackPackets ++ subackPackets ++ [publishPacket]
    let events := connectEvents ++ (.sent true :: pubackEvents ++ packetEvents 2) ++
      subscribeEvents ++ subscribeEvents ++
      [.recv, .clock false, .elapsed, .read (.data 2) false, .clock false, .cancel, .recv,
        .clock false, .elapsed, .read (.data 511) false, .clock false, .sent true]
    let self := events.foldl Connection.step (.connect (stream (.connack 0 0 :: packets)))
    (self.point = .lost ∨ Delivers (.connack 0 0 :: packets) self) ∧
      self.returned = [("a", [0x31])] := by
  exact ⟨delivers_of_along 0 0 _ _ (by decide +kernel), by decide +kernel⟩

/-- A message that comes before the SUBACK is not returned. -/
theorem not_delivers_publishPacket :
    let packets := publishPacket :: pubackPackets ++ subackPackets
    let events := connectEvents ++
      (.sent true :: packetEvents 5 ++ pubackEvents ++ packetEvents 2) ++
      subscribeEvents ++ subscribeEvents ++ [.recv, .clock false, .elapsed]
    let self := events.foldl Connection.step (.connect (stream (.connack 0 0 :: packets)))
    ¬ (self.point = .lost ∨ Delivers (.connack 0 0 :: packets) self) := by
  rintro _ _ self (hlost | hdelivers)
  · exact absurd hlost (by decide +kernel)
  · have hreturned : self.returned = _ :=
      hdelivers.complete 0 (by decide +kernel) (by decide +kernel)
    exact absurd hreturned (by decide +kernel)

end Launa.App
