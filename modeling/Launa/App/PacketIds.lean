import Launa.App.MqttReceive
import Mathlib.Data.List.Nodup

/-!
# Packet ids

`connect` starts the counter of the packet ids at 1, and `allocate_packet_id` steps it from 65535
to 1. So the ids go round in a cycle of 65535 (`packetIds_eq`), without zero. A step of the client
hands out at most one (`advances_step`), and nothing else moves the counter, so that this is so in
every run of a connection.
-/

namespace Launa.App.Connection

/-- The ids of so many calls of `allocate_packet_id`. -/
def packetIds : ℕ → Connection → List UInt16
  | 0, _ => []
  | n + 1, self => self.nextPacketId :: packetIds n self.allocatePacketId

/-- The ids that a run of the client hands out: one at every step that moves the counter. -/
def handedOut (self : Connection) : List ClientEvent → List UInt16
  | [] => []
  | event :: events =>
    if (self.step event).nextPacketId = self.nextPacketId then (self.step event).handedOut events
    else self.nextPacketId :: (self.step event).handedOut events

/-- No id is zero, and of 65535 in a row no two are the same. -/
structure Cyclic (ids : List UInt16) : Prop where
  ne_zero : ∀ id ∈ ids, id ≠ 0
  nodup : ∀ k, ((ids.drop k).take 65535).Nodup

variable {self self' : Connection}

/-! ## Calls in a row -/

/-- The identifier behind an allocated one is not zero. -/
theorem nextPacketId_ne_zero (self : Connection) : self.allocatePacketId.nextPacketId ≠ 0 := by
  rw [allocatePacketId]
  dsimp only
  split
  · decide
  · assumption

/-- The counter goes round between 1 and 65535. -/
theorem toNat_nextPacketId (h : self.nextPacketId ≠ 0) :
    self.allocatePacketId.nextPacketId.toNat = 1 + self.nextPacketId.toNat % 65535 := by
  have hlt := self.nextPacketId.toNat_lt
  have hpos : self.nextPacketId.toNat ≠ 0 := fun hzero => h (UInt16.toNat_inj.1 hzero)
  have hsucc : (self.nextPacketId + 1).toNat = (self.nextPacketId.toNat + 1) % 2 ^ 16 :=
    UInt16.toNat_add _ _
  rw [allocatePacketId]
  dsimp only
  split
  -- The successor of 65535 is 0, which is skipped.
  · rename_i hwrap
    rw [hwrap] at hsucc
    have hlast : self.nextPacketId.toNat = 65535 := by
      rw [UInt16.toNat_zero] at hsucc
      omega
    rw [hlast]
    rfl
  · rename_i hwrap
    have hne : (self.nextPacketId + 1).toNat ≠ 0 := fun hzero => hwrap (UInt16.toNat_inj.1 hzero)
    omega

/-- The ids of calls in a row, from the first one on. -/
theorem packetIds_eq (n : ℕ) (h : self.nextPacketId ≠ 0) :
    packetIds n self = (List.range n).map fun i =>
      UInt16.ofNat (1 + (self.nextPacketId.toNat - 1 + i) % 65535) := by
  induction n generalizing self with
  | zero => rfl
  | succ n ih =>
    have hlt := self.nextPacketId.toNat_lt
    have hpos : self.nextPacketId.toNat ≠ 0 := fun hzero => h (UInt16.toNat_inj.1 hzero)
    have hnext := toNat_nextPacketId h
    have hfirst : self.nextPacketId =
        UInt16.ofNat (1 + (self.nextPacketId.toNat - 1 + 0) % 65535) := by
      have hval : 1 + (self.nextPacketId.toNat - 1 + 0) % 65535 = self.nextPacketId.toNat := by
        omega
      rw [hval, UInt16.ofNat_toNat]
    rw [packetIds, ih self.nextPacketId_ne_zero, List.range_succ_eq_map, List.map_cons,
      List.map_map, ← hfirst]
    congr 1
    refine List.map_congr_left fun i _ => congrArg UInt16.ofNat ?_
    rw [hnext]
    omega

/-- Without the first identifiers those of a later connection are left. -/
theorem drop_packetIds (n k : ℕ) :
    (packetIds n self).drop k = packetIds (n - k) (allocatePacketId^[k] self) := by
  induction k generalizing n self with
  | zero => rfl
  | succ k ih =>
    cases n with
    | zero =>
      rw [Nat.zero_sub]
      rfl
    | succ n =>
      rw [packetIds, List.drop_succ_cons, ih, Nat.add_sub_add_right]
      rfl

/-- The first identifiers are those of fewer calls. -/
theorem take_packetIds (n k : ℕ) : (packetIds n self).take k = packetIds (min k n) self := by
  induction k generalizing n self with
  | zero => rw [Nat.zero_min]; rfl
  | succ k ih =>
    cases n with
    | zero => rfl
    | succ n =>
      rw [packetIds, List.take_succ_cons, ih, Nat.succ_min_succ]
      rfl

/-- No identifier that follows is zero. -/
theorem nextPacketId_iterate_ne_zero (h : self.nextPacketId ≠ 0) (k : ℕ) :
    (allocatePacketId^[k] self).nextPacketId ≠ 0 := by
  cases k with
  | zero => exact h
  | succ k =>
    rw [Function.iterate_succ_apply']
    exact nextPacketId_ne_zero _

/-- Up to 65535 calls in a row return different ids. -/
theorem nodup_packetIds {n : ℕ} (h : self.nextPacketId ≠ 0) (hn : n ≤ 65535) :
    (packetIds n self).Nodup := by
  rw [packetIds_eq n h]
  refine List.Nodup.map_on (fun i hi j hj heq => ?_) List.nodup_range
  rw [List.mem_range] at hi hj
  have hnat := congrArg UInt16.toNat heq
  rw [UInt16.toNat_ofNat_of_lt' (show _ < 2 ^ 16 by omega),
    UInt16.toNat_ofNat_of_lt' (show _ < 2 ^ 16 by omega)] at hnat
  omega

/-- From every counter but zero, the ids of calls in a row go round. -/
theorem cyclic_packetIds (h : self.nextPacketId ≠ 0) (n : ℕ) : Cyclic (packetIds n self) := by
  constructor
  · intro id hid
    rw [packetIds_eq n h, List.mem_map] at hid
    obtain ⟨i, -, rfl⟩ := hid
    intro hzero
    have hnat := congrArg UInt16.toNat hzero
    rw [UInt16.toNat_ofNat_of_lt' (show _ < 2 ^ 16 by omega), UInt16.toNat_zero] at hnat
    omega
  · intro k
    rw [drop_packetIds, take_packetIds]
    exact nodup_packetIds (nextPacketId_iterate_ne_zero h k) (Nat.min_le_left _ _)

/-! ## Runs -/

/-- What a step does to the counter: nothing, or one call of `allocate_packet_id`. -/
def Advances (self self' : Connection) : Prop :=
  self'.nextPacketId = self.nextPacketId ∨
    self'.nextPacketId = self.allocatePacketId.nextPacketId

/-- A read leaves the identifiers alone. -/
theorem nextPacketId_read (self : Connection) (size : ℕ) (event : SocketEvent) :
    (self.read size event).2.nextPacketId = self.nextPacketId := by
  cases event <;> rfl

/-- Taking a packet leaves the identifiers alone. -/
theorem nextPacketId_extract (self : Connection) (readRetries : ℕ) :
    (self.extract readRetries).nextPacketId = self.nextPacketId := by
  unfold extract
  split
  · rfl
  · dsimp only
    split <;> rfl

/-- Receiving leaves the identifiers alone. -/
theorem nextPacketId_onRecvRead (self : Connection) (readRetries : ℕ) (event : SocketEvent) :
    (self.onRecvRead readRetries event).nextPacketId = self.nextPacketId := by
  have hread := self.nextPacketId_read 512 event
  unfold onRecvRead
  split
  all_goals
    rename_i heq
    rw [heq] at hread
    split_ifs <;> exact hread

/-- Connecting leaves the identifiers alone. -/
theorem nextPacketId_onConnack (self : Connection) (buf : List UInt8) (event : SocketEvent)
    (late : Bool) : (self.onConnack buf event late).nextPacketId = self.nextPacketId := by
  have hread := self.nextPacketId_read (64 - buf.length) event
  unfold onConnack
  dsimp only
  split
  · exact hread
  · exact hread
  · split <;> exact hread

/-- The next topic is subscribed to with an id of its own. -/
theorem advances_onSubscribePacket (self : Connection) (topics : ℕ) (pktId : UInt16)
    (skipped : ℕ) (header : UInt8) (rlBuf payloadBuf : List UInt8) :
    Advances self (self.onSubscribePacket topics pktId skipped header rlBuf payloadBuf) := by
  unfold onSubscribePacket
  split_ifs
  · split
    · exact .inl rfl
    · exact .inl rfl
    · exact .inr rfl
  · exact .inl rfl
  · exact .inl rfl
  · exact .inl rfl

/-- Identifiers advance from a connection with the same next one. -/
theorem Advances.of_eq (h : Advances self self') {start : Connection}
    (heq : self.nextPacketId = start.nextPacketId) : Advances start self' := by
  unfold Advances allocatePacketId at h ⊢
  rw [heq] at h
  exact h

/-- Subscribing advances the identifiers. -/
theorem advances_onSuback (self : Connection) (topics : ℕ) (pktId : UInt16) (skipped : ℕ)
    (part : PacketPart) (event : SocketEvent) (late : Bool) :
    Advances self (self.onSuback topics pktId skipped part event late) := by
  cases part with
  | header =>
    have hread := self.nextPacketId_read 1 event
    unfold onSuback
    dsimp only
    split <;> exact .inl hread
  | remainingLength header rlBuf =>
    have hread := self.nextPacketId_read 1 event
    unfold onSuback
    dsimp only
    split
    · exact .inl hread
    · exact .inl hread
    · split_ifs
      · exact .inl hread
      · exact .inl hread
      · exact (advances_onSubscribePacket _ _ _ _ _ _ _).of_eq hread
      · exact .inl hread
  | payload header rlBuf payloadBuf =>
    have hread := self.nextPacketId_read (remainingLen rlBuf - payloadBuf.length) event
    unfold onSuback
    dsimp only
    split
    · exact .inl hread
    · exact .inl hread
    · exact (advances_onSubscribePacket _ _ _ _ _ _ _).of_eq hread
  | pingresp => exact .inl rfl

/-- A packet that is sent leaves the identifiers alone. -/
theorem nextPacketId_onSent (self : Connection) (ok : Bool) :
    (self.onSent ok).nextPacketId = self.nextPacketId := by
  have hextract := self.nextPacketId_extract 0
  unfold onSent
  split
  · rfl
  · split <;> rfl
  · rfl
  · split
    · exact hextract
    · rfl
  · rfl
  · rfl
  · rfl

/-- A time that has elapsed leaves the identifiers alone. -/
theorem nextPacketId_onElapsed (self : Connection) :
    self.onElapsed.nextPacketId = self.nextPacketId := by
  unfold onElapsed
  split <;> rfl

/-- A read advances the identifiers. -/
theorem advances_onRead (self : Connection) (event : SocketEvent) (late : Bool) :
    Advances self (self.onRead event late) := by
  unfold onRead
  split
  · exact .inl (self.nextPacketId_onConnack _ event late)
  · exact self.advances_onSuback _ _ _ _ event late
  · exact .inl (self.nextPacketId_onRecvRead _ event)
  · exact .inl rfl

/-- A step of the client hands out at most one id. -/
theorem advances_step (self : Connection) (event : ClientEvent) :
    Advances self (self.step event) := by
  cases event with
  | sent ok => exact .inl (self.nextPacketId_onSent ok)
  | read event late => exact self.advances_onRead event late
  | elapsed => exact .inl self.nextPacketId_onElapsed
  | clock due =>
    simp only [step]
    split
    · split
      · exact .inl rfl
      · exact .inl (self.nextPacketId_extract _)
    · exact .inl rfl
  | publish qos =>
    simp only [step]
    split
    · split
      · exact .inr rfl
      · exact .inl rfl
    · split
      · exact .inr rfl
      · exact .inl rfl
    · exact .inl rfl
  | subscribe =>
    simp only [step]
    split
    · exact .inr rfl
    · exact .inl rfl
  | _ =>
    simp only [step]
    split <;> exact .inl rfl

/-- Only the counter decides on the ids of calls in a row. -/
theorem packetIds_congr (n : ℕ) (h : self.nextPacketId = self'.nextPacketId) :
    packetIds n self = packetIds n self' := by
  induction n generalizing self self' with
  | zero => rfl
  | succ n ih =>
    have hnext : self.allocatePacketId.nextPacketId = self'.allocatePacketId.nextPacketId := by
      rw [allocatePacketId, allocatePacketId, h]
    rw [packetIds, packetIds, h, ih hnext]

/-- The ids that a run hands out are those of calls in a row. -/
theorem handedOut_eq_packetIds (self : Connection) (events : List ClientEvent) :
    ∃ n, self.handedOut events = packetIds n self := by
  induction events generalizing self with
  | nil => exact ⟨0, rfl⟩
  | cons event events ih =>
    obtain ⟨n, hn⟩ := ih (self.step event)
    rw [handedOut]
    split
    -- A step that leaves the counter hands out nothing, and else it hands out the counter.
    · rename_i hsame
      exact ⟨n, hn.trans (packetIds_congr n hsame)⟩
    · rename_i hmoves
      have hnext := (self.advances_step event).resolve_left hmoves
      exact ⟨n + 1, by rw [hn, packetIds_congr n hnext, packetIds]⟩

/-- Within a connection no id is zero, and of 65535 in a row no two are the same: for calls of
`allocate_packet_id` in any number, and in every run of the client. -/
theorem cyclic_ids (stream : List UInt8) :
    (∀ n, Cyclic (packetIds n (connect stream))) ∧
      ∀ events, Cyclic ((connect stream).handedOut events) := by
  have hstart : (connect stream).nextPacketId ≠ 0 := by
    change (1 : UInt16) ≠ 0
    decide
  refine ⟨cyclic_packetIds hstart, fun events => ?_⟩
  obtain ⟨n, hn⟩ := handedOut_eq_packetIds (connect stream) events
  rw [hn]
  exact cyclic_packetIds hstart n

end Launa.App.Connection
