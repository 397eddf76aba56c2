import Launa.App.Sniff
import Launa.Core.Transitions
import Launa.Lib.Mealy

/-!
# The firmware on the bus

The UART task and the main loop of `main.rs` share channels and flags, and take turns where they
wait. The task decodes what it reads, answers a query for new clients at once, passes the frames on,
and writes what the main loop has queued. However the two take turns, the app is given the frames
that are decoded from the bytes, in order, and what is written is what the app asked for, and a
response to each query that found the app unregistered (`run_follows`).
-/

namespace Launa.App

open Launa.Core Mealy Mqtt Protocol

/-! ## The source -/

/-- `derive_client_hash`. -/
def deriveClientHash (deviceId : String) : ClientHash :=
  let h : UInt16 := (asBytes deviceId).foldl (fun h b => (h ^^^ b.toUInt16) * 0x0101) 0x811C
  let h := if h = 0 then 1 else h
  let h := if h = 0xF173 then 0xF174 else h
  ((h >>> 8).toUInt8, (h &&& 0xFF).toUInt8)

/-- The capacity of the channels of frames, packets, commands and timers. -/
def channelSize : ℕ := 4

/-- Where bytes on the bus come from: the other side, or two places of the UART task. -/
inductive Origin where
  | bus | fastPath | queue
  deriving DecidableEq, Repr

/-- The direction that is recorded. -/
def Origin.dir : Origin → Direction
  | .bus => .rx
  | .fastPath | .queue => .tx

/-- What can be seen of the firmware. -/
inductive BusOutput where
  /-- A capture begins. -/
  | started (now : UInt64)
  /-- Bytes are read, or given to the transport. -/
  | passed (origin : Origin) (now : UInt64) (data : List UInt8)
  /-- The document of a capture goes to its channel. -/
  | published (document : List Char)
  | panicked
  | decoded (frame : Frame)
  | called (c : Timestamp × AppCall)
  /-- A packet goes to the channel of the UART task, or there is no room for it. -/
  | queued (bytes : List UInt8)
  | dropped (bytes : List UInt8)

/-- The state of the UART task, of the main loop, and what they share. -/
structure Firmware where
  decoder : FrameDecoder
  /-- The bytes of the last read that have not been decoded. -/
  pending : List UInt8
  /-- The frame that waits for room in its channel. -/
  sending : Option Frame
  /-- The UART task waits for bytes. -/
  reading : Bool
  sniff : SniffState
  app : SpaApp
  sniffMode : Bool
  /-- The main loop waits for the reset. -/
  rebooting : Bool
  sniffCapture : UInt16
  appRegistered : Bool
  regClientHash : UInt16
  frameChannel : List Frame
  uartTxChannel : List (List UInt8)
  commandChannel : List Command
  pumpTimerChannel : List (UInt8 × UInt32)

/-- What a part of the firmware does. -/
abbrev BusAction := Firmware → List BusOutput × Firmware

/-- A query for new clients, as the fast path sees it. -/
def isNewClientQuery (frame : Frame) : Bool :=
  frame.messageType = (0xFE, 0xBF) && frame.payload.head? = some 0x00

/-- The response of the fast path. -/
def fastPathResponse (hashBe : UInt16) : RegistrationMessage :=
  .newClientResponse 0x02 ((hashBe >>> 8).toUInt8, (hashBe &&& 0xFF).toUInt8)

namespace Firmware

/-- The state behind the set-up, with the app of `new_from_device_id`, in a boot that has no new
firmware to validate: there the loop that validates it has an app of its own. -/
def start (now : Timestamp) (deviceId : String) : Firmware where
  decoder := .new
  pending := []
  sending := none
  reading := false
  sniff := .new
  app := .withClientHash now (deriveClientHash deviceId)
  sniffMode := false
  rebooting := false
  sniffCapture := 0
  appRegistered := false
  regClientHash :=
    (deriveClientHash deviceId).1.toUInt16 <<< 8 ||| (deriveClientHash deviceId).2.toUInt16
  frameChannel := []
  uartTxChannel := []
  commandChannel := []
  pumpTimerChannel := []

/-! ### `uart_task` -/

/-- `check_start`. -/
def checkStart (now : UInt64) : BusAction := fun s =>
  let sniff := s.sniff.checkStart s.sniffCapture now
  (if !s.sniff.active && sniff.active then [.started now] else [], { s with sniff := sniff })

/-- Bytes pass over the bus and are recorded. A capture that ends is published. -/
def passBytes (origin : Origin) (now later : UInt64) (data : List UInt8) : BusAction := fun s =>
  match s.sniff.recordChunk now origin.dir data with
  | (false, sniff) => ([.passed origin now data], { s with sniff := sniff })
  | (true, sniff) =>
    match sniff.finish later with
    | some (document, sniff) =>
      ([.passed origin now data, .published document],
        { s with sniff := sniff, sniffCapture := 0 })
    | none => ([.passed origin now data, .panicked], { s with sniff := sniff })

/-- The fast path. -/
def answerQuery (frame : Frame) (now later : UInt64) : BusAction := fun s =>
  if isNewClientQuery frame && !s.appRegistered then
    match (fastPathResponse s.regClientHash).encode with
    | .ok encoded => passBytes .fastPath now later encoded s
    | .error _ => ([], s)
  else ([], s)

/-- The next byte of a read is decoded. A frame is then to be sent to its channel. -/
def uartByte (now later : UInt64) : BusAction := fun s =>
  match s.sending, s.pending with
  | none, byte :: pending =>
    match s.decoder.feed byte with
    | (none, decoder) => ([], { s with decoder := decoder, pending := pending })
    | (some frame, decoder) =>
      andThen (fun s => ([.decoded frame], s)) (answerQuery frame now later)
        { s with decoder := decoder, pending := pending, sending := some frame }
  | _, _ => ([], s)

/-- `frame_sender.send`, when there is room. -/
def uartSend : BusAction := fun s =>
  match s.sending with
  | some frame =>
    if s.frameChannel.length < channelSize then
      ([], { s with sending := none, frameChannel := s.frameChannel ++ [frame] })
    else ([], s)
  | none => ([], s)

/-- The bus is idle. -/
def transmit (now later : UInt64) : BusAction := fun s =>
  match s.uartTxChannel with
  | data :: packets => passBytes .queue now later data { s with uartTxChannel := packets }
  | [] => ([], s)

/-- Bytes have been read, and are to be decoded. -/
def takeBytes (now later : UInt64) (data : List UInt8) : BusAction :=
  andThen (passBytes .bus now later data) fun s => ([], { s with pending := data })

/-- The loop of the task begins, and the task waits for bytes. -/
def uartCheck (now : UInt64) : BusAction := fun s =>
  match s.reading, s.sending, s.pending with
  | false, none, [] => checkStart now { s with reading := true }
  | _, _, _ => ([], s)

/-- The wait ends with what is read: an error, or some bytes. There are none when nothing arrives in
time. -/
def uartRead (now later : UInt64) (read : Option (List UInt8)) : BusAction := fun s =>
  match s.reading, s.pending with
  | true, [] =>
    (match read with
      | none => skip
      | some [] => transmit now later
      | some data => takeBytes now later data) { s with reading := false }
  | _, _ => ([], s)

/-! ### The main loop -/

/-- A packet is sent to the UART task, or dropped. -/
def trySend (bytes : List UInt8) : BusAction := fun s =>
  if s.uartTxChannel.length < channelSize then
    ([.queued bytes], { s with uartTxChannel := s.uartTxChannel ++ [bytes] })
  else ([.dropped bytes], s)

/-- `execute_actions`, of which only what is sent concerns the bus. -/
def executeActions : List AppAction → BusAction
  | [] => skip
  | .sendFrame bytes :: actions => andThen (trySend bytes) (executeActions actions)
  | _ :: actions => executeActions actions

/-- The app is called, and what it asks for is done. -/
def callApp (c : Timestamp × AppCall) : BusAction := fun s =>
  andThen (fun s => ([.called c], { s with app := s.app.step c }))
    (executeActions (s.app.call c.1 c.2).1) s

/-- The app is called at times that a clock gives. -/
def callEach (clock : ℕ → Timestamp) : List AppCall → BusAction
  | [] => skip
  | c :: calls => andThen (callApp (clock calls.length, c)) (callEach clock calls)

/-- The frames in the channel are taken out and processed. -/
def processFrames (clock : ℕ → Timestamp) : ℕ → BusAction
  | 0 => skip
  | n + 1 => andThen (fun s => match s.frameChannel with
      | frame :: frames => callApp (clock n, .processFrame frame) { s with frameChannel := frames }
      | [] => ([], s)) (processFrames clock n)

/-- The registration is noted for the fast path. -/
def storeRegistered : BusAction := fun s =>
  ([], { s with appRegistered := s.app.registration.isRegistered })

/-- `handle_mqtt_command`. -/
def handleMqttCommand (now : Timestamp) (cmd : Command) : BusAction := fun s =>
  match cmd with
  | .sniff count => callApp (now, .forcePublish)
      { s with sniffMode := count.isSome, sniffCapture := count.getD 0 }
  | .reboot => ([], { s with rebooting := true })
  | cmd => callApp (now, .onMqttCommand cmd) s

/-- The commands in the channel are taken out and handled, until one reboots. -/
def drainCommands (clock : ℕ → Timestamp) : ℕ → BusAction
  | 0 => skip
  | n + 1 => andThen (fun s => match s.rebooting, s.commandChannel with
      | false, cmd :: commands =>
        handleMqttCommand (clock n) cmd { s with commandChannel := commands }
      | _, _ => ([], s)) (drainCommands clock n)

/-- `sniff_mode` is turned off when the capture is complete. -/
def autoDisable (now : Timestamp) : BusAction := fun s =>
  if s.sniffMode && s.sniffCapture == 0 then
    callApp (now, .forcePublish) { s with sniffMode := false }
  else ([], s)

/-- The times of an iteration of the main loop, what woke it, and what the heap has. -/
structure Iteration where
  woken : Bool
  frameTimes : ℕ → Timestamp
  commandTimes : ℕ → Timestamp
  disableTime : Timestamp
  tickTime : Timestamp
  heapTime : Timestamp
  freeHeap : ℕ

/-- `MainLoop::tick` from the time that it is woken on, by a frame or otherwise, up to the check for
a serial configuration. It does not wait. -/
def mainTick (it : Iteration) : BusAction := fun s =>
  if s.rebooting then ([], s) else
  andThen (if it.woken then
      andThen (processFrames it.frameTimes s.frameChannel.length) storeRegistered
    else skip)
    (andThen (drainCommands it.commandTimes s.commandChannel.length) fun s =>
      if s.rebooting then ([], s) else
      andThen (autoDisable it.disableTime) (andThen (callApp (it.tickTime, .tick))
        (andThen storeRegistered (callApp (it.heapTime, .checkHeap it.freeHeap)))) s) s

/-- The pump timers are drained, at the end of `MainLoop::tick`. -/
def drainPumpTimers (clock : ℕ → Timestamp) : BusAction := fun s =>
  if s.rebooting then ([], s) else
  callEach clock (s.pumpTimerChannel.map fun (pump, minutes) => .startPumpTimer pump minutes)
    { s with pumpTimerChannel := [] }

/-! ### The MQTT task -/

/-- A command for the main loop, when there is room. -/
def sendCommand (cmd : Command) : BusAction := fun s =>
  if s.commandChannel.length < channelSize then
    ([], { s with commandChannel := s.commandChannel ++ [cmd] })
  else ([], s)

/-- A pump timer for the main loop, when there is room. -/
def sendPumpTimer (pump : UInt8) (minutes : UInt32) : BusAction := fun s =>
  if s.pumpTimerChannel.length < channelSize then
    ([], { s with pumpTimerChannel := s.pumpTimerChannel ++ [(pump, minutes)] })
  else ([], s)

/-! ### Runs -/

/-- What happens next. The tasks run in turns, from one wait to the next. -/
inductive Event where
  | uartCheck (now : UInt64)
  | uartRead (now later : UInt64) (read : Option (List UInt8))
  | uartByte (now later : UInt64)
  | uartSend
  | mainTick (it : Iteration)
  | drainPumpTimers (clock : ℕ → Timestamp)
  | command (cmd : Command)
  | pumpTimer (pump : UInt8) (minutes : UInt32)

/-- A step of the firmware. -/
def step (s : Firmware) : Event → List BusOutput × Firmware
  | .uartCheck now => s.uartCheck now
  | .uartRead now later read => s.uartRead now later read
  | .uartByte now later => s.uartByte now later
  | .uartSend => s.uartSend
  | .mainTick it => s.mainTick it
  | .drainPumpTimers clock => s.drainPumpTimers clock
  | .command cmd => s.sendCommand cmd
  | .pumpTimer pump minutes => s.sendPumpTimer pump minutes

end Firmware

/-! ## The hash of a device -/

/-- The high and the low byte of a word. -/
theorem toNat_bytes (h : UInt16) :
    256 * (h >>> 8).toUInt8.toNat + (h &&& 0xFF).toUInt8.toNat = h.toNat := by
  have hh := h.toNat_lt
  have hhi : (h >>> 8).toUInt8.toNat = h.toNat / 256 := by
    rw [UInt16.toNat_toUInt8, UInt16.toNat_shiftRight, Nat.shiftRight_eq_div_pow]
    have : (8 : UInt16).toNat % 16 = 8 := rfl
    rw [this]
    omega
  have hlo : (h &&& 0xFF).toUInt8.toNat = h.toNat % 256 := by
    rw [UInt16.toNat_toUInt8, UInt16.toNat_and]
    have : (0xFF : UInt16).toNat = 2 ^ 8 - 1 := rfl
    rw [this, Nat.and_two_pow_sub_one_eq_mod]
    omega
  omega

/-- A word is read from its two bytes. -/
theorem toNat_word (hi lo : UInt8) :
    (hi.toUInt16 <<< 8 ||| lo.toUInt16).toNat = 256 * hi.toNat + lo.toNat := by
  have hhi := hi.toNat_lt
  have hlo := lo.toNat_lt
  have hshift : (hi.toUInt16 <<< 8).toNat = hi.toNat <<< 8 := by
    rw [UInt16.toNat_shiftLeft, UInt8.toNat_toUInt16]
    have : (8 : UInt16).toNat % 16 = 8 := rfl
    rw [this, Nat.shiftLeft_eq]
    omega
  rw [UInt16.toNat_or, hshift, UInt8.toNat_toUInt16, ← Nat.shiftLeft_add_eq_or_of_lt hlo,
    Nat.shiftLeft_eq]
  omega

/-- The quick answer is the response of the app. -/
theorem fastPathResponse_word (hash : ClientHash) :
    fastPathResponse (hash.1.toUInt16 <<< 8 ||| hash.2.toUInt16) =
      .newClientResponse 0x02 hash := by
  have hword := toNat_bytes (hash.1.toUInt16 <<< 8 ||| hash.2.toUInt16)
  rw [toNat_word] at hword
  have h1 := hash.1.toNat_lt
  have h2 := hash.2.toNat_lt
  have hlo := ((hash.1.toUInt16 <<< 8 ||| hash.2.toUInt16) &&& 0xFF).toUInt8.toNat_lt
  unfold fastPathResponse
  congr 2
  · exact UInt8.toNat_inj.1 (by omega)
  · exact UInt8.toNat_inj.1 (by omega)

/-- No device has the hash of the assignments that carry none, or that of the original remote. -/
theorem deriveClientHash_ne (deviceId : String) :
    deriveClientHash deviceId ≠ legacyHash ∧ deriveClientHash deviceId ≠ (0xF1, 0x73) := by
  unfold deriveClientHash
  generalize (asBytes deviceId).foldl (fun h b => (h ^^^ b.toUInt16) * 0x0101) 0x811C = h
  dsimp only
  generalize hw : (if (if h = 0 then 1 else h) = 0xF173 then 0xF174 else if h = 0 then 1 else h) = w
  have hne : w ≠ 0 ∧ w ≠ 0xF173 := by
    rw [← hw]
    by_cases h0 : h = 0
    · rw [if_pos h0]
      decide
    · rw [if_neg h0]
      by_cases h1 : h = 0xF173
      · rw [if_pos h1]
        decide
      · rw [if_neg h1]
        exact ⟨h0, h1⟩
  have hword := toNat_bytes w
  constructor
  · intro heq
    obtain ⟨hhi, hlo⟩ := Prod.mk.inj heq
    rw [hhi, hlo] at hword
    exact hne.1 (UInt16.toNat_inj.1 hword.symm)
  · intro heq
    obtain ⟨hhi, hlo⟩ := Prod.mk.inj heq
    rw [hhi, hlo] at hword
    exact hne.2 (UInt16.toNat_inj.1 hword.symm)

/-! ## What the outputs say -/

section Projections

/-- The bytes that have been read. -/
def readBytes (os : List BusOutput) : List UInt8 :=
  os.flatMap fun | .passed .bus _ data => data | _ => []

/-- The packets that the fast path has given to the transport. -/
def answers (os : List BusOutput) : List (List UInt8) :=
  os.filterMap fun | .passed .fastPath _ data => some data | _ => none

/-- The packets of the main loop that have been given to the transport. -/
def written (os : List BusOutput) : List (List UInt8) :=
  os.filterMap fun | .passed .queue _ data => some data | _ => none

/-- The frames that have been decoded. -/
def decodedFrames (os : List BusOutput) : List Frame :=
  os.filterMap fun | .decoded frame => some frame | _ => none

/-- The frame that the app is given. -/
def calledFrame : AppCall → Option Frame
  | .processFrame frame => some frame
  | _ => none

/-- The frames that the app has been given. -/
def processedFrames (os : List BusOutput) : List Frame :=
  os.filterMap fun | .called c => calledFrame c.2 | _ => none

/-- The packets for which there was room. -/
def queuedPackets (os : List BusOutput) : List (List UInt8) :=
  os.filterMap fun | .queued bytes => some bytes | _ => none

/-- The packets of the main loop. -/
def packets (os : List BusOutput) : List (List UInt8) :=
  os.filterMap fun | .queued bytes => some bytes | .dropped bytes => some bytes | _ => none

variable (os os' : List BusOutput)

/-- The bytes of two lists of outputs are put behind each other. -/
@[simp] theorem readBytes_append : readBytes (os ++ os') = readBytes os ++ readBytes os' :=
  List.flatMap_append

/-- The answers of two lists of outputs are put behind each other. -/
@[simp] theorem answers_append : answers (os ++ os') = answers os ++ answers os' :=
  List.filterMap_append

/-- What two lists of outputs write is put behind each other. -/
@[simp] theorem written_append : written (os ++ os') = written os ++ written os' :=
  List.filterMap_append

/-- The decoded frames of two lists of outputs are put behind each other. -/
@[simp] theorem decodedFrames_append :
    decodedFrames (os ++ os') = decodedFrames os ++ decodedFrames os' := List.filterMap_append

/-- The processed frames of two lists of outputs are put behind each other. -/
@[simp] theorem processedFrames_append :
    processedFrames (os ++ os') = processedFrames os ++ processedFrames os' :=
  List.filterMap_append

/-- The queued packets of two lists of outputs are put behind each other. -/
@[simp] theorem queuedPackets_append :
    queuedPackets (os ++ os') = queuedPackets os ++ queuedPackets os' := List.filterMap_append

/-- The packets of two lists of outputs are put behind each other. -/
@[simp] theorem packets_append : packets (os ++ os') = packets os ++ packets os' :=
  List.filterMap_append

end Projections

/-- What the app and the fast path should have done, going by the calls and the frames. -/
structure Due where
  app : SpaApp
  answers : List (List UInt8)
  packets : List (List UInt8)

/-- A call makes the app send, and a query that finds the app unregistered is answered. -/
def Due.follow (hashBe : UInt16) (due : Due) : BusOutput → Due
  | .called c =>
    { due with app := due.app.step c, packets := due.packets ++ sends (due.app.call c.1 c.2).1 }
  | .decoded frame =>
    if isNewClientQuery frame && !due.app.registration.isRegistered then
      { due with answers := due.answers ++ [(fastPathResponse hashBe).bytes] }
    else due
  | _ => due

/-- A packet is dropped only when as many wait as the channel holds. -/
def DropsWhenFull : List BusOutput → Prop :=
  AtEach fun older o => ∀ bytes, o = .dropped bytes →
    ∃ waiting, queuedPackets older = written older ++ waiting ∧ waiting.length = channelSize

/-- The outputs so far account for the channel of the UART task. -/
structure Queues (os : List BusOutput) (s : Firmware) : Prop where
  waiting : queuedPackets os = written os ++ s.uartTxChannel
  room : s.uartTxChannel.length ≤ channelSize
  full : DropsWhenFull os

/-- The outputs so far account for the state of the firmware. -/
structure Follows (first : Firmware) (os : List BusOutput) (s : Firmware) : Prop where
  hash : s.regClientHash = first.regClientHash
  bytes : ∃ fed, readBytes os = fed ++ s.pending ∧
    run FrameDecoder.feedByte first.decoder fed = (decodedFrames os, s.decoder)
  frames : decodedFrames os = processedFrames os ++ s.frameChannel ++ s.sending.toList
  queue : Queues os s
  due : os.foldl (Due.follow first.regClientHash) ⟨first.app, [], []⟩ =
    ⟨s.app, answers os, packets os⟩

/-- The fast path knows whether the app is registered. -/
def FlagAgrees (s : Firmware) : Prop := s.appRegistered = s.app.registration.isRegistered

/-- An output that only concerns a capture. -/
def BusOutput.isOfCapture : BusOutput → Bool
  | .started _ | .published _ | .panicked => true
  | _ => false

/-- An output that does not concern the channel of the UART task. -/
def BusOutput.isApart : BusOutput → Bool
  | .passed .queue _ _ | .queued _ | .dropped _ => false
  | _ => true

/-- What the outputs account for. -/
def Firmware.accounted (s : Firmware) :=
  (s.decoder, s.pending, s.sending, s.app, s.regClientHash, s.frameChannel, s.uartTxChannel)

variable {first s s' : Firmware} {os outs : List BusOutput}

/-- What does not concern the channel leaves it. -/
theorem Queues.append (h : Queues os s) (htx : s'.uartTxChannel = s.uartTxChannel)
    (houts : outs.all BusOutput.isApart = true) : Queues (os ++ outs) s' := by
  have hapart := List.all_eq_true.1 houts
  have hqueued : queuedPackets outs = [] := List.filterMap_eq_nil_iff.2 fun o ho => by
    cases o with
    | queued bytes => exact absurd (hapart _ ho) Bool.false_ne_true
    | _ => rfl
  have hwritten : written outs = [] := List.filterMap_eq_nil_iff.2 fun o ho => by
    cases o with
    | passed origin now data =>
      cases origin with
      | queue => exact absurd (hapart _ ho) Bool.false_ne_true
      | _ => rfl
    | _ => rfl
  refine ⟨?_, htx ▸ h.room, h.full.append fun o ho older bytes heq => ?_⟩
  · rw [queuedPackets_append, written_append, hqueued, hwritten, List.append_nil, List.append_nil,
      htx, h.waiting]
  · rw [heq] at ho
    exact absurd (hapart _ ho) Bool.false_ne_true

/-- An output that only concerns a capture does not concern the channel. -/
theorem BusOutput.isApart_of_isOfCapture (h : outs.all BusOutput.isOfCapture = true) :
    outs.all BusOutput.isApart = true := by
  refine List.all_eq_true.2 fun o ho => ?_
  have hcapture := List.all_eq_true.1 h o ho
  cases o with
  | started now => rfl
  | published document => rfl
  | panicked => rfl
  | _ => exact absurd hcapture Bool.false_ne_true

/-- The rest of the state does not matter, and neither do the outputs of a capture. -/
theorem Follows.unseen (h : Follows first os s) (hs : s'.accounted = s.accounted)
    (houts : outs.all BusOutput.isOfCapture = true) : Follows first (os ++ outs) s' := by
  have hnil : readBytes outs = [] ∧ answers outs = [] ∧ decodedFrames outs = [] ∧
      processedFrames outs = [] ∧ packets outs = [] ∧
      ∀ due : Due, outs.foldl (Due.follow first.regClientHash) due = due := by
    induction outs with
    | nil => exact ⟨rfl, rfl, rfl, rfl, rfl, fun _ => rfl⟩
    | cons o outs ih =>
      rw [List.all_cons, Bool.and_eq_true] at houts
      have hrest := ih houts.2
      cases o with
      | started now => exact hrest
      | published document => exact hrest
      | panicked => exact hrest
      | _ => exact absurd houts.1 Bool.false_ne_true
  obtain ⟨hread, hanswers, hdecoded, hprocessed, hpackets, hdue⟩ := hnil
  simp only [Firmware.accounted, Prod.mk.injEq] at hs
  obtain ⟨hdecoder, hpending, hsending, happ, hhash, hchannel, htx⟩ := hs
  obtain ⟨fed, hfed, hrun⟩ := h.bytes
  refine ⟨hhash.trans h.hash, ⟨fed, ?_, ?_⟩, ?_, ?_, ?_⟩
  · rw [readBytes_append, hread, List.append_nil, hpending, hfed]
  · rw [decodedFrames_append, hdecoded, List.append_nil, hdecoder, hrun]
  · rw [decodedFrames_append, hdecoded, processedFrames_append, hprocessed, hchannel, hsending,
      List.append_nil, List.append_nil, h.frames]
  · exact h.queue.append htx (BusOutput.isApart_of_isOfCapture houts)
  · rw [List.foldl_append, hdue, answers_append, hanswers, packets_append, hpackets, happ,
      List.append_nil, List.append_nil, h.due]

namespace Firmware

/-! ### Steps of the UART task -/

/-- What passes is recorded, and that is all that the account sees. -/
theorem passBytes_eq (origin : Origin) (now later : UInt64) (data : List UInt8) (s : Firmware) :
    ∃ outs s', s.passBytes origin now later data = (.passed origin now data :: outs, s') ∧
      outs.all BusOutput.isOfCapture = true ∧ s'.accounted = s.accounted ∧
      s'.appRegistered = s.appRegistered := by
  unfold passBytes
  split
  · exact ⟨_, _, rfl, rfl, rfl, rfl⟩
  · split
    · exact ⟨_, _, rfl, rfl, rfl, rfl⟩
    · exact ⟨_, _, rfl, rfl, rfl, rfl⟩

/-- The check of the capture keeps the outputs accounting for the state. -/
theorem follows_checkStart (now : UInt64) : Keeps (Follows first) (checkStart now) := by
  intro os s h
  refine h.unseen rfl ?_
  unfold checkStart
  dsimp only
  split <;> rfl

/-- A packet from the queue. -/
theorem follows_transmit (now later : UInt64) : Keeps (Follows first) (transmit now later) := by
  intro os s h
  unfold transmit
  split
  · rename_i data rest htx
    obtain ⟨outs, s', heq, houts, hs, -⟩ :=
      passBytes_eq .queue now later data { s with uartTxChannel := rest }
    rw [heq, List.append_cons]
    refine Follows.unseen (s := { s with uartTxChannel := rest }) ?_ hs houts
    have hwaiting := h.queue.waiting
    have hroom := h.queue.room
    rw [htx] at hwaiting hroom
    have hfull : DropsWhenFull (os ++ [.passed .queue now data]) := h.queue.full.concat nofun
    exact ⟨h.hash, by simpa [readBytes, decodedFrames] using h.bytes,
      by simpa [decodedFrames, processedFrames] using h.frames,
      ⟨by simpa [queuedPackets, written] using hwaiting, Nat.le_of_succ_le hroom, hfull⟩,
      by simpa [Due.follow, answers, packets] using h.due⟩
  · rw [List.append_nil]
    exact h

/-- What is read is to be decoded. -/
theorem follows_takeBytes (now later : UInt64) (data : List UInt8) (h : Follows first os s)
    (hpending : s.pending = []) :
    Follows first (os ++ (s.takeBytes now later data).1) (s.takeBytes now later data).2 := by
  obtain ⟨outs, s', heq, houts, hs, -⟩ := passBytes_eq .bus now later data s
  rw [takeBytes, andThen, heq, List.append_nil, List.append_cons]
  have hs' : ({ s' with pending := data } : Firmware).accounted =
      ({ s with pending := data } : Firmware).accounted := by
    simp only [accounted, Prod.mk.injEq] at hs ⊢
    tauto
  refine Follows.unseen ?_ hs' houts
  obtain ⟨fed, hfed, hrun⟩ := h.bytes
  rw [hpending, List.append_nil] at hfed
  refine ⟨h.hash, ⟨fed, ?_, ?_⟩, by simpa [decodedFrames, processedFrames] using h.frames,
    h.queue.append rfl rfl, by simpa [Due.follow, answers, packets] using h.due⟩
  · rw [readBytes_append, hfed]
    simp [readBytes]
  · rw [hrun]
    simp [decodedFrames]

/-- A byte that completes no frame. -/
theorem follows_feed_none {byte : UInt8} {pending : List UInt8} {decoder : FrameDecoder}
    (h : Follows first os s) (hpending : s.pending = byte :: pending)
    (hfeed : s.decoder.feed byte = (none, decoder)) :
    Follows first os { s with decoder := decoder, pending := pending } := by
  obtain ⟨fed, hfed, hrun⟩ := h.bytes
  have hbyte : s.decoder.feedByte byte = ([], decoder) := by
    rw [FrameDecoder.feedByte, hfeed]
    rfl
  refine ⟨h.hash, ⟨fed ++ [byte], ?_, ?_⟩, h.frames, ⟨h.queue.waiting, h.queue.room, h.queue.full⟩,
    h.due⟩
  · rw [hfed, hpending, List.append_cons]
  · rw [run_append, hrun, run_cons, hbyte]
    simp

/-- A byte that completes a frame, and the answer of the fast path, if it is due. -/
theorem follows_feed_some {byte : UInt8} {pending : List UInt8} {decoder : FrameDecoder}
    {frame : Frame} (h : Follows first os s) (hflag : FlagAgrees s) (hsending : s.sending = none)
    (hpending : s.pending = byte :: pending) (hfeed : s.decoder.feed byte = (some frame, decoder))
    (houts : outs = [] ∧ (isNewClientQuery frame && !s.appRegistered) = false ∨
      ∃ now, outs = [.passed .fastPath now (fastPathResponse s.regClientHash).bytes] ∧
        (isNewClientQuery frame && !s.appRegistered) = true) :
    Follows first (os ++ .decoded frame :: outs)
      { s with decoder := decoder, pending := pending, sending := some frame } := by
  obtain ⟨fed, hfed, hrun⟩ := h.bytes
  have hframes := h.frames
  rw [hsending] at hframes
  have hbyte : s.decoder.feedByte byte = ([frame], decoder) := by
    rw [FrameDecoder.feedByte, hfeed]
    rfl
  have hread : readBytes (os ++ .decoded frame :: outs) = fed ++ [byte] ++ pending := by
    have hnil : readBytes (.decoded frame :: outs) = [] := by
      rcases houts with ⟨rfl, -⟩ | ⟨now, rfl, -⟩ <;> rfl
    rw [readBytes_append, hnil, List.append_nil, hfed, hpending, List.append_cons]
  have hdecoded : decodedFrames (os ++ .decoded frame :: outs) = decodedFrames os ++ [frame] := by
    rw [decodedFrames_append]
    rcases houts with ⟨rfl, -⟩ | ⟨now, rfl, -⟩ <;> rfl
  refine ⟨h.hash, ⟨fed ++ [byte], hread, ?_⟩, ?_, ?_, ?_⟩
  · rw [run_append, hrun, run_cons, hbyte, hdecoded]
    rfl
  · have hnil : processedFrames (.decoded frame :: outs) = [] := by
      rcases houts with ⟨rfl, -⟩ | ⟨now, rfl, -⟩ <;> rfl
    rw [hdecoded, hframes, processedFrames_append, hnil]
    simp
  · rcases houts with ⟨rfl, -⟩ | ⟨now, rfl, -⟩ <;> exact h.queue.append rfl rfl
  -- The fast path asks the flag, and the account asks the app.
  · rw [List.foldl_append, h.due]
    rcases houts with ⟨rfl, hdue⟩ | ⟨now, rfl, hdue⟩
    · rw [hflag] at hdue
      simp [Due.follow, hdue, answers, packets]
    · rw [hflag] at hdue
      rw [List.foldl_cons, Due.follow, if_pos hdue, h.hash]
      simp [Due.follow, answers, packets]

/-- What the fast path does. -/
theorem answerQuery_eq (frame : Frame) (now later : UInt64) (s : Firmware) :
    (s.answerQuery frame now later = ([], s) ∧
        (isNewClientQuery frame && !s.appRegistered) = false) ∨
      (s.answerQuery frame now later =
          s.passBytes .fastPath now later (fastPathResponse s.regClientHash).bytes ∧
        (isNewClientQuery frame && !s.appRegistered) = true) := by
  unfold answerQuery
  rw [RegistrationMessage.encode_ok]
  split
  · rename_i hdue
    exact .inr ⟨rfl, hdue⟩
  · rename_i hdue
    exact .inl ⟨rfl, eq_false_of_ne_true hdue⟩

/-- A byte that arrives keeps the outputs accounting for the state, and the flag. -/
theorem follows_uartByte (now later : UInt64) :
    Keeps (fun os s => Follows first os s ∧ FlagAgrees s) (uartByte now later) := by
  rintro os s ⟨h, hflag⟩
  unfold uartByte
  split
  · rename_i byte pending hsending hpending
    split
    · rename_i decoder hfeed
      rw [List.append_nil]
      exact ⟨follows_feed_none h hpending hfeed, hflag⟩
    · rename_i frame decoder hfeed
      rw [andThen]
      rcases answerQuery_eq frame now later
        { s with decoder := decoder, pending := pending, sending := some frame } with
        ⟨heq, hdue⟩ | ⟨heq, hdue⟩
      · rw [heq]
        exact ⟨follows_feed_some h hflag hsending hpending hfeed (.inl ⟨rfl, hdue⟩), hflag⟩
      · obtain ⟨outs, s', hpass, houts, hs, hflag'⟩ := passBytes_eq .fastPath now later
          (fastPathResponse s.regClientHash).bytes
          { s with decoder := decoder, pending := pending, sending := some frame }
        rw [heq, hpass]
        have hfollows := (follows_feed_some h hflag hsending hpending hfeed
          (.inr ⟨now, rfl, hdue⟩)).unseen hs houts
        simp only [accounted, Prod.mk.injEq] at hs
        rw [List.append_assoc] at hfollows
        refine ⟨hfollows, ?_⟩
        rw [FlagAgrees, hflag', hs.2.2.2.1]
        exact hflag
  · rw [List.append_nil]
    exact ⟨h, hflag⟩

/-- Sending a packet keeps the outputs accounting for the state. -/
theorem follows_uartSend : Keeps (Follows first) uartSend := by
  intro os s h
  unfold uartSend
  split
  · rename_i frame hsending
    split
    · rw [List.append_nil]
      refine ⟨h.hash, h.bytes, ?_, ⟨h.queue.waiting, h.queue.room, h.queue.full⟩, h.due⟩
      rw [h.frames, hsending]
      simp
    · rw [List.append_nil]
      exact h
  · rw [List.append_nil]
    exact h

/-! ### Steps of the main loop -/

/-- A packet goes to the channel, or the channel is full. -/
theorem queues_trySend (bytes : List UInt8) : Keeps Queues (trySend bytes) := by
  intro os s h
  have hroom := h.room
  unfold trySend
  split
  · rename_i hlt
    have hfull : DropsWhenFull (os ++ [.queued bytes]) := h.full.concat nofun
    refine ⟨?_, ?_, hfull⟩
    · rw [queuedPackets_append, written_append, h.waiting]
      simp [queuedPackets, written]
    · rw [List.length_append]
      exact hlt
  · rename_i hge
    have hlength : s.uartTxChannel.length = channelSize := by omega
    have hfull : DropsWhenFull (os ++ [.dropped bytes]) :=
      h.full.concat fun _ _ => ⟨s.uartTxChannel, h.waiting, hlength⟩
    refine ⟨?_, h.room, hfull⟩
    rw [queuedPackets_append, written_append, h.waiting]
    simp [queuedPackets, written]

/-- Actions queue the frames that they send. -/
theorem queues_executeActions (actions : List AppAction) :
    Keeps Queues (executeActions actions) := by
  induction actions with
  | nil => exact Keeps.skip
  | cons a actions ih =>
    cases a with
    | sendFrame bytes => exact Keeps.andThen (queues_trySend bytes) ih
    | _ => exact ih

/-- What is done for some actions. -/
theorem executeActions_eq (actions : List AppAction) (s : Firmware) :
    ∃ outs tx, executeActions actions s = (outs, { s with uartTxChannel := tx }) ∧
      packets outs = sends actions ∧
      outs.all (fun | .queued _ => true | .dropped _ => true | _ => false) = true := by
  induction actions generalizing s with
  | nil => exact ⟨[], s.uartTxChannel, rfl, rfl, rfl⟩
  | cons a actions ih =>
    cases a with
    | sendFrame bytes =>
      by_cases hroom : s.uartTxChannel.length < channelSize
      · obtain ⟨outs, tx, heq, hpackets, hall⟩ :=
          ih { s with uartTxChannel := s.uartTxChannel ++ [bytes] }
        refine ⟨.queued bytes :: outs, tx, ?_, ?_, hall⟩
        · rw [executeActions, andThen, trySend, if_pos hroom, heq]
          rfl
        · rw [sends_sendFrame, ← hpackets]
          rfl
      · obtain ⟨outs, tx, heq, hpackets, hall⟩ := ih s
        refine ⟨.dropped bytes :: outs, tx, ?_, ?_, hall⟩
        · rw [executeActions, andThen, trySend, if_neg hroom, heq]
          rfl
        · rw [sends_sendFrame, ← hpackets]
          rfl
    | _ => exact ih s

/-- The app is called, for the first frame of the channel if it is given a frame. -/
theorem follows_callApp {c : Timestamp × AppCall} {frames : List Frame} (h : Follows first os s)
    (hframes : s.frameChannel = (calledFrame c.2).toList ++ frames) :
    Follows first (os ++ (callApp c { s with frameChannel := frames }).1)
      (callApp c { s with frameChannel := frames }).2 := by
  obtain ⟨outs, tx, heq, hpackets, hall⟩ := executeActions_eq (s.app.call c.1 c.2).1
    { s with frameChannel := frames, app := s.app.step c }
  have hnil : readBytes outs = [] ∧ answers outs = [] ∧ decodedFrames outs = [] ∧
      processedFrames outs = [] ∧
      ∀ due : Due, outs.foldl (Due.follow first.regClientHash) due = due := by
    clear heq hpackets
    induction outs with
    | nil => exact ⟨rfl, rfl, rfl, rfl, fun _ => rfl⟩
    | cons o outs ih =>
      rw [List.all_cons, Bool.and_eq_true] at hall
      have hrest := ih hall.2
      cases o with
      | queued bytes => exact hrest
      | dropped bytes => exact hrest
      | _ => exact absurd hall.1 Bool.false_ne_true
  obtain ⟨hread, hanswers, hdecoded, hprocessed, hdue⟩ := hnil
  have hcalled : Queues (os ++ [.called c])
      { s with frameChannel := frames, app := s.app.step c } := h.queue.append rfl rfl
  have hqueue := queues_executeActions (s.app.call c.1 c.2).1 _ _ hcalled
  rw [heq, List.append_assoc] at hqueue
  rw [callApp, andThen]
  dsimp only
  rw [heq]
  obtain ⟨fed, hfed, hrun⟩ := h.bytes
  refine ⟨h.hash, ⟨fed, ?_, ?_⟩, ?_, hqueue, ?_⟩
  · rw [readBytes_append, readBytes_append, hread, hfed]
    simp [readBytes]
  · rw [decodedFrames_append, decodedFrames_append, hdecoded, hrun]
    simp [decodedFrames]
  · rw [decodedFrames_append, decodedFrames_append, hdecoded, processedFrames_append,
      processedFrames_append, hprocessed, h.frames, hframes]
    cases hcalled : calledFrame c.2 <;> simp [decodedFrames, processedFrames, hcalled]
  · rw [List.foldl_append, h.due, List.foldl_append, hdue, answers_append, answers_append,
      hanswers, packets_append, packets_append, hpackets]
    simp [Due.follow, answers, packets]

/-- A call without a frame. -/
theorem follows_call {c : Timestamp × AppCall} (hc : calledFrame c.2 = none) :
    Keeps (Follows first) (callApp c) := by
  intro os s h
  have hframes : s.frameChannel = (calledFrame c.2).toList ++ s.frameChannel := by
    rw [hc]
    rfl
  exact follows_callApp h hframes

/-- A call that keeps the channel of the app. -/
theorem flagAgrees_callApp {c : Timestamp × AppCall}
    (hc : (s.app.step c).channel = s.app.channel) (hflag : FlagAgrees s) :
    FlagAgrees (callApp c s).2 := by
  obtain ⟨outs, tx, heq, -⟩ := executeActions_eq (s.app.call c.1 c.2).1
    { s with app := s.app.step c }
  have hregistered : ∀ app : SpaApp, app.registration.isRegistered = app.channel.isSome := by
    intro app
    rw [Bool.eq_iff_iff, RegistrationStateMachine.isRegistered_iff, Option.isSome_iff_exists]
    rfl
  rw [callApp, andThen]
  dsimp only
  rw [heq, FlagAgrees, hregistered, hc, ← hregistered]
  exact hflag

/-- Storing the registration keeps the outputs accounting for the state. -/
theorem follows_storeRegistered : Keeps (fun os s => Follows first os s) storeRegistered := by
  intro os s h
  rw [storeRegistered, List.append_nil]
  exact ⟨h.hash, h.bytes, h.frames, ⟨h.queue.waiting, h.queue.room, h.queue.full⟩, h.due⟩

/-- Processing frames keeps the outputs accounting for the state. -/
theorem follows_processFrames (clock : ℕ → Timestamp) (n : ℕ) :
    Keeps (Follows first) (processFrames clock n) := by
  induction n with
  | zero => exact Keeps.skip
  | succ n ih =>
    refine Keeps.andThen (fun os s h => ?_) ih
    split
    · rename_i frame frames hframes
      exact follows_callApp h hframes
    · rw [List.append_nil]
      exact h

/-- A call without a frame that keeps the channel of the app keeps the account, and the flag. -/
theorem keeps_callApp {c : Timestamp × AppCall} (hc : calledFrame c.2 = none)
    (hchannel : ∀ app : SpaApp, (app.step c).channel = app.channel) :
    Keeps (fun os s => Follows first os s ∧ FlagAgrees s) (callApp c) := fun os s h =>
  ⟨follows_call hc os s h.1, flagAgrees_callApp (hchannel s.app) h.2⟩

/-- Publishing keeps the outputs accounting for the state, and the flag. -/
theorem keeps_forcePublish (now : Timestamp) :
    Keeps (fun os s => Follows first os s ∧ FlagAgrees s) (callApp (now, .forcePublish)) :=
  keeps_callApp rfl fun app => app.forcePublish_silent.held

/-- Another part of the state changes before an action. -/
theorem keeps_update {f : BusAction} (update : Firmware → Firmware)
    (hf : Keeps (fun os s => Follows first os s ∧ FlagAgrees s) f)
    (hupdate : ∀ s, (update s).accounted = s.accounted)
    (hflag : ∀ s, (update s).appRegistered = s.appRegistered) :
    Keeps (fun os s => Follows first os s ∧ FlagAgrees s) (fun s => f (update s)) := by
  rintro os s ⟨h, hagrees⟩
  have hs := hupdate s
  have hfollows : Follows first (os ++ []) (update s) := h.unseen hs rfl
  rw [List.append_nil] at hfollows
  simp only [accounted, Prod.mk.injEq] at hs
  refine hf os (update s) ⟨hfollows, ?_⟩
  rw [FlagAgrees, hflag, hs.2.2.2.1]
  exact hagrees

/-- A command of the user keeps the outputs accounting for the state, and the flag. -/
theorem keeps_handleMqttCommand (now : Timestamp) (cmd : Command) :
    Keeps (fun os s => Follows first os s ∧ FlagAgrees s) (handleMqttCommand now cmd) := by
  cases cmd with
  | sniff count =>
    exact keeps_update (fun s => { s with
      sniffMode := count.isSome
      sniffCapture := count.getD 0 }) (keeps_forcePublish now) (fun _ => rfl) (fun _ => rfl)
  | reboot =>
    exact keeps_update (fun s => { s with rebooting := true }) Keeps.skip
      (fun _ => rfl) (fun _ => rfl)
  | _ => exact keeps_callApp rfl fun app => (app.onMqttCommand_silent _).held

/-- The commands that wait keep the outputs accounting for the state, and the flag. -/
theorem keeps_drainCommands (clock : ℕ → Timestamp) (n : ℕ) :
    Keeps (fun os s => Follows first os s ∧ FlagAgrees s) (drainCommands clock n) := by
  induction n with
  | zero => exact Keeps.skip
  | succ n ih =>
    refine Keeps.andThen (fun os s h => ?_) ih
    split
    · rename_i cmd commands _ _
      exact keeps_update (fun s => { s with commandChannel := commands })
        (keeps_handleMqttCommand (clock n) cmd) (fun _ => rfl) (fun _ => rfl) os s h
    · rw [List.append_nil]
      exact h

/-- Switching the capture off keeps the outputs accounting for the state, and the flag. -/
theorem keeps_autoDisable (now : Timestamp) :
    Keeps (fun os s => Follows first os s ∧ FlagAgrees s) (autoDisable now) := by
  intro os s h
  unfold autoDisable
  split
  · exact keeps_update (fun s => { s with sniffMode := false }) (keeps_forcePublish now)
      (fun _ => rfl) (fun _ => rfl) os s h
  · rw [List.append_nil]
    exact h

/-- Calls that neither bring a frame nor move the channel keep the outputs accounting for the state,
and the flag. -/
theorem keeps_callEach (clock : ℕ → Timestamp) {calls : List AppCall}
    (h : ∀ call ∈ calls, ∀ now, calledFrame call = none ∧
      ∀ app : SpaApp, (app.step (now, call)).channel = app.channel) :
    Keeps (fun os s => Follows first os s ∧ FlagAgrees s) (callEach clock calls) := by
  induction calls with
  | nil => exact Keeps.skip
  | cons call calls ih =>
    obtain ⟨hcall, hcalls⟩ := List.forall_mem_cons.1 h
    have hc := hcall (clock calls.length)
    exact Keeps.andThen (keeps_callApp hc.1 hc.2) (ih hcalls)

/-- The flag is stored behind what may change the channel. -/
theorem keeps_store {f : BusAction} (hf : Keeps (Follows first) f) :
    Keeps (fun os s => Follows first os s ∧ FlagAgrees s) (andThen f storeRegistered) := by
  rintro os s ⟨h, -⟩
  exact ⟨Keeps.andThen hf follows_storeRegistered os s h, rfl⟩

/-- A tick of the main loop keeps the outputs accounting for the state, and the flag. -/
theorem keeps_mainTick (it : Iteration) :
    Keeps (fun os s => Follows first os s ∧ FlagAgrees s) (mainTick it) := by
  intro os s h
  unfold mainTick
  split
  · rw [List.append_nil]
    exact h
  refine Keeps.andThen ?_ (Keeps.andThen (keeps_drainCommands _ _) fun os s h => ?_) os s h
  · split
    · exact keeps_store (follows_processFrames _ _)
    · exact Keeps.skip
  split
  · rw [List.append_nil]
    exact h
  have htick : Keeps (fun os s => Follows first os s ∧ FlagAgrees s)
      (andThen (callApp (it.tickTime, .tick)) storeRegistered) := keeps_store (follows_call rfl)
  have hheap : Keeps (fun os s => Follows first os s ∧ FlagAgrees s)
      (callApp (it.heapTime, .checkHeap it.freeHeap)) :=
    keeps_callApp rfl fun app => (app.checkHeap_silent it.heapTime it.freeHeap).held
  have hrest := Keeps.andThen htick hheap
  rw [andThen_assoc] at hrest
  exact Keeps.andThen (keeps_autoDisable _) hrest os s h

/-- The pump timers that wait keep the outputs accounting for the state, and the flag. -/
theorem keeps_drainPumpTimers (clock : ℕ → Timestamp) :
    Keeps (fun os s => Follows first os s ∧ FlagAgrees s) (drainPumpTimers clock) := by
  intro os s h
  unfold drainPumpTimers
  split
  · rw [List.append_nil]
    exact h
  refine keeps_update (fun s => { s with pumpTimerChannel := [] })
    (keeps_callEach clock fun call hcall now => ?_) (fun _ => rfl) (fun _ => rfl) os s h
  obtain ⟨⟨pump, minutes⟩, -, rfl⟩ := List.mem_map.1 hcall
  exact ⟨rfl, fun app => (app.startPumpTimer_link now pump minutes).1⟩

/-- What keeps the account and neither the flag nor the channel of the app. -/
theorem keeps_flag {f : BusAction} (hf : Keeps (Follows first) f)
    (hflag : ∀ s, FlagAgrees s → FlagAgrees (f s).2) :
    Keeps (fun os s => Follows first os s ∧ FlagAgrees s) f := fun os s h =>
  ⟨hf os s h.1, hflag s h.2⟩

/-- Bytes that are passed on keep the flag. -/
theorem flagAgrees_passBytes (origin : Origin) (now later : UInt64) (data : List UInt8)
    (h : FlagAgrees s) : FlagAgrees (s.passBytes origin now later data).2 := by
  obtain ⟨outs, s', heq, -, hs, hflag⟩ := passBytes_eq origin now later data s
  simp only [accounted, Prod.mk.injEq] at hs
  rw [heq, FlagAgrees, hflag, hs.2.2.2.1]
  exact h

/-- The check of the capture keeps the outputs accounting for the state, and the flag. -/
theorem keeps_uartCheck (now : UInt64) :
    Keeps (fun os s => Follows first os s ∧ FlagAgrees s) (uartCheck now) := by
  intro os s h
  unfold uartCheck
  split
  · exact keeps_update (fun s => { s with reading := true })
      (keeps_flag (follows_checkStart now) fun _ hs => hs) (fun _ => rfl) (fun _ => rfl) os s h
  · rw [List.append_nil]
    exact h

/-- What is read or sent keeps the outputs accounting for the state, and the flag. -/
theorem keeps_uartRead (now later : UInt64) (read : Option (List UInt8)) :
    Keeps (fun os s => Follows first os s ∧ FlagAgrees s) (uartRead now later read) := by
  intro os s h
  unfold uartRead
  split
  · rename_i hpending
    have hfollows : Follows first (os ++ []) { s with reading := false } := h.1.unseen rfl rfl
    rw [List.append_nil] at hfollows
    have hflag : FlagAgrees { s with reading := false } := h.2
    split
    · rw [skip, List.append_nil]
      exact ⟨hfollows, hflag⟩
    · refine keeps_flag (follows_transmit now later) (fun s hs => ?_) _ _ ⟨hfollows, hflag⟩
      unfold transmit
      split
      · exact flagAgrees_passBytes _ _ _ _ hs
      · exact hs
    · exact ⟨follows_takeBytes now later _ hfollows hpending,
        flagAgrees_passBytes .bus now later _ hflag⟩
  · rw [List.append_nil]
    exact h

/-- A command that is sent to the main loop keeps the outputs accounting for the state, and the
flag. -/
theorem keeps_sendCommand (cmd : Command) :
    Keeps (fun os s => Follows first os s ∧ FlagAgrees s) (sendCommand cmd) := by
  intro os s h
  unfold sendCommand
  split
  · exact keeps_update (fun s => { s with commandChannel := s.commandChannel ++ [cmd] })
      Keeps.skip (fun _ => rfl) (fun _ => rfl) os s h
  · rw [List.append_nil]
    exact h

/-- A pump timer that is sent to the main loop keeps the outputs accounting for the state, and the
flag. -/
theorem keeps_sendPumpTimer (pump : UInt8) (minutes : UInt32) :
    Keeps (fun os s => Follows first os s ∧ FlagAgrees s) (sendPumpTimer pump minutes) := by
  intro os s h
  unfold sendPumpTimer
  split
  · exact keeps_update (fun s => { s with
      pumpTimerChannel := s.pumpTimerChannel ++ [(pump, minutes)] }) Keeps.skip (fun _ => rfl)
      (fun _ => rfl) os s h
  · rw [List.append_nil]
    exact h

/-- An event keeps the outputs accounting for the state, and the flag. -/
theorem keeps_step (e : Event) :
    Keeps (fun os s => Follows first os s ∧ FlagAgrees s) (step · e) := by
  cases e with
  | uartCheck now => exact keeps_uartCheck now
  | uartRead now later read => exact keeps_uartRead now later read
  | uartByte now later => exact follows_uartByte now later
  | uartSend =>
    refine keeps_flag follows_uartSend fun s hs => ?_
    dsimp only [step]
    unfold uartSend
    repeat' split
    all_goals exact hs
  | mainTick it => exact keeps_mainTick it
  | drainPumpTimers clock => exact keeps_drainPumpTimers clock
  | command cmd => exact keeps_sendCommand cmd
  | pumpTimer pump minutes => exact keeps_sendPumpTimer pump minutes

/-- However the tasks take turns, the outputs account for the state, packets being dropped only when
the channel is full, and the fast path knows whether the app is registered. -/
theorem run_follows (now : Timestamp) (deviceId : String) (events : List Event) :
    Follows (start now deviceId) (run step (start now deviceId) events).1
        (run step (start now deviceId) events).2 ∧
      FlagAgrees (run step (start now deviceId) events).2 ∧
      fastPathResponse (start now deviceId).regClientHash =
        .newClientResponse 0x02 (deriveClientHash deviceId) := by
  have hstart : Follows (start now deviceId) [] (start now deviceId) ∧
      FlagAgrees (start now deviceId) :=
    ⟨⟨rfl, ⟨[], rfl, rfl⟩, rfl, ⟨rfl, Nat.zero_le _, AtEach.nil⟩, rfl⟩, rfl⟩
  obtain ⟨hfollows, hflag⟩ := run_keeps (fun e => keeps_step e) hstart events
  exact ⟨hfollows, hflag, fastPathResponse_word _⟩

end Firmware

end Launa.App
