import Launa.Sim.SpaSim

/-!
# What the emulator sends of a tick

`extract_status_frame` of the emulator looks for the status frame in what a tick of the simulator
gives out. It takes a frame to be three bytes longer than its length byte says, where
`Frame::encode` makes it two bytes longer. So it never returns a frame as it was encoded
(`extractStatusFrame_ne_encode`): where the status comes first and the next frame follows, it
returns the start marker of that one with it (`extractStatusFrame_ready`).
-/

namespace Launa.Sim

open Protocol

/-! ## `extract_status_frame` -/

/-- The loop of `extract_status_frame`, from an index on. -/
def extractStatusFrameFrom (data : List UInt8) (i : ℕ) : Option (List UInt8) :=
  if _h : i < data.length then
    if data.getD i 0 = 0x7E ∧ i + 2 < data.length then
      let len := (data.getD (i + 1) 0).toNat
      let frameEnd := i + len + 3
      if frameEnd ≤ data.length ∧ data.getD (frameEnd - 1) 0 = 0x7E then
        if i + 4 < frameEnd ∧ data.getD (i + 2) 0 = 0xFF ∧ data.getD (i + 3) 0 = 0xAF then
          some ((data.take frameEnd).drop i)
        else extractStatusFrameFrom data frameEnd
      else extractStatusFrameFrom data (i + 1)
    else extractStatusFrameFrom data (i + 1)
  else none
termination_by data.length - i

/-- `extract_status_frame`. -/
def extractStatusFrame (data : List UInt8) : Option (List UInt8) := extractStatusFrameFrom data 0

/-! ## `SpaSim::tick` -/

/-- The bytes of a frame that is short enough to be encoded. -/
def frameBytes (frame : Frame) : List UInt8 := frame.encode.toOption.getD []

/-- `generate_ready_frame`. -/
def readyFrame (channel : UInt8) : Frame := ⟨(channel, 0xBF), [0x06]⟩

/-- `generate_registration_query`. -/
def registrationQuery : Frame := ⟨(0xFE, 0xBF), [0x00]⟩

/-- `generate_status_frame`, with the bytes that are not of the state. -/
def statusFrame (s : SpaState) (initMode currentTemp setTemp : UInt8) : Frame :=
  ⟨(0xFF, 0xAF), 0x13 :: s.statusPayload initMode currentTemp setTemp⟩

/-- `SpaSim`: what a tick sends depends on, when its events and its physics are done. -/
structure SpaSim where
  state : SpaState
  registered : Bool
  clientId : Option UInt8
  readyCountdown : ℕ

/-- `maybe_emit_ready`, where `interval` is the next one that is drawn. -/
def SpaSim.maybeEmitReady (sim : SpaSim) (interval : ℕ) : List UInt8 × SpaSim :=
  let readyCountdown := sim.readyCountdown - 1
  if readyCountdown = 0 then
    (frameBytes (readyFrame (sim.clientId.getD 0x10)), { sim with readyCountdown := interval })
  else ([], { sim with readyCountdown := readyCountdown })

/-- `SpaSim::tick` without injected errors. -/
def SpaSim.tick (sim : SpaSim) (initMode currentTemp setTemp : UInt8) (interval : ℕ) :
    List UInt8 × SpaSim :=
  let query := if sim.registered then [] else frameBytes registrationQuery
  let status := frameBytes (statusFrame sim.state initMode currentTemp setTemp)
  let (ready, sim') := sim.maybeEmitReady interval
  (query ++ status ++ ready, sim')

/-! ## What is extracted -/

/-- What is extracted is three bytes longer than its second byte says. -/
theorem length_of_extractStatusFrameFrom {data bytes : List UInt8} {i : ℕ}
    (h : extractStatusFrameFrom data i = some bytes) :
    bytes.length = (bytes.getD 1 0).toNat + 3 := by
  fun_induction extractStatusFrameFrom data i with
  | case1 i _h hmarker len frameEnd hend htype =>
    obtain rfl := Option.some.inj h
    have hsecond : ((data.take frameEnd).drop i).getD 1 0 = data.getD (i + 1) 0 := by
      rw [List.getD_eq_getElem?_getD, List.getElem?_drop, List.getElem?_take_of_lt (by omega),
        ← List.getD_eq_getElem?_getD]
    rw [hsecond, List.length_drop, List.length_take, min_eq_left hend.1]
    omega
  | case2 i _h hmarker len frameEnd hend htype ih => exact ih h
  | case3 i _h hmarker len frameEnd hend ih => exact ih h
  | case4 i _h hmarker ih => exact ih h
  | case5 => cases h

/-- An encoded frame is two bytes longer than its second byte says. -/
theorem length_of_encode {frame : Frame} {bytes : List UInt8} (h : frame.encode = .ok bytes) :
    bytes.length = (bytes.getD 1 0).toNat + 2 := by
  obtain ⟨hlen, rfl⟩ := Frame.encode_eq_ok.1 h
  have hbyte : (UInt8.ofNat (4 + frame.payload.length)).toNat = 4 + frame.payload.length := by
    rw [UInt8.toNat_ofNat']
    omega
  have hsecond : (frameMarker :: (frame.body ++ [crc8 frame.body]) ++ [frameMarker]).getD 1 0 =
      UInt8.ofNat (4 + frame.payload.length) := rfl
  rw [hsecond, hbyte]
  simp only [List.length_append, List.length_cons, List.length_nil, Frame.body]
  omega

/-- No frame is extracted from any bytes as it was encoded. -/
theorem extractStatusFrame_ne_encode {frame : Frame} {bytes : List UInt8}
    (h : frame.encode = .ok bytes) (data : List UInt8) : extractStatusFrame data ≠ some bytes := by
  intro hextract
  have hlong := length_of_extractStatusFrameFrom hextract
  have hlen := length_of_encode h
  omega

/-- A status frame is encoded. -/
theorem encode_statusFrame (s : SpaState) (initMode currentTemp setTemp : UInt8) :
    (statusFrame s initMode currentTemp setTemp).encode =
      .ok (frameBytes (statusFrame s initMode currentTemp setTemp)) := by
  have hlen : (statusFrame s initMode currentTemp setTemp).payload.length ≤ 251 :=
    show 25 ≤ 251 by decide
  have hencode : (statusFrame s initMode currentTemp setTemp).encode = .ok _ :=
    Frame.encode_eq_ok.2 ⟨hlen, rfl⟩
  rw [frameBytes, hencode]
  rfl

/-- Of no tick the status frame is extracted. -/
theorem extractStatusFrame_tick_ne (sim : SpaSim) (initMode currentTemp setTemp : UInt8)
    (interval : ℕ) :
    extractStatusFrame (sim.tick initMode currentTemp setTemp interval).1 ≠
      some (frameBytes (statusFrame sim.state initMode currentTemp setTemp)) :=
  extractStatusFrame_ne_encode (encode_statusFrame _ _ _ _) _

/-- The status is extracted with the first byte of what follows, if that is a marker. -/
theorem extractStatusFrame_ready (s : SpaState) (initMode currentTemp setTemp : UInt8)
    (rest : List UInt8) :
    extractStatusFrame (frameBytes (statusFrame s initMode currentTemp setTemp) ++ 0x7E :: rest) =
      some (frameBytes (statusFrame s initMode currentTemp setTemp) ++ [0x7E]) := by
  obtain ⟨tail, hbytes, hlen⟩ : ∃ tail, frameBytes (statusFrame s initMode currentTemp setTemp) =
      0x7E :: 29 :: 0xFF :: 0xAF :: tail ∧ tail.length = 27 :=
    ⟨_, rfl, rfl⟩
  rw [hbytes]
  -- The length byte says 29, so that the frame would end at 32, behind the marker that follows.
  have htotal : (0x7E :: 29 :: 0xFF :: 0xAF :: tail ++ 0x7E :: rest).length = 32 + rest.length := by
    simp only [List.length_append, List.length_cons, hlen]
    omega
  have hlast : (0x7E :: 29 :: 0xFF :: 0xAF :: tail ++ 0x7E :: rest).getD 31 0 = 0x7E := by
    have hfront : (0x7E :: 29 :: 0xFF :: 0xAF :: tail).length = 31 := by
      rw [List.length_cons, List.length_cons, List.length_cons, List.length_cons, hlen]
    rw [List.getD_append_right _ _ _ _ hfront.le, hfront]
    rfl
  have htake : (0x7E :: 29 :: 0xFF :: 0xAF :: tail ++ 0x7E :: rest).take 32 =
      0x7E :: 29 :: 0xFF :: 0xAF :: tail ++ [0x7E] := by
    rw [← List.singleton_append (l := rest), ← List.append_assoc]
    refine List.take_left' ?_
    simp only [List.length_append, List.length_cons, List.length_nil, hlen]
  have hsecond : 0 + ((0x7E :: 29 :: 0xFF :: 0xAF :: tail ++ 0x7E :: rest).getD (0 + 1) 0).toNat + 3
      = 32 := rfl
  rw [extractStatusFrame, extractStatusFrameFrom, dif_pos (by omega), if_pos ⟨rfl, by omega⟩]
  dsimp only
  rw [hsecond, if_pos ⟨by omega, hlast⟩, if_pos ⟨by decide, rfl, rfl⟩, htake, List.drop_zero]

/-! ## A tick of the simulator -/

/-- A spa whose client is registered, and that sends a grant with its status. -/
def registeredSim : SpaSim := ⟨.default, true, some 0x10, 1⟩

/-- The frame that is extracted has the start marker of the next one behind it. -/
theorem extractStatusFrame_registeredSim :
    extractStatusFrame (registeredSim.tick 0 76 80 1).1 =
        some (frameBytes (statusFrame .default 0 76 80) ++ [0x7E]) ∧
      extractStatusFrame (registeredSim.tick 0 76 80 1).1 ≠
        some (frameBytes (statusFrame .default 0 76 80)) := by
  have htick : (registeredSim.tick 0 76 80 1).1 =
      frameBytes (statusFrame .default 0 76 80) ++ 0x7E :: (frameBytes (readyFrame 0x10)).tail :=
    rfl
  rw [htick, extractStatusFrame_ready]
  refine ⟨rfl, fun h => ?_⟩
  have hlen := congrArg List.length (Option.some.inj h)
  rw [List.length_append, List.length_singleton] at hlen
  omega

end Launa.Sim
