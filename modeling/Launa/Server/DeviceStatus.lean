import Launa.Lib.ChangeLog
import Launa.Ota.Http
import Launa.Server.Notifier
import Launa.Server.StateHistory

/-!
# The status of the devices

Availability and boot messages both write the status of their device as a whole, with a boot id
that an availability message does not have, so it erases the one that is stored, and so does a boot
message whose payload is no number. The status and the time since when it has not been online always
follow the messages; the boot id follows exactly when each message brings one or finds none
(`mirrors_iff`).
-/

namespace Launa.Server

open ChangeLog Run
open Launa.Ota (trim fromStrRadix)

/-! ## `memory.rs` -/

/-- `DeviceStatus`. -/
structure DeviceStatus where
  status : String
  bootId : Option ℕ
  updatedAt : String

/-- `AvailabilityEntry`. -/
structure AvailabilityEntry where
  status : String
  receivedAt : String

/-- How many changes of the availability are kept. -/
def maxAvailabilityEntries : ℕ := 500

/-- `MemoryStore`: what it keeps of the availability and boot messages. -/
structure DeviceStore extends MemoryStore where
  devices : AList fun _ : String => DeviceStatus
  availability : AList fun _ : String => List AvailabilityEntry

/-- A message of a device under one of the two topics. The clock is read for each entry that a
message writes. -/
structure DeviceMessage where
  deviceId : String
  isBoot : Bool
  payload : String
  updatedAt : String
  offlineAt : String
  receivedAt : String

namespace DeviceStore

/-- `MemoryStore::new`: it holds no device. -/
def new (config : NotificationConfig) : DeviceStore := ⟨⟨config, ∅⟩, ∅, ∅⟩

/-- `update_device_status`, of which `MemoryStore` has the offline tracking. -/
def updateDeviceStatus (store : DeviceStore) (deviceId status : String) (bootId : Option ℕ)
    (updatedAt offlineAt : String) : DeviceStore where
  toMemoryStore := store.toMemoryStore.updateDeviceStatus deviceId status offlineAt
  devices := store.devices.insert deviceId ⟨status, bootId, updatedAt⟩
  availability := store.availability

/-- `insert_availability`. -/
def insertAvailability (store : DeviceStore) (deviceId status now : String) : DeviceStore :=
  let deque := (store.availability.lookup deviceId).getD []
  let inserts := match deque.getLast? with
    | some e => e.status != status
    | none => true
  { store with
    availability := store.availability.insert deviceId
      (if inserts then pushCapped maxAvailabilityEntries deque ⟨status, now⟩ else deque) }

/-- `get_device_status`. -/
def getDeviceStatus (store : DeviceStore) (deviceId : String) : Option DeviceStatus :=
  store.devices.lookup deviceId

/-! ## `mqtt_bridge.rs` -/

/-- `handle_availability`. -/
def handleAvailability (store : DeviceStore) (msg : DeviceMessage) : DeviceStore :=
  let status := String.ofList (trim msg.payload.toList)
  (store.updateDeviceStatus msg.deviceId status none msg.updatedAt msg.offlineAt).insertAvailability
    msg.deviceId status msg.receivedAt

/-- `handle_boot`. -/
def handleBoot (store : DeviceStore) (msg : DeviceMessage) : DeviceStore :=
  let bootId := fromStrRadix 10 (2^32) (trim msg.payload.toList)
  store.updateDeviceStatus msg.deviceId "online" bootId msg.updatedAt msg.offlineAt

/-- `handle_forward`, of the two topics. -/
def handleForward (store : DeviceStore) (msg : DeviceMessage) : DeviceStore :=
  if msg.isBoot then store.handleBoot msg else store.handleAvailability msg

end DeviceStore

/-! ## What the messages say -/

namespace DeviceMessage

/-- The status that a message gives. -/
def status (msg : DeviceMessage) : String :=
  if msg.isBoot then "online" else String.ofList (trim msg.payload.toList)

/-- The number of a boot message. -/
def bootId (msg : DeviceMessage) : Option ℕ :=
  if msg.isBoot then fromStrRadix 10 (2^32) (trim msg.payload.toList) else none

end DeviceMessage

/-- The number of the last boot message of the device that has a valid one. -/
def lastBootId (messages : List DeviceMessage) (deviceId : String) : Option ℕ :=
  messages.reverse.findSome? fun msg => if msg.deviceId = deviceId then msg.bootId else none

/-- The status of the last message of the device. -/
def lastStatus (messages : List DeviceMessage) (deviceId : String) : Option String :=
  latest DeviceMessage.deviceId DeviceMessage.status messages deviceId

/-- The messages of the device since it was online last, the last one first. -/
def offlineStretch (messages : List DeviceMessage) (deviceId : String) : List DeviceMessage :=
  (messages.reverse.filter fun msg => msg.deviceId = deviceId).takeWhile fun msg =>
    msg.status ≠ "online"

/-- The time of the first message of the stretch. -/
def offlineStart (messages : List DeviceMessage) (deviceId : String) : Option String :=
  (offlineStretch messages deviceId).getLast?.map DeviceMessage.offlineAt

section Concat

variable (messages : List DeviceMessage) (msg : DeviceMessage)

/-- The last message decides the boot of its device, if it names one. -/
theorem lastBootId_concat (deviceId : String) :
    lastBootId (messages ++ [msg]) deviceId =
      if msg.deviceId = deviceId then msg.bootId.or (lastBootId messages deviceId)
      else lastBootId messages deviceId := by
  rw [lastBootId, List.reverse_concat, List.findSome?_cons]
  by_cases h : msg.deviceId = deviceId
  · rw [if_pos h, if_pos h]
    cases msg.bootId <;> rfl
  · rw [if_neg h, if_neg h]
    rfl

/-- The last message decides the status of its device. -/
theorem lastStatus_concat (deviceId : String) :
    lastStatus (messages ++ [msg]) deviceId =
      if msg.deviceId = deviceId then some msg.status else lastStatus messages deviceId :=
  latest_concat messages msg deviceId

/-- The last message ends the time offline of its device, or starts it unless it runs. -/
theorem offlineStart_concat (deviceId : String) :
    offlineStart (messages ++ [msg]) deviceId =
      if msg.deviceId = deviceId then
        if msg.status = "online" then none
        else (offlineStart messages deviceId).or (some msg.offlineAt)
      else offlineStart messages deviceId := by
  unfold offlineStart offlineStretch
  rw [List.reverse_concat, List.filter_cons]
  by_cases h : msg.deviceId = deviceId
  · rw [if_pos h, if_pos (decide_eq_true h), List.takeWhile_cons]
    by_cases hs : msg.status = "online"
    · simp [hs]
    · rw [if_neg hs, if_pos (decide_eq_true hs), List.getLast?_cons]
      cases List.getLast? _ <;> rfl
  · rw [if_neg h, if_neg (by simpa using h)]

end Concat

/-- There is a stretch exactly when the last status is not online. -/
theorem isSome_offlineStart (messages : List DeviceMessage) (deviceId : String) :
    (offlineStart messages deviceId).isSome ↔
      ∃ status, lastStatus messages deviceId = some status ∧ status ≠ "online" := by
  induction messages using List.reverseRecOn with
  | nil => simp [offlineStart, offlineStretch, lastStatus, latest]
  | append_singleton messages msg ih =>
    rw [offlineStart_concat, lastStatus_concat]
    by_cases h : msg.deviceId = deviceId
    · rw [if_pos h, if_pos h]
      by_cases hs : msg.status = "online"
      · simp [hs]
      · simp [hs]
    · rw [if_neg h, if_neg h]
      exact ih

/-! ## One message -/

/-- A status ends the time offline of its device, or starts it unless it runs. -/
theorem MemoryStore.lookup_updateDeviceStatus (store : MemoryStore)
    (id status now deviceId : String) :
    (store.updateDeviceStatus id status now).offlineSince.lookup deviceId =
      if id = deviceId then
        if status = "online" then none else (store.offlineSince.lookup deviceId).or (some now)
      else store.offlineSince.lookup deviceId := by
  unfold updateDeviceStatus
  split
  · by_cases h : id = deviceId
    · rw [if_pos h, if_pos rfl, h, AList.lookup_erase]
    · rw [if_neg h, AList.lookup_erase_ne (Ne.symm h)]
  next hs =>
    by_cases h : id = deviceId
    · subst h
      rw [if_pos rfl, if_neg hs]
      cases hlookup : store.offlineSince.lookup id with
      | none =>
        rw [if_neg (by simp)]
        exact AList.lookup_insert _
      | some since => exact hlookup
    · rw [if_neg h]
      split
      · rfl
      · exact AList.lookup_insert_ne (Ne.symm h)

namespace DeviceStore

/-- A message sets the status of its device as a whole. -/
theorem getDeviceStatus_handleForward (store : DeviceStore) (msg : DeviceMessage)
    (deviceId : String) :
    (store.handleForward msg).getDeviceStatus deviceId =
      if msg.deviceId = deviceId then some ⟨msg.status, msg.bootId, msg.updatedAt⟩
      else store.getDeviceStatus deviceId := by
  have hinsert (status : DeviceStatus) :
      (store.devices.insert msg.deviceId status).lookup deviceId =
        if msg.deviceId = deviceId then some status else store.devices.lookup deviceId := by
    by_cases h : msg.deviceId = deviceId
    · rw [if_pos h, h, AList.lookup_insert]
    · rw [if_neg h, AList.lookup_insert_ne (Ne.symm h)]
  unfold handleForward DeviceMessage.status DeviceMessage.bootId
  cases msg.isBoot <;> exact hinsert _

/-- A message ends the time offline of its device, or starts it unless it runs. -/
theorem offlineSince_handleForward (store : DeviceStore) (msg : DeviceMessage)
    (deviceId : String) :
    (store.handleForward msg).offlineSince.lookup deviceId =
      if msg.deviceId = deviceId then
        if msg.status = "online" then none
        else (store.offlineSince.lookup deviceId).or (some msg.offlineAt)
      else store.offlineSince.lookup deviceId := by
  unfold handleForward DeviceMessage.status
  cases msg.isBoot <;> exact MemoryStore.lookup_updateDeviceStatus _ _ _ _ _

/-- The boot id that is stored for a device. -/
def bootId (store : DeviceStore) (deviceId : String) : Option ℕ :=
  (store.getDeviceStatus deviceId).bind DeviceStatus.bootId

/-- A message replaces the boot of its device. -/
theorem bootId_handleForward (store : DeviceStore) (msg : DeviceMessage) (deviceId : String) :
    (store.handleForward msg).bootId deviceId =
      if msg.deviceId = deviceId then msg.bootId else store.bootId deviceId := by
  unfold bootId
  rw [getDeviceStatus_handleForward]
  split <;> rfl

/-- A message brings a boot id, or its device has none. -/
def KeepsBootId (store : DeviceStore) (msg : DeviceMessage) : Prop :=
  msg.bootId = none → store.bootId msg.deviceId = none

/-- What the store has of each device is what the messages said. -/
structure Mirrors (store : DeviceStore) (messages : List DeviceMessage) (deviceId : String) :
    Prop where
  bootId_eq : store.bootId deviceId = lastBootId messages deviceId
  status_eq : (store.getDeviceStatus deviceId).map DeviceStatus.status =
    lastStatus messages deviceId
  offlineSince_isSome_iff : (store.offlineSince.lookup deviceId).isSome ↔
    ∃ status, lastStatus messages deviceId = some status ∧ status ≠ "online"
  offlineSince_eq : store.offlineSince.lookup deviceId = offlineStart messages deviceId

/-- A message leaves the store as the messages said exactly when it keeps the boot id. -/
theorem Mirrors.step_iff {store : DeviceStore} {messages : List DeviceMessage} {deviceId : String}
    (h : store.Mirrors messages deviceId) (msg : DeviceMessage) :
    (store.handleForward msg).Mirrors (messages ++ [msg]) deviceId ↔
      (msg.deviceId = deviceId → store.KeepsBootId msg) := by
  have hstatus : ((store.handleForward msg).getDeviceStatus deviceId).map DeviceStatus.status =
      lastStatus (messages ++ [msg]) deviceId := by
    rw [getDeviceStatus_handleForward, lastStatus_concat, ← h.status_eq]
    split <;> rfl
  have hoffline : (store.handleForward msg).offlineSince.lookup deviceId =
      offlineStart (messages ++ [msg]) deviceId := by
    rw [offlineSince_handleForward, offlineStart_concat, h.offlineSince_eq]
  have hmirrors : (store.handleForward msg).Mirrors (messages ++ [msg]) deviceId ↔
      (store.handleForward msg).bootId deviceId = lastBootId (messages ++ [msg]) deviceId :=
    ⟨fun h => h.bootId_eq, fun hboot =>
      ⟨hboot, hstatus, hoffline ▸ isSome_offlineStart _ _, hoffline⟩⟩
  rw [hmirrors, bootId_handleForward, lastBootId_concat, ← h.bootId_eq]
  by_cases hd : msg.deviceId = deviceId
  · subst hd
    rw [if_pos rfl, if_pos rfl]
    refine Iff.trans ?_ (forall_prop_of_true rfl).symm
    unfold KeepsBootId
    cases msg.bootId with
    | none => exact ⟨fun heq _ => heq.symm, fun hkeeps => (hkeeps rfl).symm⟩
    | some bootId => exact iff_of_true rfl fun h => absurd h (Option.some_ne_none _)
  · rw [if_neg hd, if_neg hd]
    exact iff_of_true rfl fun h => absurd h hd

/-- After every message the store has of each device what the messages said exactly when no message
without a boot id comes for a device that has one. -/
theorem mirrors_iff (config : NotificationConfig) (messages : List DeviceMessage) :
    (∀ pre post, messages = pre ++ post → ∀ deviceId,
      (pre.foldl handleForward (new config)).Mirrors pre deviceId) ↔
    Along handleForward KeepsBootId (new config) messages := by
  refine along_iff_forall_seen (I := fun store seen => ∀ deviceId, Mirrors store seen deviceId)
    (fun _ _ h => h) ?_ ?_ ?_ messages
  · intro store seen msg h hstep
    exact ((h msg.deviceId).step_iff msg).1 (hstep msg.deviceId) rfl
  · intro store seen msg h hkeeps deviceId
    exact ((h deviceId).step_iff msg).2 fun _ => hkeeps
  · intro deviceId
    exact ⟨rfl, rfl, by simp [new, lastStatus, latest], rfl⟩

/-! ## A boot id that is erased -/

/-- The messages of a device that boots and is stale then. -/
def staleMessages : List DeviceMessage :=
  [⟨"spa", true, "42", "t0", "t0", "t0"⟩, ⟨"spa", false, "stale", "t1", "t1", "t1"⟩]

/-- A stale message makes the server forget the boot that was announced. -/
theorem not_mirrors :
    ¬ (staleMessages.foldl handleForward (new ⟨"", 2, []⟩)).Mirrors staleMessages "spa" := by
  intro h
  have hlast : lastBootId staleMessages "spa" = some 42 := by decide +kernel
  have hstored : (staleMessages.foldl handleForward (new ⟨"", 2, []⟩)).bootId "spa" = none := by
    rw [staleMessages, List.foldl_cons, List.foldl_cons, List.foldl_nil, bootId_handleForward,
      if_pos rfl]
    rfl
  exact Option.some_ne_none _ (hlast.symm.trans (h.bootId_eq.symm.trans hstored))

end DeviceStore

end Launa.Server
