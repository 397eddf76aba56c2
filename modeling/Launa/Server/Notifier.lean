import Launa.Lib.Mealy
import Mathlib.Algebra.Group.Nat.Defs
import Mathlib.Data.List.AList
import Mathlib.Data.List.Sort

/-!
# The offline notifier of the server

`Notifier::check` alerts for each device that the store lists as offline for long enough, and
remembers for whom it did (`notified`). A device that it alerted for and that the list does not have
any more counts as back online. The list leaves out devices that are not monitored and times below
the threshold, so a device may drop off it while the store still holds it as offline (`Unhidden`).
And the device is forgotten whether or not the back-online message got through, so that the next
alert follows an alert (`Delivered`). `truthful_iff_and_alternates` says that nothing else goes
wrong.

Maps and sets are lists in the order that their entries came in, where the source's have no order. A
check's clock enters as the whole seconds that have passed since a time in the store, and the
webhook as whether it accepts a message.
-/

namespace Launa.Server

open Run

/-- `NotificationConfig`. -/
structure NotificationConfig where
  discordWebhookUrl : String
  offlineThresholdHours : ℕ
  monitoredDevices : List String

/-- `MemoryStore`: what the notifier reads. -/
structure MemoryStore where
  notificationConfig : NotificationConfig
  /-- The time at which each device that is offline went offline. -/
  offlineSince : AList fun _ : String => String

namespace MemoryStore

/-- `update_device_status` at the time `now`: its offline tracking. -/
def updateDeviceStatus (store : MemoryStore) (deviceId status now : String) : MemoryStore :=
  match status with
  | "online" => { store with offlineSince := store.offlineSince.erase deviceId }
  | _ =>
    if (store.offlineSince.lookup deviceId).isSome then store
    else { store with offlineSince := store.offlineSince.insert deviceId now }

/-- `get_long_offline_devices`, where `elapsed` is how many seconds have passed since a time, or
`none` for a text that is not a time. -/
def getLongOfflineDevices (store : MemoryStore) (elapsed : String → Option ℤ)
    (thresholdSecs : ℤ) : List (String × String × ℤ) :=
  let monitored := store.notificationConfig.monitoredDevices
  let result := store.offlineSince.entries.filterMap fun ⟨deviceId, since⟩ =>
    if !monitored.isEmpty && !monitored.contains deviceId then none
    else match elapsed since with
      | some secs => if thresholdSecs ≤ secs then some (deviceId, since, secs) else none
      | none => none
  result.insertionSort fun a b => a.1 ≤ b.1

end MemoryStore

/-- The messages of the notifier. -/
inductive Message where
  | offlineAlert (deviceId duration : String)
  | backOnline (deviceId : String)
  deriving DecidableEq

/-- What a message says of a device. -/
inductive Kind where
  | offline
  | backOnline
  deriving DecidableEq

/-- The device that a message is about. -/
def Message.deviceId : Message → String
  | .offlineAlert deviceId _ => deviceId
  | .backOnline deviceId => deviceId

/-- What a message says. -/
def Message.kind : Message → Kind
  | .offlineAlert _ _ => .offline
  | .backOnline _ => .backOnline

/-- A message that was sent to the webhook, and whether it was accepted. -/
structure Attempt where
  message : Message
  accepted : Bool
  deriving DecidableEq

/-- The text for a duration in an alert. -/
def durationStr (elapsedSecs : ℤ) : String :=
  let hours := elapsedSecs.tdiv 3600
  let mins := (elapsedSecs.tmod 3600).tdiv 60
  if 0 < hours then s!"{hours}h {mins}m" else s!"{mins}m"

/-- The threshold in seconds, in the wrapping 64-bit arithmetic of a release build. -/
def thresholdSecs (config : NotificationConfig) : ℤ :=
  Int.bmod (config.offlineThresholdHours * 3600) (2^64)

/-- `Notifier`, with the store that it reads. -/
structure Notifier where
  mem : MemoryStore
  /-- The devices that an offline alert was sent for. -/
  notified : List String

namespace Notifier

section Check

variable (accepts : Message → Bool)

/-- The loop of `check` over the devices that are offline for long enough. -/
def alertOffline (notified : List String) (device : String × String × ℤ) :
    List Attempt × List String :=
  let (deviceId, _, elapsedSecs) := device
  if notified.contains deviceId then ([], notified)
  else
    let message := .offlineAlert deviceId (durationStr elapsedSecs)
    if accepts message then ([⟨message, true⟩], deviceId :: notified)
    else ([⟨message, false⟩], notified)

/-- The loop of `check` over the devices that count as recovered. -/
def alertBackOnline (notified : List String) (deviceId : String) : List Attempt × List String :=
  ([⟨.backOnline deviceId, accepts (.backOnline deviceId)⟩], notified.filter (· ≠ deviceId))

/-- The devices that a check finds offline for long enough. -/
def offlineDevices (elapsed : String → Option ℤ) (self : Notifier) :
    List (String × String × ℤ) :=
  self.mem.getLongOfflineDevices elapsed (thresholdSecs self.mem.notificationConfig)

/-- `Notifier::check`. -/
def check (elapsed : String → Option ℤ) (self : Notifier) : List Attempt × Notifier :=
  if self.mem.notificationConfig.discordWebhookUrl = "" then ([], self)
  else
    let devices := self.offlineDevices elapsed
    let (alerts, notified) := Mealy.run (alertOffline accepts) self.notified devices
    let currentOffline := devices.map fun device => device.1
    let recovered := notified.filter fun deviceId => !currentOffline.contains deviceId
    let (recoveries, notified') := Mealy.run (alertBackOnline accepts) notified recovered
    (alerts ++ recoveries, { self with notified := notified' })

end Check

/-- What happens to the server, as far as the notifier sees it. -/
inductive Event where
  | updateDeviceStatus (deviceId status now : String)
  | setNotificationConfig (config : NotificationConfig)
  | check (elapsed : String → Option ℤ) (accepts : Message → Bool)

/-- One event, and the messages that are sent. -/
def step (self : Notifier) : Event → List Attempt × Notifier
  | .updateDeviceStatus deviceId status now =>
    ([], { self with mem := self.mem.updateDeviceStatus deviceId status now })
  | .setNotificationConfig config =>
    ([], { self with mem := { self.mem with notificationConfig := config } })
  | .check elapsed accepts => self.check accepts elapsed

/-- The state after one event. -/
def next (self : Notifier) (e : Event) : Notifier := (self.step e).2

/-- `Notifier::new`, over any store. -/
def new (mem : MemoryStore) : Notifier := ⟨mem, []⟩

/-! ## What the messages say -/

/-- What the accepted messages said of a device, in order. -/
def accepted (deviceId : String) (attempts : List Attempt) : List Kind :=
  (attempts.filter fun a => a.accepted && a.message.deviceId == deviceId).map fun a =>
    a.message.kind

/-- The messages start with `offline`, and alternate. -/
def Alternates (kinds : List Kind) : Prop := (Kind.backOnline :: kinds).IsChain (· ≠ ·)

/-- The step sends a back-online message only for a device that the store does not hold as
offline. -/
def Truthful (self : Notifier) (e : Event) : Prop :=
  ∀ a ∈ (self.step e).1, a.message.kind = .backOnline →
    self.mem.offlineSince.lookup a.message.deviceId = none

/-- The device is monitored: it is on the list of those, or the list is empty. -/
def Monitored (config : NotificationConfig) (deviceId : String) : Prop :=
  config.monitoredDevices = [] ∨ deviceId ∈ config.monitoredDevices

/-- The store has held the device as offline for the threshold, and it is monitored. -/
def LongOffline (elapsed : String → Option ℤ) (mem : MemoryStore) (deviceId : String) : Prop :=
  Monitored mem.notificationConfig deviceId ∧ ∃ since ∈ mem.offlineSince.lookup deviceId,
    ∃ secs ∈ elapsed since, thresholdSecs mem.notificationConfig ≤ secs

/-- With a webhook, each device that was alerted for and that the store still holds as offline is
monitored, and has been offline for the threshold. -/
def Unhidden (self : Notifier) : Event → Prop
  | .check elapsed _ =>
    self.mem.notificationConfig.discordWebhookUrl ≠ "" → ∀ deviceId ∈ self.notified,
      (self.mem.offlineSince.lookup deviceId).isSome → LongOffline elapsed self.mem deviceId
  | _ => True

/-- With a webhook, it accepts the back-online message for each device that was alerted for and has
not been offline for the threshold, or is not monitored. -/
def Delivered (self : Notifier) : Event → Prop
  | .check elapsed accepts =>
    self.mem.notificationConfig.discordWebhookUrl ≠ "" → ∀ deviceId ∈ self.notified,
      ¬ LongOffline elapsed self.mem deviceId → accepts (.backOnline deviceId) = true
  | _ => True

instance (config : NotificationConfig) (deviceId : String) :
    Decidable (Monitored config deviceId) := inferInstanceAs (Decidable (_ ∨ _))

instance (elapsed : String → Option ℤ) (mem : MemoryStore) (deviceId : String) :
    Decidable (LongOffline elapsed mem deviceId) := inferInstanceAs (Decidable (_ ∧ _))

instance (self : Notifier) (e : Event) : Decidable (self.Truthful e) :=
  inferInstanceAs (Decidable (∀ a ∈ _, _))

instance (self : Notifier) : (e : Event) → Decidable (self.Unhidden e)
  | .updateDeviceStatus _ _ _ => isTrue trivial
  | .setNotificationConfig _ => isTrue trivial
  | .check _ _ => inferInstanceAs (Decidable (_ ≠ _ → ∀ d ∈ self.notified, _ → _))

instance (self : Notifier) : (e : Event) → Decidable (self.Delivered e)
  | .updateDeviceStatus _ _ _ => isTrue trivial
  | .setNotificationConfig _ => isTrue trivial
  | .check _ _ => inferInstanceAs (Decidable (_ ≠ _ → ∀ d ∈ self.notified, _ → _))

/-- Of no attempts none is accepted. -/
@[simp] theorem accepted_nil (d : String) : accepted d [] = [] := rfl

/-- The accepted messages of two lists of attempts are put behind each other. -/
theorem accepted_append (d : String) (as bs : List Attempt) :
    accepted d (as ++ bs) = accepted d as ++ accepted d bs := by
  rw [accepted, List.filter_append, List.map_append]
  rfl

/-- A message about another device is not about this one. -/
theorem accepted_of_ne {d : String} {m : Message} (h : m.deviceId ≠ d) (b : Bool) :
    accepted d [⟨m, b⟩] = [] := by
  simp [accepted, h]

/-- A message that is rejected is not accepted. -/
theorem accepted_rejected (d : String) (m : Message) : accepted d [⟨m, false⟩] = [] := rfl

/-- A message that is accepted is one about its device. -/
theorem accepted_self (m : Message) : accepted m.deviceId [⟨m, true⟩] = [m.kind] := by
  simp [accepted]

/-! ## Alternation

A device that is notified was last told of as offline, any other one as back online, or never. -/

/-- The messages lead from what was said last to what is said last, and no two neighbours say the
same. -/
inductive Leads : Kind → List Kind → Kind → Prop where
  | nil (k : Kind) : Leads k [] k
  | cons {k k' k'' : Kind} {ks : List Kind} (h : k ≠ k') (hks : Leads k' ks k'') :
    Leads k (k' :: ks) k''

/-- Alternating messages may go on with others that begin where they end. -/
theorem Leads.append {k k' k'' : Kind} {ks ks' : List Kind} (h : Leads k ks k')
    (h' : Leads k' ks' k'') : Leads k (ks ++ ks') k'' := by
  induction h with
  | nil => exact h'
  | cons hne _ ih => exact .cons hne (ih h')

/-- No two messages in a row are of one kind. -/
theorem Leads.isChain {k k' : Kind} {ks : List Kind} (h : Leads k ks k') :
    (k :: ks).IsChain (· ≠ ·) := by
  induction h with
  | nil => exact .singleton _
  | cons hne _ ih => exact .cons_cons hne ih

/-- What was last said of a device, as far as the notifier remembers. -/
def lastKind (notified : List String) (d : String) : Kind :=
  if d ∈ notified then .offline else .backOnline

/-- About a device that is held offline there was an alert last. -/
theorem lastKind_of_mem {notified : List String} {d : String} (h : d ∈ notified) :
    lastKind notified d = .offline :=
  if_pos h

/-- About another device there was a recovery last. -/
theorem lastKind_of_notMem {notified : List String} {d : String} (h : d ∉ notified) :
    lastKind notified d = .backOnline :=
  if_neg h

/-- The last message depends on whether the device is held offline only. -/
theorem lastKind_congr {notified notified' : List String} {d : String}
    (h : d ∈ notified' ↔ d ∈ notified) : lastKind notified' d = lastKind notified d := by
  simp only [lastKind, h]

/-! ## The two loops of a check -/

section Loops

variable {accepts : Message → Bool}

/-- An alert leads from what was said last of a device to what is said last. -/
theorem alertOffline_leads (notified : List String) (device : String × String × ℤ) (d : String) :
    Leads (lastKind notified d) (accepted d (alertOffline accepts notified device).1)
      (lastKind (alertOffline accepts notified device).2 d) := by
  obtain ⟨deviceId, since, elapsedSecs⟩ := device
  unfold alertOffline
  -- A device that is notified already is not alerted for again.
  by_cases hmem : deviceId ∈ notified
  · simp only [List.contains_iff_mem.2 hmem, if_true]
    exact .nil _
  have hcontains : notified.contains deviceId = false := by simpa using hmem
  simp only [hcontains, Bool.false_eq_true, if_false]
  by_cases hacc : accepts (.offlineAlert deviceId (durationStr elapsedSecs)) = true
  · simp only [if_pos hacc]
    -- The alert says nothing about another device.
    by_cases hd : deviceId = d
    · have hself := accepted_self (.offlineAlert deviceId (durationStr elapsedSecs))
      rw [← hd, lastKind_of_notMem hmem, lastKind_of_mem List.mem_cons_self]
      exact hself ▸ .cons (show Kind.backOnline ≠ Kind.offline by decide) (.nil _)
    · have hother : d ∈ deviceId :: notified ↔ d ∈ notified := by simp [Ne.symm hd]
      rw [accepted_of_ne (m := .offlineAlert deviceId _) hd, lastKind_congr hother]
      exact .nil _
  -- A rejected alert leaves the device to be alerted for again.
  · simp only [if_neg hacc, accepted_rejected]
    exact .nil _

/-- The messages about devices that are alerted alternate. -/
theorem run_alertOffline_leads (notified : List String) (devices : List (String × String × ℤ))
    (d : String) :
    Leads (lastKind notified d) (accepted d (Mealy.run (alertOffline accepts) notified devices).1)
      (lastKind (Mealy.run (alertOffline accepts) notified devices).2 d) := by
  induction devices generalizing notified with
  | nil => exact .nil _
  | cons device devices ih =>
    rw [Mealy.run_cons, accepted_append]
    exact (alertOffline_leads notified device d).append (ih _)

/-- What alerts do, for devices with the names `ids`: they are all that is sent, and of the devices
only those are notified that were, or were alerted for. -/
structure Alerted (notified ids : List String) (r : List Attempt × List String) : Prop where
  kind : ∀ a ∈ r.1, a.message.kind = .offline
  mem : ∀ d ∈ r.2, d ∈ notified ∨ d ∈ ids
  subset : ∀ d ∈ notified, d ∈ r.2
  nodup : notified.Nodup → r.2.Nodup

/-- An alert holds its device offline. -/
theorem alertOffline_alerted (notified : List String) (device : String × String × ℤ) :
    Alerted notified [device.1] (alertOffline accepts notified device) := by
  unfold alertOffline
  by_cases hmem : device.1 ∈ notified
  · simp only [List.contains_iff_mem.2 hmem, if_true]
    exact ⟨fun a ha => absurd ha List.not_mem_nil, fun d hd => .inl hd, fun d hd => hd, id⟩
  have hcontains : notified.contains device.1 = false := by simpa using hmem
  simp only [hcontains, Bool.false_eq_true, if_false]
  by_cases hacc : accepts (.offlineAlert device.1 (durationStr device.2.2)) = true
  · simp only [if_pos hacc]
    refine ⟨fun a ha => ?_, fun d hd => ?_, fun d hd => List.mem_cons_of_mem _ hd,
      fun h => List.nodup_cons.2 ⟨hmem, h⟩⟩
    · rw [List.mem_singleton.1 ha]
      rfl
    · exact (List.mem_cons.1 hd).symm.imp_right fun heq => List.mem_singleton.2 heq
  · simp only [if_neg hacc]
    refine ⟨fun a ha => ?_, fun d hd => .inl hd, fun d hd => hd, id⟩
    rw [List.mem_singleton.1 ha]
    rfl

/-- Alerts hold their devices offline. -/
theorem run_alertOffline_alerted (notified : List String)
    (devices : List (String × String × ℤ)) :
    Alerted notified (devices.map fun device => device.1)
      (Mealy.run (alertOffline accepts) notified devices) := by
  induction devices generalizing notified with
  | nil => exact ⟨fun a ha => absurd ha List.not_mem_nil, fun d hd => .inl hd, fun d hd => hd, id⟩
  | cons device devices ih =>
    have hone := @alertOffline_alerted accepts notified device
    have hrest := ih (alertOffline accepts notified device).2
    rw [Mealy.run_cons]
    refine ⟨fun a ha => ?_, fun d hd => ?_, fun d hd => hrest.subset d (hone.subset d hd),
      fun h => hrest.nodup (hone.nodup h)⟩
    · exact (List.mem_append.1 ha).elim (hone.kind a) (hrest.kind a)
    · rcases hrest.mem d hd with hd | hd
      · refine (hone.mem d hd).imp_right fun hd => ?_
        rw [List.mem_singleton.1 hd]
        exact List.mem_cons_self
      · exact .inr (List.mem_cons_of_mem _ hd)

/-- The second loop sends a message for each recovered device, and forgets them all. -/
theorem run_alertBackOnline (notified recovered : List String) :
    Mealy.run (alertBackOnline accepts) notified recovered =
      (recovered.map fun d => ⟨.backOnline d, accepts (.backOnline d)⟩,
        notified.filter fun d => !recovered.contains d) := by
  induction recovered generalizing notified with
  | nil => simp
  | cons r recovered ih =>
    rw [Mealy.run_cons, alertBackOnline, ih, List.filter_filter]
    simp [Bool.and_comm]

/-- Messages for notified devices, which are accepted, lead from what was said last of a device to
what is said last. -/
theorem run_alertBackOnline_leads {notified recovered : List String} (hnodup : recovered.Nodup)
    (hmem : ∀ d ∈ recovered, d ∈ notified)
    (hacc : ∀ d ∈ recovered, accepts (.backOnline d) = true) (d : String) :
    Leads (lastKind notified d)
      (accepted d (Mealy.run (alertBackOnline accepts) notified recovered).1)
      (lastKind (Mealy.run (alertBackOnline accepts) notified recovered).2 d) := by
  induction recovered generalizing notified with
  | nil => exact .nil _
  | cons r recovered ih =>
    obtain ⟨hr, hnodup⟩ := List.nodup_cons.1 hnodup
    -- The names are distinct, so the first message leaves the others notified.
    have hrest : ∀ d ∈ recovered, d ∈ notified.filter (· ≠ r) := by
      intro d hd
      refine List.mem_filter.2 ⟨hmem d (List.mem_cons_of_mem _ hd), ?_⟩
      simpa using fun heq : d = r => hr (heq ▸ hd)
    rw [Mealy.run_cons, accepted_append]
    have hleads := ih hnodup hrest fun d hd => hacc d (List.mem_cons_of_mem _ hd)
    refine Leads.append ?_ hleads
    rw [alertBackOnline, hacc r List.mem_cons_self]
    by_cases hd : r = d
    · have hgone : r ∉ notified.filter (· ≠ r) := by simp
      rw [← hd, lastKind_of_mem (hmem r List.mem_cons_self), lastKind_of_notMem hgone]
      have hself := accepted_self (.backOnline r)
      exact hself ▸ .cons (show Kind.offline ≠ Kind.backOnline by decide) (.nil _)
    · have hother : d ∈ notified.filter (· ≠ r) ↔ d ∈ notified := by simp [Ne.symm hd]
      rw [accepted_of_ne (m := .backOnline r) hd, lastKind_congr hother]
      exact .nil _

end Loops

/-! ## A check -/

variable {self : Notifier} {elapsed : String → Option ℤ} {accepts : Message → Bool}

/-- The list of a check has the devices that have been offline for the threshold and are
monitored. -/
theorem mem_offlineDevices (d : String) :
    d ∈ (self.offlineDevices elapsed).map (fun device => device.1) ↔
      LongOffline elapsed self.mem d := by
  have hmonitored : ∀ deviceId, (!self.mem.notificationConfig.monitoredDevices.isEmpty &&
      !self.mem.notificationConfig.monitoredDevices.contains deviceId) = true ↔
        ¬ Monitored self.mem.notificationConfig deviceId := fun deviceId => by
    simp [Monitored]
  unfold offlineDevices MemoryStore.getLongOfflineDevices LongOffline
  dsimp only
  rw [((List.perm_insertionSort _ _).map _).mem_iff]
  simp only [List.mem_map, List.mem_filterMap, hmonitored]
  constructor
  · rintro ⟨⟨id, since, secs⟩, ⟨⟨id', since'⟩, hentry, hlisted⟩, rfl⟩
    dsimp only at hlisted
    split at hlisted
    · cases hlisted
    next hmonitored =>
    split at hlisted
    next secs' helapsed =>
      split at hlisted
      next hthreshold =>
        cases hlisted
        exact ⟨not_not.1 hmonitored, since, AList.mem_lookup_iff.2 hentry, secs, helapsed,
          hthreshold⟩
      next => cases hlisted
    next => cases hlisted
  · rintro ⟨hmonitored, since, hlookup, secs, helapsed, hthreshold⟩
    refine ⟨(d, since, secs), ⟨⟨d, since⟩, AList.mem_lookup_iff.1 hlookup, ?_⟩, rfl⟩
    dsimp only
    rw [if_neg (not_not.2 hmonitored), Option.mem_def.1 helapsed]
    exact if_pos hthreshold

/-- Recovered are the devices that were held offline and are none that stay so. -/
theorem mem_recovered {notified ids : List String} {r : List Attempt × List String}
    (h : Alerted notified ids r) (d : String) :
    d ∈ r.2.filter (fun deviceId => !ids.contains deviceId) ↔ d ∈ notified ∧ d ∉ ids := by
  rw [List.mem_filter, List.contains_eq_mem, Bool.not_eq_true', decide_eq_false_iff_not]
  constructor
  · rintro ⟨hd, hnot⟩
    exact ⟨(h.mem d hd).resolve_right hnot, hnot⟩
  · rintro ⟨hd, hnot⟩
    exact ⟨h.subset d hd, hnot⟩

/-- A check sends alerts, and a back-online message for each device that was alerted for and is not
on the list. -/
theorem backOnline_mem_check (d : String) :
    (∃ a ∈ (self.check accepts elapsed).1, a.message = .backOnline d) ↔
      self.mem.notificationConfig.discordWebhookUrl ≠ "" ∧ d ∈ self.notified ∧
        ¬ LongOffline elapsed self.mem d := by
  rw [← mem_offlineDevices]
  unfold check
  by_cases hurl : self.mem.notificationConfig.discordWebhookUrl = ""
  · rw [if_pos hurl]
    simp [hurl]
  rw [if_neg hurl]
  have halerted := @run_alertOffline_alerted accepts self.notified (self.offlineDevices elapsed)
  simp only [run_alertBackOnline]
  rw [← mem_recovered halerted d]
  constructor
  · rintro ⟨a, ha, hmessage⟩
    rcases List.mem_append.1 ha with ha | ha
    -- The alerts come first, and are no back-online messages.
    · have hkind := halerted.kind a ha
      rw [hmessage] at hkind
      cases hkind
    · obtain ⟨r, hr, rfl⟩ := List.mem_map.1 ha
      cases hmessage
      exact ⟨hurl, hr⟩
  · rintro ⟨-, hd⟩
    exact ⟨_, List.mem_append_right _ (List.mem_map_of_mem hd), rfl⟩

/-- A check whose back-online messages are accepted leads from what was said last of a device to
what is said last. -/
theorem check_leads (hnodup : self.notified.Nodup)
    (hacc : self.Delivered (.check elapsed accepts)) (d : String) :
    Leads (lastKind self.notified d) (accepted d (self.check accepts elapsed).1)
        (lastKind (self.check accepts elapsed).2.notified d) ∧
      (self.check accepts elapsed).2.notified.Nodup := by
  unfold check
  by_cases hurl : self.mem.notificationConfig.discordWebhookUrl = ""
  · rw [if_pos hurl]
    exact ⟨.nil _, hnodup⟩
  rw [if_neg hurl]
  have halerted := @run_alertOffline_alerted accepts self.notified (self.offlineDevices elapsed)
  have hleads := @run_alertOffline_leads accepts self.notified (self.offlineDevices elapsed) d
  dsimp only
  rw [accepted_append]
  -- The second loop starts from what the first one leaves.
  refine ⟨hleads.append (run_alertBackOnline_leads ((halerted.nodup hnodup).filter _)
    (fun r hr => (List.mem_filter.1 hr).1) (fun r hr => ?_) d), ?_⟩
  · obtain ⟨hmem, hnot⟩ := (mem_recovered halerted r).1 hr
    exact hacc hurl r hmem (mt (mem_offlineDevices r).2 hnot)
  · rw [run_alertBackOnline]
    exact (halerted.nodup hnodup).filter _

/-! ## Runs -/

/-- A step sends back-online messages truthfully exactly when it hides no device that the store
holds as offline: one that is held and not on the list is announced. -/
theorem truthful_iff_unhidden (self : Notifier) (e : Event) :
    self.Truthful e ↔ self.Unhidden e := by
  cases e with
  | updateDeviceStatus deviceId status now =>
    exact iff_of_true (fun _ ha => absurd ha List.not_mem_nil) trivial
  | setNotificationConfig config =>
    exact iff_of_true (fun _ ha => absurd ha List.not_mem_nil) trivial
  | check elapsed accepts =>
    constructor
    · intro h hurl d hd hheld
      by_contra hnot
      obtain ⟨a, ha, hmessage⟩ :=
        (@backOnline_mem_check self elapsed accepts d).2 ⟨hurl, hd, hnot⟩
      have htrue := h a ha (by rw [hmessage]; rfl)
      rw [hmessage] at htrue
      exact absurd htrue (Option.isSome_iff_ne_none.1 hheld)
    · intro h a ha hkind
      have hmessage : a.message = .backOnline a.message.deviceId := by
        cases hm : a.message with
        | offlineAlert d duration =>
          rw [hm] at hkind
          cases hkind
        | backOnline d => rfl
      obtain ⟨hurl, hnotified, hnot⟩ :=
        (@backOnline_mem_check self elapsed accepts _).1 ⟨a, ha, hmessage⟩
      exact Option.not_isSome_iff_eq_none.1 (mt (h hurl _ hnotified) hnot)

/-- A step whose back-online messages are accepted leads from what was said last to what is said
last. -/
theorem step_leads (hnodup : self.notified.Nodup) {e : Event} (he : self.Delivered e)
    (d : String) :
    Leads (lastKind self.notified d) (accepted d (self.step e).1)
        (lastKind (self.next e).notified d) ∧ (self.next e).notified.Nodup := by
  cases e with
  | updateDeviceStatus deviceId status now => exact ⟨.nil _, hnodup⟩
  | setNotificationConfig config => exact ⟨.nil _, hnodup⟩
  | check elapsed accepts => exact check_leads hnodup he d

/-- The messages about a device alternate in every run that delivers them. -/
theorem run_leads (hnodup : self.notified.Nodup) {events : List Event}
    (h : Along next Delivered self events) (d : String) :
    ∃ k, Leads (lastKind self.notified d) (accepted d (Mealy.run step self events).1) k := by
  induction events generalizing self with
  | nil => exact ⟨_, .nil _⟩
  | cons e events ih =>
    obtain ⟨hleads, hnodup⟩ := step_leads hnodup h.1 d
    obtain ⟨k, hrest⟩ := ih hnodup h.2
    rw [Mealy.run_cons, accepted_append]
    exact ⟨k, hleads.append hrest⟩

/-- Over every run, from any store: the back-online messages are true exactly when at each check
every device that was alerted for and is still held as offline is monitored and has been offline for
the threshold; and the accepted messages about a device alternate, the first of them an alert, when
the webhook accepts the back-online messages. -/
theorem truthful_iff_and_alternates (mem : MemoryStore) (events : List Event) :
    (Along next Truthful (new mem) events ↔ Along next Unhidden (new mem) events) ∧
      (Along next Delivered (new mem) events →
        ∀ d, Alternates (accepted d (Mealy.run step (new mem) events).1)) := by
  refine ⟨along_congr truthful_iff_unhidden, fun h d => ?_⟩
  obtain ⟨k, hleads⟩ := run_leads List.nodup_nil h d
  have hfirst : lastKind (new mem).notified d = .backOnline := lastKind_of_notMem List.not_mem_nil
  rw [hfirst] at hleads
  exact hleads.isChain

/-- An empty store, with a webhook, the threshold of one hour, and all devices monitored. -/
def sampleStore : MemoryStore := ⟨⟨"https://hook", 1, []⟩, ∅⟩

/-- A device goes offline, and is alerted for. -/
def alertEvents : List Event :=
  [.updateDeviceStatus "spa" "offline" "t0", .check (fun _ => some 7200) fun _ => true]

/-- The device comes back, and both messages get through. -/
theorem alternates_sample :
    Along next Truthful (new sampleStore) (alertEvents ++ [.updateDeviceStatus "spa" "online" "t1",
        .check (fun _ => some 7200) fun _ => true]) ∧
      Alternates (accepted "spa" (Mealy.run step (new sampleStore)
        (alertEvents ++ [.updateDeviceStatus "spa" "online" "t1",
          .check (fun _ => some 7200) fun _ => true])).1) :=
  ⟨(truthful_iff_and_alternates _ _).1.2 (by decide),
    (truthful_iff_and_alternates _ _).2 (by decide) "spa"⟩

/-- The device is not monitored any more: it is announced as back online while it is offline. -/
def hiddenEvents : List Event :=
  alertEvents ++ [.setNotificationConfig ⟨"https://hook", 1, ["pool"]⟩,
    .check (fun _ => some 7200) fun _ => true]

/-- The device comes back and goes offline again, but the back-online message does not get through.
-/
def undeliveredEvents : List Event :=
  alertEvents ++ [.updateDeviceStatus "spa" "online" "t1", .check (fun _ => some 0) fun _ => false,
    .updateDeviceStatus "spa" "offline" "t2", .check (fun _ => some 7200) fun _ => true]

/-- A hidden device is announced as back online, and one whose message is lost is alerted twice. -/
theorem hidden_not_truthful :
    ¬ Along next Truthful (new sampleStore) hiddenEvents ∧
      accepted "spa" (Mealy.run step (new sampleStore) undeliveredEvents).1 =
        [.offline, .offline] ∧
      ¬ Alternates (accepted "spa" (Mealy.run step (new sampleStore) undeliveredEvents).1) := by
  have haccepted : accepted "spa" (Mealy.run step (new sampleStore) undeliveredEvents).1 =
      [.offline, .offline] := by decide
  refine ⟨by decide, haccepted, ?_⟩
  rw [haccepted, Alternates]
  decide

end Notifier

end Launa.Server
