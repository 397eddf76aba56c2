import Launa.Lib.Utf8Bytes
import Launa.Mqtt.Codec
import Launa.Mqtt.OtaUrl

/-!
# Configuration over the serial line

`config-flash` of the host sends a configuration in lines, and `SerialConfigReceiver` of the app
reads them byte by byte. It begins anew at `CONFIG_START`, but only if no transfer is open: the
pairs of a transfer that was cut off stay, and those that the next one does not send as well are
taken over into its configuration. So a configuration is received as it was sent, after every
history and over any number of polls, exactly if no transfer is open or its pairs change nothing
(`received_iff`).
-/

namespace Launa.App

open Json Mqtt Ota Utf8Bytes

/-! ## `config.rs` -/

/-- `AppConfig`. -/
structure AppConfig where
  wifiSsid : String
  wifiPassword : String
  mqttHost : String
  mqttPort : UInt16
  mqttUser : String
  mqttPassword : String
  deviceId : String
  deriving DecidableEq

/-- `AppConfig::default`. -/
def AppConfig.default : AppConfig where
  wifiSsid := "YOUR_WIFI_SSID"
  wifiPassword := "YOUR_WIFI_PASSWORD"
  mqttHost := "192.168.1.100"
  mqttPort := 1883
  mqttUser := ""
  mqttPassword := ""
  deviceId := "launa_spa"

/-! ## `serial_config.rs` -/

/-- `MAX_LINE_LEN`. -/
def maxLineLen : ℕ := 256

/-- `SerialConfigReceiver`. -/
structure SerialConfigReceiver where
  lineBuf : List UInt8
  started : Bool
  kvPairs : List (String × String)
  deriving DecidableEq

/-- `parse::<u16>`. -/
def parsePort (value : String) : Option UInt16 :=
  (fromStrRadix 10 (2 ^ 16) value.toList).map UInt16.ofNat

/-- A pair is put into the configuration. A port that is no number is an error. -/
def AppConfig.setKey (config : AppConfig) : String × String → Option AppConfig
  | (key, value) =>
    if key = "wifi.ssid" then some { config with wifiSsid := value }
    else if key = "wifi.password" then some { config with wifiPassword := value }
    else if key = "mqtt.host" then some { config with mqttHost := value }
    else if key = "mqtt.port" then
      (parsePort value).map fun port => { config with mqttPort := port }
    else if key = "mqtt.user" then some { config with mqttUser := value }
    else if key = "mqtt.password" then some { config with mqttPassword := value }
    else if key = "device.id" then some { config with deviceId := value }
    -- Other keys are only logged.
    else some config

/-- A line without the carriage returns around it. -/
def trimCr (line : String) : String :=
  .ofList ((line.toList.dropWhile (· = '\r')).reverse.dropWhile (· = '\r')).reverse

/-- A line split at its first `=`. -/
def splitPair (line : String) : Option (String × String) :=
  if '=' ∈ line.toList then
    some (.ofList (line.toList.takeWhile (· ≠ '=')),
      .ofList ((line.toList.dropWhile (· ≠ '=')).drop 1))
  else none

namespace SerialConfigReceiver

/-- `SerialConfigReceiver::new`, and what `reset` leaves. -/
def new : SerialConfigReceiver := ⟨[], false, []⟩

/-- `parse_and_respond`. -/
def parseAndRespond (self : SerialConfigReceiver) : Option AppConfig × SerialConfigReceiver :=
  (self.kvPairs.foldlM AppConfig.setKey .default, new)

/-- What the loop of `parse_and_respond` has it write: an error ends it, and else the configuration
is confirmed. -/
def responseTo (config : AppConfig) : List (String × String) → String
  | [] => "CONFIG_OK\n"
  | pair :: pairs =>
    match config.setKey pair with
    | some config => responseTo config pairs
    -- Only a port is refused.
    | none => "CONFIG_ERROR:invalid_port=" ++ pair.2 ++ "\n"

/-- What `parse_and_respond` writes to the line. -/
def response (self : SerialConfigReceiver) : String := responseTo .default self.kvPairs

/-- What `poll` does with a line: it returns a result, or goes on. -/
def onLine (self : SerialConfigReceiver) (line : String) :
    Option (Option AppConfig) × SerialConfigReceiver :=
  if !self.started then
    if line = "CONFIG_START" then (none, { self with started := true, kvPairs := [] })
    else (none, self)
  -- A transfer is open, and another `CONFIG_START` is a line without `=`.
  else if line = "CONFIG_END" then
    let (result, self) := self.parseAndRespond
    (some result, self)
  else if !line.isEmpty then
    match splitPair line with
    | some pair => (none, { self with kvPairs := self.kvPairs ++ [pair] })
    | none => (none, self)
  else (none, self)

/-- What `poll` does with a byte. -/
def onByte (self : SerialConfigReceiver) (byte : UInt8) :
    Option (Option AppConfig) × SerialConfigReceiver :=
  if byte = 0x0A then
    let line := trimCr ((fromUtf8 self.lineBuf).getD "")
    { self with lineBuf := [] }.onLine line
  -- What does not fit is dropped up to the line feed.
  else if byte ≠ 0x0D ∧ self.lineBuf.length < maxLineLen then
    (none, { self with lineBuf := self.lineBuf ++ [byte] })
  else (none, self)

/-- `poll`, with what it leaves in the FIFO. -/
def poll (self : SerialConfigReceiver) :
    List UInt8 → Option AppConfig × SerialConfigReceiver × List UInt8
  | [] => (none, self, [])
  | byte :: fifo =>
    match self.onByte byte with
    | (some result, self) => (result, self, fifo)
    | (none, self) => self.poll fifo

/-- A poll for each of the chunks that arrive: the configurations that are returned, the receiver,
and what is left in the FIFO. -/
def polls (self : SerialConfigReceiver) (fifo : List UInt8) :
    List (List UInt8) → List AppConfig × SerialConfigReceiver × List UInt8
  | [] => ([], self, fifo)
  | chunk :: chunks =>
    let (result, self, fifo) := self.poll (fifo ++ chunk)
    let (results, self, fifo) := self.polls fifo chunks
    (result.toList ++ results, self, fifo)

/-- The receiver behind these bytes. -/
def after (self : SerialConfigReceiver) (bytes : List UInt8) : SerialConfigReceiver :=
  bytes.foldl (fun self byte => (self.onByte byte).2) self

/-- The configurations that these bytes make it return. -/
def returned (self : SerialConfigReceiver) : List UInt8 → List AppConfig
  | [] => []
  | byte :: bytes =>
    match self.onByte byte with
    | (some result, self) => result.toList ++ self.returned bytes
    | (none, self) => self.returned bytes

end SerialConfigReceiver

/-! ## `config_flash.rs` -/

/-- `WifiConfig` of the host. -/
structure WifiConfig where
  ssid : String
  password : String
  deriving DecidableEq

/-- `MqttConfig` of the host. -/
structure MqttConfig where
  host : String
  port : UInt16
  user : String
  password : String
  deriving DecidableEq

/-- `Config` of the host, as far as it is sent. -/
structure HostConfig where
  wifi : WifiConfig
  mqtt : MqttConfig
  deviceId : String
  deriving DecidableEq

/-- A line of the payload, with its line end. -/
def payloadLine (key value : String) : String := key ++ "=" ++ value ++ "\r\n"

/-- The payload of `config-flash`. -/
def HostConfig.payload (config : HostConfig) : String :=
  "CONFIG_START\r\n" ++
    payloadLine "wifi.ssid" config.wifi.ssid ++
    payloadLine "wifi.password" config.wifi.password ++
    payloadLine "mqtt.host" config.mqtt.host ++
    payloadLine "mqtt.port" (toString config.mqtt.port.toNat) ++
    (if config.mqtt.user.isEmpty then "" else payloadLine "mqtt.user" config.mqtt.user) ++
    (if config.mqtt.password.isEmpty then ""
      else payloadLine "mqtt.password" config.mqtt.password) ++
    payloadLine "device.id" config.deviceId ++
    "CONFIG_END\r\n"

/-- The lines of `str::lines`, where `current` is the line so far. -/
def linesFrom (current : List Char) : List Char → List (List Char)
  | [] => if current.isEmpty then [] else [current]
  | c :: cs =>
    if c = '\n' then
      (if current.getLast? = some '\r' then current.dropLast else current) :: linesFrom [] cs
    else linesFrom (current ++ [c]) cs

/-- A line as it is written, with a line end. -/
def lineBytes (line : String) : List UInt8 := asBytes line ++ asBytes "\r\n"

/-- The bytes that are written: the payload, line by line. -/
def HostConfig.sent (config : HostConfig) : List UInt8 :=
  (linesFrom [] config.payload.toList).flatMap fun line => lineBytes (.ofList line)

/-- The configuration that the app should have. -/
def HostConfig.appConfig (config : HostConfig) : AppConfig :=
  ⟨config.wifi.ssid, config.wifi.password, config.mqtt.host, config.mqtt.port, config.mqtt.user,
    config.mqtt.password, config.deviceId⟩

/-- The pairs of a configuration that are sent. -/
def HostConfig.pairs (config : HostConfig) : List (String × String) :=
  [("wifi.ssid", config.wifi.ssid), ("wifi.password", config.wifi.password),
    ("mqtt.host", config.mqtt.host), ("mqtt.port", toString config.mqtt.port.toNat)] ++
  (if config.mqtt.user.isEmpty then [] else [("mqtt.user", config.mqtt.user)]) ++
  (if config.mqtt.password.isEmpty then [] else [("mqtt.password", config.mqtt.password)]) ++
  [("device.id", config.deviceId)]

/-- A text that is received as a line: no line end, and no more bytes than the receiver keeps. -/
structure IsLine (line : String) : Prop where
  cr : '\r' ∉ line.toList
  lf : '\n' ∉ line.toList
  fits : line.utf8ByteSize ≤ maxLineLen

/-- The line of a pair. -/
def pairLine (pair : String × String) : String := pair.1 ++ "=" ++ pair.2

/-- The values of a configuration hold no line end, and its lines fit. -/
def HostConfig.Sendable (config : HostConfig) : Prop :=
  ∀ pair ∈ config.pairs, IsLine (pairLine pair)

/-! ## Polls -/

namespace SerialConfigReceiver

variable {self : SerialConfigReceiver}

/-- The bytes of two lists are received one after the other. -/
theorem after_append (self : SerialConfigReceiver) (bytes rest : List UInt8) :
    self.after (bytes ++ rest) = (self.after bytes).after rest :=
  List.foldl_append

/-- What the first byte returns comes first. -/
theorem returned_cons (self : SerialConfigReceiver) (byte : UInt8) (bytes : List UInt8) :
    self.returned (byte :: bytes) =
      ((self.onByte byte).1.bind id).toList ++ (self.onByte byte).2.returned bytes := by
  rw [returned]
  split
  · rename_i heq
    rw [heq]
    rfl
  · rename_i heq
    rw [heq]
    rfl

/-- What two lists of bytes return is put behind each other. -/
theorem returned_append (self : SerialConfigReceiver) (bytes rest : List UInt8) :
    self.returned (bytes ++ rest) = self.returned bytes ++ (self.after bytes).returned rest := by
  induction bytes generalizing self with
  | nil => rfl
  | cons byte bytes ih =>
    rw [List.cons_append, returned_cons, returned_cons, ih, List.append_assoc]
    rfl

/-- A poll returns what its bytes make the receiver return, up to what it leaves. -/
theorem poll_spec (self : SerialConfigReceiver) (fifo : List UInt8) :
    self.returned fifo =
        (self.poll fifo).1.toList ++ (self.poll fifo).2.1.returned (self.poll fifo).2.2 ∧
      self.after fifo = (self.poll fifo).2.1.after (self.poll fifo).2.2 := by
  induction fifo generalizing self with
  | nil => exact ⟨rfl, rfl⟩
  | cons byte fifo ih =>
    have hafter : self.after (byte :: fifo) = (self.onByte byte).2.after fifo := rfl
    rw [returned_cons, hafter, poll]
    split
    · rename_i heq
      rw [heq]
      exact ⟨rfl, rfl⟩
    · rename_i heq
      rw [heq]
      exact ih _

/-- However the bytes arrive, the polls return what they make the receiver return. -/
theorem polls_spec (self : SerialConfigReceiver) (fifo : List UInt8) (chunks : List (List UInt8)) :
    self.returned (fifo ++ chunks.flatten) = (self.polls fifo chunks).1 ++
      (self.polls fifo chunks).2.1.returned (self.polls fifo chunks).2.2 := by
  induction chunks generalizing self fifo with
  | nil => rw [List.flatten_nil, List.append_nil, polls, List.nil_append]
  | cons chunk chunks ih =>
    obtain ⟨hreturned, hafter⟩ := self.poll_spec (fifo ++ chunk)
    rw [List.flatten_cons, ← List.append_assoc, returned_append, hreturned, hafter,
      List.append_assoc, ← returned_append, ih, polls]
    exact (List.append_assoc _ _ _).symm

/-- A byte at a time leaves nothing in the FIFO. -/
theorem polls_singletons (self : SerialConfigReceiver) (bytes : List UInt8) :
    (self.polls [] (bytes.map ([·]))).2.2 = [] := by
  induction bytes generalizing self with
  | nil => rfl
  | cons byte bytes ih =>
    have hrest : (self.poll [byte]).2.2 = [] := by
      rw [poll]
      split <;> rfl
    rw [List.map_cons, polls]
    dsimp only
    rw [List.nil_append, hrest]
    exact ih _

/-! ## Lines -/

/-- A line leaves the buffer empty. -/
theorem lineBuf_onLine (h : self.lineBuf = []) (line : String) :
    (self.onLine line).2.lineBuf = [] := by
  unfold onLine
  split
  · split <;> exact h
  · split
    · rfl
    · split
      · split <;> exact h
      · exact h

/-- A line feed ends the line. -/
theorem onByte_lf (self : SerialConfigReceiver) : self.onByte 0x0A =
    ({ self with lineBuf := [] } : SerialConfigReceiver).onLine
      (trimCr ((fromUtf8 self.lineBuf).getD "")) := by
  unfold onByte
  rw [if_pos rfl]

/-- A carriage return is passed over. -/
theorem onByte_cr (self : SerialConfigReceiver) : self.onByte 0x0D = (none, self) := by
  unfold onByte
  rw [if_neg (by decide), if_neg (fun h => h.1 rfl)]

/-- Behind a line feed no line is begun. -/
theorem lineBuf_after {history : List UInt8} (h : ∀ b ∈ history.getLast?, b = 0x0A) :
    (new.after history).lineBuf = [] := by
  rcases List.eq_nil_or_concat' history with rfl | ⟨bytes, b, rfl⟩
  · rfl
  · have hb : b = 0x0A := h b List.getLast?_concat
    rw [hb, after_append]
    change ((new.after bytes).onByte 0x0A).2.lineBuf = []
    rw [onByte_lf]
    exact lineBuf_onLine rfl _

/-- The bytes of a line are kept as long as they fit. -/
theorem after_body {body : List UInt8} (hlf : 0x0A ∉ body) (hcr : 0x0D ∉ body)
    (hfits : self.lineBuf.length + body.length ≤ maxLineLen) :
    self.after body = { self with lineBuf := self.lineBuf ++ body } ∧ self.returned body = [] := by
  induction body generalizing self with
  | nil => exact ⟨by rw [List.append_nil]; rfl, rfl⟩
  | cons byte body ih =>
    have ⟨hlf, hlfs⟩ := not_or.1 (mt List.mem_cons.2 hlf)
    have ⟨hcr, hcrs⟩ := not_or.1 (mt List.mem_cons.2 hcr)
    rw [List.length_cons] at hfits
    have hbyte : self.onByte byte = (none, { self with lineBuf := self.lineBuf ++ [byte] }) := by
      unfold onByte
      rw [if_neg (Ne.symm hlf), if_pos ⟨Ne.symm hcr, by omega⟩]
    have hrest : ({ self with lineBuf := self.lineBuf ++ [byte] } :
        SerialConfigReceiver).lineBuf.length + body.length ≤ maxLineLen := by
      rw [List.length_append, List.length_singleton]
      omega
    obtain ⟨hafter, hreturned⟩ := ih hlfs hcrs hrest
    constructor
    · change (self.onByte byte).2.after body = _
      rw [hbyte, hafter, List.append_assoc]
      rfl
    · rw [returned_cons, hbyte, hreturned]
      rfl

end SerialConfigReceiver

/-- A line without a carriage return is not trimmed. -/
theorem trimCr_of_not_mem {line : String} (h : '\r' ∉ line.toList) : trimCr line = line := by
  have hdrop (cs : List Char) (hcs : '\r' ∉ cs) : cs.dropWhile (· = '\r') = cs := by
    cases cs with
    | nil => rfl
    | cons c cs =>
      have hc : c ≠ '\r' := fun heq => hcs (heq ▸ List.mem_cons_self)
      exact List.dropWhile_cons_of_neg (by simpa using hc)
  rw [trimCr, hdrop _ h, hdrop _ (mt List.mem_reverse.1 h), List.reverse_reverse,
    String.ofList_toList]

namespace SerialConfigReceiver

variable {self : SerialConfigReceiver} {line : String}

/-- A line that fits is received as it is. -/
theorem after_lineBytes (hbuf : self.lineBuf = []) (h : IsLine line) :
    self.after (lineBytes line) = (self.onLine line).2 ∧
      self.returned (lineBytes line) = ((self.onLine line).1.bind id).toList := by
  obtain ⟨hcr, hlf, hfits⟩ := h
  have hbytes : asBytes line = bytes line.toList := toList_toByteArray line
  have hlf' : 0x0A ∉ asBytes line := by
    rw [hbytes, mem_bytes_iff (by decide)]
    exact hlf
  have hcr' : 0x0D ∉ asBytes line := by
    rw [hbytes, mem_bytes_iff (by decide)]
    exact hcr
  have hlength : self.lineBuf.length + (asBytes line).length ≤ maxLineLen := by
    rw [hbuf, List.length_nil, Nat.zero_add]
    exact le_of_eq_of_le Array.length_toList hfits
  obtain ⟨hafter, hreturned⟩ := after_body hlf' hcr' hlength
  have hend : asBytes "\r\n" = [0x0D, 0x0A] := by decide
  have hlfByte : ({ self with lineBuf := asBytes line } : SerialConfigReceiver).onByte 0x0A =
      self.onLine line := by
    have hself : ({ self with lineBuf := [] } : SerialConfigReceiver) = self := by rw [← hbuf]
    rw [onByte_lf, hself, fromUtf8_asBytes, Option.getD_some, trimCr_of_not_mem hcr]
  rw [lineBytes, hend, after_append, returned_append, hafter, hreturned, hbuf, List.nil_append,
    List.nil_append]
  constructor
  · rw [after, List.foldl_cons, onByte_cr, List.foldl_cons, hlfByte, List.foldl_nil]
  · rw [returned_cons, onByte_cr, returned_cons, hlfByte]
    exact List.append_nil _

end SerialConfigReceiver

/-! ## The lines of a configuration -/

/-- A line that ends in the payload is one of its lines. -/
theorem linesFrom_append {line : List Char} (h : '\n' ∉ line) (current rest : List Char) :
    linesFrom current (line ++ '\r' :: '\n' :: rest) = (current ++ line) :: linesFrom [] rest := by
  induction line generalizing current with
  | nil =>
    rw [List.nil_append, linesFrom, if_neg (by decide), linesFrom, if_pos rfl,
      List.getLast?_concat, if_pos rfl, List.dropLast_concat, List.append_nil]
  | cons c line ih =>
    have ⟨hc, hline⟩ := not_or.1 (mt List.mem_cons.2 h)
    rw [List.cons_append, linesFrom, if_neg (Ne.symm hc), ih hline, List.append_assoc,
      List.singleton_append]

/-- The lines that are sent: those of the pairs between the first and the last one. -/
def HostConfig.lines (config : HostConfig) : List String :=
  "CONFIG_START" :: (config.pairs.map pairLine ++ ["CONFIG_END"])

/-- A text of whole lines is split into them. -/
theorem linesFrom_lines {lines : List String} (h : ∀ line ∈ lines, '\n' ∉ line.toList) :
    linesFrom [] (lines.flatMap fun line => line.toList ++ ['\r', '\n']) =
      lines.map String.toList := by
  induction lines with
  | nil => rfl
  | cons line lines ih =>
    have ⟨hline, hlines⟩ := List.forall_mem_cons.1 h
    rw [List.flatMap_cons, List.append_assoc, List.cons_append, List.cons_append,
      List.nil_append, linesFrom_append hline, ih hlines]
    rfl

/-- The payload is its lines, each with its end. -/
theorem toList_payload (config : HostConfig) :
    config.payload.toList = config.lines.flatMap fun line => line.toList ++ ['\r', '\n'] := by
  have hend : "\r\n".toList = ['\r', '\n'] := by decide
  have hline (key value : String) : (payloadLine key value).toList =
      (pairLine (key, value)).toList ++ ['\r', '\n'] := by
    rw [payloadLine, String.toList_append, hend]
    rfl
  have hstart : "CONFIG_START\r\n".toList = "CONFIG_START".toList ++ ['\r', '\n'] := by
    decide
  have hstop : "CONFIG_END\r\n".toList = "CONFIG_END".toList ++ ['\r', '\n'] := by
    decide
  unfold HostConfig.payload HostConfig.lines HostConfig.pairs
  cases config.mqtt.user.isEmpty <;> cases config.mqtt.password.isEmpty <;>
    simp [hline, hstart, hstop]

/-- A configuration is sent line by line. -/
theorem HostConfig.Sendable.sent_eq {config : HostConfig} (h : config.Sendable) :
    config.sent = config.lines.flatMap lineBytes := by
  have hlines : ∀ line ∈ config.lines, '\n' ∉ line.toList := by
    intro line hline
    rw [HostConfig.lines, List.mem_cons, List.mem_append, List.mem_singleton, List.mem_map] at hline
    rcases hline with rfl | ⟨pair, hpair, rfl⟩ | rfl
    · decide
    · exact (h pair hpair).lf
    · decide
  rw [HostConfig.sent, toList_payload, linesFrom_lines hlines, List.flatMap_map]
  exact List.flatMap_congr fun line _ => congrArg lineBytes String.ofList_toList

/-- The line of a pair is split at its first `=`, if the key has none. -/
theorem splitPair_pairLine {key value : String} (h : '=' ∉ key.toList) :
    splitPair (pairLine (key, value)) = some (key, value) := by
  have heq : "=".toList = ['='] := by decide
  have hlist : (pairLine (key, value)).toList = key.toList ++ '=' :: value.toList := by
    rw [pairLine, String.toList_append, String.toList_append, heq, List.append_assoc]
    rfl
  have hkey : ∀ c ∈ key.toList, decide (c ≠ '=') = true := fun c hc =>
    decide_eq_true fun hce => h (hce ▸ hc)
  have htake : (key.toList ++ '=' :: value.toList).takeWhile (· ≠ '=') = key.toList := by
    rw [List.takeWhile_append_of_pos hkey, List.takeWhile_cons_of_neg (by simp), List.append_nil]
  have hdrop : (key.toList ++ '=' :: value.toList).dropWhile (· ≠ '=') = '=' :: value.toList := by
    rw [List.dropWhile_append_of_pos hkey, List.dropWhile_cons_of_neg (by simp)]
  rw [splitPair, hlist, if_pos (List.mem_append_right _ List.mem_cons_self), htake, hdrop,
    String.ofList_toList, List.drop_one, List.tail_cons, String.ofList_toList]

/-- The line of a pair has an equals sign. -/
theorem eq_mem_pairLine (pair : String × String) : '=' ∈ (pairLine pair).toList := by
  have heq : "=".toList = ['='] := by decide
  rw [pairLine, String.toList_append, String.toList_append, heq]
  simp

namespace SerialConfigReceiver

variable {self : SerialConfigReceiver}

/-- Within a transfer the line of a pair adds it. -/
theorem onLine_pairLine (hstarted : self.started = true) {key value : String}
    (hkey : '=' ∉ key.toList) :
    self.onLine (pairLine (key, value)) =
      (none, { self with kvPairs := self.kvPairs ++ [(key, value)] }) := by
  have hmem := eq_mem_pairLine (key, value)
  have hend : pairLine (key, value) ≠ "CONFIG_END" := by
    intro heq
    rw [heq] at hmem
    exact absurd hmem (by decide)
  have hempty : (pairLine (key, value)).isEmpty = false := by
    rw [← Bool.not_eq_true, String.isEmpty_iff]
    intro heq
    rw [heq] at hmem
    exact absurd hmem (by decide)
  unfold onLine
  rw [hstarted, hempty, splitPair_pairLine hkey]
  simp [hend]

/-- The lines of some pairs add them. -/
theorem after_pairs (hstarted : self.started = true) (hbuf : self.lineBuf = [])
    {pairs : List (String × String)}
    (h : ∀ pair ∈ pairs, IsLine (pairLine pair) ∧ '=' ∉ pair.1.toList) :
    self.after ((pairs.map pairLine).flatMap lineBytes) =
        { self with kvPairs := self.kvPairs ++ pairs } ∧
      self.returned ((pairs.map pairLine).flatMap lineBytes) = [] := by
  induction pairs generalizing self with
  | nil => exact ⟨by rw [List.append_nil]; rfl, rfl⟩
  | cons pair pairs ih =>
    obtain ⟨⟨hline, hkey⟩, hpairs⟩ := List.forall_mem_cons.1 h
    obtain ⟨hafter, hreturned⟩ := after_lineBytes hbuf hline
    rw [onLine_pairLine hstarted hkey] at hafter hreturned
    obtain ⟨hafter', hreturned'⟩ := @ih { self with kvPairs := self.kvPairs ++ [pair] }
      hstarted hbuf hpairs
    rw [List.map_cons, List.flatMap_cons, after_append, returned_append, hafter, hreturned,
      hafter', hreturned', List.append_assoc]
    exact ⟨rfl, rfl⟩

/-- The pairs that a transfer begins with: those of the one that is open. -/
def stalePairs (self : SerialConfigReceiver) : List (String × String) :=
  if self.started then self.kvPairs else []

/-- `CONFIG_START` opens a transfer, but does not clear one that is open. -/
theorem onLine_start (self : SerialConfigReceiver) :
    self.onLine "CONFIG_START" =
      (none, { self with started := true, kvPairs := self.stalePairs }) := by
  unfold onLine stalePairs
  cases hstarted : self.started with
  | false => rfl
  | true =>
    have hend : "CONFIG_START" ≠ "CONFIG_END" := by decide
    have hsplit : splitPair "CONFIG_START" = none := by decide
    have hempty : "CONFIG_START".isEmpty = false := by decide
    rw [hsplit, hempty, ← hstarted]
    simp [hend]

/-- The last line returns the configuration and starts afresh. -/
theorem onLine_end (hstarted : self.started = true) :
    self.onLine "CONFIG_END" = (some (self.kvPairs.foldlM AppConfig.setKey .default), new) := by
  unfold onLine
  rw [hstarted]
  simp [parseAndRespond]

/-- No key has an equals sign. -/
theorem eq_not_mem_keys {config : HostConfig} :
    ∀ pair ∈ config.pairs, '=' ∉ pair.1.toList := by
  have hkeys : ∀ key ∈ ["wifi.ssid", "wifi.password", "mqtt.host", "mqtt.port", "mqtt.user",
      "mqtt.password", "device.id"], '=' ∉ key.toList := by decide
  intro pair hpair
  apply hkeys
  unfold HostConfig.pairs at hpair
  rw [List.mem_append, List.mem_append, List.mem_append] at hpair
  rcases hpair with ((hpair | hpair) | hpair) | hpair
  · simp only [List.mem_cons, List.not_mem_nil, or_false] at hpair
    rcases hpair with rfl | rfl | rfl | rfl <;> simp
  · split at hpair
    · cases hpair
    · rw [List.mem_singleton.1 hpair]
      simp
  · split at hpair
    · cases hpair
    · rw [List.mem_singleton.1 hpair]
      simp
  · rw [List.mem_singleton.1 hpair]
    simp

/-- What a transfer returns: the configuration of its pairs, behind those of an open transfer. -/
theorem returned_sent (hbuf : self.lineBuf = []) {config : HostConfig} (h : config.Sendable) :
    self.returned config.sent =
      ((self.stalePairs ++ config.pairs).foldlM AppConfig.setKey .default).toList := by
  have hstart : IsLine "CONFIG_START" :=
    ⟨by decide, by decide, by decide⟩
  have hend : IsLine "CONFIG_END" := ⟨by decide, by decide, by decide⟩
  have hpairs : ∀ pair ∈ config.pairs, IsLine (pairLine pair) ∧ '=' ∉ pair.1.toList :=
    fun pair hpair => ⟨h pair hpair, eq_not_mem_keys pair hpair⟩
  obtain ⟨hafter, hreturned⟩ := after_lineBytes hbuf hstart
  rw [onLine_start] at hafter hreturned
  obtain ⟨hafter', hreturned'⟩ := @after_pairs
    { self with started := true, kvPairs := self.stalePairs } rfl hbuf _ hpairs
  obtain ⟨-, hreturned''⟩ := @after_lineBytes
    { self with started := true, kvPairs := self.stalePairs ++ config.pairs } _ hbuf hend
  rw [onLine_end rfl] at hreturned''
  rw [h.sent_eq, HostConfig.lines, List.flatMap_cons, List.flatMap_append, List.flatMap_singleton,
    returned_append, returned_append, hafter, hreturned, hafter', hreturned', hreturned'']
  rfl

end SerialConfigReceiver

/-! ## What stale pairs change -/

/-- The value of the last pair with the key, if there is one, and else the empty text. -/
def lastValue (key : String) (pairs : List (String × String)) : String :=
  pairs.foldl (fun value pair => if pair.1 = key then pair.2 else value) ""

/-- Pairs that change nothing about a configuration that follows them: all their ports are numbers,
and they end with no user and no password where the configuration sends none. -/
structure Harmless (pairs : List (String × String)) (config : HostConfig) : Prop where
  ports : ∀ pair ∈ pairs, pair.1 = "mqtt.port" → (parsePort pair.2).isSome
  user : config.mqtt.user = "" → lastValue "mqtt.user" pairs = ""
  password : config.mqtt.password = "" → lastValue "mqtt.password" pairs = ""

/-- A pair is refused exactly if it is a port that is no number. -/
theorem isSome_setKey_iff (config : AppConfig) (pair : String × String) :
    (config.setKey pair).isSome ↔ (pair.1 = "mqtt.port" → (parsePort pair.2).isSome) := by
  obtain ⟨key, value⟩ := pair
  by_cases hport : key = "mqtt.port"
  · subst hport
    rw [AppConfig.setKey, if_neg (by decide), if_neg (by decide), if_neg (by decide), if_pos rfl,
      Option.isSome_map]
    exact ⟨fun h _ => h, fun h => h rfl⟩
  · unfold AppConfig.setKey
    dsimp only
    rw [if_neg hport]
    refine iff_of_true ?_ fun heq => absurd heq hport
    split_ifs <;> rfl

/-- A pair sets the user or the password if it has its key. -/
theorem setKey_spec {config config' : AppConfig} {pair : String × String}
    (h : config.setKey pair = some config') :
    config'.mqttUser = (if pair.1 = "mqtt.user" then pair.2 else config.mqttUser) ∧
      config'.mqttPassword =
        (if pair.1 = "mqtt.password" then pair.2 else config.mqttPassword) := by
  obtain ⟨key, value⟩ := pair
  unfold AppConfig.setKey at h
  dsimp only at h ⊢
  split_ifs at h with h1 h2 h3 h4 h5 h6 h7
  · cases h
    subst h1
    exact ⟨rfl, rfl⟩
  · cases h
    subst h2
    exact ⟨rfl, rfl⟩
  · cases h
    subst h3
    exact ⟨rfl, rfl⟩
  · obtain ⟨port, -, rfl⟩ := Option.map_eq_some_iff.1 h
    subst h4
    exact ⟨rfl, rfl⟩
  · cases h
    subst h5
    exact ⟨rfl, rfl⟩
  · cases h
    subst h6
    exact ⟨rfl, rfl⟩
  · cases h
    subst h7
    exact ⟨rfl, rfl⟩
  · cases h
    exact ⟨(if_neg h5).symm, (if_neg h6).symm⟩

/-- Pairs are refused exactly if one of them is. -/
theorem isSome_foldlM_setKey_iff (config : AppConfig) (pairs : List (String × String)) :
    (pairs.foldlM AppConfig.setKey config).isSome ↔
      ∀ pair ∈ pairs, pair.1 = "mqtt.port" → (parsePort pair.2).isSome := by
  induction pairs generalizing config with
  | nil => simp
  | cons pair pairs ih =>
    rw [List.forall_mem_cons, ← isSome_setKey_iff config pair, List.foldlM_cons]
    cases hset : config.setKey pair with
    | none => simp
    | some config' => simpa using ih config'

/-- A configuration is confirmed, and else the error names a port that was sent and is no number. -/
theorem SerialConfigReceiver.response_spec (self : SerialConfigReceiver) :
    (self.parseAndRespond.1.isSome ∧ self.response = "CONFIG_OK\n") ∨
      (self.parseAndRespond.1 = none ∧ ∃ value, ("mqtt.port", value) ∈ self.kvPairs ∧
        parsePort value = none ∧
          self.response = "CONFIG_ERROR:invalid_port=" ++ value ++ "\n") := by
  rw [parseAndRespond, response]
  generalize AppConfig.default = config
  induction self.kvPairs generalizing config with
  | nil => exact .inl ⟨rfl, rfl⟩
  | cons pair pairs ih =>
    rw [List.foldlM_cons, responseTo]
    cases hset : config.setKey pair with
    | none =>
      have hrefused := mt (isSome_setKey_iff config pair).2 (by rw [hset]; exact Bool.false_ne_true)
      obtain ⟨hport, hvalue⟩ := Classical.not_imp.1 hrefused
      refine .inr ⟨rfl, pair.2, ?_, Option.not_isSome_iff_eq_none.1 hvalue, rfl⟩
      rw [← hport]
      exact List.mem_cons_self
    | some config' =>
      rcases ih config' with hok | ⟨hnone, value, hmem, herror⟩
      · exact .inl hok
      · exact .inr ⟨hnone, value, List.mem_cons_of_mem _ hmem, herror⟩

/-- The user and the password of some pairs are those of the last pair that has one. -/
theorem foldlM_setKey_spec {config config' : AppConfig} {pairs : List (String × String)}
    (h : pairs.foldlM AppConfig.setKey config = some config') :
    config'.mqttUser = pairs.foldl (fun value pair =>
        if pair.1 = "mqtt.user" then pair.2 else value) config.mqttUser ∧
      config'.mqttPassword = pairs.foldl (fun value pair =>
        if pair.1 = "mqtt.password" then pair.2 else value) config.mqttPassword := by
  induction pairs generalizing config with
  | nil =>
    cases h
    exact ⟨rfl, rfl⟩
  | cons pair pairs ih =>
    rw [List.foldlM_cons] at h
    obtain ⟨config₁, hset, hrest⟩ := Option.bind_eq_some_iff.1 h
    obtain ⟨huser, hpassword⟩ := setKey_spec hset
    obtain ⟨huser', hpassword'⟩ := ih hrest
    rw [List.foldl_cons, List.foldl_cons, ← huser, ← hpassword]
    exact ⟨huser', hpassword'⟩

/-- The port that is sent is read. -/
theorem parsePort_toString (port : UInt16) : parsePort (toString port.toNat) = some port := by
  have hdigits : (toString port.toNat).toList = Nat.toDigits 10 port.toNat := Nat.toList_repr
  have hvalue : digitsValue (Nat.toDigits 10 port.toNat) = port.toNat :=
    Nat.ofDigitChars_ten_toDigits
  have hport : IsPort (Nat.toDigits 10 port.toNat) := by
    refine ⟨Nat.toDigits_ne_nil, fun d hd => ?_, ?_⟩
    · exact Nat.isDigit_of_mem_toDigits (by decide) (by decide) hd
    · rw [hvalue]
      exact port.toNat_lt
  rw [parsePort, hdigits, fromStrRadix_port hport, hvalue, Option.map_some, UInt16.ofNat_toNat]

/-- The pairs of a configuration replace all that was there, but for a user or a password that they
do not hold. -/
theorem foldlM_pairs (config : HostConfig) (base : AppConfig) :
    config.pairs.foldlM AppConfig.setKey base = some { config.appConfig with
      mqttUser := if config.mqtt.user.isEmpty then base.mqttUser else config.mqtt.user
      mqttPassword :=
        if config.mqtt.password.isEmpty then base.mqttPassword else config.mqtt.password } := by
  have hport : parsePort config.mqtt.port.toNat.repr = some config.mqtt.port :=
    parsePort_toString _
  unfold HostConfig.pairs
  cases config.mqtt.user.isEmpty <;> cases config.mqtt.password.isEmpty <;>
    simp [AppConfig.setKey, hport, HostConfig.appConfig]

/-- Behind other pairs a configuration is read as it was sent exactly if they are harmless. -/
theorem foldlM_stale_iff (stale : List (String × String)) (config : HostConfig) :
    (stale ++ config.pairs).foldlM AppConfig.setKey .default = some config.appConfig ↔
      Harmless stale config := by
  rw [List.foldlM_append]
  cases hstale : stale.foldlM AppConfig.setKey .default with
  | none =>
    refine iff_of_false (fun h => Option.noConfusion rfl (heq_of_eq h)) fun h => ?_
    have hsome := (isSome_foldlM_setKey_iff .default stale).2 h.ports
    rw [hstale] at hsome
    cases hsome
  | some base =>
    have hports := (isSome_foldlM_setKey_iff .default stale).1 (by rw [hstale]; rfl)
    obtain ⟨huser, hpassword⟩ := foldlM_setKey_spec hstale
    have hempty (s : String) : s.isEmpty = true ↔ s = "" := String.isEmpty_iff
    rw [Option.bind_eq_bind, Option.bind_some, foldlM_pairs, Option.some.injEq]
    constructor
    · intro h
      refine ⟨hports, fun hnone => ?_, fun hnone => ?_⟩
      · have hmqtt := congrArg AppConfig.mqttUser h
        rw [if_pos ((hempty _).2 hnone)] at hmqtt
        exact huser.symm.trans (hmqtt.trans hnone)
      · have hmqtt := congrArg AppConfig.mqttPassword h
        rw [if_pos ((hempty _).2 hnone)] at hmqtt
        exact hpassword.symm.trans (hmqtt.trans hnone)
    · rintro ⟨-, hu, hp⟩
      have huser' : (if config.mqtt.user.isEmpty then base.mqttUser else config.mqtt.user) =
          config.mqtt.user := by
        split
        · rename_i hnone
          rw [huser, (hempty _).1 hnone]
          exact hu ((hempty _).1 hnone)
        · rfl
      have hpassword' : (if config.mqtt.password.isEmpty then base.mqttPassword
          else config.mqtt.password) = config.mqtt.password := by
        split
        · rename_i hnone
          rw [hpassword, (hempty _).1 hnone]
          exact hp ((hempty _).1 hnone)
        · rfl
      rw [huser', hpassword']
      rfl

/-! ## Transfers -/

namespace SerialConfigReceiver

/-- After every history of whole lines, and however the bytes arrive, a configuration is received as
it was sent exactly if no transfer is open, or the pairs of the open one are harmless. -/
theorem received_iff {history : List UInt8} (hhistory : ∀ b ∈ history.getLast?, b = 0x0A)
    {config : HostConfig} (hconfig : config.Sendable) :
    (∀ chunks : List (List UInt8), chunks.flatten = history ++ config.sent →
      (new.polls [] chunks).2.2 = [] →
        (new.polls [] chunks).1 = new.returned history ++ [config.appConfig]) ↔
      ((new.after history).started = true → Harmless (new.after history).kvPairs config) := by
  have hstale : ((new.after history).started = true →
      Harmless (new.after history).kvPairs config) ↔
        Harmless (new.after history).stalePairs config := by
    unfold stalePairs
    cases (new.after history).started with
    | false =>
      refine iff_of_true (fun h => absurd h Bool.false_ne_true) ⟨fun pair hpair => ?_, ?_, ?_⟩
      · exact absurd hpair List.not_mem_nil
      · exact fun _ => rfl
      · exact fun _ => rfl
    | true => exact ⟨fun h => h rfl, fun h _ => h⟩
  have hsent := returned_sent (lineBuf_after hhistory) hconfig
  rw [hstale, ← foldlM_stale_iff]
  constructor
  -- A byte at a time is one way in which the bytes can arrive.
  · intro h
    have hflatten : ((history ++ config.sent).map ([·])).flatten = history ++ config.sent := by
      rw [← List.flatMap_def, List.flatMap_singleton']
    have hpolls := h _ hflatten (polls_singletons _ _)
    have hspec := polls_spec new [] ((history ++ config.sent).map ([·]))
    rw [List.nil_append, hflatten, polls_singletons, hpolls, returned_append, hsent] at hspec
    have hlist := List.append_cancel_left (hspec.trans (List.append_nil _))
    exact Option.toList_eq_singleton_iff.1 hlist
  · intro h chunks hchunks hdrained
    have hspec := polls_spec new [] chunks
    rw [List.nil_append, hchunks, hdrained, returned_append, hsent, h] at hspec
    exact (hspec.trans (List.append_nil _)).symm

/-- A transfer that was cut off behind a password. -/
def cutOff : List UInt8 := asBytes "CONFIG_START\r\nmqtt.password=old\r\n"

/-- A configuration without a user and a password. -/
def openConfig : HostConfig := ⟨⟨"net", "key"⟩, ⟨"host", 1883, "", ""⟩, "spa"⟩

/-- The configuration of an open network can be sent. -/
theorem sendable_openConfig : openConfig.Sendable := by
  have hlines : ∀ pair ∈ openConfig.pairs, '\r' ∉ (pairLine pair).toList ∧
      '\n' ∉ (pairLine pair).toList ∧ (pairLine pair).utf8ByteSize ≤ maxLineLen := by
    decide +kernel
  exact fun pair hpair => ⟨(hlines pair hpair).1, (hlines pair hpair).2.1, (hlines pair hpair).2.2⟩

/-- The password of the transfer that was cut off is taken over. -/
theorem cutOff_received :
    ¬∀ (history : List UInt8) (config : HostConfig), (∀ b ∈ history.getLast?, b = 0x0A) →
      config.Sendable → ∀ chunks : List (List UInt8), chunks.flatten = history ++ config.sent →
        (new.polls [] chunks).2.2 = [] →
          (new.polls [] chunks).1 = new.returned history ++ [config.appConfig] := by
  intro h
  have hpolls := h cutOff openConfig (by decide +kernel) sendable_openConfig
    [cutOff ++ openConfig.sent] (by simp) (by decide +kernel)
  exact absurd hpolls (by decide +kernel)

/-- After a transfer that was completed, the configuration is received as it was sent. -/
theorem received_iff_openConfig :
    (new.polls [] [openConfig.sent, openConfig.sent]).1 =
      new.returned openConfig.sent ++ [openConfig.appConfig] := by
  have hhistory : ∀ b ∈ openConfig.sent.getLast?, b = 0x0A := by decide +kernel
  exact (received_iff hhistory sendable_openConfig).2
    (fun hstarted => absurd hstarted (by decide +kernel)) [openConfig.sent, openConfig.sent]
    (by simp) (by decide +kernel)

end SerialConfigReceiver

end Launa.App
