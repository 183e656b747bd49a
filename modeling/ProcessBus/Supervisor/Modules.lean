import ProcessBus.Go.Bytes

/-!
# The modules of the supervisor

`internal/application/control` and the start functions of `internal/supervisor` (`goose.go`,
`sv.go`, `ptp.go`).  A start function either fails before there is a runtime, or makes one and
launches the goroutines of its streams one after another; `Plan` is that course of events, and
`startConfiguredModule` computes it from the configuration and from what the host answers.

`startGoosePub` is the only function that looks at the configuration of a stream after it has
launched another one.
-/

namespace ProcessBus.Supervisor

open Go

/-- `ModuleID`. -/
inductive ModuleID
  | gooseSub
  | goosePub
  | svSub
  | svPub
  | ptpClient
  | ptpServer
deriving DecidableEq, Repr

/-- `control.Modules`. -/
def modules : List ModuleID := [.gooseSub, .goosePub, .svSub, .svPub, .ptpClient, .ptpServer]

theorem mem_modules (id : ModuleID) : id ∈ modules := by
  cases id <;> decide

/-- `Status`. -/
inductive Status
  | stopped
  | running
  | error
deriving DecidableEq, Repr

/-- The addresses of a stream. -/
inductive MACField
  | dstMAC
  | srcMAC
deriving DecidableEq, Repr

/-- The errors of the lifecycle. -/
inductive Failure
  /-- `%s is disabled in profile`. -/
  | disabled (id : ModuleID)
  /-- `%s: dst_mac: %w` and `%s: src_mac: %w`. -/
  | mac (name : String) (field : MACField)
  /-- `%s: dataset: item #%d %q: unsupported type %q`. -/
  | dataset (name : String) (index : ℕ) (entry type : String)
  /-- `ptp_client: unsupported source %q`. -/
  | unsupportedSource (source : String)
  /-- `%s: power profile requires ethernet transport`. -/
  | powerTransport (id : ModuleID)
  /-- `ptp_client: Local source requires a running PTP Server; start it first`. -/
  | localServer
  /-- `ptp_server: unknown time source %q`. -/
  | timeSource (source : String)
  /-- An error of the capture, injection or PTP transport, or of the clock. -/
  | host (err : String)
  /-- `runtime: config is not loaded`. -/
  | noConfig
  /-- `supervisor is closed`. -/
  | closed
  /-- `%s stopped unexpectedly`. -/
  | unexpected (id : ModuleID)
  /-- What a service returned. -/
  | service (err : String)
  /-- What the close function of a runtime returned. -/
  | close (err : String)
  /-- `%s is not running`. -/
  | notRunning (id : ModuleID)
  /-- `SV publisher is not running`. -/
  | svPublisherNotRunning
  /-- `goose publisher %q not found` and `sv stream %q not found`. -/
  | notFound (id : ModuleID) (name : String)
  /-- What a publisher answered to a write. -/
  | rejected (err : String)
  /-- `project runtime is unavailable`. -/
  | unavailable
deriving DecidableEq, Repr

/-! ## Configuration -/

structure DatasetEntry where
  name : String
  type : String

structure GoosePublisher where
  name : String
  dstMAC : Bytes
  srcMAC : Bytes
  dataset : List DatasetEntry

structure SVPublisher where
  name : String
  dstMAC : Bytes
  srcMAC : Bytes

/-- `GooseSubscriber` and `SVSubscriber`. -/
structure Subscriber where
  name : String
  dstMAC : Bytes
  srcMAC : Bytes

/-- A section of the configuration with a list of streams. -/
structure StreamsCfg (α : Type) where
  enabled : Bool := false
  streams : List α := []

structure PTPClientCfg where
  enabled : Bool := false
  source : String := ""
  profile : String := ""
  transport : String := ""

structure PTPServerCfg where
  enabled : Bool := false
  profile : String := ""
  transport : String := ""
  timeSource : String := ""

/-- `config.Config`, as far as the start functions decide by it. -/
structure Config where
  gooseSub : StreamsCfg Subscriber := {}
  goosePub : StreamsCfg GoosePublisher := {}
  svSub : StreamsCfg Subscriber := {}
  svPub : StreamsCfg SVPublisher := {}
  ptpClient : PTPClientCfg := {}
  ptpServer : PTPServerCfg := {}

/-- What a command is answered from outside: whether the device opens, whether the interface has an
address, whether the clock takes the local source, and whether a publisher accepts a write. -/
structure Host where
  opened : Except String Unit := .ok ()
  identity : Except String Unit := .ok ()
  bound : Except String Unit := .ok ()
  written : Except String Unit := .ok ()

/-! ## `net.ParseMAC` -/

def hexDigit (c : UInt8) : Option UInt8 :=
  if 48 ≤ c ∧ c ≤ 57 then some (c - 48)
  else if 97 ≤ c ∧ c ≤ 102 then some (c - 97 + 10)
  else if 65 ≤ c ∧ c ≤ 70 then some (c - 65 + 10)
  else none

/-- `xtoi2`: two digits, and the separator after them unless the text ends there. -/
def xtoi2 (s : Bytes) (sep : UInt8) : Option UInt8 :=
  match s with
  | a :: b :: rest =>
      if rest.head?.all (· == sep) then do return (← hexDigit a) * 16 + (← hexDigit b) else none
  | _ => none

/-- Six, eight or twenty octets in groups of two digits after `:` or `-`, or of four after `.`. -/
def parseMAC (s : Bytes) : Option Bytes :=
  let len := s.length
  let sep := byteAt s 2
  if len < 14 then none
  else if sep = 58 ∨ sep = 45 then
    let n := (len + 1) / 3
    if (len + 1) % 3 ≠ 0 ∨ n ∉ [6, 8, 20] then none
    else (List.range n).mapM fun i ↦ xtoi2 (s.drop (3 * i)) sep
  else if byteAt s 4 = 46 then
    let n := 2 * (len + 1) / 5
    if (len + 1) % 5 ≠ 0 ∨ n ∉ [6, 8, 20] then none
    else (List.range n).mapM fun i ↦
      if i % 2 = 0 then xtoi2 (slice s (5 * (i / 2)) (5 * (i / 2) + 2)) 0
      else xtoi2 (s.drop (5 * (i / 2) + 2)) 46
  else none

/-! ## Building the streams -/

def checkMAC (name : String) (field : MACField) (text : Bytes) : Except Failure Unit :=
  match parseMAC text with
  | some _ => .ok ()
  | none => .error (.mac name field)

/-- `gooseDatasetEntryDefaultValue` has a value for the type. -/
def isGooseDatasetType (type : String) : Bool :=
  ["bool", "quality", "int", "uint", "float", "string", "utc_time"].contains type

/-- `buildGooseDatasetInitialData`. -/
def buildGooseDatasetInitialData (name : String) (entries : List DatasetEntry) :
    Except Failure Unit :=
  match entries.zipIdx.find? fun e ↦ !isGooseDatasetType e.1.type with
  | some (entry, i) => .error (.dataset name i entry.name entry.type)
  | none => .ok ()

/-- `buildGoosePublisherConfig`, of which the supervisor keeps the name. -/
def buildGoosePublisherConfig (c : GoosePublisher) : Except Failure String := do
  checkMAC c.name .dstMAC c.dstMAC
  checkMAC c.name .srcMAC c.srcMAC
  buildGooseDatasetInitialData c.name c.dataset
  return c.name

/-- `buildSVPublisherConfig`. -/
def buildSVPublisherConfig (c : SVPublisher) : Except Failure String := do
  checkMAC c.name .dstMAC c.dstMAC
  checkMAC c.name .srcMAC c.srcMAC
  return c.name

/-- `buildGooseSubscriptions` and `buildSVSubscriptions`. -/
def buildSubscriptions (subs : List Subscriber) : Except Failure Unit :=
  subs.forM fun c ↦ do
    checkMAC c.name .dstMAC c.dstMAC
    unless c.srcMAC = [] do checkMAC c.name .srcMAC c.srcMAC

/-- `config.ParseTimeSource` knows the name. -/
def isTimeSource (s : String) : Bool :=
  ["atomic_clock", "gps", "terrestrial_radio", "serial_time_code", "ptp", "ntp", "hand_set",
    "other", "internal_oscillator", ""].contains s.toLower

/-! ## Start functions -/

/-- What a start function does.  A runtime has a close function unless it is one of PTP, and each
of its streams is either launched, under its name, or found to be wrong, which is the end. -/
inductive Plan
  | fail (err : Failure)
  | launch (hasClose : Bool) (streams : List (Except Failure String))

/-- The plan of a computation that may fail. -/
def Plan.ofExcept : Except Failure Plan → Plan
  | .error err => .fail err
  | .ok plan => plan

def enabled (id : ModuleID) (b : Bool) : Except Failure Unit :=
  if b then .ok () else .error (.disabled id)

def Host.answer (r : Except String Unit) : Except Failure Unit := r.mapError .host

def startGoosePub (cfg : Config) (host : Host) : Except Failure Plan := do
  enabled .goosePub cfg.goosePub.enabled
  Host.answer host.opened
  return .launch true (cfg.goosePub.streams.map buildGoosePublisherConfig)

def startGooseSub (cfg : Config) (host : Host) : Except Failure Plan := do
  enabled .gooseSub cfg.gooseSub.enabled
  buildSubscriptions cfg.gooseSub.streams
  Host.answer host.opened
  return .launch true [.ok ""]

def startSVPub (cfg : Config) (host : Host) : Except Failure Plan := do
  enabled .svPub cfg.svPub.enabled
  let streams ← cfg.svPub.streams.mapM buildSVPublisherConfig
  Host.answer host.opened
  return .launch true (streams.map .ok)

def startSVSub (cfg : Config) (host : Host) : Except Failure Plan := do
  enabled .svSub cfg.svSub.enabled
  buildSubscriptions cfg.svSub.streams
  Host.answer host.opened
  return .launch true [.ok ""]

def startLocalPTPClient (serverRunning : Bool) (host : Host) : Except Failure Plan := do
  unless serverRunning do throw .localServer
  Host.answer host.bound
  return .launch false [.ok ""]

def startPTPClient (cfg : Config) (serverRunning : Bool) (host : Host) : Except Failure Plan := do
  enabled .ptpClient cfg.ptpClient.enabled
  if cfg.ptpClient.source = "local" then startLocalPTPClient serverRunning host
  else
    unless cfg.ptpClient.source = "" ∨ cfg.ptpClient.source = "external" do
      throw (.unsupportedSource cfg.ptpClient.source)
    if cfg.ptpClient.profile = "power" ∧ cfg.ptpClient.transport ≠ "ethernet" then
      throw (.powerTransport .ptpClient)
    Host.answer host.opened
    Host.answer host.identity
    return .launch false [.ok ""]

def startPTPServer (cfg : Config) (host : Host) : Except Failure Plan := do
  enabled .ptpServer cfg.ptpServer.enabled
  if cfg.ptpServer.profile = "power" ∧ cfg.ptpServer.transport ≠ "ethernet" then
    throw (.powerTransport .ptpServer)
  Host.answer host.opened
  Host.answer host.identity
  unless isTimeSource cfg.ptpServer.timeSource do throw (.timeSource cfg.ptpServer.timeSource)
  return .launch false [.ok ""]

/-- `startConfiguredModule`; the local PTP client asks whether the PTP server is running. -/
def startConfiguredModule (id : ModuleID) (cfg : Config) (serverRunning : Bool) (host : Host) :
    Plan :=
  .ofExcept <| match id with
    | .gooseSub => startGooseSub cfg host
    | .goosePub => startGoosePub cfg host
    | .svSub => startSVSub cfg host
    | .svPub => startSVPub cfg host
    | .ptpClient => startPTPClient cfg serverRunning host
    | .ptpServer => startPTPServer cfg host

end ProcessBus.Supervisor
