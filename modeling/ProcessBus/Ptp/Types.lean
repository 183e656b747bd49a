import ProcessBus.Go.Bytes
import ProcessBus.Go.Time

/-!
# PTP types

`internal/domain/ptp`: the header, the message bodies and the profile of IEEE 1588-2008, as the
program declares them.  Numbers keep their Go types, since the client computes with them.
-/

namespace ProcessBus.Ptp

open Go

/-! ## Time -/

/-- `Timestamp`: the wire has 48 bits of seconds. -/
structure Timestamp where
  seconds : UInt64
  nanoseconds : UInt32
deriving DecidableEq, Repr

namespace Timestamp

/-- `TimestampFromTime`. -/
def fromTime (t : Time) : Timestamp :=
  ⟨UInt64.ofInt t.unix, UInt32.ofInt t.nanosecond⟩

/-- `TimestampFromTimeWithUTCOffset`: UTC to TAI. -/
def fromTimeWithUTCOffset (t : Time) (utcOffset : Int16) : Timestamp :=
  ⟨UInt64.ofInt (t.unix + utcOffset.toInt), UInt32.ofInt t.nanosecond⟩

/-- `ToTimeWithUTCOffset`: TAI to UTC. -/
def toTimeWithUTCOffset (ts : Timestamp) (utcOffset : Int16) : Time :=
  .ofUnix (ts.seconds.toInt64.toInt - utcOffset.toInt) ts.nanoseconds.toNat

end Timestamp

/-! ## Identities -/

/-- `ClockIdentity`: an EUI-64. -/
abbrev ClockIdentity := Vector UInt8 8

/-- `PortIdentity`. -/
structure PortIdentity where
  clockIdentity : ClockIdentity
  portNumber : UInt16
deriving DecidableEq, Repr

/-- `ClockQuality`. -/
structure ClockQuality where
  clockClass : UInt8
  clockAccuracy : UInt8
  offsetScaledLogVariance : UInt16
deriving DecidableEq, Repr

/-! ## Messages -/

def msgSync : UInt8 := 0x0
def msgDelayReq : UInt8 := 0x1
def msgPDelayReq : UInt8 := 0x2
def msgPDelayResp : UInt8 := 0x3
def msgFollowUp : UInt8 := 0x8
def msgDelayResp : UInt8 := 0x9
def msgPDelayRespFollowUp : UInt8 := 0xA
def msgAnnounce : UInt8 := 0xB

def flagTwoStep : UInt16 := 0x0200
def flagUnicast : UInt16 := 0x0400
def flagCurrentUtcOffsetValid : UInt16 := 0x0004
def flagPTPTimescale : UInt16 := 0x0008

def controlSync : UInt8 := 0x00
def controlDelayReq : UInt8 := 0x01
def controlFollowUp : UInt8 := 0x02
def controlDelayResp : UInt8 := 0x03
def controlOther : UInt8 := 0x05

def ptpVersion2 : UInt8 := 0x02

/-- `HeaderSize`. -/
def headerSize : ℕ := 34

/-- `Header`. -/
structure Header where
  messageType : UInt8
  transportSpecific : UInt8 := 0
  versionPTP : UInt8 := ptpVersion2
  messageLength : UInt16 := 0
  domainNumber : UInt8 := 0
  minorSdoId : UInt8 := 0
  flagField : UInt16 := 0
  correctionField : Int64 := 0
  reserved : UInt32 := 0
  sourcePortIdentity : PortIdentity
  sequenceID : UInt16
  controlField : UInt8
  logMessageInterval : Int8
deriving DecidableEq, Repr

/-- `AnnounceBody`. -/
structure AnnounceBody where
  originTimestamp : Timestamp
  currentUtcOffset : Int16
  reserved : UInt8
  grandmasterPriority1 : UInt8
  grandmasterClockQuality : ClockQuality
  grandmasterPriority2 : UInt8
  grandmasterIdentity : ClockIdentity
  stepsRemoved : UInt16
  timeSource : UInt8
deriving DecidableEq, Repr

/-- `SyncBody` and `DelayReqBody`, `PDelayReqBody`: the origin timestamp.  In a Follow_Up the
same ten bytes are the precise origin timestamp. -/
structure TimestampBody where
  timestamp : Timestamp
deriving DecidableEq, Repr

/-- `DelayRespBody`, `PDelayRespBody` and `PDelayRespFollowUpBody`: a timestamp and the port
that asked for it. -/
structure ResponseBody where
  timestamp : Timestamp
  requestingPortIdentity : PortIdentity
deriving DecidableEq, Repr

/-! ## Profile TLVs -/

/-- `C37238Version`. -/
inductive C37238Version
  | disabled | version2011 | version2017
deriving DecidableEq, Repr

/-- `C37238TLV2011`. -/
structure C37238TLV2011 where
  grandmasterID : UInt16
  grandmasterTimeInaccuracy : UInt32
  networkTimeInaccuracy : UInt32
  reserved : UInt16
deriving DecidableEq, Repr

/-- `C37238TLV2017`. -/
structure C37238TLV2017 where
  grandmasterID : UInt16
  reserved : UInt32
  totalTimeInaccuracy : UInt32
  reserved2 : UInt16
deriving DecidableEq, Repr

/-- `AlternateTimeOffsetTLV`. -/
structure AlternateTimeOffsetTLV where
  keyField : UInt8
  currentOffset : Int32
  jumpSeconds : Int32
  timeOfNextJump : UInt64
  displayName : Bytes
deriving DecidableEq, Repr

/-- `AnnounceProfileTLVs`. -/
structure AnnounceProfileTLVs where
  c37238Version : C37238Version := .disabled
  c372382011 : Option C37238TLV2011 := none
  c372382017 : Option C37238TLV2017 := none
  alternateTimeOffset : Option AlternateTimeOffsetTLV := none
deriving DecidableEq, Repr

/-! ## Profiles -/

/-- `DelayMechanismE2E` and `DelayMechanismP2P`; zero in a configuration means "as the profile
says". -/
def delayMechanismE2E : UInt8 := 0x01
def delayMechanismP2P : UInt8 := 0x02

/-- `Profile`, without the fields of the grandmaster. -/
structure Profile where
  name : String
  domainNumber : UInt8
  delayMechanism : UInt8
  logSyncInterval : Int8
  logAnnounceInterval : Int8
  announceReceiptTimeout : UInt8
  transportSpecific : UInt8
  c37238Version : C37238Version
deriving DecidableEq, Repr

namespace Profile

/-- `time.Duration(AnnounceInterval() * float64(time.Second))`. -/
def announceInterval (p : Profile) : Duration := logSeconds 1 p.logAnnounceInterval.toInt

/-- `time.Duration(AnnounceTimeoutDuration() * float64(time.Second))`. -/
def announceTimeout (p : Profile) : Duration :=
  logSeconds p.announceReceiptTimeout.toNat p.logAnnounceInterval.toInt

/-- `time.Duration(3 * SyncInterval() * float64(time.Second))`. -/
def syncTimeout (p : Profile) : Duration := logSeconds 3 p.logSyncInterval.toInt

end Profile

/-- `DefaultProfile`. -/
def defaultProfile : Profile where
  name := "default"
  domainNumber := 0
  delayMechanism := delayMechanismE2E
  logSyncInterval := 0
  logAnnounceInterval := 1
  announceReceiptTimeout := 3
  transportSpecific := 0
  c37238Version := .disabled

/-- `PowerProfile`. -/
def powerProfile : Profile where
  name := "power"
  domainNumber := 0
  delayMechanism := delayMechanismP2P
  logSyncInterval := 0
  logAnnounceInterval := 1
  announceReceiptTimeout := 3
  transportSpecific := 0
  c37238Version := .version2011

/-- `ptpport.Packet`.  `tag` is not in the source and no handler reads it: it numbers the
transmission that a packet was issued for, so that a run can say which messages belong
together. -/
structure Packet where
  data : Bytes
  source : String
  timestamp : Time
  tag : ℕ

end ProcessBus.Ptp
