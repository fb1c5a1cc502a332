import Mathlib.Data.Rat.Floor

/-!
# The data types of RMS.thrift

The structures carry the defaults that the generated constructors give: zero
numbers, empty strings and lists, the first enumerator. Wire integers are `Int`;
their widths matter only where the code converts between them, and the
conversions are written out there. A double is a rational, or `none` for the
results of a division by zero.
-/

namespace ThriftTypes

abbrev Double := Option ℚ

/-- The conversion to a 32-bit int. -/
def toInt32 (n : Int) : Int := (n + 2 ^ 31) % 2 ^ 32 - 2 ^ 31

/-- The conversion to a 16-bit int. -/
def toInt16 (n : Int) : Int := (n + 2 ^ 15) % 2 ^ 16 - 2 ^ 15

/-- The conversion to an unsigned long. -/
def toULong (n : Int) : Nat := (n % 2 ^ 64).toNat

def InInt (n : Int) : Prop := -2 ^ 31 ≤ n ∧ n < 2 ^ 31

instance (n : Int) : Decidable (InInt n) := inferInstanceAs (Decidable (_ ∧ _))

theorem toInt32_of_inInt {n : Int} (h : InInt n) : toInt32 n = n := by
  unfold toInt32 InInt at *
  omega

theorem toULong_of_nonneg {n : Int} (h0 : 0 ≤ n) (h : n < 2 ^ 64) : (toULong n : Int) = n := by
  rw [toULong]
  omega

structure VersionData where
  release : Int := 0
  major : Int := 0
  minor : Int := 0
  deriving DecidableEq, Repr

inductive Architecture where
  | kX86_64
  | kX86
  | kArm
  | kArm64
  | kUnknown
  deriving DecidableEq, Repr

/-- The generated `to_string`, which gives the enumerator's name. -/
def Architecture.name : Architecture → String
  | .kX86_64 => "kX86_64"
  | .kX86 => "kX86"
  | .kArm => "kArm"
  | .kArm64 => "kArm64"
  | .kUnknown => "kUnknown"

structure CpuInfo where
  cpuCores : Int := 0
  cacheSize : Int := 0
  arch : Architecture := .kX86_64
  cpuName : String := ""
  cpuVendorName : String := ""
  deriving DecidableEq, Repr

structure NetworkInfo where
  interfaceName : String := ""
  isIpv6 : Bool := false
  ip : String := ""
  deriving DecidableEq, Repr

structure StorageInfo where
  dev : String := ""
  fsType : String := ""
  free : Int := 0
  total : Int := 0
  mountPoint : String := ""
  deriving DecidableEq, Repr

structure TemperatureInfo where
  name : String := ""
  path : String := ""
  deriving DecidableEq, Repr

structure SystemInfo where
  uptime : Int := 0
  systemName : String := ""
  hostName : String := ""
  osVersion : VersionData := {}
  clientVersion : VersionData := {}
  cpuInfo : CpuInfo := {}
  storageInfo : List StorageInfo := []
  networkInfo : List NetworkInfo := []
  tempInfo : List TemperatureInfo := []
  deriving DecidableEq, Repr

structure CpuUsageData where
  coreCount : Int := 0
  usage : List Double := []
  deriving DecidableEq, Repr

/-- The swap fields are optional on the wire and zero when absent. -/
structure RamData where
  mainTotal : Int := 0
  mainFree : Int := 0
  swapTotal : Int := 0
  swapFree : Int := 0
  deriving DecidableEq, Repr

inductive ExecutorReturnType where
  | kUnknown
  | kSuccess
  | kError
  | kInternalError
  deriving DecidableEq, Repr

def ExecutorReturnType.toInt : ExecutorReturnType → Int
  | .kUnknown => 0
  | .kSuccess => 1
  | .kError => 2
  | .kInternalError => 3

structure ExecutorResult where
  id : Int := 0
  returnType : ExecutorReturnType := .kUnknown
  code : Int := 0
  timeFinished : Int := 0
  deriving DecidableEq, Repr

structure Command where
  command : String := ""
  id : Int := 0
  deriving DecidableEq, Repr

inductive RmsResponseTypes where
  | kSendSystemInfo
  | kRunCommand
  | kRunScript
  deriving DecidableEq, Repr

/-- A generated union is a class with every member present. -/
structure RmsReponseValues where
  long : Int := 0
  command : Command := {}
  deriving DecidableEq, Repr

structure RmsResponseData where
  dataType : RmsResponseTypes := .kSendSystemInfo
  data : RmsReponseValues := {}
  deriving DecidableEq, Repr

structure RmsHeader where
  timestamp : Int := 0
  dataCount : Int := 0
  deriving DecidableEq, Repr

structure RmsResponse where
  header : RmsHeader := {}
  data : List RmsResponseData := []
  deriving DecidableEq, Repr

inductive RmsRequestTypes where
  | kRamUsage
  | kCpuUsage
  | kSysInfo
  | kNetworkUsage
  | kExecutorResult
  | kPing
  | kUnknown
  deriving DecidableEq, Repr

structure RmsRequestValues where
  ramData : RamData := {}
  cpuUsageData : CpuUsageData := {}
  executorResult : ExecutorResult := {}
  long : Int := 0
  deriving DecidableEq, Repr

structure RmsRequestData where
  dataType : RmsRequestTypes
  data : RmsRequestValues := {}
  deriving DecidableEq, Repr

structure RmsRequest where
  header : RmsHeader := {}
  data : List RmsRequestData := []
  deriving DecidableEq, Repr

end ThriftTypes
