import RemoteManagement.ThriftTypes
import RemoteManagement.Library.Stdio
import RemoteManagement.Library.SqlLiteral
import RemoteManagement.Library.DoublePrecision

/-!
# SysReporter on Linux

The report is read from files of the kernel, which are texts here, and from
calls of the system. A loop that has not ended after so many turns gives none,
and so does a step that is undefined: the use of a null address, or a word that
does not fit in its buffer.
-/

namespace SysReporter

open ThriftTypes DecimalText Stdio

section System

/-- The blocks that are free for users, the size of a block and all blocks. -/
structure Statfs where
  bavail : Nat
  bsize : Nat
  blocks : Nat
  deriving DecidableEq, Repr

structure InAddr where
  b0 : UInt8
  b1 : UInt8
  b2 : UInt8
  b3 : UInt8
  deriving DecidableEq, Repr

/-- A socket address in storage for any family: the bytes behind the family. -/
structure Sockaddr where
  family : Nat
  data : Vector UInt8 26
  deriving DecidableEq, Repr

def afInet : Nat := 2

def afInet6 : Nat := 10

/-- The address of a `sockaddr_in` is behind its port. -/
def Sockaddr.sinAddr (a : Sockaddr) : InAddr := ⟨a.data[2], a.data[3], a.data[4], a.data[5]⟩

/-- That of a `sockaddr_in6` is behind its port and flow information. -/
def Sockaddr.sin6Addr (a : Sockaddr) : Vector UInt8 16 :=
  .ofFn (fun i => a.data[i.val + 6])

structure Ifaddrs where
  name : String
  addr : Option Sockaddr
  deriving DecidableEq, Repr

def inetNtoa (a : InAddr) : String :=
  String.ofList (a.b0.toNat.repr.toList ++ '.' :: (a.b1.toNat.repr.toList ++
    '.' :: (a.b2.toNat.repr.toList ++ '.' :: a.b3.toNat.repr.toList)))

structure Utsname where
  sysname : String
  nodename : String
  release : String
  machine : String
  deriving DecidableEq, Repr

/-- The list of interface addresses has a head. -/
structure Machine where
  uptime : Int
  mounts : List Char
  statfs : String → Statfs
  ifaddrs : Ifaddrs
  ifaddrsNext : List Ifaddrs
  cpuinfo : List Char
  utsname : Utsname

end System

section Storage

/-- The buffers `dev_buffer`, `mount_point` and `fs_type_buffer` as C strings. -/
structure MountBuffers where
  dev : String
  mountPoint : String
  fsType : String
  deriving DecidableEq, Repr

/-- A word is stored in a buffer of 128 characters with its terminator. -/
def storeWord (old : String) : Option Value → Option String
  | some (.text w) =>
    if w.length < 128 then some (String.ofList (SqlLiteral.cString w)) else none
  | _ => some old

def MountBuffers.store (b : MountBuffers) (values : List Value) : Option MountBuffers := do
  let dev ← storeWord b.dev values[0]?
  let mountPoint ← storeWord b.mountPoint values[1]?
  let fsType ← storeWord b.fsType values[2]?
  return ⟨dev, mountPoint, fsType⟩

def mountFormat : List Directive := format "%s %s %s %*s 0 0\n"

/-- Gigabytes, from a product of unsigned longs that is divided in double precision. -/
def gigabytes (blocks size : Nat) : Int :=
  (DoublePrecision.truncDiv (DoublePrecision.ofNat (blocks * size % 2 ^ 64)) 1000000000 : Nat)

/-- Up to nine petabytes, it is the number of whole gigabytes or one more. -/
theorem gigabytes_bounds {blocks size : Nat} (small : blocks * size < 2 ^ 53) :
    ((blocks * size / 1000000000 : Nat) : Int) ≤ gigabytes blocks size ∧
      gigabytes blocks size ≤ (blocks * size / 1000000000 : Nat) + 1 := by
  have whole : blocks * size % 2 ^ 64 = blocks * size := Nat.mod_eq_of_lt (by omega)
  obtain ⟨lower, upper⟩ := DoublePrecision.truncDiv_bounds (blocks * size) 1000000000
  rw [gigabytes, whole, DoublePrecision.ofNat_of_lt small]
  omega

example : gigabytes 9999999999999999 1 = 10000000 := by decide +kernel

def storageInfo (statfs : String → Statfs) (b : MountBuffers) : StorageInfo :=
  let info := statfs b.mountPoint
  { dev := b.dev
    fsType := b.fsType
    free := gigabytes info.bavail info.bsize
    total := gigabytes info.blocks info.bsize
    mountPoint := b.mountPoint }

def storageLoop (statfs : String → Statfs) : Nat → MountBuffers → List Char →
    Option (List StorageInfo)
  | 0, _, _ => none
  | fuel + 1, b, s =>
    let line := scan mountFormat s
    if line.isEof then some []
    else do
      let b ← b.store line.values
      let rest ← storageLoop statfs fuel b line.rest
      return if b.dev.toList.head? = some '/' then storageInfo statfs b :: rest else rest

end Storage

section Network

/-- `continue` goes on to the next entry; the address is converted from the head
of the list. -/
def networkLoop (ifap : Ifaddrs) : List Ifaddrs → Option (List NetworkInfo)
  | [] => some []
  | next :: rest => do
    let addr ← next.addr
    if addr.family ≠ afInet ∧ addr.family ≠ afInet6 then networkLoop ifap rest
    else do
      let head ← ifap.addr
      let info : NetworkInfo :=
        { interfaceName := next.name
          isIpv6 := addr.family = afInet6
          ip := inetNtoa head.sinAddr }
      let rest ← networkLoop ifap rest
      return info :: rest

end Network

section Processor

def vendorFormat : List Directive := format "vendor_id : %s"

def modelFormat : List Directive := format "model name : "

def cacheFormat : List Directive := format "cache size : %hd KB"

def coresFormat : List Directive := format "cpu cores : %hhd"

/-- What is read of /proc/cpuinfo. -/
structure CpuinfoRead where
  vendor : List Value
  name : List Char
  cache : List Value
  cores : List Value
  deriving DecidableEq, Repr

def readCpuinfo (fuel : Nat) (s : List Char) : Option CpuinfoRead := do
  let s ← skipLines fuel 1 s
  let vendor := scan vendorFormat s
  let s ← skipLines fuel 3 vendor.rest
  let (name, s) ← readLine fuel [] (scan modelFormat s).rest
  let s ← skipLines fuel 3 s
  let cache := scan cacheFormat s
  let s ← skipLines fuel 4 cache.rest
  return ⟨vendor.values, name, cache.values, (scan coresFormat s).values⟩

/-- `%hhd` stores one byte, the lowest of a longer field. -/
def storeByte (old : Int) : Option Value → Int
  | some (.long n) => old - old % 256 + n % 256
  | _ => old

/-- `%hd` into a field of two bytes. -/
def storeShort (old : Int) : Option Value → Int
  | some (.long n) => toInt16 n
  | _ => old

def architecture (machine : String) : Architecture :=
  if machine = "x86_64" then .kX86_64 else if machine = "x86" then .kX86 else .kUnknown

/-- `buffer` is what the buffer for the vendor held. -/
def CpuinfoRead.cpuInfo (r : CpuinfoRead) (buffer machine : String) : Option CpuInfo := do
  let vendor ← storeWord buffer r.vendor[0]?
  return {
    cpuCores := storeByte 0 r.cores[0]?
    cacheSize := storeShort 0 r.cache[0]?
    arch := architecture machine
    cpuName := String.ofList r.name
    cpuVendorName := vendor }

end Processor

def versionFormat : List Directive := format "%hhd.%hhd.%hhd"

def osVersion (release : String) : VersionData :=
  let values := (scan versionFormat (SqlLiteral.cString release.toList)).values
  { major := storeByte 0 values[0]?
    minor := storeByte 0 values[1]?
    release := storeByte 0 values[2]? }

def clientVersion : VersionData := { major := 0, minor := 0, release := 1 }

/-- The buffers hold anything at first. -/
structure Junk where
  mounts : MountBuffers
  buffer : String

def report (fuel : Nat) (junk : Junk) (m : Machine) : Option SystemInfo := do
  let storage ← storageLoop m.statfs fuel junk.mounts m.mounts
  let network ← networkLoop m.ifaddrs (m.ifaddrs :: m.ifaddrsNext)
  let cpuinfo ← readCpuinfo fuel m.cpuinfo
  let cpu ← cpuinfo.cpuInfo junk.buffer m.utsname.machine
  return {
    uptime := m.uptime
    systemName := m.utsname.sysname
    hostName := m.utsname.nodename
    osVersion := osVersion m.utsname.release
    clientVersion := clientVersion
    cpuInfo := cpu
    storageInfo := storage
    networkInfo := network }

/-- A text of lines. -/
def fileOf (lines : List String) : List Char := lines.flatMap (fun l => l.toList ++ ['\n'])

/-- A computer with a disk and its loopback interface. -/
def laptop : Machine where
  uptime := 3600
  mounts := fileOf ["proc /proc proc rw 0 0", "/dev/sda1 / ext4 rw 0 0"]
  statfs := fun _ => ⟨50000000, 4096, 100000000⟩
  ifaddrs := ⟨"eth0", some ⟨afInet, #v[0, 0, 192, 168, 0, 7, 0, 0, 0, 0, 0, 0, 0,
    0, 0, 0, 0, 0, 0, 0, 0, 0, 0, 0, 0, 0]⟩⟩
  ifaddrsNext := []
  cpuinfo := fileOf ["processor\t: 0", "vendor_id\t: GenuineIntel", "cpu family\t: 6",
    "model\t\t: 142", "model name\t: Intel(R) Core(TM) i5-8250U", "stepping\t: 10",
    "microcode\t: 0xf0", "cpu MHz\t\t: 1800.000", "cache size\t: 6144 KB", "physical id\t: 0",
    "siblings\t: 8", "core id\t\t: 0", "cpu cores\t: 4"]
  utsname := ⟨"Linux", "laptop", "5.15.0-91-generic", "x86_64"⟩

def unset : Junk := ⟨⟨"", "", ""⟩, ""⟩

example : report 40 unset laptop = some {
    uptime := 3600
    systemName := "Linux"
    hostName := "laptop"
    osVersion := { major := 5, minor := 15, release := 0 }
    clientVersion := { major := 0, minor := 0, release := 1 }
    cpuInfo := ⟨4, 6144, .kX86_64, "Intel(R) Core(TM) i5-8250U", "GenuineIntel"⟩
    storageInfo := [⟨"/dev/sda1", "ext4", 204, 409, "/"⟩]
    networkInfo := [⟨"eth0", false, "192.168.0.7"⟩] } := by decide +kernel

end SysReporter
