import RemoteManagement.Database
import RemoteManagement.Library.DecimalText
import RemoteManagement.Library.KeyedList
import RemoteManagement.Library.QueryProgram

/-!
# RmsComputer

What the server keeps of a computer, and its exchanges with the database. A
method that asks queries is a program over them, so that it can be run against
the tables. A method that may throw leaves the computer as it was when it threw.
-/

namespace Computer

open ThriftTypes SqlStatements ExecuteQuery Database DecimalText QueryProgram Program

abbrev DbProgram (α : Type) := Program (Query × Bool) RmsQueryResult α

inductive UsageType where
  | kCpu
  | kRam
  | kNetwork
  | kUsageSize
  deriving DecidableEq, Repr

def UsageType.toInt : UsageType → Int
  | .kCpu => 0
  | .kRam => 1
  | .kNetwork => 2
  | .kUsageSize => 3

def rmsMaxContainerDataPoints : Nat := 60

structure UsageContainer where
  usageType : UsageType
  id : Int
  dataPoints : List Double := []
  culminating : Bool := false
  tableExist : Bool := false
  deriving DecidableEq, Repr

/-- `std::reduce`; a sum with a NaN in it is NaN. -/
def sum (points : List Double) : Double :=
  points.foldl (fun total point => total.bind (fun x => point.map (fun y => x + y))) (some 0)

/-- The average of no points is a division by zero. -/
def UsageContainer.getData (u : UsageContainer) : Double :=
  if u.culminating then sum u.dataPoints
  else if u.dataPoints.length = 0 then none
  else (sum u.dataPoints).map (fun total => total / u.dataPoints.length)

def UsageContainer.addPoint (u : UsageContainer) (point : Double) : UsageContainer :=
  { u with
    dataPoints := (if u.dataPoints.length > rmsMaxContainerDataPoints then u.dataPoints.tail
      else u.dataPoints) ++ [point] }

structure RmsStorageInfo where
  storageInfoId : Int := -1
  devPath : String := ""
  fsType : String := ""
  mountPoint : String := ""
  free : Nat := 0
  total : Nat := 0
  connected : Bool := false
  dirty : Bool := false
  deriving DecidableEq, Repr

structure RmsNetworkIPS where
  ipv6 : Bool := false
  ip : String := ""
  markedForDelete : Bool := false
  deriving DecidableEq, Repr

structure RmsNetworkInfo where
  networkInfoId : Int := -1
  interfaceName : String := ""
  ips : List RmsNetworkIPS := []
  connected : Bool := false
  dirty : Bool := false
  deriving DecidableEq, Repr

structure RmsComputer where
  computerId : Int
  sysInfo : SystemInfo := {}
  storageInfo : List RmsStorageInfo := []
  networkInfo : List RmsNetworkInfo := []
  usageInfo : List UsageContainer := []
  sysInfoDirty : Bool := false
  deriving DecidableEq, Repr

def RmsComputer.create (computerId : Int) : RmsComputer := { computerId := computerId }

/-- The record has the values of the entry. -/
def SameStorage (r : RmsStorageInfo) (e : StorageInfo) : Prop :=
  e.dev = r.devPath ∧ r.fsType = e.fsType ∧ r.free = toULong e.free ∧
    r.total = toULong e.total ∧ r.mountPoint = e.mountPoint

instance (r : RmsStorageInfo) (e : StorageInfo) : Decidable (SameStorage r e) :=
  inferInstanceAs (Decidable (_ ∧ _))

def storageInfoToRmsStorageInfo (r : RmsStorageInfo) (e : StorageInfo) : RmsStorageInfo where
  storageInfoId := r.storageInfoId
  devPath := e.dev
  fsType := e.fsType
  mountPoint := e.mountPoint
  free := toULong e.free
  total := toULong e.total
  connected := true
  dirty := ¬ SameStorage r e

/-- The two ends of `addStorageDevice`: the device is known, or it is added. -/
def writeStorage : Option RmsStorageInfo → StorageInfo → RmsStorageInfo
  | some r, e => storageInfoToRmsStorageInfo r e
  | none, e => { storageInfoToRmsStorageInfo {} e with dirty := true }

def RmsComputer.addStorageDevice (c : RmsComputer) (dev : StorageInfo) : RmsComputer :=
  { c with
    storageInfo := KeyedList.upsert RmsStorageInfo.devPath StorageInfo.dev writeStorage dev
      c.storageInfo }

def networkDeviceToRmsNetworkDevice (r : RmsNetworkInfo) (e : NetworkInfo) : RmsNetworkInfo :=
  { r with
    interfaceName := e.interfaceName
    connected := true
    ips := if r.ips.any (fun ip => ip.ip = e.ip) then r.ips
      else r.ips ++ [{ ipv6 := e.isIpv6, ip := e.ip }] }

def writeNetwork (o : Option RmsNetworkInfo) (e : NetworkInfo) : RmsNetworkInfo :=
  networkDeviceToRmsNetworkDevice (o.getD {}) e

def RmsComputer.addNetworkDevice (c : RmsComputer) (dev : NetworkInfo) : RmsComputer :=
  { c with
    networkInfo := KeyedList.upsert RmsNetworkInfo.interfaceName NetworkInfo.interfaceName
      writeNetwork dev c.networkInfo }

def isSysInfoDirty (lhs rhs : SystemInfo) : Bool :=
  ¬ (lhs.hostName = rhs.hostName ∧ lhs.cpuInfo = rhs.cpuInfo ∧
    lhs.systemName = rhs.systemName ∧ lhs.clientVersion = rhs.clientVersion ∧
    lhs.osVersion = rhs.osVersion)

def RmsComputer.setSysInfo (c : RmsComputer) (sysInfo : SystemInfo) : RmsComputer :=
  let c := { c with sysInfoDirty := isSysInfoDirty c.sysInfo sysInfo, sysInfo := sysInfo }
  let c := sysInfo.networkInfo.foldl RmsComputer.addNetworkDevice c
  let c := sysInfo.storageInfo.foldl RmsComputer.addStorageDevice c
  { c with sysInfo := { c.sysInfo with networkInfo := [], storageInfo := [] } }

/-- `addUsageInfo` with the search and the lock left to the list. -/
def RmsComputer.addUsageInfo (c : RmsComputer) (type : UsageType) (point : Double) (id : Int) :
    RmsComputer :=
  { c with
    usageInfo := KeyedList.upsert (fun u => (u.usageType, u.id)) (fun _ => (type, id))
      (fun o (p : Double) => (o.getD { usageType := type, id := id }).addPoint p) point
      c.usageInfo }

/-- The major number of the client version stands in for the minor one. -/
def RmsComputer.insertArgs (c : RmsComputer) : ComputerArgs where
  systemName := c.sysInfo.systemName
  hostName := c.sysInfo.hostName
  osVersion := ⟨c.sysInfo.osVersion.major, c.sysInfo.osVersion.minor, c.sysInfo.osVersion.release⟩
  clientVersion := ⟨c.sysInfo.clientVersion.major, c.sysInfo.clientVersion.major,
    c.sysInfo.clientVersion.release⟩
  cpuName := c.sysInfo.cpuInfo.cpuName
  cpuVendor := c.sysInfo.cpuInfo.cpuVendorName
  cpuCoreCount := c.sysInfo.cpuInfo.cpuCores
  cpuCacheSize := c.sysInfo.cpuInfo.cacheSize
  cpuArch := c.sysInfo.cpuInfo.arch.name

def RmsComputer.updateArgs (c : RmsComputer) : ComputerArgs :=
  { c.insertArgs with
    clientVersion := ⟨c.sysInfo.clientVersion.major, c.sysInfo.clientVersion.minor,
      c.sysInfo.clientVersion.release⟩ }

def insertStorage (computerId : Int) (dev : RmsStorageInfo) : Query :=
  .insertStorage computerId dev.devPath dev.fsType dev.mountPoint dev.free dev.total

def updateStorage (dev : RmsStorageInfo) : Query :=
  .updateStorage dev.free dev.total dev.connected dev.mountPoint dev.fsType dev.storageInfoId

/-- What the answer to an insert makes of the record. -/
def inserted (dev : RmsStorageInfo) (res : RmsQueryResult) : RmsStorageInfo :=
  if res.success then { dev with storageInfoId := res.lastId.getD 0, dirty := false }
  else { dev with dirty := true }

def addStorages (computerId : Int) : List RmsStorageInfo → DbProgram (List RmsStorageInfo)
  | [] => return []
  | dev :: devs => do
    let res ← ask (insertStorage computerId dev, true)
    let devs ← addStorages computerId devs
    return inserted dev res :: devs

def RmsComputer.addToDB (c : RmsComputer) : DbProgram (Bool × RmsComputer) := do
  let res ← ask (.insertComputer c.insertArgs, true)
  if res.success then
    let computerId := res.lastId.getD 0
    let devs ← addStorages computerId c.storageInfo
    return (true, { c with computerId := computerId, storageInfo := devs })
  else
    return (false, c)

/-- The records after their updates, and the answer to the last of these. -/
def updateStorages : Bool → List RmsStorageInfo → DbProgram (Bool × List RmsStorageInfo)
  | success, [] => return (success, [])
  | success, dev :: devs =>
    if dev.dirty then do
      let res ← ask (updateStorage dev, false)
      let (success, devs) ← updateStorages res.success devs
      return (success, { dev with dirty := !res.success } :: devs)
    else do
      let (success, devs) ← updateStorages success devs
      return (success, dev :: devs)

/-- Whether the update succeeded, and the flag after it. -/
def RmsComputer.updateSysInfo (c : RmsComputer) : DbProgram (Bool × Bool) :=
  if c.sysInfoDirty then do
    let res ← ask (.updateComputer c.updateArgs c.computerId, false)
    return (res.success, !res.success)
  else return (true, false)

def RmsComputer.updateDB (c : RmsComputer) : DbProgram (Bool × RmsComputer) :=
  if c.computerId = -1 then return (false, c)
  else do
    let (success, dirty) ← c.updateSysInfo
    let (success, devs) ← updateStorages success c.storageInfo
    return (success, { c with sysInfoDirty := dirty, storageInfo := devs })

section Load

-- what the loop's local integers hold before anything is read into them
variable (junk : VersionData)

def loadVersion (text : String) : VersionData :=
  let stream : Stream := ⟨text.toList, false⟩
  let (major, stream) := stream.extractInt junk.major
  let (minor, stream) := stream.extractChar.extractInt junk.minor
  let (release, _) := stream.extractChar.extractInt junk.release
  { release := release, major := major, minor := minor }

/-- Columns go to the state one after the other until one throws. -/
def loadColumns {σ : Type} (load : σ → String → String → Except StdException σ) (s : σ) :
    List (String × String) → Except StdException Unit × σ
  | [] => (.ok (), s)
  | (name, text) :: columns =>
    match load s name text with
    | .error e => (.error e, s)
    | .ok s => loadColumns load s columns

def loadComputerColumn (info : SystemInfo) (name text : String) :
    Except StdException SystemInfo :=
  if name = "system_name" then return { info with systemName := text }
  else if name = "host_name" then return { info with hostName := text }
  else if name = "os_version" then return { info with osVersion := loadVersion junk text }
  else if name = "client_version" then
    return { info with clientVersion := loadVersion junk text }
  else if name = "cpu_name" then
    return { info with cpuInfo := { info.cpuInfo with cpuName := text } }
  else if name = "cpu_vendor" then
    return { info with cpuInfo := { info.cpuInfo with cpuVendorName := text } }
  else if name = "cpu_core_count" then do
    let n ← stol text.toList
    return { info with cpuInfo := { info.cpuInfo with cpuCores := toInt32 n } }
  else if name = "cpu_cache_size" then do
    let n ← stol text.toList
    return { info with cpuInfo := { info.cpuInfo with cacheSize := toInt16 n } }
  else if name = "cpu_arch" ∧ text = "kX86_64" then
    return { info with cpuInfo := { info.cpuInfo with arch := .kX86_64 } }
  else return info

def loadStorageColumn (info : RmsStorageInfo) (name text : String) :
    Except StdException RmsStorageInfo :=
  if name = "computer_id" then return info
  else if name = "storage_info_id" then do
    let n ← stoi text.toList
    return { info with storageInfoId := n }
  else if name = "total" then do
    let n ← stoi text.toList
    return { info with total := toULong n }
  else if name = "dev_path" then return { info with devPath := text }
  else if name = "fs_type" then return { info with fsType := text }
  else if name = "mount_point" then return { info with mountPoint := text }
  else return info

/-- The records that are added before a row throws, if one does. -/
def loadStorages (columnNames : List String) :
    List (List String) → Except StdException Unit × List RmsStorageInfo
  | [] => (.ok (), [])
  | row :: rows =>
    match loadColumns loadStorageColumn {} (columnNames.zip row) with
    | (.error e, _) => (.error e, [])
    | (.ok (), info) =>
      let (done, infos) := loadStorages columnNames rows
      (done, { info with connected := false } :: infos)

/-- The second half of `getFromDB`, for a computer that was found. -/
def RmsComputer.getStorageFromDB (c : RmsComputer) :
    DbProgram (Except StdException Bool × RmsComputer) := do
  let res ← ask (.fetchStorageByComputerId c.computerId, false)
  if res.success ∧ res.tableRows.length > 0 then
    let (done, infos) := loadStorages res.columnNames res.tableRows
    return (done.map (fun _ => res.success), { c with storageInfo := c.storageInfo ++ infos })
  else
    return (.ok res.success, c)

def RmsComputer.getFromDB (c : RmsComputer) :
    DbProgram (Except StdException Bool × RmsComputer) :=
  if c.computerId = -1 then return (.ok false, c)
  else do
    let res ← ask (.fetchComputerById c.computerId, false)
    match res.success, res.tableRows with
    | true, [row] =>
      match loadColumns (loadComputerColumn junk) c.sysInfo (res.columnNames.zip row) with
      | (.error e, info) => return (.error e, { c with sysInfo := info })
      | (.ok (), info) => RmsComputer.getStorageFromDB { c with sysInfo := info }
    | true, _ => do
      let (success, c) ← c.addToDB
      return (.ok success, c)
    | false, _ => return (.ok false, c)

end Load

theorem keyed_writeStorage :
    KeyedList.Keyed RmsStorageInfo.devPath StorageInfo.dev writeStorage := by
  intro o e _
  cases o <;> rfl

abbrev storagesAfter (l : List RmsStorageInfo) (es : List StorageInfo) : List RmsStorageInfo :=
  KeyedList.upsertAll RmsStorageInfo.devPath StorageInfo.dev writeStorage l es

abbrev networksAfter (l : List RmsNetworkInfo) (es : List NetworkInfo) : List RmsNetworkInfo :=
  KeyedList.upsertAll RmsNetworkInfo.interfaceName NetworkInfo.interfaceName writeNetwork l es

theorem foldl_addNetworkDevice (c : RmsComputer) (ds : List NetworkInfo) :
    ds.foldl RmsComputer.addNetworkDevice c =
      { c with networkInfo := networksAfter c.networkInfo ds } := by
  induction ds generalizing c with
  | nil => rfl
  | cons d ds ih => exact ih (c.addNetworkDevice d)

theorem foldl_addStorageDevice (c : RmsComputer) (ds : List StorageInfo) :
    ds.foldl RmsComputer.addStorageDevice c =
      { c with storageInfo := storagesAfter c.storageInfo ds } := by
  induction ds generalizing c with
  | nil => rfl
  | cons d ds ih => exact ih (c.addStorageDevice d)

/-- The report replaces the system information and goes through the lists. -/
theorem setSysInfo_eq (c : RmsComputer) (info : SystemInfo) :
    c.setSysInfo info =
      { c with
        sysInfo := { info with networkInfo := [], storageInfo := [] }
        sysInfoDirty := isSysInfoDirty c.sysInfo info
        storageInfo := storagesAfter c.storageInfo info.storageInfo
        networkInfo := networksAfter c.networkInfo info.networkInfo } := by
  simp [RmsComputer.setSysInfo, foldl_addNetworkDevice, foldl_addStorageDevice]

/-- Records keep their row ids, and new records have none. -/
theorem storageInfoIds_storagesAfter (l : List RmsStorageInfo) (es : List StorageInfo) :
    ∃ k, (storagesAfter l es).map RmsStorageInfo.storageInfoId =
      l.map RmsStorageInfo.storageInfoId ++ List.replicate k (-1) :=
  KeyedList.map_upsertAll (fun _ => rfl) (fun _ _ => rfl) l es

theorem setSysInfo_sysInfo (c : RmsComputer) (info : SystemInfo) :
    (c.setSysInfo info).sysInfo = { info with networkInfo := [], storageInfo := [] } := by
  rw [setSysInfo_eq]

theorem setSysInfo_storageInfo (c : RmsComputer) (info : SystemInfo) :
    (c.setSysInfo info).storageInfo = storagesAfter c.storageInfo info.storageInfo := by
  rw [setSysInfo_eq]

theorem setSysInfo_computerId (c : RmsComputer) (info : SystemInfo) :
    (c.setSysInfo info).computerId = c.computerId := by
  rw [setSysInfo_eq]

/-- A row after the update of a record. -/
def storedStorage (dev : RmsStorageInfo) (r : StorageRow) : StorageRow :=
  if r.storageInfoId = dev.storageInfoId then
    { r with
      free := dev.free, total := dev.total, connected := dev.connected.toNat
      mountPoint := dev.mountPoint, fsType := dev.fsType }
  else r

/-- The update of a storage row leaves its place in the table. -/
structure SamePlace (a b : StorageRow) : Prop where
  storageInfoId : a.storageInfoId = b.storageInfoId
  computerId : a.computerId = b.computerId
  devPath : a.devPath = b.devPath

theorem samePlace_storedStorage (dev : RmsStorageInfo) (r : StorageRow) :
    SamePlace (storedStorage dev r) r := by
  rw [storedStorage]
  split <;> exact ⟨rfl, rfl, rfl⟩

def writeBack (dev : RmsStorageInfo) (db : Db) : Db :=
  { db with
    storages := db.storages.update (storedStorage dev)
      (fun r => (samePlace_storedStorage dev r).storageInfoId) }

theorem execute_updateStorage (dev : RmsStorageInfo) (db : Db) :
    execute (updateStorage dev) db = some (.write (writeBack dev db) []) := rfl

/-- The record can be written without its strings being misread. -/
structure Writable (dev : RmsStorageInfo) : Prop where
  devPath : SqlLiteral.Plain dev.devPath.toList
  fsType : SqlLiteral.Plain dev.fsType.toList
  mountPoint : SqlLiteral.Plain dev.mountPoint.toList
  free : dev.free < 2 ^ 63
  total : dev.total < 2 ^ 63

theorem Writable.readable_insert {dev : RmsStorageInfo} (h : Writable dev) (computerId : Int) :
    Readable (insertStorage computerId dev) := by
  refine readable_of_plain ?_ ⟨h.free, h.total⟩
  simp [insertStorage, Query.strings, h.devPath, h.fsType, h.mountPoint]

theorem Writable.readable_update {dev : RmsStorageInfo} (h : Writable dev) :
    Readable (updateStorage dev) := by
  refine readable_of_plain ?_ ⟨h.free, h.total⟩
  simp [updateStorage, Query.strings, h.fsType, h.mountPoint]

theorem plain_arch (arch : Architecture) : SqlLiteral.Plain arch.name.toList := by
  cases arch <;> decide

end Computer
