import RemoteManagement.Handshake

/-!
# RmsComputer::setSysInfo

A report goes through two loops that look for a record and write to it, or add
one. Writing to the record of an interface is a loop of the same kind over its
addresses. What comes out is described without the loops.
-/

namespace SetSysInfo

open ThriftTypes Computer Handshake

section Addresses

/-- An address that is found is left as it is. -/
def keepIp : Option RmsNetworkIPS → NetworkInfo → RmsNetworkIPS
  | some ip, _ => ip
  | none, e => { ipv6 := e.isIpv6, ip := e.ip }

abbrev ipsAfter (l : List RmsNetworkIPS) (es : List NetworkInfo) : List RmsNetworkIPS :=
  KeyedList.upsertAll RmsNetworkIPS.ip NetworkInfo.ip keepIp l es

theorem keyed_keepIp : KeyedList.Keyed RmsNetworkIPS.ip NetworkInfo.ip keepIp := by
  intro o e own
  cases o with
  | none => rfl
  | some ip => exact own ip rfl

theorem keyed_writeNetwork : KeyedList.Keyed RmsNetworkInfo.interfaceName
    NetworkInfo.interfaceName writeNetwork := fun _ _ _ => rfl

theorem upsert_keepIp (e : NetworkInfo) (l : List RmsNetworkIPS) :
    KeyedList.upsert RmsNetworkIPS.ip NetworkInfo.ip keepIp e l =
      if l.any (fun ip => ip.ip = e.ip) then l else l ++ [keepIp none e] := by
  induction l with
  | nil => rfl
  | cons ip l ih =>
    by_cases found : ip.ip = e.ip
    · simp [KeyedList.upsert, found, keepIp]
    · rw [KeyedList.upsert, if_neg found, ih]
      by_cases later : l.any (fun ip => ip.ip = e.ip)
      · rw [if_pos later, if_pos (by simp [later])]
      · rw [if_neg later, if_neg (by simpa [found] using later), List.cons_append]

theorem ips_writeNetwork (o : Option RmsNetworkInfo) (e : NetworkInfo) :
    (writeNetwork o e).ips = ipsAfter (o.elim [] RmsNetworkInfo.ips) [e] := by
  rw [ipsAfter, KeyedList.upsertAll_cons, KeyedList.upsertAll_nil, upsert_keepIp]
  cases o <;> rfl

/-- The addresses of an interface after its entries. -/
theorem ips_amend (o : Option RmsNetworkInfo) (es : List NetworkInfo) :
    (KeyedList.amend writeNetwork o es).elim [] RmsNetworkInfo.ips =
      ipsAfter (o.elim [] RmsNetworkInfo.ips) es := by
  induction es generalizing o with
  | nil => rfl
  | cons e es ih =>
    change (KeyedList.amend writeNetwork (some (writeNetwork o e)) es).elim [] _ = _
    rw [ih, Option.elim_some, ips_writeNetwork]
    rfl

end Addresses

section Records

/-- No device, no interface and no address of an interface is recorded twice. -/
structure Distinct (c : RmsComputer) : Prop where
  storage : (c.storageInfo.map RmsStorageInfo.devPath).Nodup
  network : (c.networkInfo.map RmsNetworkInfo.interfaceName).Nodup
  ips : ∀ n ∈ c.networkInfo, (n.ips.map RmsNetworkIPS.ip).Nodup

/-- The record has the fields of the entry. -/
structure Shows (r : RmsStorageInfo) (e : StorageInfo) : Prop where
  devPath : r.devPath = e.dev
  fsType : r.fsType = e.fsType
  mountPoint : r.mountPoint = e.mountPoint
  free : r.free = toULong e.free
  total : r.total = toULong e.total
  connected : r.connected = true

/-- The entries of a report for one interface. -/
abbrev addressesFor (info : SystemInfo) (name : String) : List NetworkInfo :=
  KeyedList.entriesOf NetworkInfo.interfaceName name info.networkInfo

/-- The addresses that are recorded for an interface, none if it is not. -/
def ipsOf (c : RmsComputer) (name : String) : List RmsNetworkIPS :=
  (KeyedList.lookup RmsNetworkInfo.interfaceName name c.networkInfo).elim [] RmsNetworkInfo.ips

/-- What the records are after a report: those there were, in their places, and
new ones in the order in which the report names them first. -/
structure Follows (c : RmsComputer) (info : SystemInfo) (c' : RmsComputer) : Prop where
  distinct : Distinct c'
  devices : c'.storageInfo.map RmsStorageInfo.devPath =
    c.storageInfo.map RmsStorageInfo.devPath ++
      KeyedList.newKeys RmsStorageInfo.devPath StorageInfo.dev c.storageInfo info.storageInfo
  interfaces : c'.networkInfo.map RmsNetworkInfo.interfaceName =
    c.networkInfo.map RmsNetworkInfo.interfaceName ++
      KeyedList.newKeys RmsNetworkInfo.interfaceName NetworkInfo.interfaceName c.networkInfo
        info.networkInfo
  storageInfoIds : (c'.storageInfo.map RmsStorageInfo.storageInfoId).take c.storageInfo.length =
    c.storageInfo.map RmsStorageInfo.storageInfoId
  lastEntry : ∀ r ∈ c'.storageInfo, ∀ last,
    (entriesFor info r.devPath).getLast? = some last → Shows r last
  ips : ∀ n ∈ c'.networkInfo, ∃ new, n.ips = ipsOf c n.interfaceName ++ new ∧
    new.map RmsNetworkIPS.ip = KeyedList.newKeys RmsNetworkIPS.ip NetworkInfo.ip
      (ipsOf c n.interfaceName) (addressesFor info n.interfaceName)
  unreportedStorage : ∀ (i : Nat) r, c.storageInfo[i]? = some r → entriesFor info r.devPath = [] →
    c'.storageInfo[i]? = some r
  unreportedNetwork : ∀ (i : Nat) n, c.networkInfo[i]? = some n →
    addressesFor info n.interfaceName = [] → c'.networkInfo[i]? = some n
  sysInfo : c'.sysInfo.storageInfo = [] ∧ c'.sysInfo.networkInfo = []

theorem setSysInfo_networkInfo (c : RmsComputer) (info : SystemInfo) :
    (c.setSysInfo info).networkInfo = networksAfter c.networkInfo info.networkInfo := by
  rw [setSysInfo_eq]

theorem shows_writeStorage (o : Option RmsStorageInfo) (e : StorageInfo) :
    Shows (writeStorage o e) e := by
  cases o <;> exact ⟨rfl, rfl, rfl, rfl, rfl, rfl⟩

variable {c : RmsComputer} (info : SystemInfo)

theorem shows_of_amend {o : Option RmsStorageInfo} {es : List StorageInfo} {last : StorageInfo}
    (hlast : es.getLast? = some last) {r : RmsStorageInfo}
    (made : KeyedList.amend writeStorage o es = some r) : Shows r last := by
  rw [← List.dropLast_append_getLast? last hlast, KeyedList.amend_concat] at made
  exact Option.some.inj made ▸ shows_writeStorage _ last

theorem shows_of_mem_storagesAfter {l : List RmsStorageInfo}
    (h : (l.map RmsStorageInfo.devPath).Nodup) {r : RmsStorageInfo}
    (mem : r ∈ storagesAfter l info.storageInfo) {last : StorageInfo}
    (hlast : (entriesFor info r.devPath).getLast? = some last) : Shows r last :=
  shows_of_amend hlast (KeyedList.amend_of_mem_upsertAll keyed_writeStorage h mem)

theorem ips_of_mem_networksAfter (h : (c.networkInfo.map RmsNetworkInfo.interfaceName).Nodup)
    {n : RmsNetworkInfo} (mem : n ∈ networksAfter c.networkInfo info.networkInfo) :
    n.ips = ipsAfter (ipsOf c n.interfaceName) (addressesFor info n.interfaceName) := by
  have record := KeyedList.amend_of_mem_upsertAll keyed_writeNetwork h mem
  have ips := ips_amend (KeyedList.lookup RmsNetworkInfo.interfaceName n.interfaceName
    c.networkInfo) (addressesFor info n.interfaceName)
  rwa [record] at ips

theorem ipsOf_of_mem (h : (c.networkInfo.map RmsNetworkInfo.interfaceName).Nodup)
    {n : RmsNetworkInfo} (mem : n ∈ c.networkInfo) : ipsOf c n.interfaceName = n.ips := by
  rw [ipsOf, KeyedList.lookup_eq_some_of_mem h mem, Option.elim_some]

theorem nodup_ipsOf (h : Distinct c) (name : String) :
    ((ipsOf c name).map RmsNetworkIPS.ip).Nodup := by
  rw [ipsOf]
  cases found : KeyedList.lookup RmsNetworkInfo.interfaceName name c.networkInfo with
  | none => exact List.nodup_nil
  | some n => exact h.ips n (KeyedList.mem_of_lookup found)

theorem distinct_setSysInfo (h : Distinct c) : Distinct (c.setSysInfo info) where
  storage := by
    rw [setSysInfo_storageInfo]
    exact KeyedList.nodup_upsertAll keyed_writeStorage _ h.storage
  network := by
    rw [setSysInfo_networkInfo]
    exact KeyedList.nodup_upsertAll keyed_writeNetwork _ h.network
  ips := by
    intro n hn
    rw [setSysInfo_networkInfo] at hn
    rw [ips_of_mem_networksAfter info h.network hn]
    exact KeyedList.nodup_upsertAll keyed_keepIp _ (nodup_ipsOf h n.interfaceName)

/-- For every report to a computer whose records are distinct. -/
theorem setSysInfo_follows (h : Distinct c) : Follows c info (c.setSysInfo info) where
  distinct := distinct_setSysInfo info h
  devices := by
    rw [setSysInfo_storageInfo]
    exact KeyedList.map_key_upsertAll keyed_writeStorage _ _
  interfaces := by
    rw [setSysInfo_networkInfo]
    exact KeyedList.map_key_upsertAll keyed_writeNetwork _ _
  storageInfoIds := by
    obtain ⟨k, ids⟩ := storageInfoIds_storagesAfter c.storageInfo info.storageInfo
    rw [setSysInfo_storageInfo, ids]
    exact List.take_left' (List.length_map _)
  lastEntry := by
    intro r hr last hlast
    rw [setSysInfo_storageInfo] at hr
    exact shows_of_mem_storagesAfter info h.storage hr hlast
  ips := by
    intro n hn
    rw [setSysInfo_networkInfo] at hn
    rw [ips_of_mem_networksAfter info h.network hn]
    exact KeyedList.upsertAll_of_keeps keyed_keepIp (fun _ _ => rfl) _ _
  unreportedStorage := by
    intro i r hr unreported
    have place := KeyedList.getElem?_upsertAll keyed_writeStorage h.storage info.storageInfo hr
    rw [entriesFor] at unreported
    rw [unreported] at place
    rw [setSysInfo_storageInfo]
    exact place
  unreportedNetwork := by
    intro i n hn unreported
    have place := KeyedList.getElem?_upsertAll keyed_writeNetwork h.network info.networkInfo hn
    rw [addressesFor] at unreported
    rw [unreported] at place
    rw [setSysInfo_networkInfo]
    exact place
  sysInfo := by
    rw [setSysInfo_sysInfo]
    exact ⟨rfl, rfl⟩

end Records

/-- A drive that is mounted twice, and an interface with two addresses. -/
def twoMounts : SystemInfo where
  hostName := "pc"
  storageInfo := [sda1, { sda1 with mountPoint := "/mnt" }]
  networkInfo := [⟨"eth0", false, "10.0.0.1"⟩, ⟨"eth0", true, "fe80::1"⟩]

/-- A computer that is known to have the drive. -/
theorem setSysInfo_follows_twoMounts :
    Follows ((RmsComputer.create 1).setSysInfo oneDrive) twoMounts
      (((RmsComputer.create 1).setSysInfo oneDrive).setSysInfo twoMounts) :=
  setSysInfo_follows twoMounts ⟨by decide, by decide, by decide⟩

end SetSysInfo
