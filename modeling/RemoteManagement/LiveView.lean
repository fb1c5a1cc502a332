import RemoteManagement.Server
import RemoteManagement.SetSysInfo

/-!
# The live view of a computer

Reports come one after the other. A report adds records and addresses and marks
records as connected; nothing takes them back. And each entry of a report
decides anew whether its record is dirty, against what the entry before left.
-/

namespace LiveView

open ThriftTypes SqlStatements ExecuteQuery Database QueryProgram Program Computer Handshake
open SetSysInfo

section Histories

inductive Event where
  | getFromDB (conn : Connection)
  | setSysInfo (report : SystemInfo)

variable (misread : List Char → Db → Option Outcome) (junk : VersionData)

def step (c : RmsComputer) : Event → RmsComputer
  | .getFromDB conn => ((c.getFromDB junk).run (answer misread) conn).1.2
  | .setSysInfo report => c.setSysInfo report

def reached (computerId : Int) (es : List Event) : RmsComputer :=
  es.foldl (step misread junk) (RmsComputer.create computerId)

def Reported (report : SystemInfo) (dev : String) : Prop := ∃ e ∈ report.storageInfo, e.dev = dev

def ReportedInterface (report : SystemInfo) (name : String) : Prop :=
  ∃ e ∈ report.networkInfo, e.interfaceName = name

/-- The interface has the address in the report. -/
def ReportedIp (report : SystemInfo) (name ip : String) : Prop :=
  ∃ e ∈ report.networkInfo, e.interfaceName = name ∧ e.ip = ip

/-- The records show what the report has, and nothing else as connected. -/
structure Live (c : RmsComputer) (report : SystemInfo) : Prop where
  storage : ∀ r ∈ c.storageInfo, r.connected = true ↔ Reported report r.devPath
  network : ∀ n ∈ c.networkInfo, n.connected = true ↔ ReportedInterface report n.interfaceName
  ips : ∀ n ∈ c.networkInfo, ReportedInterface report n.interfaceName →
    ∀ ip, ip ∈ n.ips.map RmsNetworkIPS.ip ↔ ReportedIp report n.interfaceName ip

/-- The report still has everything that is connected: every device, interface
and address; and no device of it has a second record that is not connected. -/
structure NothingGone (c : RmsComputer) (report : SystemInfo) : Prop where
  storage : ∀ r ∈ c.storageInfo, r.connected = true → Reported report r.devPath
  later : ∀ front r back, c.storageInfo = front ++ r :: back →
    (∃ a ∈ front, a.devPath = r.devPath) → Reported report r.devPath → r.connected = true
  network : ∀ n ∈ c.networkInfo, ReportedInterface report n.interfaceName
  ips : ∀ n ∈ c.networkInfo, ∀ ip ∈ n.ips.map RmsNetworkIPS.ip,
    ReportedIp report n.interfaceName ip

/-- What every computer has of its interfaces: one record each, connected. -/
structure NetworksUp (c : RmsComputer) : Prop where
  distinct : (c.networkInfo.map RmsNetworkInfo.interfaceName).Nodup
  connected : ∀ n ∈ c.networkInfo, n.connected = true

theorem returns_addToDB (c : RmsComputer) :
    c.addToDB.Returns (fun out => out.2.networkInfo = c.networkInfo) := by
  simp only [RmsComputer.addToDB, ask, bind_eq, query_bind, ret_bind, returns_query]
  intro res
  split
  · exact returns_bind (returns_any _) fun _ _ => rfl
  · rfl

theorem returns_getFromDB (c : RmsComputer) :
    (c.getFromDB junk).Returns (fun out => out.2.networkInfo = c.networkInfo) := by
  rw [RmsComputer.getFromDB]
  split
  · rfl
  · simp only [ask, bind_eq, query_bind, ret_bind, returns_query]
    intro res
    split
    · split
      · rfl
      · simp only [RmsComputer.getStorageFromDB, ask, bind_eq, query_bind, ret_bind, returns_query]
        intro res
        split <;> rfl
    · exact returns_bind (returns_addToDB c) fun _ same => same
    · rfl

theorem connected_writeNetwork (o : Option RmsNetworkInfo) (e : NetworkInfo) :
    (writeNetwork o e).connected = true := rfl

theorem networksUp_step {c : RmsComputer} (h : NetworksUp c) (e : Event) :
    NetworksUp (step misread junk c e) := by
  cases e with
  | getFromDB conn =>
    have same := run_returns (answer misread) (returns_getFromDB junk c) conn
    exact ⟨same ▸ h.distinct, same ▸ h.connected⟩
  | setSysInfo report =>
    have networks := setSysInfo_networkInfo c report
    refine ⟨networks ▸ KeyedList.nodup_upsertAll keyed_writeNetwork _ h.distinct, ?_⟩
    exact networks ▸ KeyedList.forall_mem_upsertAll (fun e _ => connected_writeNetwork none e)
      (fun n e _ _ _ => connected_writeNetwork (some n) e) h.connected

theorem networksUp_reached (computerId : Int) (es : List Event) :
    NetworksUp (reached misread junk computerId es) := by
  have new : NetworksUp (RmsComputer.create computerId) :=
    ⟨List.nodup_nil, fun n hn => absurd hn List.not_mem_nil⟩
  rw [reached]
  generalize RmsComputer.create computerId = c at new
  induction es generalizing c with
  | nil => exact new
  | cons e es ih => exact ih _ (networksUp_step misread junk new e)

end Histories

section Views

variable {c : RmsComputer} {report : SystemInfo}

theorem reported_iff {dev : String} : Reported report dev ↔ entriesFor report dev ≠ [] := by
  rw [ne_eq, KeyedList.entriesOf_eq_nil_iff]
  simp [Reported]

/-- A record to which entries of a device were written is that device's, and
connected. -/
theorem live_of_amend {o : Option RmsStorageInfo} {dev : String}
    (reported : entriesFor report dev ≠ []) {r : RmsStorageInfo}
    (made : KeyedList.amend writeStorage o (entriesFor report dev) = some r) :
    r.connected = true ↔ Reported report r.devPath := by
  have shows := shows_of_amend (List.getLast?_eq_some_getLast reported) made
  rw [shows.devPath, KeyedList.key_of_mem_entriesOf (List.getLast_mem reported)]
  exact ⟨fun _ => reported_iff.mpr reported, fun _ => shows.connected⟩

/-- The records of a report that was written to a list show it exactly if no
connected record is left out, and no second record of a device is left behind. -/
theorem storage_live_iff (l : List RmsStorageInfo) :
    (∀ r ∈ storagesAfter l report.storageInfo,
        r.connected = true ↔ Reported report r.devPath) ↔
      (∀ r ∈ l, r.connected = true → Reported report r.devPath) ∧
        ∀ front r back, l = front ++ r :: back → (∃ a ∈ front, a.devPath = r.devPath) →
          Reported report r.devPath → r.connected = true := by
  constructor
  · intro live
    have old {front back : List RmsStorageInfo} {r : RmsStorageInfo}
        (split : l = front ++ r :: back) :
        (if ∃ a ∈ front, a.devPath = r.devPath then r
          else (entriesFor report r.devPath).foldl (fun a e => writeStorage (some a) e) r) ∈
        storagesAfter l report.storageInfo :=
      (KeyedList.mem_upsertAll_iff keyed_writeStorage).mpr (Or.inr ⟨front, r, back, split, rfl⟩)
    refine ⟨?_, ?_⟩
    · intro r hr connected
      obtain ⟨front, back, split⟩ := List.append_of_mem hr
      by_contra gone
      have none : entriesFor report r.devPath = [] := not_not.mp (reported_iff.not.mp gone)
      have kept := old split
      rw [none, List.foldl_nil, ite_self] at kept
      exact gone ((live r kept).mp connected)
    · intro front r back split second reported
      have kept := old split
      rw [if_pos second] at kept
      exact (live r kept).mpr reported
  · rintro ⟨first, later⟩ x hx
    rcases (KeyedList.mem_upsertAll_iff keyed_writeStorage).mp hx with
      ⟨dev, hdev, made⟩ | ⟨front, r, back, split, rfl⟩
    · exact live_of_amend (reported_iff.mp (KeyedList.mem_newKeys.mp hdev).1) made
    · have mem : r ∈ l := split ▸ List.mem_append_right front List.mem_cons_self
      split_ifs with second
      · exact ⟨first r mem, later front r back split second⟩
      · by_cases reported : entriesFor report r.devPath = []
        · rw [entriesFor] at reported
          rw [reported, List.foldl_nil]
          refine ⟨first r mem, fun h => absurd h ?_⟩
          rw [reported_iff, entriesFor, reported]
          simp
        · exact live_of_amend reported (KeyedList.amend_some r _)

theorem mem_interfaces_iff {name : String} :
    (∃ n ∈ (c.setSysInfo report).networkInfo, n.interfaceName = name) ↔
      (∃ n ∈ c.networkInfo, n.interfaceName = name) ∨ ReportedInterface report name := by
  have keys := KeyedList.map_key_upsertAll keyed_writeNetwork c.networkInfo report.networkInfo
  rw [← List.mem_map, setSysInfo_networkInfo, networksAfter, keys, List.mem_append, List.mem_map,
    KeyedList.mem_newKeys, ReportedInterface]
  by_cases known : ∃ n ∈ c.networkInfo, n.interfaceName = name
  · simp only [known, true_or]
  · simp only [known, false_or]
    push Not at known
    exact and_iff_left known

/-- The addresses of an interface after a report are those before, and those
reported. -/
theorem mem_ips_iff (up : NetworksUp c) {n : RmsNetworkInfo}
    (hn : n ∈ (c.setSysInfo report).networkInfo) {ip : String} :
    ip ∈ n.ips.map RmsNetworkIPS.ip ↔
      ip ∈ (ipsOf c n.interfaceName).map RmsNetworkIPS.ip ∨
        ReportedIp report n.interfaceName ip := by
  rw [setSysInfo_networkInfo] at hn
  rw [ips_of_mem_networksAfter report up.distinct hn, ipsAfter,
    KeyedList.map_key_upsertAll keyed_keepIp, List.mem_append, KeyedList.mem_newKeys]
  have addresses : (∃ e ∈ addressesFor report n.interfaceName, e.ip = ip) ↔
      ReportedIp report n.interfaceName ip := by
    simp [KeyedList.entriesOf, ReportedIp, and_assoc]
  rw [addresses]
  by_cases known : ip ∈ (ipsOf c n.interfaceName).map RmsNetworkIPS.ip
  · simp only [known, true_or]
  · simp only [known, false_or]
    refine and_iff_left fun a ha same => known ?_
    exact List.mem_map.mpr ⟨a, ha, same⟩

/-- The view follows a report exactly if nothing is gone that was there. -/
theorem live_iff (up : NetworksUp c) :
    Live (c.setSysInfo report) report ↔ NothingGone c report := by
  have connected := (networksUp_step (fun _ _ => none) {} up (.setSysInfo report)).connected
  have storage := @storage_live_iff report c.storageInfo
  rw [← setSysInfo_storageInfo] at storage
  constructor
  · intro live
    obtain ⟨first, later⟩ := storage.mp live.storage
    have reported : ∀ n ∈ c.networkInfo, ReportedInterface report n.interfaceName := by
      intro n hn
      obtain ⟨n', hn', same⟩ := mem_interfaces_iff.mpr (Or.inl ⟨n, hn, rfl⟩)
      exact same ▸ (live.network n' hn').mp (connected n' hn')
    refine ⟨first, later, reported, ?_⟩
    intro n hn ip hip
    obtain ⟨n', hn', same⟩ := mem_interfaces_iff.mpr (Or.inl ⟨n, hn, rfl⟩)
    rw [← ipsOf_of_mem up.distinct hn, ← same] at hip
    have held := (mem_ips_iff up hn').mpr (Or.inl hip)
    exact same ▸ (live.ips n' hn' (same ▸ reported n hn) ip).mp held
  · intro nothingGone
    refine ⟨storage.mpr ⟨nothingGone.storage, nothingGone.later⟩, ?_, ?_⟩
    · intro n hn
      refine ⟨fun _ => ?_, fun _ => connected n hn⟩
      rcases mem_interfaces_iff.mp ⟨n, hn, rfl⟩ with ⟨n', hn', same⟩ | reported
      · exact same ▸ nothingGone.network n' hn'
      · exact reported
    · intro n hn _ ip
      rw [mem_ips_iff up hn]
      refine ⟨?_, Or.inr⟩
      rintro (held | reported)
      · rw [ipsOf] at held
        cases found : KeyedList.lookup RmsNetworkInfo.interfaceName n.interfaceName
            c.networkInfo with
        | none =>
          rw [found] at held
          cases held
        | some n' =>
          rw [found, Option.elim_some] at held
          have same : n'.interfaceName = n.interfaceName := by
            simpa using List.find?_some found
          exact same ▸ nothingGone.ips n' (KeyedList.mem_of_lookup found) ip held
      · exact reported

end Views

section Runs

variable (misread : List Char → Db → Option Outcome) (junk : VersionData)

/-- Whatever was loaded and reported before, the view follows the last report
exactly if that has everything that is there and connected. -/
theorem live_reached_iff (computerId : Int) (es : List Event) (report : SystemInfo) :
    Live (reached misread junk computerId (es ++ [.setSysInfo report])) report ↔
      NothingGone (reached misread junk computerId es) report := by
  rw [reached, List.foldl_append]
  exact live_iff (networksUp_reached misread junk computerId es)

end Runs

/-- The drive is pulled out, and the computer shows it as connected. -/
theorem driveGone_not_live :
    ¬ Live (reached (fun _ _ => none) {} 1 [.setSysInfo oneDrive, .setSysInfo {}]) {} := by
  intro live
  have shown := (live.storage (writeStorage none sda1) (List.mem_singleton_self _)).mp rfl
  obtain ⟨e, he, -⟩ := shown
  cases he

section Repeating

def asClean (dev : RmsStorageInfo) : RmsStorageInfo := { dev with dirty := false }

/-- The computer after an update whose queries succeed. -/
def cleaned (c : RmsComputer) : RmsComputer :=
  { c with sysInfoDirty := false, storageInfo := c.storageInfo.map asClean }

variable {σ : Type} {handle : Query × Bool → σ → RmsQueryResult × σ}

theorem run_updateStorages_cleaned (succeeds : ∀ q s, (handle q s).1.success = true)
    (success : Bool) (devs : List RmsStorageInfo) (s : σ) :
    ((updateStorages success devs).run handle s).1.2 =
      devs.map asClean := by
  induction devs generalizing success s with
  | nil => rfl
  | cons dev devs ih =>
    by_cases dirty : dev.dirty = true
    · simp [updateStorages, dirty, succeeds, ih, asClean]
    · have clean : asClean dev = dev := by
        rw [asClean, ← Bool.eq_false_iff.mpr dirty]
      simp [updateStorages, dirty, ih, clean]

theorem run_updateDB_cleaned (succeeds : ∀ q s, (handle q s).1.success = true) {c : RmsComputer}
    (valid : c.computerId ≠ -1) (s : σ) : (c.updateDB.run handle s).1.2 = cleaned c := by
  have sysInfo (s : σ) : (c.updateSysInfo.run handle s).1.2 = false := by
    rw [RmsComputer.updateSysInfo]
    by_cases dirty : c.sysInfoDirty = true <;> simp [dirty, succeeds]
  simp only [RmsComputer.updateDB, if_neg valid, bind_eq, pure_eq, run_bind, run_ret, sysInfo,
    run_updateStorages_cleaned succeeds, cleaned]

/-- Of a device's last two entries, the second repeats the first. -/
def Repeats (es : List StorageInfo) : Prop :=
  ∀ front e last, es = front ++ [e, last] → SameStorage (writeStorage none e) last

theorem sameStorage_of_shows {r : RmsStorageInfo} {e last : StorageInfo} (h : Shows r e) :
    SameStorage r last ↔ SameStorage (writeStorage none e) last := by
  have made := shows_writeStorage none e
  simp only [SameStorage, h.devPath, h.fsType, h.mountPoint, h.free, h.total, made.devPath,
    made.fsType, made.mountPoint, made.free, made.total]

theorem repeats_concat {front : List StorageInfo} {e last : StorageInfo} :
    Repeats (front ++ [e] ++ [last]) ↔ SameStorage (writeStorage none e) last := by
  rw [List.append_assoc]
  constructor
  · exact fun repeats => repeats front e last rfl
  · intro same front' e' last' split
    have tail : [e, last] = [e', last'] := List.append_inj_right' split rfl
    simp only [List.cons.injEq, and_true] at tail
    exact tail.1 ▸ tail.2 ▸ same

theorem repeats_singleton (last : StorageInfo) : Repeats [last] := by
  intro front e last' split
  simpa using congrArg List.length split

theorem writeStorage_eq_iff {a r : RmsStorageInfo} {last : StorageInfo}
    (id : a.storageInfoId = r.storageInfoId) (clean : r.dirty = false) (shows : Shows r last) :
    writeStorage (some a) last = r ↔ SameStorage a last := by
  obtain ⟨devPath, fsType, mountPoint, free, total, connected⟩ := shows
  cases r
  subst id clean devPath fsType mountPoint free total connected
  simp [writeStorage, storageInfoToRmsStorageInfo]

/-- Entries whose last one shows in a clean record leave it as it is exactly if
the one before says the same. -/
theorem foldl_eq_self_iff {r : RmsStorageInfo} (clean : r.dirty = false) {es : List StorageInfo}
    (h : es ≠ []) (shows : Shows r (es.getLast h)) :
    es.foldl (fun a e => writeStorage (some a) e) r = r ↔ Repeats es := by
  obtain ⟨front, last, rfl⟩ : ∃ front last, es = front ++ [last] :=
    ⟨_, _, (List.dropLast_append_getLast h).symm⟩
  rw [List.getLast_append_singleton] at shows
  have id : (front.foldl (fun a e => writeStorage (some a) e) r).storageInfoId =
      r.storageInfoId := storageInfoId_foldl r front
  rw [List.foldl_concat, writeStorage_eq_iff id clean shows]
  rcases List.eq_nil_or_concat front with rfl | ⟨front, e, rfl⟩
  · have alone : SameStorage r last :=
      ⟨shows.devPath.symm, shows.fsType, shows.free, shows.total, shows.mountPoint⟩
    exact iff_of_true alone (repeats_singleton last)
  · rw [List.concat_eq_append, List.foldl_concat, repeats_concat]
    exact sameStorage_of_shows (shows_writeStorage _ e)

theorem lookup_map_asClean (dev : String) (l : List RmsStorageInfo) :
    KeyedList.lookup RmsStorageInfo.devPath dev (l.map asClean) =
      (KeyedList.lookup RmsStorageInfo.devPath dev l).map asClean :=
  List.find?_map

theorem storages_repeat_iff (l : List RmsStorageInfo) (report : SystemInfo) :
    storagesAfter ((storagesAfter l report.storageInfo).map asClean) report.storageInfo =
        (storagesAfter l report.storageInfo).map asClean ↔
      ∀ e ∈ report.storageInfo, Repeats (entriesFor report e.dev) := by
  rw [storagesAfter, KeyedList.upsertAll_eq_self_iff keyed_writeStorage]
  refine forall₂_congr fun e he => ?_
  have reported : entriesFor report e.dev ≠ [] := reported_iff.mp ⟨e, he, rfl⟩
  obtain ⟨r, made⟩ := KeyedList.exists_amend_eq_some writeStorage
    (KeyedList.lookup RmsStorageInfo.devPath e.dev l) reported
  have found : KeyedList.lookup RmsStorageInfo.devPath e.dev
      ((storagesAfter l report.storageInfo).map asClean) = some (asClean r) := by
    rw [lookup_map_asClean, KeyedList.lookup_upsertAll keyed_writeStorage]
    exact congrArg (Option.map asClean) made
  obtain ⟨devPath, fsType, mountPoint, free, total, connected⟩ :=
    shows_of_amend (List.getLast?_eq_some_getLast reported) made
  have fixed := foldl_eq_self_iff (r := asClean r) rfl reported
    ⟨devPath, fsType, mountPoint, free, total, connected⟩
  rw [found]
  simpa using fixed

theorem foldl_writeNetwork {n : RmsNetworkInfo} (connected : n.connected = true)
    {es : List NetworkInfo} (own : ∀ e ∈ es, e.interfaceName = n.interfaceName) :
    es.foldl (fun a e => writeNetwork (some a) e) n = { n with ips := ipsAfter n.ips es } := by
  induction es generalizing n with
  | nil => rfl
  | cons e es ih =>
    simp only [List.forall_mem_cons] at own
    have first : writeNetwork (some n) e = { n with ips := ipsAfter n.ips [e] } := by
      rw [← Option.elim_some [] RmsNetworkInfo.ips n, ← ips_writeNetwork]
      simp [writeNetwork, networkDeviceToRmsNetworkDevice, own.1, ← connected]
    rw [List.foldl_cons, first]
    exact ih (n := { n with ips := ipsAfter n.ips [e] }) connected own.2

/-- Of interfaces, a report that is repeated tells nothing new. -/
theorem networks_repeat (l : List RmsNetworkInfo) (es : List NetworkInfo) :
    networksAfter (networksAfter l es) es = networksAfter l es := by
  rw [networksAfter, KeyedList.upsertAll_eq_self_iff keyed_writeNetwork]
  intro e he
  have reported : KeyedList.entriesOf NetworkInfo.interfaceName e.interfaceName es ≠ [] := by
    rw [ne_eq, KeyedList.entriesOf_eq_nil_iff]
    exact fun none => none e he rfl
  obtain ⟨n, made⟩ := KeyedList.exists_amend_eq_some writeNetwork
    (KeyedList.lookup RmsNetworkInfo.interfaceName e.interfaceName l) reported
  have found : KeyedList.lookup RmsNetworkInfo.interfaceName e.interfaceName (networksAfter l es) =
      some n := by rw [networksAfter, KeyedList.lookup_upsertAll keyed_writeNetwork, made]
  have name : n.interfaceName = e.interfaceName := by simpa using List.find?_some found
  have ips := ips_amend (KeyedList.lookup RmsNetworkInfo.interfaceName e.interfaceName l)
    (KeyedList.entriesOf NetworkInfo.interfaceName e.interfaceName es)
  have connected : n.connected = true := by
    rw [← List.dropLast_append_getLast reported, KeyedList.amend_concat] at made
    exact Option.some.inj made ▸ rfl
  refine ⟨n, found, ?_⟩
  rw [foldl_writeNetwork connected fun e he => (KeyedList.key_of_mem_entriesOf he).trans name.symm]
  rw [made, Option.elim_some] at ips
  have same : ipsAfter n.ips (KeyedList.entriesOf NetworkInfo.interfaceName e.interfaceName es) =
      n.ips := by
    rw [ips, ipsAfter, KeyedList.upsertAll_idem_of_keeps keyed_keepIp fun _ _ => rfl]
  rw [same]

/-- The report leaves the records as they were, and nothing to be written. -/
structure NoOp (c c' : RmsComputer) : Prop where
  storage : c'.storageInfo = c.storageInfo
  network : c'.networkInfo = c.networkInfo
  sysInfoClean : c'.sysInfoDirty = false
  storageClean : ∀ dev ∈ c'.storageInfo, dev.dirty = false
  networkClean : ∀ n ∈ c'.networkInfo, n.dirty = false
  asksNothing : c'.updateDB.asks = false

theorem isSysInfoDirty_setSysInfo (c : RmsComputer) (report : SystemInfo) :
    isSysInfoDirty (c.setSysInfo report).sysInfo report = false := by
  simp [isSysInfoDirty, setSysInfo_sysInfo]

theorem networkClean_iff (l : List RmsNetworkInfo) (es : List NetworkInfo) :
    (∀ n ∈ networksAfter l es, n.dirty = false) ↔ ∀ n ∈ l, n.dirty = false := by
  obtain ⟨k, flags⟩ : ∃ k, (networksAfter l es).map RmsNetworkInfo.dirty =
      l.map RmsNetworkInfo.dirty ++ List.replicate k false :=
    KeyedList.map_upsertAll (fun _ => rfl) (fun _ _ => rfl) l es
  have all (l : List RmsNetworkInfo) : (∀ n ∈ l, n.dirty = false) ↔
      ∀ flag ∈ l.map RmsNetworkInfo.dirty, flag = false := by simp
  rw [all, all l, flags]
  simp

/-- Reporting twice is reporting once exactly if no network record was dirty
before and each device's last two entries agree. -/
theorem repeated_noOp_iff (succeeds : ∀ q s, (handle q s).1.success = true) {c : RmsComputer}
    (valid : c.computerId ≠ -1) (report : SystemInfo) (s : σ) :
    NoOp ((c.setSysInfo report).updateDB.run handle s).1.2
        (((c.setSysInfo report).updateDB.run handle s).1.2.setSysInfo report) ↔
      (∀ n ∈ c.networkInfo, n.dirty = false) ∧
        ∀ e ∈ report.storageInfo, Repeats (entriesFor report e.dev) := by
  have own : (c.setSysInfo report).computerId ≠ -1 := setSysInfo_computerId c report ▸ valid
  rw [run_updateDB_cleaned succeeds own]
  have storage := storages_repeat_iff c.storageInfo report
  rw [← setSysInfo_storageInfo, storagesAfter] at storage
  have again := setSysInfo_eq (cleaned (c.setSysInfo report)) report
  have network : ((cleaned (c.setSysInfo report)).setSysInfo report).networkInfo =
      (cleaned (c.setSysInfo report)).networkInfo := by
    rw [setSysInfo_networkInfo]
    change networksAfter (c.setSysInfo report).networkInfo report.networkInfo =
      (c.setSysInfo report).networkInfo
    rw [setSysInfo_networkInfo, networks_repeat]
  have networkClean := networkClean_iff c.networkInfo report.networkInfo
  rw [← setSysInfo_networkInfo] at networkClean
  constructor
  · intro noOp
    exact ⟨networkClean.mp (network ▸ noOp.networkClean),
      storage.mp ((setSysInfo_storageInfo _ report).symm.trans noOp.storage)⟩
  · rintro ⟨cleanBefore, agree⟩
    have same : ((cleaned (c.setSysInfo report)).setSysInfo report).storageInfo =
        (cleaned (c.setSysInfo report)).storageInfo := by
      rw [setSysInfo_storageInfo]
      exact storage.mpr agree
    have sysInfo : ((cleaned (c.setSysInfo report)).setSysInfo report).sysInfoDirty = false := by
      rw [again]
      exact isSysInfoDirty_setSysInfo c report
    have clean : ∀ dev ∈ ((cleaned (c.setSysInfo report)).setSysInfo report).storageInfo,
        dev.dirty = false := by
      rw [same]
      intro dev hdev
      obtain ⟨d, -, rfl⟩ := List.mem_map.mp hdev
      rfl
    exact ⟨same, network, sysInfo, clean, network ▸ networkClean.mpr cleanBefore,
      (Server.asks_updateDB _).mpr (Or.inr ⟨sysInfo, clean⟩)⟩

end Repeating

/-- A database that runs every query. -/
theorem repeated_noOp_oneDrive :
    NoOp (((RmsComputer.create 1).setSysInfo oneDrive).updateDB.run
        (fun _ (s : Unit) => ({ success := true }, s)) ()).1.2
      ((((RmsComputer.create 1).setSysInfo oneDrive).updateDB.run
        (fun _ (s : Unit) => ({ success := true }, s)) ()).1.2.setSysInfo oneDrive) := by
  refine (repeated_noOp_iff (fun _ _ => rfl) (by decide) oneDrive ()).mpr ⟨by decide, ?_⟩
  intro e he
  obtain rfl := List.mem_singleton.mp he
  exact repeats_singleton sda1

/-- The first mount point makes the record dirty, and the second makes it dirty
again. -/
theorem twoMounts_not_noOp :
    ¬ NoOp (((RmsComputer.create 1).setSysInfo twoMounts).updateDB.run
        (fun _ (s : Unit) => ({ success := true }, s)) ()).1.2
      ((((RmsComputer.create 1).setSysInfo twoMounts).updateDB.run
        (fun _ (s : Unit) => ({ success := true }, s)) ()).1.2.setSysInfo twoMounts) :=
  fun noOp => absurd noOp.storageClean (by decide)

end LiveView
