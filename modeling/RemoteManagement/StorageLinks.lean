import RemoteManagement.DatabaseCalls
import RemoteManagement.QuotelessStatements

/-!
# The links of the storage rows

Rows are made for the records of a new computer only, by the call that has made
its row, and only that call holds records without a row of their own device.
From there on a record keeps its row and its device. So it is the ids that are
told to the inserts on which all links rest.
-/

namespace StorageLinks

open ThriftTypes SqlStatements ExecuteQuery RowTable Database DecimalText GuardedRun Computer
open Handshake QuotelessStatements DatabaseCalls

/-- What the update of a row never changes. -/
def place (r : StorageRow) : Int × Int × String := (r.storageInfoId, r.computerId, r.devPath)

def places (db : Db) : List (Int × Int × String) := db.storages.rows.map place

/-- A computer has at most one row for a device, and has a row itself. -/
structure Intact (db : Db) : Prop where
  oneRow : ((places db).map Prod.snd).Nodup
  owner : ∀ p ∈ places db, p.2.1 ∈ db.computers.ids

/-- Computers stay, and places are added. -/
structure Grows (db db' : Db) (added : List (Int × Int × String)) : Prop where
  ids : ∀ n ∈ db.computers.ids, n ∈ db'.computers.ids
  places : places db' = places db ++ added

theorem Intact.mono {db db' : Db} (h : Intact db) (grows : Grows db db' []) : Intact db' where
  oneRow := by
    rw [grows.places, List.append_nil]
    exact h.oneRow
  owner := by
    intro p hp
    rw [grows.places, List.append_nil] at hp
    exact grows.ids _ (h.owner p hp)

/-- A place that is added is of a computer that has a row, and is not taken. -/
theorem Intact.add {db db' : Db} (h : Intact db) {p : Int × Int × String}
    (grows : Grows db db' [p]) (known : p.2.1 ∈ db.computers.ids)
    (free : p.2 ∉ (places db).map Prod.snd) : Intact db' where
  oneRow := by
    rw [grows.places, List.map_append, List.nodup_append]
    refine ⟨h.oneRow, by simp, ?_⟩
    intro q hq x hx same
    obtain rfl := List.mem_singleton.mp hx
    exact free (same ▸ hq)
  owner := by
    intro q hq
    rw [grows.places, List.mem_append] at hq
    rcases hq with old | new
    · exact grows.ids _ (h.owner q old)
    · obtain rfl := List.mem_singleton.mp new
      exact grows.ids _ known

section Records

/-- A record with an id has the row of its computer and device. -/
def Held (db : Db) (computerId : Int) (dev : RmsStorageInfo) : Prop :=
  dev.storageInfoId ≠ -1 → (dev.storageInfoId, computerId, dev.devPath) ∈ places db

structure Recorded (db : Db) (c : RmsComputer) : Prop where
  held : ∀ dev ∈ c.storageInfo, Held db c.computerId dev
  quoteless : ∀ dev ∈ c.storageInfo, dev.dirty = true → QuotelessRecord dev

theorem Recorded.mono {db db' : Db} {added : List (Int × Int × String)} {c : RmsComputer}
    (h : Recorded db c) (grows : Grows db db' added) : Recorded db' c where
  held := by
    intro dev hdev valid
    rw [grows.places]
    exact List.mem_append_left _ (h.held dev hdev valid)
  quoteless := h.quoteless

theorem recorded_of_no_records (db : Db) {c : RmsComputer} (none : c.storageInfo = []) :
    Recorded db c := by
  constructor <;> simp [none]

/-- An entry goes to the record of its device, or to a new one without an id. -/
theorem Recorded.setSysInfo {db : Db} {c : RmsComputer} (h : Recorded db c) {report : SystemInfo}
    (quoteless : QuotelessReport report) : Recorded db (c.setSysInfo report) where
  held := by
    rw [setSysInfo_storageInfo, setSysInfo_computerId]
    refine KeyedList.forall_mem_upsertAll (fun _ _ new => absurd rfl new) ?_ h.held
    intro dev e _ own held valid
    exact (congrArg (fun path => (dev.storageInfoId, c.computerId, path)) own) ▸ held valid
  quoteless := by
    rw [setSysInfo_storageInfo]
    exact quotelessRecord_of_dirty quoteless h.quoteless

theorem Recorded.replace {db : Db} {c : RmsComputer} {front back : List RmsStorageInfo}
    {dev : RmsStorageInfo} (h : Recorded db { c with storageInfo := front ++ dev :: back })
    (dev' : RmsStorageInfo) (held : Held db c.computerId dev')
    (quoteless : dev'.dirty = true → QuotelessRecord dev') :
    Recorded db { c with storageInfo := front ++ [dev'] ++ back } := by
  obtain ⟨allHeld, allQuoteless⟩ := h
  simp only [List.forall_mem_append, List.forall_mem_cons] at allHeld allQuoteless
  constructor
  · simp only [List.forall_mem_append, List.forall_mem_singleton]
    exact ⟨⟨allHeld.1, held⟩, allHeld.2.2⟩
  · simp only [List.forall_mem_append, List.forall_mem_singleton]
    exact ⟨⟨allQuoteless.1, quoteless⟩, allQuoteless.2.2⟩

/-- The records that a fetch loads are those of rows. -/
theorem recorded_of_loaded {db : Db} (computerId : Int) (k : Nat) {c : RmsComputer}
    (own : c.computerId = computerId)
    (loaded : c.storageInfo = ((storagesOf db computerId).take k).map loadedStorage) :
    Recorded db c := by
  have row (dev) (hdev : dev ∈ c.storageInfo) :
      ∃ r ∈ db.storages.rows, r.computerId = computerId ∧ loadedStorage r = dev := by
    rw [loaded] at hdev
    obtain ⟨r, hr, rfl⟩ := List.mem_map.mp hdev
    have mem := List.mem_filter.mp (List.mem_of_mem_take hr)
    exact ⟨r, mem.1, by simpa using mem.2, rfl⟩
  constructor
  · intro dev hdev _
    obtain ⟨r, hr, rfl, rfl⟩ := row dev hdev
    exact List.mem_map.mpr ⟨r, hr, by rw [own]; rfl⟩
  · intro dev hdev dirty
    obtain ⟨r, -, -, rfl⟩ := row dev hdev
    cases dirty

end Records

section Calls

def later : Call → Option SystemInfo
  | .fetchingComputer _ _ report | .fetchingStorage _ _ report => some report
  | .insertingComputer _ later | .insertingStorages _ _ _ _ later => later
  | _ => none

/-- The records that wait for their insert. -/
def pending : Call → List RmsStorageInfo
  | .insertingComputer c _ => c.storageInfo
  | .insertingStorages _ _ dev back _ => dev :: back
  | _ => []

/-- The computer whose records are being inserted. -/
def fills : Call → Option Int
  | .insertingStorages c _ _ _ _ => some c.computerId
  | _ => none

/-- The records of the call's computer are linked, those that wait are not, and
nothing that is still to be sent holds a quote. -/
structure Linked (db : Db) (call : Call) : Prop where
  recorded : Recorded db call.computer
  pending : ∀ dev ∈ pending call, dev.storageInfoId = -1 ∧ QuotelessRecord dev
  distinct : ((StorageLinks.pending call).map RmsStorageInfo.devPath).Nodup
  later : ∀ report, later call = some report → QuotelessReport report
  asks : ∀ ask, call.asks = some ask → Quoteless ask.1
  filling : ∀ n, fills call = some n → n ∈ db.computers.ids ∧
    ∀ dev ∈ StorageLinks.pending call, (n, dev.devPath) ∉ (places db).map Prod.snd

theorem Linked.mono {db db' : Db} {added : List (Int × Int × String)} {call : Call}
    (h : Linked db call) (grows : Grows db db' added)
    (apart : ∀ p ∈ added, fills call ≠ some p.2.1) : Linked db' call where
  recorded := h.recorded.mono grows
  pending := h.pending
  distinct := h.distinct
  later := h.later
  asks := h.asks
  filling := by
    intro n hn
    obtain ⟨known, free⟩ := h.filling n hn
    refine ⟨grows.ids n known, fun dev hdev taken => ?_⟩
    rw [grows.places, List.map_append, List.mem_append] at taken
    rcases taken with old | new
    · exact free dev hdev old
    · obtain ⟨p, hp, same⟩ := List.mem_map.mp new
      exact apart p hp (hn.trans (congrArg (fun q => some q.1) same.symm))

/-- A call that has nothing to insert. -/
theorem linked_of_settled {db : Db} {call : Call} (h : Recorded db call.computer)
    (noPending : pending call = []) (noFilling : fills call = none)
    (reports : ∀ report, later call = some report → QuotelessReport report)
    (quoteless : ∀ ask, call.asks = some ask → Quoteless ask.1) :
    Linked db call ∧ fills call = none := by
  refine ⟨⟨h, ?_, ?_, reports, quoteless, ?_⟩, noFilling⟩ <;> simp [noPending, noFilling]

/-- The row that a call updates is that of its computer and of the record. -/
theorem Linked.own_row {db : Db} {call : Call} (h : Linked db call) {r : StorageRow}
    (hr : r ∈ db.storages.rows) {ask : Query × Bool} (asks : call.asks = some ask)
    {free total : Nat} {connected : Bool} {mountPoint fsType : String}
    (update : ask.1 = .updateStorage free total connected mountPoint fsType r.storageInfoId) :
    ∃ c front dev back dirty, call = .updatingStorages c front dev back dirty ∧
      r.computerId = c.computerId ∧ r.devPath = dev.devPath := by
  cases call with
  | updatingStorages c front dev back dirty =>
    obtain rfl := Option.some.inj asks
    have same : dev.storageInfoId = r.storageInfoId := (Query.updateStorage.inj update).2.2.2.2.2
    have positive := db.storages.positive r hr
    have held := h.recorded.held dev (by simp [Call.computer]) (by omega)
    obtain ⟨r', hr', place'⟩ := List.mem_map.mp held
    simp only [place, Prod.mk.injEq] at place'
    obtain rfl : r' = r := List.inj_on_of_nodup_map db.storages.distinct hr' hr
      (place'.1.trans same)
    exact ⟨c, front, dev, back, dirty, rfl, place'.2⟩
  | _ => cases asks <;> cases update

theorem updatingComputer_of_asks {call : Call} {ask : Query × Bool} (asks : call.asks = some ask)
    {a : ComputerArgs} {id : Int} (update : ask.1 = .updateComputer a id) :
    ∃ c valid dirty, call = .updatingComputer c valid dirty ∧ id = c.computerId := by
  cases call with
  | updatingComputer c valid dirty =>
    obtain rfl := Option.some.inj asks
    exact ⟨c, valid, dirty, rfl, (Query.updateComputer.inj update).2.symm⟩
  | _ => cases asks <;> cases update

theorem linked_idle {db : Db} {c : RmsComputer} (h : Recorded db c) :
    Linked db (.idle c) ∧ fills (.idle c) = none := by
  refine linked_of_settled h rfl rfl (by simp [later]) ?_
  intro ask hask
  cases hask

theorem linked_updates {db : Db} {c : RmsComputer} {front back : List RmsStorageInfo}
    (h : Recorded db { c with storageInfo := front ++ back }) :
    Linked db (updates c front back) ∧ fills (updates c front back) = none := by
  induction back generalizing front with
  | nil => exact linked_idle (by simpa using h)
  | cons dev back ih =>
    rw [updates]
    split
    · rename_i dirty
      refine linked_of_settled h rfl rfl (by simp [later]) ?_
      intro ask hask
      obtain rfl := Option.some.inj hask
      exact quoteless_updateStorage (h.quoteless dev (by simp) dirty)
    · exact ih (by simpa using h)

theorem linked_updateDB {db : Db} {c : RmsComputer} (h : Recorded db c)
    (quoteless : Quoteless (.insertComputer c.insertArgs)) :
    Linked db (updateDB c) ∧ fills (updateDB c) = none := by
  rw [updateDB]
  split
  · exact linked_idle h
  · split
    · refine linked_of_settled h rfl rfl (by simp [later]) ?_
      intro ask hask
      obtain rfl := Option.some.inj hask
      exact quoteless_updateComputer quoteless c.computerId
    · exact linked_updates h

theorem linked_setSysInfo {db : Db} {c : RmsComputer} (h : Recorded db c) {report : SystemInfo}
    (quoteless : QuotelessReport report) :
    Linked db (updateDB (c.setSysInfo report)) ∧ fills (updateDB (c.setSysInfo report)) = none :=
  linked_updateDB (h.setSysInfo quoteless)
    (quoteless_insertComputer quoteless (setSysInfo_sysInfo c report))

theorem linked_afterwards {db : Db} {c : RmsComputer} (h : Recorded db c)
    {o : Option SystemInfo} (quoteless : ∀ report, o = some report → QuotelessReport report) :
    Linked db (afterwards c o) ∧ fills (afterwards c o) = none := by
  cases o with
  | none => exact linked_idle h
  | some report => exact linked_setSysInfo h (quoteless report rfl)

theorem linked_inserts {db : Db} (c : RmsComputer) (front back : List RmsStorageInfo)
    {o : Option SystemInfo} (h : Recorded db { c with storageInfo := front ++ back })
    (new : ∀ dev ∈ back, dev.storageInfoId = -1 ∧ QuotelessRecord dev)
    (distinct : (back.map RmsStorageInfo.devPath).Nodup)
    (quoteless : ∀ report, o = some report → QuotelessReport report)
    (known : c.computerId ∈ db.computers.ids)
    (free : ∀ dev ∈ back, (c.computerId, dev.devPath) ∉ (places db).map Prod.snd) :
    Linked db (inserts c front o back) ∧
      ∀ n, fills (inserts c front o back) = some n → n = c.computerId := by
  cases back with
  | nil =>
    obtain ⟨linked, none⟩ := linked_afterwards (by simpa using h) quoteless
    exact ⟨linked, fun n hn => by simp [inserts, none] at hn⟩
  | cons dev back =>
    refine ⟨⟨h, new, distinct, quoteless, ?_, ?_⟩, fun n hn => (Option.some.inj hn).symm⟩
    · intro ask hask
      obtain rfl := Option.some.inj hask
      exact quoteless_insertStorage (new dev List.mem_cons_self).2 c.computerId
    · intro n hn
      obtain rfl := Option.some.inj hn
      exact ⟨known, free⟩

theorem linked_beginHandshake (db : Db) (id : Int) {report : SystemInfo}
    (quoteless : QuotelessReport report) :
    Linked db (beginHandshake id report) ∧ fills (beginHandshake id report) = none := by
  have created : Recorded db (RmsComputer.create (toInt32 id)) := recorded_of_no_records db rfl
  rw [beginHandshake]
  split
  · split
    · exact linked_setSysInfo created quoteless
    · refine linked_of_settled created rfl rfl ?_ ?_
      · intro r hr
        exact Option.some.inj hr ▸ quoteless
      · intro ask hask
        obtain rfl := Option.some.inj hask
        exact quoteless_fetchComputer _
  · refine ⟨⟨created.setSysInfo quoteless, ?_, ?_, by simp [later], ?_, by simp [fills]⟩, rfl⟩
    · simp only [pending, setSysInfo_storageInfo]
      refine fun dev hdev => ⟨?_, quotelessRecord_of_report quoteless dev hdev⟩
      exact KeyedList.forall_mem_upsertAll (P := fun dev => dev.storageInfoId = -1) (fun _ _ => rfl)
        (fun _ _ _ _ same => same) (by simp [RmsComputer.create]) dev hdev
    · simp only [pending, setSysInfo_storageInfo]
      exact KeyedList.nodup_upsertAll keyed_writeStorage _ List.nodup_nil
    · intro ask hask
      obtain rfl := Option.some.inj hask
      exact quoteless_insertComputer quoteless (setSysInfo_sysInfo _ report)

end Calls

section Answers

/-- What an event of a client does. Places are added for the computer that it
fills, and the next one that it fills is new. -/
structure Advances (db : Db) (filled : Option Int) (db' : Db) (call : Call) : Prop where
  grows : ∃ added, Grows db db' added ∧ ∀ p ∈ added, filled = some p.2.1
  intact : Intact db'
  linked : Linked db' call
  filling : ∀ n, fills call = some n → filled = some n ∨ n ∉ db.computers.ids

theorem advances_of_kept {db db' : Db} (intact : Intact db) (samePlaces : places db' = places db)
    (ids : db'.computers.ids = db.computers.ids) {call : Call}
    (h : Linked db call ∧ fills call = none) (filled : Option Int) :
    Advances db filled db' call := by
  have grows : Grows db db' [] := ⟨fun n hn => ids ▸ hn, by simp [samePlaces]⟩
  exact ⟨⟨[], grows, by simp⟩, intact.mono grows, h.1.mono grows (by simp), by simp [h.2]⟩

variable {conn : Connection} {res : RmsQueryResult} {db : Db} (junk : VersionData)

theorem advances_fetchingComputer (intact : Intact conn.db) {computerId : Int}
    {valid : computerId ≠ -1} {report : SystemInfo}
    (linked : Linked conn.db (.fetchingComputer computerId valid report))
    (h : Answered (.fetchComputerById computerId) false conn res db) :
    Advances conn.db none db
      ((Call.fetchingComputer computerId valid report).resume junk res) := by
  have noRecords (info : SystemInfo) :
      Recorded conn.db { RmsComputer.create computerId with sysInfo := info } :=
    recorded_of_no_records conn.db rfl
  have created : Recorded conn.db (RmsComputer.create computerId) :=
    recorded_of_no_records conn.db rfl
  have noStrings : QuotelessReport {} := by decide
  have quoteless (r) (hr : some report = some r) : QuotelessReport r :=
    Option.some.inj hr ▸ linked.later report rfl
  refine advances_of_kept intact (congrArg (·.rows.map place) (storages_answered h id))
    (computerIds_answered h fun _ => Query.noConfusion) ?_ none
  simp only [Call.resume]
  split
  · split
    · exact linked_idle (noRecords _)
    · refine linked_of_settled (noRecords _) rfl rfl quoteless ?_
      intro ask hask
      obtain rfl := Option.some.inj hask
      exact quoteless_fetchStorage computerId
  · refine linked_of_settled created rfl rfl quoteless ?_
    intro ask hask
    obtain rfl := Option.some.inj hask
    exact quoteless_insertComputer noStrings rfl
  · exact linked_afterwards created quoteless

theorem advances_fetchingStorage (intact : Intact conn.db) {computerId : Int}
    {sysInfo report : SystemInfo}
    (linked : Linked conn.db (.fetchingStorage computerId sysInfo report))
    (h : Answered (.fetchStorageByComputerId computerId) false conn res db) :
    Advances conn.db none db
      ((Call.fetchingStorage computerId sysInfo report).resume junk res) := by
  have quoteless (r) (hr : some report = some r) : QuotelessReport r :=
    Option.some.inj hr ▸ linked.later report rfl
  refine advances_of_kept intact (congrArg (·.rows.map place) (storages_answered h id))
    (computerIds_answered h fun _ => Query.noConfusion) ?_ none
  simp only [Call.resume]
  split
  · rename_i found
    obtain ⟨k, loaded⟩ := loaded_of_fetchStorage h found.1
    split
    · rename_i e infos records
      exact linked_idle (recorded_of_loaded computerId k rfl (by rw [← loaded, records]))
    · rename_i infos records
      exact linked_afterwards (recorded_of_loaded computerId k rfl (by rw [← loaded, records]))
        quoteless
  · exact linked_afterwards (recorded_of_no_records conn.db rfl) quoteless

theorem advances_updatingComputer (intact : Intact conn.db) {c : RmsComputer}
    {valid : c.computerId ≠ -1} {dirty : c.sysInfoDirty = true}
    (linked : Linked conn.db (.updatingComputer c valid dirty))
    (h : Answered (.updateComputer c.updateArgs c.computerId) false conn res db) :
    Advances conn.db none db
      ((Call.updatingComputer c valid dirty).resume junk res) := by
  refine advances_of_kept intact (congrArg (·.rows.map place) (storages_answered h id))
    (computerIds_answered h fun _ => Query.noConfusion) ?_ none
  exact linked_updates ⟨linked.recorded.held, linked.recorded.quoteless⟩

theorem places_answered_update {dev : RmsStorageInfo}
    (h : Answered (updateStorage dev) false conn res db) : places db = places conn.db := by
  obtain ⟨-, f, rows, same⟩ := answered_updateStorage h
  rw [places, places, rows, List.map_map]
  refine List.map_congr_left fun r _ => ?_
  have kept := (same r).1
  rw [Function.comp_apply, place, place, kept.storageInfoId, kept.computerId, kept.devPath]

theorem advances_updatingStorages (intact : Intact conn.db) {c : RmsComputer}
    {front back : List RmsStorageInfo} {dev : RmsStorageInfo} {dirty : dev.dirty = true}
    (linked : Linked conn.db (.updatingStorages c front dev back dirty))
    (h : Answered (updateStorage dev) false conn res db) :
    Advances conn.db none db
      ((Call.updatingStorages c front dev back dirty).resume junk res) := by
  have ids := computerIds_answered h fun _ => Query.noConfusion
  refine advances_of_kept intact (places_answered_update h) ids ?_ none
  have held := linked.recorded.held dev (by simp [Call.computer])
  have quoteless := linked.recorded.quoteless dev (by simp [Call.computer]) dirty
  exact linked_updates (linked.recorded.replace _ held fun _ => quoteless)

/-- The new id is on no row yet. -/
theorem newRowid_free (intact : Intact db) (path : String) :
    (newRowid db.computers.ids, path) ∉ (places db).map Prod.snd := by
  intro taken
  obtain ⟨p, hp, same⟩ := List.mem_map.mp taken
  have known := intact.owner p hp
  rw [same] at known
  exact newRowid_notMem _ known

theorem advances_insertingComputer (intact : Intact conn.db) {c : RmsComputer}
    {o : Option SystemInfo} (linked : Linked conn.db (.insertingComputer c o))
    (h : Answered (.insertComputer c.insertArgs) true conn res db)
    (unstopped : stopsAfter conn = none) (fits : InInt (newRowid conn.db.computers.ids)) :
    Advances conn.db none db
      ((Call.insertingComputer c o).resume junk res) := by
  have waiting := linked.pending
  have reports := linked.later
  rcases answered_insertComputer h unstopped with ⟨failed, rfl⟩ | ⟨success, lastId, ids, storages⟩
  · refine advances_of_kept intact rfl rfl ?_ none
    simp only [Call.resume, failed, Bool.false_eq_true, if_false]
    exact linked_afterwards linked.recorded reports
  · have samePlaces : places db = places conn.db := congrArg (·.rows.map place) storages
    have told : res.lastId.getD 0 = newRowid conn.db.computers.ids := by
      rw [lastId, Option.getD_some, toInt32_of_inInt fits]
    have grows : Grows conn.db db [] := ⟨fun n hn => by simp [ids, hn], by simp [samePlaces]⟩
    have recorded : Recorded db { c with
        computerId := newRowid conn.db.computers.ids, storageInfo := [] ++ c.storageInfo } :=
      ⟨fun dev hdev valid => absurd (waiting dev hdev).1 valid, linked.recorded.quoteless⟩
    have known : newRowid conn.db.computers.ids ∈ db.computers.ids := by simp [ids]
    have free (dev) (_ : dev ∈ c.storageInfo) :
        (newRowid conn.db.computers.ids, dev.devPath) ∉ (places db).map Prod.snd := by
      rw [samePlaces]
      exact newRowid_free intact dev.devPath
    obtain ⟨linked', filled⟩ := linked_inserts { c with computerId := newRowid conn.db.computers.ids }
      [] c.storageInfo recorded waiting linked.distinct reports known free
    simp only [Call.resume, success, if_true, told]
    exact ⟨⟨[], grows, by simp⟩, intact.mono grows, linked', fun n hn =>
      Or.inr (filled n hn ▸ newRowid_notMem _)⟩

theorem advances_insertingStorages (intact : Intact conn.db) {c : RmsComputer}
    {front back : List RmsStorageInfo} {dev : RmsStorageInfo} {o : Option SystemInfo}
    (linked : Linked conn.db (.insertingStorages c front dev back o))
    (h : Answered (insertStorage c.computerId dev) true conn res db)
    (unstopped : stopsAfter conn = none) (fits : InInt (newRowid conn.db.storages.ids)) :
    Advances conn.db (some c.computerId) db
      ((Call.insertingStorages c front dev back o).resume junk res) := by
  obtain ⟨⟨new, quoteless⟩, waiting⟩ := List.forall_mem_cons.mp linked.pending
  have distinct := List.nodup_cons.mp linked.distinct
  obtain ⟨known, free⟩ := linked.filling c.computerId rfl
  have reports := linked.later
  simp only [Call.resume]
  rcases answered_insertStorage h unstopped with
    ⟨failed, rfl⟩ | ⟨success, lastId, computers, r, rows, id, owner, path⟩
  · have recorded := linked.recorded.replace (inserted dev res)
      (by rw [inserted, failed]; exact fun valid => absurd new valid)
      (by rw [inserted, failed]; exact fun _ => quoteless)
    obtain ⟨linked', filled⟩ := linked_inserts c _ back recorded waiting distinct.2 reports known
      fun d hd => free d (List.mem_cons_of_mem dev hd)
    exact ⟨⟨[], ⟨fun _ hn => hn, by simp⟩, by simp⟩, intact, linked', fun n hn =>
      Or.inl (filled n hn ▸ rfl)⟩
  · have added : place r = (newRowid conn.db.storages.ids, c.computerId, dev.devPath) := by
      rw [place, id, owner, path]
    have grows : Grows conn.db db [place r] := by
      refine ⟨fun n hn => computers ▸ hn, ?_⟩
      rw [places, rows, List.map_append]
      rfl
    have told : inserted dev res = { dev with
        storageInfoId := newRowid conn.db.storages.ids, dirty := false } := by
      rw [inserted, success, lastId, Option.getD_some, toInt32_of_inInt fits]
      rfl
    have recorded := (linked.recorded.mono grows).replace (inserted dev res)
      (by rw [told, Held, grows.places, added]; simp)
      (by simp [told])
    obtain ⟨linked', filled⟩ := linked_inserts c _ back recorded waiting distinct.2 reports
      (grows.ids _ known) (by
        intro d hd
        rw [grows.places, added, List.map_append, List.mem_append, not_or]
        refine ⟨free d (List.mem_cons_of_mem dev hd), ?_⟩
        intro same
        simp only [List.map_cons, List.map_nil, List.mem_singleton, Prod.mk.injEq, true_and] at same
        exact distinct.1 (same ▸ List.mem_map_of_mem hd))
    have intact' : Intact db := by
      refine intact.add grows ?_ ?_
      · rw [added]
        exact known
      · rw [added]
        exact free dev List.mem_cons_self
    exact ⟨⟨[place r], grows, by simp [added]⟩, intact', linked', fun n hn =>
      Or.inl (filled n hn ▸ rfl)⟩

/-- Whatever the query of a call comes to, if an insert is not stopped. -/
theorem advances_answer {misread : List Char → Db → Option Outcome}
    (documented : Documented misread) (intact : Intact conn.db) {call : Call}
    (linked : Linked conn.db call) {ask : Query × Bool} (asks : call.asks = some ask)
    (sound : ask.2 = true → stopsAfter conn = none ∧ InInt (newRowid conn.db.computers.ids) ∧
      InInt (newRowid conn.db.storages.ids)) :
    Advances conn.db (fills call) (answer misread ask conn).2.db
      (call.resume junk (answer misread ask conn).1) := by
  have answered := answer_quoteless documented (linked.asks ask asks) ask.2 conn
  cases call with
  | idle c => cases asks
  | fetchingComputer computerId valid report =>
    obtain rfl := Option.some.inj asks
    exact advances_fetchingComputer junk intact linked answered
  | fetchingStorage computerId sysInfo report =>
    obtain rfl := Option.some.inj asks
    exact advances_fetchingStorage junk intact linked answered
  | insertingComputer c later =>
    obtain rfl := Option.some.inj asks
    obtain ⟨unstopped, fits, -⟩ := sound rfl
    exact advances_insertingComputer junk intact linked answered unstopped fits
  | insertingStorages c front dev back later =>
    obtain rfl := Option.some.inj asks
    obtain ⟨unstopped, -, fits⟩ := sound rfl
    exact advances_insertingStorages junk intact linked answered unstopped fits
  | updatingComputer c valid dirty =>
    obtain rfl := Option.some.inj asks
    exact advances_updatingComputer junk intact linked answered
  | updatingStorages c front dev back dirty =>
    obtain rfl := Option.some.inj asks
    exact advances_updatingStorages junk intact linked answered

end Answers

section Links

variable {K : Type}

/-- At most one row for a computer's device, a row for each row's computer, and
the row of its computer and device for each live record with an id. -/
structure WellLinked (s : State K) : Prop where
  oneRow : (s.conn.db.storages.rows.map fun r => (r.computerId, r.devPath)).Nodup
  owner : ∀ r ∈ s.conn.db.storages.rows, r.computerId ∈ s.conn.db.computers.ids
  live : ∀ k call, s.calls k = some call → ∀ dev ∈ call.computer.storageInfo,
    dev.storageInfoId ≠ -1 → ∃ r ∈ s.conn.db.storages.rows, r.storageInfoId = dev.storageInfoId ∧
      r.computerId = call.computer.computerId ∧ r.devPath = dev.devPath

/-- A row that an event changes is that of the computer, or of the device,
whose update is answered. -/
structure OwnRows (s : State K) (e : Event K) (t : State K) : Prop where
  storages : ∀ r ∈ s.conn.db.storages.rows, r ∈ t.conn.db.storages.rows ∨
    ∃ k c front dev back dirty, e = .query k ∧
      s.calls k = some (.updatingStorages c front dev back dirty) ∧
      r.computerId = c.computerId ∧ r.devPath = dev.devPath
  computers : ∀ r ∈ s.conn.db.computers.rows, r ∈ t.conn.db.computers.rows ∨
    ∃ k c valid dirty, e = .query k ∧ s.calls k = some (.updatingComputer c valid dirty) ∧
      r.computerId = c.computerId

/-- The tables are intact, the calls are linked to them, and no two clients
fill one computer. -/
structure Consistent (s : State K) : Prop where
  intact : Intact s.conn.db
  linked : ∀ k call, s.calls k = some call → Linked s.conn.db call
  apart : ∀ k k' n, (s.calls k).bind fills = some n → (s.calls k').bind fills = some n → k = k'

theorem Consistent.wellLinked {s : State K} (h : Consistent s) : WellLinked s where
  oneRow := by
    have oneRow := h.intact.oneRow
    rwa [places, List.map_map] at oneRow
  owner := fun r hr => h.intact.owner (place r) (List.mem_map_of_mem hr)
  live := by
    intro k call own dev hdev valid
    obtain ⟨r, hr, same⟩ := List.mem_map.mp ((h.linked k call own).recorded.held dev hdev valid)
    simp only [place, Prod.mk.injEq] at same
    exact ⟨r, hr, same⟩

theorem Consistent.fills_known {s : State K} (h : Consistent s) {k : K} {n : Int}
    (hn : (s.calls k).bind fills = some n) : n ∈ s.conn.db.computers.ids := by
  obtain ⟨call, own, filled⟩ := Option.bind_eq_some_iff.mp hn
  exact ((h.linked k call own).filling n filled).1

/-- Nobody has called yet, and the tables are empty. -/
def noCalls (K : Type) (lastRowid : Int) (faults : List (Option Fault)) : State K :=
  ⟨fun _ => none, ⟨emptyDb, lastRowid, faults⟩⟩

theorem consistent_noCalls (lastRowid : Int) (faults : List (Option Fault)) :
    Consistent (noCalls K lastRowid faults) := by
  refine ⟨⟨List.nodup_nil, ?_⟩, ?_, ?_⟩
  · intro p hp
    cases hp
  · intro k call own
    cases own
  · intro k k' n hn
    cases hn

variable [DecidableEq K]

theorem Consistent.advance {s : State K} (h : Consistent s) (k : K) {conn : Connection}
    {call : Call} (advances : Advances s.conn.db ((s.calls k).bind fills) conn.db call) :
    Consistent ⟨Function.update s.calls k (some call), conn⟩ := by
  obtain ⟨added, grows, own⟩ := advances.grows
  have others (j) (hj : j ≠ k) (n) (hn : (s.calls j).bind fills = some n) :
      fills call ≠ some n := by
    intro filled
    rcases advances.filling n filled with same | new
    · exact hj (h.apart j k n hn same)
    · exact new (h.fills_known hn)
  refine ⟨advances.intact, ?_, ?_⟩
  · intro j call' hcall
    by_cases hj : j = k
    · subst hj
      obtain rfl : call = call' := by simpa using hcall
      exact advances.linked
    · simp only [Function.update_of_ne hj] at hcall
      refine (h.linked j call' hcall).mono grows fun p hp filled => ?_
      exact hj (h.apart j k p.2.1 (by rw [hcall]; exact filled) (own p hp))
  · intro i j n hi hj
    by_cases hik : i = k <;> by_cases hjk : j = k
    · rw [hik, hjk]
    · simp only [hik, Function.update_self, Function.update_of_ne hjk] at hi hj
      exact absurd hi (others j hjk n hj)
    · simp only [hjk, Function.update_self, Function.update_of_ne hik] at hi hj
      exact absurd hj (others i hik n hi)
    · simp only [Function.update_of_ne hik, Function.update_of_ne hjk] at hi hj
      exact h.apart i j n hi hj

end Links

section Runs

variable {K : Type} [DecidableEq K] (misread : List Char → Db → Option Outcome)
  (junk : VersionData)

/-- What is reported holds no quote; an insert is not stopped on its way, and
the ids of new rows fit an int. -/
def Sound (s : State K) : Event K → Prop
  | .handshake _ _ report | .sendSysInfo _ report => QuotelessReport report
  | .query k => ∀ ask ∈ (s.calls k).bind Call.asks, ask.2 = true → stopsAfter s.conn = none ∧
      InInt (newRowid s.conn.db.computers.ids) ∧ InInt (newRowid s.conn.db.storages.ids)

instance (s : State K) : ∀ e, Decidable (Sound s e)
  | .handshake _ _ report | .sendSysInfo _ report => inferInstanceAs (Decidable (QuotelessReport report))
  | .query _ => inferInstanceAs (Decidable (∀ ask ∈ _, _))

theorem step_consistent (documented : Documented misread) {s t : State K} {e : Event K}
    (h : Consistent s) (sound : Sound s e) (ht : step misread junk s e = some t) :
    Consistent t := by
  cases e with
  | handshake k id report =>
    simp only [step] at ht
    split at ht
    · cases ht
    · obtain rfl := Option.some.inj ht
      exact h.advance k (advances_of_kept h.intact rfl rfl
        (linked_beginHandshake s.conn.db id sound) _)
  | sendSysInfo k report =>
    simp only [step] at ht
    split at ht
    · rename_i c own
      obtain rfl := Option.some.inj ht
      have recorded := (h.linked k _ own).recorded
      exact h.advance k (advances_of_kept h.intact rfl rfl (linked_setSysInfo recorded sound) _)
    · cases ht
  | query k =>
    simp only [step] at ht
    split at ht
    · cases ht
    · rename_i call own
      obtain ⟨ask, asks, rfl⟩ := Option.map_eq_some_iff.mp ht
      refine h.advance k ?_
      simp only [Sound, own, Option.bind_some] at sound ⊢
      exact advances_answer junk documented h.intact (h.linked k call own) asks (sound ask asks)

theorem step_ownRows (documented : Documented misread) {s t : State K} {e : Event K}
    (h : Consistent s) (ht : step misread junk s e = some t) : OwnRows s e t := by
  cases e with
  | handshake k id report =>
    simp only [step] at ht
    split at ht
    · cases ht
    · obtain rfl := Option.some.inj ht
      exact ⟨fun _ hr => Or.inl hr, fun _ hr => Or.inl hr⟩
  | sendSysInfo k report =>
    simp only [step] at ht
    split at ht
    · obtain rfl := Option.some.inj ht
      exact ⟨fun _ hr => Or.inl hr, fun _ hr => Or.inl hr⟩
    · cases ht
  | query k =>
    simp only [step] at ht
    split at ht
    · cases ht
    · rename_i call own
      obtain ⟨ask, asks, rfl⟩ := Option.map_eq_some_iff.mp ht
      have linked := h.linked k call own
      have answered := answer_quoteless documented (linked.asks ask asks) ask.2 s.conn
      constructor
      · intro r hr
        refine (storageRow_answered answered hr).imp_right ?_
        rintro ⟨free, total, connected, mountPoint, fsType, update⟩
        obtain ⟨c, front, dev, back, dirty, rfl, place⟩ := linked.own_row hr asks update
        exact ⟨k, c, front, dev, back, dirty, rfl, own, place⟩
      · intro r hr
        refine (computerRow_answered answered hr).imp_right ?_
        rintro ⟨a, update⟩
        obtain ⟨c, valid, dirty, rfl, same⟩ := updatingComputer_of_asks asks update
        exact ⟨k, c, valid, dirty, rfl, own, same⟩

/-- In every state of a run whose inserts are not stopped on their way the rows
are well linked, and whatever comes next changes only the rows of its own. -/
theorem sound_run_wellLinked (documented : Documented misread) (lastRowid : Int)
    (faults : List (Option Fault)) {es : List (Event K)} {s : State K}
    (sound : Guarded (step misread junk) Sound (noCalls K lastRowid faults) es)
    (arrives : run (step misread junk) (noCalls K lastRowid faults) es = some s) :
    WellLinked s ∧ ∀ e t, step misread junk s e = some t → OwnRows s e t := by
  have consistent : Consistent s := run_invariant
    (fun _ _ _ h sound ht => step_consistent misread junk documented h sound ht)
    (consistent_noCalls lastRowid faults) sound arrives
  exact ⟨consistent.wellLinked, fun _ _ ht => step_ownRows misread junk documented consistent ht⟩

end Runs

/-- Two new computers make their handshakes at the same time, each with a drive of
the same name. -/
def addTwoDrives : List (Event Bool) :=
  [.handshake false (-1) oneDrive, .handshake true (-1) oneDrive, .query true, .query false,
    .query false, .query true]

/-- Each drive gets the row of its own computer, and no other row is touched. -/
theorem addTwoDrives_wellLinked :
    let s := (run (step (fun _ _ => none) {}) (noCalls Bool 0 []) addTwoDrives).get
      (by decide +kernel)
    WellLinked s ∧ ∀ e t, step (fun _ _ => none) {} s e = some t → OwnRows s e t :=
  sound_run_wellLinked (fun _ _ => none) {} documented_none 0 [] (by decide +kernel)
    (Option.some_get _).symm

/-- A new computer with one drive makes its handshake. -/
def addOneDrive : List (Event Unit) := [.handshake () (-1) oneDrive, .query (), .query ()]

/-- The disk is full when the computer is inserted. -/
def fullDisk : State Unit := noCalls Unit 0 [some (.step 0 .full (by decide))]

/-- The drive is stored under an id that no computer has. -/
theorem fullDisk_not_wellLinked :
    let s := (run (step (fun _ _ => none) {}) fullDisk addOneDrive).get (by decide +kernel)
    ¬ WellLinked s := by
  intro s linked
  have stored : s.conn.db.storages.rows.map StorageRow.computerId = [0] ∧
      s.conn.db.computers.rows.map ComputerRow.computerId = [] := by decide +kernel
  clear_value s
  obtain ⟨rows, computers⟩ := stored
  obtain ⟨r, hr, -⟩ := List.mem_map.mp (rows ▸ List.mem_singleton_self (0 : Int))
  have owner := linked.owner r hr
  rw [Table.ids, computers] at owner
  cases owner

end StorageLinks
