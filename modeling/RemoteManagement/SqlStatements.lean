import RemoteManagement.Library.SqlLiteral
import RemoteManagement.ThriftTypes

/-!
# The statement texts

Each constructor of `Query` stands for one template of the database header
together with the arguments that the code formats into it. `'{:s}'` puts a
string between quotes as it is, `{:d}` and `{:f}` put a number into the code,
and the version and date templates put three numbers between quotes. The text
goes to the database as a C string.
-/

namespace SqlStatements

open SqlLiteral ThriftTypes

/-- The day that `std::localtime` gives, as the templates print it. -/
structure Date where
  year : Int
  month : Int
  day : Int
  deriving DecidableEq, Repr

structure Triple where
  first : Int
  second : Int
  third : Int
  deriving DecidableEq, Repr

/-- The nine values of a computer row in the order of both templates. -/
structure ComputerArgs where
  systemName : String
  hostName : String
  osVersion : Triple
  clientVersion : Triple
  cpuName : String
  cpuVendor : String
  cpuCoreCount : Int
  cpuCacheSize : Int
  cpuArch : String
  deriving DecidableEq, Repr

/-- The usage templates come with and without an identifier. -/
inductive Query where
  | insertComputer (args : ComputerArgs)
  | updateComputer (args : ComputerArgs) (computerId : Int)
  | fetchComputerById (computerId : Int)
  | fetchStorageByComputerId (computerId : Int)
  | insertStorage (computerId : Int) (devPath fsType mountPoint : String) (free total : Nat)
  | updateStorage (free total : Nat) (connected : Bool) (mountPoint fsType : String)
      (storageInfoId : Int)
  | insertUsage (date : Date) (dataType : Int) (dataId : Option Int)
  | updateUsage (tick : Int) (value : Double) (date : Date) (dataType : Int)
      (dataId : Option Int)
  | doesUsageEntryExist (date : Date) (dataType : Int) (dataId : Option Int)
  | insertExecutor (computerId startTime : Int) (name : String)
  | updateExecutor (endTime returnCode returnType executorId : Int)
  deriving DecidableEq, Repr

/-- Millionths, rounded to the nearest and to even at the middle. -/
def millionths (q : ℚ) : Nat :=
  let scaled := |q| * 1000000
  let low := scaled.floor.toNat
  let rest := scaled - low
  if rest < 1 / 2 ∨ (rest = 1 / 2 ∧ low % 2 = 0) then low else low + 1

/-- What `{:f}` prints: six digits after the point, or the name of a value
that is not a number. -/
def floatText : Double → String
  | none => "nan"
  | some q =>
    let digits := toString (millionths q % 1000000)
    (if q < 0 then "-" else "") ++ toString (millionths q / 1000000) ++ "." ++
      String.ofList (List.replicate (6 - digits.length) '0') ++ digits

def sql (text : String) : Piece := .code text.toList

def fmtString (s : String) : Piece := .literal s.toList

def fmtInt (n : Int) : Piece := .code n.repr.toList

def fmtFloat (d : Double) : Piece := .code (floatText d).toList

def Triple.text (t : Triple) : List Char :=
  t.first.repr.toList ++ '.' :: t.second.repr.toList ++ '.' :: t.third.repr.toList

def Date.text (d : Date) : List Char :=
  d.year.repr.toList ++ '-' :: d.month.repr.toList ++ '-' :: d.day.repr.toList

def fmtVersion (t : Triple) : Piece := .literal t.text

def fmtDate (d : Date) : Piece := .literal d.text

def Query.pieces : Query → List Piece
  | .insertComputer a =>
    [sql "INSERT INTO computer_table(system_name, host_name, os_version,client_version, ",
      sql "cpu_name, cpu_vendor,cpu_core_count, cpu_cache_size, cpu_arch)values ( ",
      fmtString a.systemName, sql ",", fmtString a.hostName, sql ",", fmtVersion a.osVersion,
      sql ",", fmtVersion a.clientVersion, sql ",", fmtString a.cpuName, sql ",",
      fmtString a.cpuVendor, sql ",", fmtInt a.cpuCoreCount, sql ",", fmtInt a.cpuCacheSize,
      sql ",", fmtString a.cpuArch, sql ");"]
  | .updateComputer a id =>
    [sql "UPDATE computer_table SET system_name= ", fmtString a.systemName,
      sql ", host_name=", fmtString a.hostName, sql ", os_version=", fmtVersion a.osVersion,
      sql ", client_version=", fmtVersion a.clientVersion, sql ", cpu_name=",
      fmtString a.cpuName, sql ", cpu_vendor=", fmtString a.cpuVendor,
      sql ", cpu_core_count=", fmtInt a.cpuCoreCount, sql ", cpu_cache_size=",
      fmtInt a.cpuCacheSize, sql ", cpu_arch=", fmtString a.cpuArch,
      sql " WHERE computer_id = ", fmtInt id, sql ";"]
  | .fetchComputerById id =>
    [sql "SELECT * FROM computer_table WHERE computer_id = ", fmtInt id]
  | .fetchStorageByComputerId id =>
    [sql "SELECT * FROM storage_table WHERE computer_id = ", fmtInt id, sql ";"]
  | .insertStorage id devPath fsType mountPoint free total =>
    [sql "INSERT INTO storage_table (computer_id,dev_path, fs_type, mount_point, ",
      sql "free, total, connected) VALUES(",
      fmtInt id, sql ",", fmtString devPath, sql ",", fmtString fsType, sql ",",
      fmtString mountPoint, sql ",", fmtInt free, sql ",", fmtInt total, sql ",1);"]
  | .updateStorage free total connected mountPoint fsType id =>
    [sql "UPDATE storage_table SET free=", fmtInt free, sql ", total=", fmtInt total,
      sql ", connected=", fmtInt connected.toNat, sql ", mount_point=", fmtString mountPoint,
      sql ", fs_type=", fmtString fsType, sql " WHERE storage_info_id=", fmtInt id, sql ";"]
  | .insertUsage date dataType none =>
    [sql "INSERT INTO usage_table (date, data_type) VALUES (", fmtDate date, sql ", ",
      fmtInt dataType, sql ");"]
  | .insertUsage date dataType (some id) =>
    [sql "INSERT INTO usage_table (date, data_type, data_id) VALUES (", fmtDate date, sql ", ",
      fmtInt dataType, sql ",", fmtInt id, sql ");"]
  | .updateUsage tick value date dataType none =>
    [sql "UPDATE usage_table SET tick", fmtInt tick, sql "=", fmtFloat value,
      sql " WHERE date=", fmtDate date, sql "and data_type=", fmtInt dataType, sql ";"]
  | .updateUsage tick value date dataType (some id) =>
    [sql "UPDATE usage_table SET tick", fmtInt tick, sql "=", fmtFloat value,
      sql " WHERE date=", fmtDate date, sql " and data_type=", fmtInt dataType,
      sql " and data_id=", fmtInt id, sql ";"]
  | .doesUsageEntryExist date dataType none =>
    [sql "SELECT COUNT(*) FROM usage_table WHERE date=", fmtDate date, sql " and data_type=",
      fmtInt dataType, sql ";"]
  | .doesUsageEntryExist date dataType (some id) =>
    [sql "SELECT COUNT(*) FROM usage_table WHERE date=", fmtDate date, sql " and data_type=",
      fmtInt dataType, sql " and data_id=", fmtInt id, sql ";"]
  | .insertExecutor id startTime name =>
    [sql "INSERT INTO executor_table(computer_id, start_time, name)values ( ", fmtInt id,
      sql ",", fmtInt startTime, sql ",", fmtString name, sql ");"]
  | .updateExecutor endTime returnCode returnType id =>
    [sql "UPDATE executor_table SET end_time= ", fmtInt endTime, sql ", return_code=",
      fmtInt returnCode, sql ", return_type=", fmtInt returnType,
      sql " WHERE executor_id = ", fmtInt id, sql ";"]

/-- The text that reaches the database. -/
def Query.text (q : Query) : List Char := cString (render q.pieces)

/-- What the text is meant to read as. -/
def Query.tokens (q : Query) : List Token := SqlLiteral.tokens q.pieces

/-- The strings that a statement carries, in the order of its template. -/
def Query.strings : Query → List String
  | .insertComputer a => [a.systemName, a.hostName, a.cpuName, a.cpuVendor, a.cpuArch]
  | .updateComputer a _ => [a.systemName, a.hostName, a.cpuName, a.cpuVendor, a.cpuArch]
  | .insertStorage _ devPath fsType mountPoint _ _ => [devPath, fsType, mountPoint]
  | .updateStorage _ _ _ mountPoint fsType _ => [mountPoint, fsType]
  | .insertExecutor _ _ name => [name]
  | _ => []

/-- A character that neither ends a literal nor the text. -/
def Inert (c : Char) : Prop := c ≠ quote ∧ c ≠ nul

instance (c : Char) : Decidable (Inert c) := inferInstanceAs (Decidable (_ ∧ _))

theorem inert_of_mem_repr {n : Int} {c : Char} (h : c ∈ n.repr.toList) : Inert c := by
  have digit {m : Nat} (hm : c ∈ m.repr.toList) : Inert c := by
    rw [Nat.toList_repr] at hm
    have hd := Nat.isDigit_of_mem_toDigits (by omega) (by omega) hm
    constructor <;> rintro rfl <;> simp [quote, nul] at hd
  rw [Int.repr_eq_if] at h
  split at h
  · exact digit h
  · simp only [String.toList_append, List.mem_append] at h
    rcases h with h | h
    · obtain rfl : c = '-' := by simpa using h
      decide
    · exact digit h

theorem plain_of_inert {s : List Char} (h : ∀ c ∈ s, Inert c) : Plain s :=
  ⟨fun hq => (h _ hq).1 rfl, fun hn => (h _ hn).2 rfl⟩

theorem inert_joined {a b c : Int} {sep x : Char} (hs : Inert sep)
    (h : x ∈ a.repr.toList ++ sep :: b.repr.toList ++ sep :: c.repr.toList) : Inert x := by
  simp only [List.append_assoc, List.cons_append, List.mem_append, List.mem_cons] at h
  rcases h with h | rfl | h | rfl | h
  · exact inert_of_mem_repr h
  · exact hs
  · exact inert_of_mem_repr h
  · exact hs
  · exact inert_of_mem_repr h

theorem plain_int (n : Int) : Plain n.repr.toList :=
  plain_of_inert (fun _ h => inert_of_mem_repr h)

theorem plain_version (t : Triple) : Plain t.text :=
  plain_of_inert (fun _ h => inert_joined (by decide) h)

theorem plain_date (d : Date) : Plain d.text :=
  plain_of_inert (fun _ h => inert_joined (by decide) h)

theorem plain_float (d : Double) : Plain (floatText d).toList := by
  cases d with
  | none => decide
  | some q =>
    apply plain_of_inert
    intro c hc
    simp only [floatText, String.toList_append, String.toList_ofList, List.mem_append,
      List.mem_replicate] at hc
    rcases hc with (((hc | hc) | hc) | hc) | hc
    · have hm : c ∈ "-".toList := by split at hc <;> simp_all
      obtain rfl : c = '-' := by simpa using hm
      decide
    · exact inert_of_mem_repr (n := ((millionths q / 1000000 : Nat) : Int)) hc
    · obtain rfl : c = '.' := by simpa using hc
      decide
    · obtain rfl := hc.2
      decide
    · exact inert_of_mem_repr (n := ((millionths q % 1000000 : Nat) : Int)) hc

/-- Code is clean, and every literal is followed by code or by the end. -/
def Tidy (ps : List Piece) : Prop :=
  Separated ps ∧ ∀ s, Piece.code s ∈ ps → nul ∉ s

structure CleanText (text : String) : Prop where
  nonempty : text.toList ≠ []
  inert : ∀ c ∈ text.toList, Inert c

/-- The form in which the characters of a literal text can be checked. -/
theorem cleanText_ofList {l : List Char} (h : (!l.isEmpty && l.all (fun c => Inert c)) = true) :
    CleanText (String.ofList l) := by
  simp only [Bool.and_eq_true, Bool.not_eq_true', List.isEmpty_eq_false_iff, List.all_eq_true,
    decide_eq_true_eq] at h
  exact ⟨by simpa using h.1, by simpa using h.2⟩

theorem tidy_nil : Tidy [] := ⟨trivial, by simp⟩

theorem tidy_code {s : List Char} (hs : Plain s) (ps : List Piece) :
    Tidy (.code s :: ps) ↔ Tidy ps := by
  constructor
  · exact fun h => ⟨h.1.2, fun t ht => h.2 t (List.mem_cons_of_mem _ ht)⟩
  · refine fun h => ⟨⟨hs.1, h.1⟩, fun t ht => ?_⟩
    rcases List.mem_cons.mp ht with he | ht
    · exact Piece.code.inj he ▸ hs.2
    · exact h.2 t ht

theorem tidy_sql {text : String} (h : CleanText text) (ps : List Piece) :
    Tidy (sql text :: ps) ↔ Tidy ps := tidy_code (plain_of_inert h.inert) ps

theorem tidy_fmtInt (n : Int) (ps : List Piece) : Tidy (fmtInt n :: ps) ↔ Tidy ps :=
  tidy_code (plain_int n) ps

theorem tidy_fmtFloat (d : Double) (ps : List Piece) : Tidy (fmtFloat d :: ps) ↔ Tidy ps :=
  tidy_code (plain_float d) ps

/-- The first character of the code behind a literal keeps it apart. -/
theorem tidy_literal (s : List Char) {text : String} (h : CleanText text) (ps : List Piece) :
    Tidy (.literal s :: sql text :: ps) ↔ Tidy ps := by
  rw [← tidy_sql h ps]
  constructor
  · exact fun h => ⟨h.1.2, fun t ht => h.2 t (List.mem_cons_of_mem _ ht)⟩
  · refine fun hps => ⟨⟨?_, hps.1⟩, fun t ht => hps.2 t (by simpa using ht)⟩
    obtain ⟨c, cs, ht⟩ := List.exists_cons_of_ne_nil h.nonempty
    have hc : c ≠ quote := (h.inert c (by simp [ht])).1
    simp [StartsOutside, render, Piece.render, sql, ht, hc]

set_option maxRecDepth 2000 in
theorem Query.tidy (q : Query) : Tidy q.pieces := by
  cases q with
  | insertUsage date dataType dataId | doesUsageEntryExist date dataType dataId
  | updateUsage tick value date dataType dataId =>
    cases dataId <;>
      simp (disch := exact cleanText_ofList (by decide +kernel)) only [Query.pieces, fmtDate,
        tidy_literal, tidy_sql, tidy_fmtInt, tidy_fmtFloat, tidy_nil]
  | _ =>
    simp (disch := exact cleanText_ofList (by decide +kernel)) only [Query.pieces, fmtString,
      fmtVersion, tidy_literal, tidy_sql, tidy_fmtInt, tidy_nil]

@[simp] theorem literal_ne_sql (s : List Char) (text : String) : Piece.literal s ≠ sql text :=
  Piece.noConfusion

@[simp] theorem literal_ne_fmtInt (s : List Char) (n : Int) : Piece.literal s ≠ fmtInt n :=
  Piece.noConfusion

@[simp] theorem literal_ne_fmtFloat (s : List Char) (d : Double) : Piece.literal s ≠ fmtFloat d :=
  Piece.noConfusion

@[simp] theorem literal_eq_fmtString (s : List Char) (t : String) :
    Piece.literal s = fmtString t ↔ s = t.toList :=
  ⟨Piece.literal.inj, congrArg _⟩

@[simp] theorem literal_eq_fmtVersion (s : List Char) (t : Triple) :
    Piece.literal s = fmtVersion t ↔ s = t.text :=
  ⟨Piece.literal.inj, congrArg _⟩

@[simp] theorem literal_eq_fmtDate (s : List Char) (d : Date) :
    Piece.literal s = fmtDate d ↔ s = d.text :=
  ⟨Piece.literal.inj, congrArg _⟩

/-- The literals of a statement are its strings, versions and dates. -/
theorem Query.forall_literals_iff {P : List Char → Prop} (version : ∀ t : Triple, P t.text)
    (date : ∀ d : Date, P d.text) (q : Query) :
    (∀ s, Piece.literal s ∈ q.pieces → P s) ↔ ∀ s ∈ q.strings, P s.toList := by
  cases q with
  | insertUsage day dataType dataId | doesUsageEntryExist day dataType dataId
  | updateUsage tick value day dataType dataId =>
    cases dataId <;> simp [Query.pieces, Query.strings, date]
  | _ => simp [Query.pieces, Query.strings, version, or_imp, forall_and]

theorem Query.literals_plain_iff (q : Query) :
    (∀ s, Piece.literal s ∈ q.pieces → Plain s) ↔ ∀ s ∈ q.strings, Plain s.toList :=
  q.forall_literals_iff plain_version plain_date

theorem Query.read_text {q : Query} (h : ∀ s ∈ q.strings, Plain s.toList) :
    read q.text = some q.tokens :=
  (read_cString_render_iff q.tidy.1 q.tidy.2).mpr (q.literals_plain_iff.mpr h)

/-- The database reads back what the code meant exactly if no string of the
statement holds a quote or a NUL. -/
theorem Query.read_text_iff (q : Query) :
    read q.text = some q.tokens ↔ ∀ s ∈ q.strings, Plain s.toList :=
  (read_cString_render_iff q.tidy.1 q.tidy.2).trans q.literals_plain_iff

/-- An ordinary shell command holds quotes. -/
theorem runCommand_text_misread :
    read (Query.insertExecutor 1 1700000000 " echo 'hi'").text ≠
      some (Query.insertExecutor 1 1700000000 " echo 'hi'").tokens := by
  decide +kernel

end SqlStatements
