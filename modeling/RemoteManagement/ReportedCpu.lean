import RemoteManagement.ReportedStorage
import RemoteManagement.ReportedNetwork

/-!
# The numbers that are reported

The conversions store a single byte. The fields are longer and zero before, so
they hold the number modulo 256.
-/

namespace ReportedCpu

open ThriftTypes DecimalText Stdio SysReporter

/-- The first processor's lines up to its number of cores. -/
structure CpuinfoText where
  processor : List Char
  vendor : List Char
  family : List Char
  model : List Char
  name : List Char
  stepping : List Char
  microcode : List Char
  mhz : List Char
  cacheSize : Nat
  physicalId : List Char
  siblings : List Char
  coreId : List Char
  cores : Nat
  rest : List Char
  lines : ∀ l ∈ [processor, family, model, name, stepping, microcode, mhz, physicalId, siblings,
    coreId], '\n' ∉ l
  vendorWord : IsWord vendor
  vendorShort : vendor.length < 128
  nameStarts : ∃ c cs, name = c :: cs ∧ isSpace c = false
  ends : EndsNumber rest

/-- The line of a key, with a tab and a colon before its value. -/
def keyed (key : String) (value rest : List Char) : List Char :=
  key.toList ++ '\t' :: ':' :: ' ' :: (value ++ rest)

namespace CpuinfoText

variable (t : CpuinfoText)

def fromCores : List Char := keyed "cpu cores" t.cores.repr.toList t.rest

def fromCache : List Char :=
  keyed "cache size" t.cacheSize.repr.toList (' ' :: 'K' :: 'B' ::
    withLines [[], t.physicalId, t.siblings, t.coreId] t.fromCores)

def fromName : List Char :=
  keyed "model name" t.name ('\n' :: withLines [t.stepping, t.microcode, t.mhz] t.fromCache)

def fromVendor : List Char :=
  keyed "vendor_id" t.vendor (withLines [[], t.family, t.model] t.fromName)

def text : List Char := withLines [t.processor] t.fromVendor

end CpuinfoText

section Reading

variable (t : CpuinfoText)

theorem vendorFormat_eq : vendorFormat =
    "vendor_id".toList.map .literal ++ [.space, .literal ':', .space, .word true] := by
  decide

theorem modelFormat_eq : modelFormat =
    "model".toList.map .literal ++ .space :: ("name".toList.map .literal ++
      [.space, .literal ':', .space]) := by
  decide

theorem cacheFormat_eq : cacheFormat =
    "cache".toList.map .literal ++ .space :: ("size".toList.map .literal ++
      [.space, .literal ':', .space, .number true, .space, .literal 'K', .literal 'B']) := by
  decide

theorem coresFormat_eq : coresFormat =
    "cpu".toList.map .literal ++ .space :: ("cores".toList.map .literal ++
      [.space, .literal ':', .space, .number true]) := by
  decide

theorem colon (cs : List Char) : skipSpace (':' :: cs) = ':' :: cs :=
  skipSpace_of_head (by decide) cs

theorem scan_vendor : scan vendorFormat t.fromVendor =
    ⟨[.text t.vendor], withLines [[], t.family, t.model] t.fromName, .complete⟩ := by
  have ends : EndsWord (withLines [[], t.family, t.model] t.fromName) :=
    endsWord_cons (by decide) _
  simp only [vendorFormat_eq, CpuinfoText.fromVendor, keyed, scan_literals, scan_space,
    skipSpace_tab, colon, scan_literal, skipSpace_blank, t.vendorWord.skipSpace,
    scan_word t.vendorWord ends, scan_nil]
  rfl

theorem scan_model : (scan modelFormat t.fromName).rest =
    t.name ++ '\n' :: withLines [t.stepping, t.microcode, t.mhz] t.fromCache := by
  obtain ⟨c, cs, name, solid⟩ := t.nameStarts
  have key : "model name".toList = "model".toList ++ ' ' :: "name".toList := by decide
  have start (cs : List Char) : skipSpace ("name".toList ++ cs) = "name".toList ++ cs :=
    skipSpace_of_head (by decide) _
  simp only [modelFormat_eq, CpuinfoText.fromName, keyed, key, List.append_assoc, List.cons_append,
    scan_literals, scan_space, skipSpace_blank, start, skipSpace_tab, colon, scan_literal, scan_nil,
    name, skipSpace_of_head solid]

theorem scan_cache : scan cacheFormat t.fromCache =
    ⟨[.long (clampLong t.cacheSize)], withLines [[], t.physicalId, t.siblings, t.coreId] t.fromCores,
      .complete⟩ := by
  have key : "cache size".toList = "cache".toList ++ ' ' :: "size".toList := by decide
  have start (cs : List Char) : skipSpace ("size".toList ++ cs) = "size".toList ++ cs :=
    skipSpace_of_head (by decide) _
  have unit (cs : List Char) : skipSpace ('K' :: cs) = 'K' :: cs :=
    skipSpace_of_head (by decide) cs
  have ends (cs : List Char) : EndsNumber (' ' :: cs) := endsNumber_cons (by decide) cs
  simp only [cacheFormat_eq, CpuinfoText.fromCache, keyed, key, List.append_assoc, List.cons_append,
    scan_literals, scan_space, skipSpace_blank, start, skipSpace_tab, colon, scan_literal,
    (isWord_repr _).skipSpace, scan_natNumber (ends _), unit, scan_nil]
  rfl

theorem scan_cores : (scan coresFormat t.fromCores).values = [.long (clampLong t.cores)] := by
  have key : "cpu cores".toList = "cpu".toList ++ ' ' :: "cores".toList := by decide
  have start (cs : List Char) : skipSpace ("cores".toList ++ cs) = "cores".toList ++ cs :=
    skipSpace_of_head (by decide) _
  simp only [coresFormat_eq, CpuinfoText.fromCores, keyed, key, List.append_assoc, List.cons_append,
    scan_literals, scan_space, skipSpace_blank, start, skipSpace_tab, colon, scan_literal,
    (isWord_repr _).skipSpace, scan_natNumber t.ends, scan_nil]
  rfl

/-- The file is read to its number of cores. -/
theorem readCpuinfo_text {fuel : Nat} (turns : t.text.length ≤ fuel) :
    readCpuinfo fuel t.text = some
      ⟨[.text t.vendor], t.name, [.long (clampLong t.cacheSize)], [.long (clampLong t.cores)]⟩ := by
  have one := t.lines
  simp only [List.forall_mem_cons, List.not_mem_nil, false_imp_iff, implies_true] at one
  obtain ⟨processor, family, model, name, stepping, microcode, mhz, physicalId, siblings, coreId,
    -⟩ := one
  -- what is left gets shorter from stage to stage
  have fromVendor : t.fromVendor.length ≤ fuel := (length_withLines_le _ _).trans turns
  have afterVendor := (rest_suffix vendorFormat t.fromVendor).length_le.trans fromVendor
  rw [scan_vendor] at afterVendor
  have fromName : t.fromName.length ≤ fuel := (length_withLines_le _ _).trans afterVendor
  have afterModel := (rest_suffix modelFormat t.fromName).length_le.trans fromName
  rw [scan_model] at afterModel
  have afterName : (withLines [t.stepping, t.microcode, t.mhz] t.fromCache).length ≤ fuel := by
    rw [List.length_append, List.length_cons] at afterModel
    omega
  have fromCache : t.fromCache.length ≤ fuel := (length_withLines_le _ _).trans afterName
  have afterCache := (rest_suffix cacheFormat t.fromCache).length_le.trans fromCache
  rw [scan_cache] at afterCache
  have skip1 : skipLines fuel 1 t.text = some t.fromVendor :=
    skipLines_withLines (by simp [processor]) turns
  have skip2 := skipLines_withLines (by simp [family, model]) afterVendor
  have read : readLine fuel [] (t.name ++ '\n' :: withLines [t.stepping, t.microcode, t.mhz]
      t.fromCache) = some (t.name, withLines [t.stepping, t.microcode, t.mhz] t.fromCache) := by
    rw [readLine_eq, List.take_of_length_le afterModel, if_pos (by simp), line_append name,
      dropLine_append name]
    rfl
  have skip3 := skipLines_withLines (by simp [stepping, microcode, mhz]) afterName
  have skip4 := skipLines_withLines (by simp [physicalId, siblings, coreId]) afterCache
  simp only [List.length_cons, List.length_nil, Nat.zero_add, Nat.reduceAdd] at skip2 skip3 skip4
  simp only [readCpuinfo, skip1, scan_vendor, skip2, scan_model, read, skip3, scan_cache, skip4,
    scan_cores, Option.bind_eq_bind, Option.bind_some, pure]

end Reading

section Versions

def releaseText (a b c : Nat) (rest : List Char) : List Char :=
  a.repr.toList ++ '.' :: (b.repr.toList ++ '.' :: (c.repr.toList ++ rest))

theorem versionFormat_eq : versionFormat =
    [.number true, .literal '.', .number true, .literal '.', .number true] := by
  decide

theorem nul_notMem_repr (n : Nat) : SqlLiteral.nul ∉ n.repr.toList :=
  fun mem => absurd (isDigit_of_mem_repr mem) (by decide)

theorem cString_releaseText (a b c : Nat) (rest : List Char) :
    SqlLiteral.cString (releaseText a b c rest) =
      releaseText a b c (SqlLiteral.cString rest) := by
  have dot (cs : List Char) : SqlLiteral.cString ('.' :: cs) = '.' :: SqlLiteral.cString cs :=
    SqlLiteral.cString_append (s := ['.']) (by decide) cs
  simp only [releaseText, SqlLiteral.cString_append (nul_notMem_repr _), dot]

theorem endsNumber_cString {rest : List Char} (h : EndsNumber rest) :
    EndsNumber (SqlLiteral.cString rest) := by
  cases rest with
  | nil => exact endsNumber_nil
  | cons c rest =>
    by_cases hc : c = SqlLiteral.nul
    · simpa [SqlLiteral.cString, hc] using endsNumber_nil
    · simpa [SqlLiteral.cString, hc, EndsNumber] using h

theorem osVersion_release {release : String} {a b c : Nat} {rest : List Char}
    (starts : release.toList = releaseText a b c rest) (ends : EndsNumber rest) :
    osVersion release =
      { major := clampLong a % 256, minor := clampLong b % 256, release := clampLong c % 256 } := by
  have dot (cs : List Char) : EndsNumber ('.' :: cs) := endsNumber_cons (by decide) cs
  have read : (scan versionFormat (SqlLiteral.cString release.toList)).values =
      [.long (clampLong a), .long (clampLong b), .long (clampLong c)] := by
    rw [starts, cString_releaseText, releaseText, versionFormat_eq]
    simp only [scan_natNumber (dot _), scan_literal, scan_natNumber (endsNumber_cString ends),
      scan_nil]
    rfl
  simp [osVersion, read, storeByte]

end Versions

/-- A machine whose files have the format of the kernel, and whose interfaces
have addresses. -/
structure Host where
  uptime : Int
  mounts : List ReportedStorage.MountLine
  statfs : String → Statfs
  interface : String × Sockaddr
  interfaces : List (String × Sockaddr)
  cpuinfo : CpuinfoText
  utsname : Utsname

def Host.machine (h : Host) : Machine where
  uptime := h.uptime
  mounts := ReportedStorage.mounts h.mounts
  statfs := h.statfs
  ifaddrs := ReportedNetwork.entry h.interface
  ifaddrsNext := h.interfaces.map ReportedNetwork.entry
  cpuinfo := h.cpuinfo.text
  utsname := h.utsname

def Host.cpuInfo (h : Host) : CpuInfo where
  cpuCores := clampLong h.cpuinfo.cores % 256
  cacheSize := toInt16 (clampLong h.cpuinfo.cacheSize)
  arch := architecture h.utsname.machine
  cpuName := String.ofList h.cpuinfo.name
  cpuVendorName := String.ofList (SqlLiteral.cString h.cpuinfo.vendor)

/-- What is reported of a host. -/
def Host.sysInfo (h : Host) : SystemInfo where
  uptime := h.uptime
  systemName := h.utsname.sysname
  hostName := h.utsname.nodename
  osVersion := osVersion h.utsname.release
  clientVersion := clientVersion
  cpuInfo := h.cpuInfo
  storageInfo := (ReportedStorage.ofDevices h.mounts).map
    (fun l => storageInfo h.statfs l.buffers)
  networkInfo := ReportedNetwork.infosWith (fun _ => inetNtoa h.interface.2.sinAddr)
    (h.interface :: h.interfaces)

theorem report_host (h : Host) (junk : Junk) {fuel : Nat} (mounts : h.mounts.length < fuel)
    (cpuinfo : h.cpuinfo.text.length ≤ fuel) : report fuel junk h.machine = some h.sysInfo := by
  obtain ⟨more, rfl⟩ := Nat.exists_eq_add_of_lt mounts
  have storage := ReportedStorage.storageLoop_eq h.statfs h.mounts junk.mounts more
  rw [Nat.add_right_comm] at storage
  have network := ReportedNetwork.networkLoop_eq h.interface.1 h.interface.2
    (h.interface :: h.interfaces)
  have cpu : (CpuinfoRead.mk [.text h.cpuinfo.vendor] h.cpuinfo.name
      [.long (clampLong h.cpuinfo.cacheSize)] [.long (clampLong h.cpuinfo.cores)]).cpuInfo
        junk.buffer h.utsname.machine = some h.cpuInfo := by
    simp [CpuinfoRead.cpuInfo, storeWord, h.cpuinfo.vendorShort, storeByte, storeShort,
      Host.cpuInfo]
  simp only [report, Host.machine, Option.bind_eq_bind, storage, Option.bind_some,
    readCpuinfo_text h.cpuinfo cpuinfo, cpu, pure]
  exact congrArg (Option.bind · _) network

/-- The numbers are stored as they are exactly if each of them fits in a byte. -/
theorem numbers_iff (h : Host) (junk : Junk) {a b c : Nat} {rest : List Char}
    (release : h.utsname.release.toList = releaseText a b c rest) (ends : EndsNumber rest)
    (ints : ∀ n ∈ [a, b, c, h.cpuinfo.cores], n < 2 ^ 31) :
    (∃ turns, ∀ fuel ≥ turns, ∃ sysInfo, report fuel junk h.machine = some sysInfo ∧
        sysInfo.osVersion.major = a ∧ sysInfo.osVersion.minor = b ∧
        sysInfo.osVersion.release = c ∧ sysInfo.cpuInfo.cpuCores = h.cpuinfo.cores) ↔
      ∀ n ∈ [a, b, c, h.cpuinfo.cores], n < 256 := by
  have stored (n : Nat) (int : n < 2 ^ 31) : clampLong n % 256 = n ↔ n < 256 := by
    rw [clampLong_of_inLong (by omega) (by omega)]
    omega
  have enough : ∃ turns, ∀ fuel ≥ turns, report fuel junk h.machine = some h.sysInfo :=
    ⟨h.mounts.length + 1 + h.cpuinfo.text.length, fun fuel turns =>
      report_host h junk (by omega) (by omega)⟩
  obtain ⟨turns, returns⟩ := enough
  have version := osVersion_release release ends
  simp only [List.forall_mem_cons, List.not_mem_nil, false_imp_iff, implies_true, and_true]
    at ints ⊢
  obtain ⟨ha, hb, hc, hk⟩ := ints
  have fields : (h.sysInfo.osVersion.major = a ∧ h.sysInfo.osVersion.minor = b ∧
      h.sysInfo.osVersion.release = c ∧ h.sysInfo.cpuInfo.cpuCores = h.cpuinfo.cores) ↔
      a < 256 ∧ b < 256 ∧ c < 256 ∧ h.cpuinfo.cores < 256 := by
    simp only [Host.sysInfo, version, Host.cpuInfo, stored a ha, stored b hb, stored c hc,
      stored _ hk]
  rw [← fields]
  constructor
  · rintro ⟨least, all⟩
    obtain ⟨sysInfo, returned, numbers⟩ := all (max least turns) (le_max_left _ _)
    obtain rfl := Option.some.inj ((returns _ (le_max_right _ _)).symm.trans returned)
    exact numbers
  · exact fun numbers => ⟨turns, fun fuel hfuel => ⟨h.sysInfo, returns fuel hfuel, numbers⟩⟩

def cpuinfoOf (cores : Nat) : CpuinfoText where
  processor := "processor\t: 0".toList
  vendor := "GenuineIntel".toList
  family := "cpu family\t: 6".toList
  model := "model\t\t: 142".toList
  name := "Intel(R) Core(TM) i5-8250U".toList
  stepping := "stepping\t: 10".toList
  microcode := "microcode\t: 0xf0".toList
  mhz := "cpu MHz\t\t: 1800.000".toList
  cacheSize := 6144
  physicalId := "physical id\t: 0".toList
  siblings := "siblings\t: 8".toList
  coreId := "core id\t\t: 0".toList
  cores := cores
  rest := ['\n']
  lines := by decide +kernel
  vendorWord := ⟨by decide, by simp [isSpace]⟩
  vendorShort := by decide
  nameStarts := ⟨'I', "ntel(R) Core(TM) i5-8250U".toList, by decide, by decide⟩
  ends := endsNumber_cons (by decide) []

def hostOf (release : String) (cores : Nat) : Host where
  uptime := 3600
  mounts := []
  statfs := laptop.statfs
  interface := ("lo", ReportedNetwork.loopback)
  interfaces := []
  cpuinfo := cpuinfoOf cores
  utsname := { laptop.utsname with release := release }

theorem numbers_generic :
    let h := hostOf "5.15.0-91-generic" 4
    ∃ turns, ∀ fuel ≥ turns, ∃ sysInfo, report fuel unset h.machine = some sysInfo ∧
      sysInfo.osVersion.major = (5 : Nat) ∧ sysInfo.osVersion.minor = (15 : Nat) ∧
      sysInfo.osVersion.release = (0 : Nat) ∧ sysInfo.cpuInfo.cpuCores = (4 : Nat) :=
  have release : (hostOf "5.15.0-91-generic" 4).utsname.release.toList =
      releaseText 5 15 0 "-91-generic".toList := by decide +kernel
  (numbers_iff (hostOf "5.15.0-91-generic" 4) unset release (endsNumber_cons (by decide) _)
    (by decide)).mpr (by decide)

/-- A long-term kernel whose release is 80 more than a byte holds. -/
theorem longTerm_not_stored :
    let h := hostOf "4.14.336" 4
    h.utsname.release.toList = releaseText 4 14 336 [] ∧
      report 300 unset h.machine = some h.sysInfo ∧ h.sysInfo.osVersion = ⟨80, 4, 14⟩ :=
  ⟨by decide +kernel, report_host _ unset (by decide) (by decide +kernel), by decide +kernel⟩

end ReportedCpu
