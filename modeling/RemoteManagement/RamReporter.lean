import RemoteManagement.SysReporter

/-!
# RamReporter on Linux, and loops over files of the kernel

Lines are skipped up to a newline. EOF is not a newline, and at the end of the
file it comes again and again, so a file with too few lines is never left.
-/

namespace RamReporter

open ThriftTypes Stdio

def totalFormat : List Directive := format "MemTotal: %ld kB\n"

def freeFormat : List Directive := format "MemFree: %*ld kB\n"

def availableFormat : List Directive := format "MemAvailable: %ld kB\n"

def swapTotalFormat : List Directive := format "SwapTotal: %ld kB\n"

def swapFreeFormat : List Directive := format "SwapFree: %ld kB\n"

/-- The variable `d` holds anything at first; none is a file that is not open. -/
def report (fuel : Nat) (d : Int) : Option (List Char) → Option RamData
  | none => some {}
  | some meminfo => do
    let total := scan totalFormat meminfo
    let d := storeLong d total.values[0]?
    let mainTotal := d
    let available := scan availableFormat (scan freeFormat total.rest).rest
    let d := storeLong d available.values[0]?
    let mainFree := d
    let s ← skipLines fuel 11 available.rest
    let swapTotal := scan swapTotalFormat s
    let d := storeLong d swapTotal.values[0]?
    let swapFree := scan swapFreeFormat swapTotal.rest
    return {
      mainTotal := mainTotal
      mainFree := mainFree
      swapTotal := d
      swapFree := storeLong d swapFree.values[0]? }

/-- What is left of the file where the lines are skipped. -/
def afterAvailable (meminfo : List Char) : List Char :=
  (scan availableFormat (scan freeFormat (scan totalFormat meminfo).rest).rest).rest

/-- Enough lines are left for each loop. -/
def MeminfoLines (meminfo : List Char) : Prop := 11 ≤ (afterAvailable meminfo).count '\n'

instance (meminfo : List Char) : Decidable (MeminfoLines meminfo) :=
  inferInstanceAs (Decidable (11 ≤ _))

theorem report_isSome_iff (d : Int) (meminfo : List Char) :
    (∃ fuel, (report fuel d (some meminfo)).isSome) ↔ MeminfoLines meminfo := by
  rw [MeminfoLines, ← skipLines_isSome_iff]
  refine exists_congr fun fuel => ?_
  have stream : (scan availableFormat (scan freeFormat (scan totalFormat meminfo).rest).rest).rest =
      afterAvailable meminfo := rfl
  simp only [report, stream]
  cases skipLines fuel 11 (afterAvailable meminfo) <;> simp

section Cpuinfo

open SysReporter

def afterVendor (cpuinfo : List Char) : List Char := (scan vendorFormat (dropLines 1 cpuinfo)).rest

def afterModel (cpuinfo : List Char) : List Char :=
  (scan modelFormat (dropLines 3 (afterVendor cpuinfo))).rest

def afterCache (cpuinfo : List Char) : List Char :=
  (scan cacheFormat (dropLines 4 (afterModel cpuinfo))).rest

/-- Each loop has enough lines where it starts; the name is a line of its own. -/
structure CpuinfoLines (cpuinfo : List Char) : Prop where
  processor : 1 ≤ cpuinfo.count '\n'
  vendor : 3 ≤ (afterVendor cpuinfo).count '\n'
  name : 4 ≤ (afterModel cpuinfo).count '\n'
  cache : 4 ≤ (afterCache cpuinfo).count '\n'

theorem length_dropLines_le (n : Nat) (s : List Char) : (dropLines n s).length ≤ s.length := by
  induction n generalizing s with
  | zero => exact le_rfl
  | succ n ih => exact (ih _).trans (length_dropLine_le s)

theorem readLine_eq_some {fuel : Nat} {s name t : List Char}
    (h : readLine fuel [] s = some (name, t)) : '\n' ∈ s ∧ t = dropLine s := by
  rw [readLine_eq, Option.ite_none_right_eq_some] at h
  exact ⟨List.mem_of_mem_take h.1, (congrArg Prod.snd (Option.some.inj h.2)).symm⟩

theorem readCpuinfo_isSome_iff (cpuinfo : List Char) :
    (∃ fuel, (readCpuinfo fuel cpuinfo).isSome) ↔ CpuinfoLines cpuinfo := by
  constructor
  · rintro ⟨fuel, ends⟩
    obtain ⟨r, read⟩ := Option.isSome_iff_exists.mp ends
    simp only [readCpuinfo, Option.bind_eq_bind, Option.bind_eq_some_iff, Prod.exists] at read
    obtain ⟨s1, first, s2, vendor, name, s3, line, s4, more, s5, cache, -⟩ := read
    obtain ⟨h1, rfl⟩ := skipLines_eq_some first
    obtain ⟨h2, rfl⟩ := skipLines_eq_some vendor
    obtain ⟨newline, rfl⟩ := readLine_eq_some line
    obtain ⟨h3, rfl⟩ := skipLines_eq_some more
    obtain ⟨h4, -⟩ := skipLines_eq_some cache
    have one : (afterModel cpuinfo).count '\n' = (dropLine (afterModel cpuinfo)).count '\n' + 1 :=
      count_dropLine newline
    have three : 3 ≤ (dropLine (afterModel cpuinfo)).count '\n' := h3
    exact ⟨h1, h2, by omega, h4⟩
  · rintro ⟨h1, h2, h3, h4⟩
    -- what is left gets shorter from stage to stage
    have vendor : (afterVendor cpuinfo).length ≤ cpuinfo.length :=
      (rest_suffix _ _).length_le.trans (length_dropLines_le 1 cpuinfo)
    have model : (afterModel cpuinfo).length ≤ cpuinfo.length :=
      (rest_suffix _ _).length_le.trans ((length_dropLines_le 3 _).trans vendor)
    have cache : (afterCache cpuinfo).length ≤ cpuinfo.length :=
      (rest_suffix _ _).length_le.trans ((length_dropLines_le 4 _).trans model)
    have newline : '\n' ∈ afterModel cpuinfo := List.count_pos_iff.mp (by omega)
    have one := count_dropLine newline
    have shorter := length_dropLine_le (afterModel cpuinfo)
    have skip1 : skipLines cpuinfo.length 1 cpuinfo = some (dropLines 1 cpuinfo) :=
      skipLines_of_le le_rfl h1
    have skip2 : skipLines cpuinfo.length 3 (scan vendorFormat (dropLines 1 cpuinfo)).rest =
        some (dropLines 3 (afterVendor cpuinfo)) := skipLines_of_le vendor h2
    have line : readLine cpuinfo.length []
        (scan modelFormat (dropLines 3 (afterVendor cpuinfo))).rest =
          some (Stdio.line (afterModel cpuinfo), dropLine (afterModel cpuinfo)) := by
      change readLine cpuinfo.length [] (afterModel cpuinfo) = _
      rw [readLine_eq, List.take_of_length_le model, if_pos newline]
      rfl
    have skip3 : skipLines cpuinfo.length 3 (dropLine (afterModel cpuinfo)) =
        some (dropLines 4 (afterModel cpuinfo)) :=
      skipLines_of_le (by omega) (by omega)
    have skip4 : skipLines cpuinfo.length 4
        (scan cacheFormat (dropLines 4 (afterModel cpuinfo))).rest =
          some (dropLines 4 (afterCache cpuinfo)) := skipLines_of_le cache h4
    refine ⟨cpuinfo.length, ?_⟩
    simp only [readCpuinfo, Option.bind_eq_bind, skip1, Option.bind_some, skip2, line, skip3, skip4]
    rfl

end Cpuinfo

/-- All loops over the two files end exactly if each has enough lines left. -/
theorem loops_end_iff (d : Int) (meminfo cpuinfo : List Char) :
    ((∃ fuel, (report fuel d (some meminfo)).isSome) ∧
        ∃ fuel, (SysReporter.readCpuinfo fuel cpuinfo).isSome) ↔
      MeminfoLines meminfo ∧ CpuinfoLines cpuinfo :=
  and_congr (report_isSome_iff d meminfo) (readCpuinfo_isSome_iff cpuinfo)

/-- The file of an ARM processor with a single core has nine lines. -/
theorem singleArm_not_ends :
    ¬ ∃ fuel, (SysReporter.readCpuinfo fuel (SysReporter.fileOf ["processor\t: 0",
      "BogoMIPS\t: 108.00", "Features\t: fp asimd evtstrm crc32", "CPU implementer\t: 0x41",
      "CPU architecture: 8", "CPU variant\t: 0x0", "CPU part\t: 0xd08", "CPU revision\t: 3",
      ""])).isSome := by
  intro ends
  have lines := ((readCpuinfo_isSome_iff _).mp ends).cache
  exact absurd lines (by decide +kernel)

end RamReporter
