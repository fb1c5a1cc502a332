import RemoteManagement.RamUsage
import RemoteManagement.Library.Stdio
import RemoteManagement.Library.LongArithmetic

/-!
# CpuReporter on Linux

Two looks at /proc/stat, a second apart, give the counters of each line twice.
The variables for the counters are read again and again, so a line that cannot be
read leaves those of the line before it.
-/

namespace CpuReporter

open ThriftTypes DecimalText Stdio LongArithmetic

structure Counters where
  user : Int
  nice : Int
  system : Int
  idle : Int
  iowait : Int
  irq : Int
  softirq : Int
  deriving DecidableEq, Repr

def aggregateFormat : List Directive :=
  format "cpu %ld %ld %ld %ld %ld %ld %ld %*ld %*ld %*ld\n"

def coreFormat : List Directive :=
  format "cpu%*d %ld %ld %ld %ld %ld %ld %ld %*ld %*ld %*ld\n"

def Counters.store (c : Counters) (values : List Value) : Counters where
  user := storeLong c.user values[0]?
  nice := storeLong c.nice values[1]?
  system := storeLong c.system values[2]?
  idle := storeLong c.idle values[3]?
  iowait := storeLong c.iowait values[4]?
  irq := storeLong c.irq values[5]?
  softirq := storeLong c.softirq values[6]?

structure Sums where
  total : Int
  used : Int
  deriving DecidableEq, Repr

def Counters.busy (c : Counters) : List Int := [c.user, c.nice, c.system]

def Counters.all (c : Counters) : List Int :=
  [c.user, c.nice, c.system, c.idle, c.iowait, c.irq, c.softirq]

def Counters.sums (c : Counters) : Option Sums := do
  let total ← sumFrom 0 c.all
  let used ← sumFrom 0 c.busy
  return ⟨total, used⟩

/-- The loop over the cores: the counters after each line. -/
def readCores : Nat → Counters → List Char → List Counters
  | 0, _, _ => []
  | n + 1, c, stat =>
    let line := scan coreFormat stat
    let c := c.store line.values
    c :: readCores n c line.rest

def snapshot (coreCount : Nat) (c : Counters) (stat : List Char) : List Counters :=
  let line := scan aggregateFormat stat
  let c := c.store line.values
  c :: readCores coreCount c line.rest

/-- A division by zero gives no number. -/
def usage (baseline now : Sums) : Option Double := do
  let used ← checked (now.used - baseline.used)
  let total ← checked (now.total - baseline.total)
  return if total = 0 then none else some (100 * (used : ℚ) / total)

/-- The conversion to a signed byte. -/
def toInt8 (n : Int) : Int := (n + 2 ^ 7) % 2 ^ 8 - 2 ^ 7

/-- The counters `c` are not initialised; the file is read twice. -/
def report (coreCount : Nat) (c : Counters) (stat stat' : List Char) : Option CpuUsageData := do
  let before := snapshot coreCount c stat
  let baseline ← before.mapM Counters.sums
  let now ← (snapshot coreCount (before.getLastD c) stat').mapM Counters.sums
  let usages ← (baseline.zip now).mapM (fun p => usage p.1 p.2)
  return { coreCount := toInt8 coreCount, usage := usages }

section Files

/-- The numbers of a line, in ticks. -/
structure Ticks where
  user : Nat
  nice : Nat
  system : Nat
  idle : Nat
  iowait : Nat
  irq : Nat
  softirq : Nat
  steal : Nat
  guest : Nat
  guestNice : Nat
  deriving DecidableEq, Repr

/-- The numbers with whether they are assigned. -/
def Ticks.fields (t : Ticks) : List (Bool × Nat) :=
  [(true, t.user), (true, t.nice), (true, t.system), (true, t.idle), (true, t.iowait),
    (true, t.irq), (true, t.softirq), (false, t.steal), (false, t.guest), (false, t.guestNice)]

def Ticks.text (t : Ticks) (rest : List Char) : List Char :=
  t.fields.flatMap (fun f => ' ' :: f.2.repr.toList) ++ '\n' :: rest

/-- The counters of a line as longs. -/
def Ticks.counters (t : Ticks) : Counters where
  user := clampLong t.user
  nice := clampLong t.nice
  system := clampLong t.system
  idle := clampLong t.idle
  iowait := clampLong t.iowait
  irq := clampLong t.irq
  softirq := clampLong t.softirq

/-- The line of all cores, those of the cores under their numbers, and the rest. -/
structure Stat where
  all : Ticks
  cores : List (Nat × Ticks)
  rest : List Char
  deriving DecidableEq, Repr

def coreLines (cores : List (Nat × Ticks)) (rest : List Char) : List Char :=
  cores.foldr (fun core text => 'c' :: 'p' :: 'u' :: (core.1.repr.toList ++ core.2.text text)) rest

def Stat.text (s : Stat) : List Char :=
  'c' :: 'p' :: 'u' :: ' ' :: s.all.text (coreLines s.cores s.rest)

def Stat.lines (s : Stat) : List Ticks := s.all :: s.cores.map Prod.snd

end Files

section Reading

def fieldDirectives : List Directive :=
  [.space, .number true, .space, .number true, .space, .number true, .space, .number true,
    .space, .number true, .space, .number true, .space, .number true, .space, .number false,
    .space, .number false, .space, .number false]

theorem aggregateFormat_eq : aggregateFormat =
    .literal 'c' :: .literal 'p' :: .literal 'u' :: (fieldDirectives ++ [.space]) := by
  decide +kernel

theorem coreFormat_eq : coreFormat =
    .literal 'c' :: .literal 'p' :: .literal 'u' :: .number false ::
      (fieldDirectives ++ [.space]) := by
  decide +kernel

theorem scan_ticks (t : Ticks) (rest : List Char) :
    scan (fieldDirectives ++ [.space]) (t.text rest) =
      ⟨t.counters.all.map .long, skipSpace rest, .complete⟩ := by
  have ends : EndsNumber ('\n' :: rest) := endsNumber_cons (by decide) rest
  have last : scan [.space] ('\n' :: rest) = ⟨[], skipSpace rest, .complete⟩ := by
    rw [scan_space, skipSpace_newline, scan_nil]
  have read := scan_fields t.fields ends [.space]
  rw [last] at read
  exact read

theorem store_all (c d : Counters) : c.store (d.all.map .long) = d := rfl

theorem scan_aggregate (t : Ticks) (rest : List Char) :
    scan aggregateFormat ('c' :: 'p' :: 'u' :: ' ' :: t.text rest) =
      ⟨t.counters.all.map .long, skipSpace rest, .complete⟩ := by
  have blank (ds : List Directive) (cs : List Char) :
      scan (.space :: ds) (' ' :: cs) = scan (.space :: ds) cs := by
    rw [scan_space, scan_space, skipSpace_blank]
  rw [aggregateFormat_eq, scan_literal, scan_literal, scan_literal, ← scan_ticks t rest]
  exact blank _ _

theorem scan_core (label : Nat) (t : Ticks) (rest : List Char) :
    scan coreFormat ('c' :: 'p' :: 'u' :: (label.repr.toList ++ t.text rest)) =
      ⟨t.counters.all.map .long, skipSpace rest, .complete⟩ := by
  have ends : EndsNumber (t.text rest) := endsNumber_cons (by decide) _
  rw [coreFormat_eq, scan_literal, scan_literal, scan_literal, scan_natNumber ends, scan_ticks]
  rfl

theorem readCores_lines {coreCount : Nat} (c : Counters) {cores : List (Nat × Ticks)}
    (rest : List Char) (enough : coreCount ≤ cores.length) :
    readCores coreCount c (skipSpace (coreLines cores rest)) =
      (cores.take coreCount).map (fun core => core.2.counters) := by
  induction cores generalizing coreCount c with
  | nil =>
    obtain rfl := Nat.le_zero.mp enough
    rfl
  | cons core cores ih =>
    cases coreCount with
    | zero => rfl
    | succ coreCount =>
      have start : skipSpace (coreLines (core :: cores) rest) =
          'c' :: 'p' :: 'u' :: (core.1.repr.toList ++ core.2.text (coreLines cores rest)) :=
        skipSpace_of_head (by decide) _
      rw [List.length_cons, Nat.succ_le_succ_iff] at enough
      rw [start, readCores, scan_core, store_all, ih _ enough]
      rfl

theorem snapshot_text {coreCount : Nat} (c : Counters) {s : Stat}
    (enough : coreCount ≤ s.cores.length) :
    snapshot coreCount c s.text = (s.lines.take (coreCount + 1)).map Ticks.counters := by
  rw [snapshot, Stat.text, scan_aggregate, store_all, readCores_lines _ _ enough, Stat.lines,
    List.take_succ_cons, List.map_cons, ← List.map_take, List.map_map]
  rfl

end Reading

section Usage

/-- The seven counters add up to a long. -/
def Ticks.Fits (t : Ticks) : Prop := t.counters.all.sum < 2 ^ 63

instance (t : Ticks) : Decidable t.Fits := inferInstanceAs (Decidable (_ < _))

def Ticks.sums (t : Ticks) : Sums := ⟨t.counters.all.sum, t.counters.busy.sum⟩

theorem counters_nonneg (t : Ticks) : ∀ n ∈ t.counters.all, 0 ≤ n := by
  simp [Counters.all, Ticks.counters, clampLong_nonneg]

theorem busy_le_all (t : Ticks) :
    (∀ n ∈ t.counters.busy, 0 ≤ n) ∧ t.counters.busy.sum ≤ t.counters.all.sum := by
  have nonneg := counters_nonneg t
  simp only [Counters.all, List.forall_mem_cons] at nonneg
  obtain ⟨h1, h2, h3, h4, h5, h6, h7, -⟩ := nonneg
  constructor
  · simp [Counters.busy, h1, h2, h3]
  · simp only [Counters.busy, Counters.all, List.sum_cons, List.sum_nil]
    omega

theorem sums_counters (t : Ticks) :
    t.counters.sums = if t.Fits then some t.sums else none := by
  obtain ⟨nonneg, le⟩ := busy_le_all t
  rw [Counters.sums, sumFrom_eq (counters_nonneg t) le_rfl (by decide), Int.zero_add]
  by_cases fits : t.Fits
  · have sum : t.counters.all.sum < 2 ^ 63 := fits
    rw [if_pos fits, if_pos sum, sumFrom_eq nonneg le_rfl (by decide), Int.zero_add,
      if_pos (by omega)]
    rfl
  · have sum : ¬ t.counters.all.sum < 2 ^ 63 := fits
    rw [if_neg fits, if_neg sum]
    rfl

/-- The usage of a line between two looks. -/
def usageOf (t t' : Ticks) : Double :=
  let total := t'.sums.total - t.sums.total
  if total = 0 then none else some (100 * ((t'.sums.used - t.sums.used : Int) : ℚ) / (total : Int))

theorem usage_sums {t t' : Ticks} (fits : t.Fits) (fits' : t'.Fits) :
    usage t.sums t'.sums = some (usageOf t t') := by
  have bounds (t : Ticks) (fits : t.Fits) : (0 ≤ t.sums.total ∧ t.sums.total < 2 ^ 63) ∧
      0 ≤ t.sums.used ∧ t.sums.used < 2 ^ 63 := by
    obtain ⟨nonneg, le⟩ := busy_le_all t
    have sum : t.counters.all.sum < 2 ^ 63 := fits
    exact ⟨⟨List.sum_nonneg (counters_nonneg t), sum⟩, List.sum_nonneg nonneg, le.trans_lt sum⟩
  obtain ⟨total, used⟩ := bounds t fits
  obtain ⟨total', used'⟩ := bounds t' fits'
  have inside : InLong (t'.sums.used - t.sums.used) := ⟨by omega, by omega⟩
  have inside' : InLong (t'.sums.total - t.sums.total) := ⟨by omega, by omega⟩
  simp only [usage, checked, if_pos inside, if_pos inside', Option.bind_eq_bind, Option.bind_some,
    pure, usageOf]

/-- The lines that are read of two files. -/
def pairs (coreCount : Nat) (s s' : Stat) : List (Ticks × Ticks) :=
  (s.lines.take (coreCount + 1)).zip (s'.lines.take (coreCount + 1))

theorem length_lines {coreCount : Nat} {s s' : Stat} (enough : coreCount ≤ s.cores.length)
    (enough' : coreCount ≤ s'.cores.length) :
    (s.lines.take (coreCount + 1)).length = coreCount + 1 ∧
      (s'.lines.take (coreCount + 1)).length = coreCount + 1 := by
  simp only [Stat.lines, List.length_take, List.length_cons, List.length_map]
  omega

theorem length_pairs {coreCount : Nat} {s s' : Stat} (enough : coreCount ≤ s.cores.length)
    (enough' : coreCount ≤ s'.cores.length) : (pairs coreCount s s').length = coreCount + 1 := by
  obtain ⟨length, length'⟩ := length_lines enough enough'
  rw [pairs, List.length_zip, length, length', Nat.min_self]

theorem forall_mem_zip {α β : Type} {P : α → Prop} {Q : β → Prop} {l : List α} {l' : List β}
    (length : l.length = l'.length) :
    (∀ p ∈ l.zip l', P p.1 ∧ Q p.2) ↔ (∀ a ∈ l, P a) ∧ ∀ b ∈ l', Q b := by
  have first : (l.zip l').map Prod.fst = l := List.map_fst_zip length.le
  have second : (l.zip l').map Prod.snd = l' := List.map_snd_zip length.ge
  have left : (∀ a ∈ l, P a) ↔ ∀ p ∈ l.zip l', P p.1 := by
    rw [← List.forall_mem_map (f := Prod.fst), first]
  have right : (∀ b ∈ l', Q b) ↔ ∀ p ∈ l.zip l', Q p.2 := by
    rw [← List.forall_mem_map (f := Prod.snd), second]
  rw [left, right, forall₂_and]

theorem report_text {coreCount : Nat} (c : Counters) {s s' : Stat}
    (enough : coreCount ≤ s.cores.length) (enough' : coreCount ≤ s'.cores.length) :
    report coreCount c s.text s'.text =
      if ∀ p ∈ pairs coreCount s s', p.1.Fits ∧ p.2.Fits then
        some { coreCount := toInt8 coreCount
               usage := (pairs coreCount s s').map (fun p => usageOf p.1 p.2) }
      else none := by
  have sums (l : List Ticks) : (l.map Ticks.counters).mapM Counters.sums =
      if ∀ t ∈ l, t.Fits then some (l.map Ticks.sums) else none := by
    rw [← mapM_ite, List.mapM_map]
    exact congrArg (List.mapM · l) (funext sums_counters)
  obtain ⟨length, length'⟩ := length_lines enough enough'
  have all : (∀ p ∈ pairs coreCount s s', p.1.Fits ∧ p.2.Fits) ↔ _ :=
    forall_mem_zip (length.trans length'.symm)
  rw [report, snapshot_text c enough, snapshot_text _ enough', sums, sums]
  by_cases fits : ∀ t ∈ s.lines.take (coreCount + 1), t.Fits
  · by_cases fits' : ∀ t ∈ s'.lines.take (coreCount + 1), t.Fits
    · have both := all.mpr ⟨fits, fits'⟩
      have usages : (pairs coreCount s s').mapM
          ((fun p => usage p.1 p.2) ∘ Prod.map Ticks.sums Ticks.sums) =
            some ((pairs coreCount s s').map (fun p => usageOf p.1 p.2)) :=
        mapM_eq_some fun p hp => usage_sums (both p hp).1 (both p hp).2
      rw [if_pos fits, if_pos fits', if_pos both, Option.bind_eq_bind, Option.bind_some,
        Option.bind_eq_bind, Option.bind_some, List.zip_map, List.mapM_map]
      exact congrArg (Option.bind · _) usages
    · rw [if_pos fits, if_neg fits', if_neg fun both => fits' (all.mp both).2]
      rfl
  · rw [if_neg fits, if_neg fun both => fits (all.mp both).1]
    rfl

end Usage

section Bounds

/-- No counter that is read decreases. -/
structure NoDecrease (t t' : Ticks) : Prop where
  user : t.user ≤ t'.user
  nice : t.nice ≤ t'.nice
  system : t.system ≤ t'.system
  idle : t.idle ≤ t'.idle
  iowait : t.iowait ≤ t'.iowait
  irq : t.irq ≤ t'.irq
  softirq : t.softirq ≤ t'.softirq

instance (t t' : Ticks) : Decidable (NoDecrease t t') :=
  decidable_of_iff
    (t.user ≤ t'.user ∧ t.nice ≤ t'.nice ∧ t.system ≤ t'.system ∧ t.idle ≤ t'.idle ∧
      t.iowait ≤ t'.iowait ∧ t.irq ≤ t'.irq ∧ t.softirq ≤ t'.softirq)
    ⟨fun ⟨user, nice, system, idle, iowait, irq, softirq⟩ =>
      ⟨user, nice, system, idle, iowait, irq, softirq⟩,
    fun h => ⟨h.user, h.nice, h.system, h.idle, h.iowait, h.irq, h.softirq⟩⟩

/-- What is used is part of the total, and so is what it grows by; the total
stays the same only if every counter does. -/
theorem NoDecrease.growth {t t' : Ticks} (h : NoDecrease t t') :
    t.sums.used ≤ t'.sums.used ∧
      t'.sums.used - t.sums.used ≤ t'.sums.total - t.sums.total ∧
      (t'.sums.total - t.sums.total = 0 ↔ t.counters = t'.counters) := by
  have user := clampLong_le_clampLong h.user
  have nice := clampLong_le_clampLong h.nice
  have system := clampLong_le_clampLong h.system
  have idle := clampLong_le_clampLong h.idle
  have iowait := clampLong_le_clampLong h.iowait
  have irq := clampLong_le_clampLong h.irq
  have softirq := clampLong_le_clampLong h.softirq
  simp only [Ticks.sums, Counters.all, Counters.busy, Ticks.counters, List.sum_cons, List.sum_nil,
    Counters.mk.injEq]
  omega

theorem percent_usageOf_iff {t t' : Ticks} (h : NoDecrease t t') :
    RamUsage.Percent (usageOf t t') ↔ t.counters ≠ t'.counters := by
  obtain ⟨used, le, same⟩ := h.growth
  by_cases zero : t'.sums.total - t.sums.total = 0
  · have none : usageOf t t' = none := if_pos zero
    refine iff_of_false ?_ (not_not_intro (same.mp zero))
    rintro ⟨q, hq, -⟩
    rw [none] at hq
    cases hq
  · refine iff_of_true ?_ fun equal => zero (same.mpr equal)
    have positive : (0 : ℚ) < (t'.sums.total - t.sums.total : Int) := by
      have : 0 < t'.sums.total - t.sums.total := by omega
      exact_mod_cast this
    have below : (0 : ℚ) ≤ (t'.sums.used - t.sums.used : Int) := by
      exact_mod_cast Int.sub_nonneg_of_le used
    have above :
        ((t'.sums.used - t.sums.used : Int) : ℚ) ≤ (t'.sums.total - t.sums.total : Int) := by
      exact_mod_cast le
    refine ⟨_, if_neg zero, ?_, ?_⟩
    · positivity
    · rw [div_le_iff₀ positive]
      linarith

theorem NoDecrease.fits {t t' : Ticks} (h : NoDecrease t t') (fits : t'.Fits) : t.Fits := by
  obtain ⟨used, le, -⟩ := h.growth
  have sum : t'.sums.total < 2 ^ 63 := fits
  change t.sums.total < 2 ^ 63
  omega

/-- Where no counter decreases, every usage is a percentage exactly if the
counters of each line add up to a long and not all of them stay the same. -/
theorem usages_iff {coreCount : Nat} (c : Counters) {s s' : Stat}
    (enough : coreCount ≤ s.cores.length) (enough' : coreCount ≤ s'.cores.length)
    (grows : ∀ p ∈ pairs coreCount s s', NoDecrease p.1 p.2) :
    (∃ data, report coreCount c s.text s'.text = some data ∧
        data.usage.length = coreCount + 1 ∧ ∀ u ∈ data.usage, RamUsage.Percent u) ↔
      ∀ p ∈ pairs coreCount s s', p.2.Fits ∧ p.1.counters ≠ p.2.counters := by
  have fits : (∀ p ∈ pairs coreCount s s', p.1.Fits ∧ p.2.Fits) ↔
      ∀ p ∈ pairs coreCount s s', p.2.Fits :=
    forall₂_congr fun p hp => and_iff_right_of_imp (grows p hp).fits
  have percent : (∀ u ∈ (pairs coreCount s s').map (fun p => usageOf p.1 p.2), RamUsage.Percent u) ↔
      ∀ p ∈ pairs coreCount s s', p.1.counters ≠ p.2.counters :=
    List.forall_mem_map.trans (forall₂_congr fun p hp => percent_usageOf_iff (grows p hp))
  rw [report_text c enough enough']
  constructor
  · rintro ⟨data, reported, -, percents⟩
    rw [Option.ite_none_right_eq_some, Option.some.injEq] at reported
    obtain ⟨all, rfl⟩ := reported
    exact forall₂_and.mpr ⟨fits.mp all, percent.mp percents⟩
  · intro good
    obtain ⟨small, moved⟩ := forall₂_and.mp good
    exact ⟨_, if_pos (fits.mpr small), (List.length_map _).trans (length_pairs enough enough'),
      percent.mpr moved⟩

def ticks (user idle : Nat) : Ticks := ⟨user, 0, 0, idle, 0, 0, 0, 0, 0, 0⟩

def statOf (all : Ticks) (cores : List Ticks) : Stat where
  all := all
  cores := cores.zipIdx.map (fun p => (p.2, p.1))
  rest := "intr 1\n".toList

def noCounters : Counters := ⟨0, 0, 0, 0, 0, 0, 0⟩

/-- A core that is used for a second, and one that is idle. -/
def before : Stat := statOf (ticks 20 40) [ticks 10 20, ticks 10 20]

def after : Stat := statOf (ticks 30 50) [ticks 20 20, ticks 10 30]

theorem usages_twoCores :
    ∃ data, report 2 noCounters before.text after.text = some data ∧
      data.usage.length = 2 + 1 ∧ ∀ u ∈ data.usage, RamUsage.Percent u :=
  (usages_iff noCounters (by decide) (by decide) (by decide)).mpr (by decide)

/-- A core whose time was stolen for a whole second. -/
theorem stolenCore_undefined :
    let stolen := statOf { ticks 30 40 with steal := 10 }
      [ticks 20 20, { ticks 10 20 with steal := 10 }]
    (∀ p ∈ pairs 2 before stolen, NoDecrease p.1 p.2) ∧
      report 2 noCounters before.text stolen.text = some ⟨2, [some 100, some 100, none]⟩ := by
  decide +kernel

end Bounds

section CoreCount

/-- What is passed on to the reporter: every core is taken to have two threads. -/
def cpuCoreCount (sysInfo : SystemInfo) : Int := sysInfo.cpuInfo.cpuCores * 2

theorem length_readCores (n : Nat) (c : Counters) (stat : List Char) :
    (readCores n c stat).length = n := by
  induction n generalizing c stat with
  | zero => rfl
  | succ n ih => rw [readCores, List.length_cons, ih]

/-- As many usages are reported as the reporter was told, whatever the files say. -/
theorem report_counts {coreCount : Nat} {c : Counters} {stat stat' : List Char}
    {data : CpuUsageData} (h : report coreCount c stat stat' = some data) :
    data.usage.length = coreCount + 1 ∧ data.coreCount = toInt8 coreCount := by
  have lines (c : Counters) (stat : List Char) :
      (snapshot coreCount c stat).length = coreCount + 1 := by
    rw [snapshot, List.length_cons, length_readCores]
  simp only [report, Option.bind_eq_bind, Option.bind_eq_some_iff, pure, Option.some.injEq] at h
  obtain ⟨baseline, hbaseline, now, hnow, usages, husages, rfl⟩ := h
  have before := (length_of_mapM_eq_some hbaseline).trans (lines _ _)
  have after := (length_of_mapM_eq_some hnow).trans (lines _ _)
  refine ⟨?_, rfl⟩
  rw [length_of_mapM_eq_some husages, List.length_zip, before, after, Nat.min_self]

/-- With as many lines for cores in both files, the report is about these lines
exactly if they are twice the number of cores, their number fits in a signed
byte, and the counters of each line add up to a long. -/
theorem perCore_iff (c : Counters) {sysInfo : SystemInfo} {k n : Nat}
    (stated : sysInfo.cpuInfo.cpuCores = k) {s s' : Stat} (lines : s.cores.length = n)
    (lines' : s'.cores.length = n) :
    (∃ data, report (cpuCoreCount sysInfo).toNat c s.text s'.text = some data ∧
        data.usage.length = n + 1 ∧ data.coreCount = n ∧
        ∀ i a b, s.cores[i]? = some a → s'.cores[i]? = some b →
          data.usage[i + 1]? = some (usageOf a.2 b.2)) ↔
      2 * k = n ∧ n < 128 ∧ ∀ p ∈ pairs n s s', p.1.Fits ∧ p.2.Fits := by
  have count : (cpuCoreCount sysInfo).toNat = 2 * k := by
    rw [cpuCoreCount, stated]
    omega
  rw [count]
  constructor
  · rintro ⟨data, reported, length, cores, -⟩
    obtain ⟨usages, byte⟩ := report_counts reported
    have same : 2 * k = n := by omega
    rw [same] at reported byte
    rw [report_text c lines.ge lines'.ge, Option.ite_none_right_eq_some] at reported
    rw [byte, toInt8] at cores
    exact ⟨same, by omega, reported.1⟩
  · rintro ⟨rfl, small, fits⟩
    refine ⟨_, by rw [report_text c lines.ge lines'.ge, if_pos fits], ?_, ?_, ?_⟩
    · exact (List.length_map _).trans (length_pairs lines.ge lines'.ge)
    · change toInt8 (2 * k : Nat) = (2 * k : Nat)
      rw [toInt8]
      omega
    · intro i a b ha hb
      have inside : i < 2 * k := lines ▸ (List.getElem?_eq_some_iff.mp ha).1
      have first : (s.lines.take (2 * k + 1))[i + 1]? = some a.2 := by
        rw [List.getElem?_take_of_lt (by omega), Stat.lines, List.getElem?_cons_succ,
          List.getElem?_map, ha, Option.map_some]
      have second : (s'.lines.take (2 * k + 1))[i + 1]? = some b.2 := by
        rw [List.getElem?_take_of_lt (by omega), Stat.lines, List.getElem?_cons_succ,
          List.getElem?_map, hb, Option.map_some]
      have pair : (pairs (2 * k) s s')[i + 1]? = some (a.2, b.2) :=
        List.getElem?_zip_eq_some.mpr ⟨first, second⟩
      rw [List.getElem?_map, pair, Option.map_some]

def withCores (k : Nat) : SystemInfo := { cpuInfo := { cpuCores := k } }

theorem perCore_twoThreads :
    ∃ data, report (cpuCoreCount (withCores 1)).toNat noCounters before.text after.text =
        some data ∧
      data.usage.length = 2 + 1 ∧ data.coreCount = (2 : Nat) ∧
      ∀ i a b, before.cores[i]? = some a → after.cores[i]? = some b →
        data.usage[i + 1]? = some (usageOf a.2 b.2) :=
  (perCore_iff noCounters (k := 1) (n := 2) rfl (by decide) (by decide)).mpr (by decide)

/-- A core without a second thread is reported twice. -/
theorem singleThread_twice :
    report (cpuCoreCount (withCores 1)).toNat noCounters
        (statOf (ticks 10 20) [ticks 10 20]).text (statOf (ticks 15 35) [ticks 15 35]).text =
      some ⟨2, [some 25, some 25, some 25]⟩ := by
  decide +kernel

end CoreCount

end CpuReporter
