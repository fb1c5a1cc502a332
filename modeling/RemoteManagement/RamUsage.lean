import RemoteManagement.UsageContainers
import Mathlib.Tactic.Positivity
import Mathlib.Tactic.Linarith

/-!
# Divisions while a request is ingested

The usage of the memory is divided by its size, and the points of a container
by their number when it is pushed. The size of the swap is compared with zero
first, that of the main memory is not.
-/

namespace RamUsage

open ThriftTypes ExecuteQuery SqlStatements QueryProgram Program Computer Ingestor UsageContainers

/-- No more is free than there is. -/
structure ValidRam (ram : RamData) : Prop where
  mainFree : 0 ≤ ram.mainFree
  mainTotal : ram.mainFree ≤ ram.mainTotal
  swapFree : 0 ≤ ram.swapFree
  swapTotal : ram.swapFree ≤ ram.swapTotal

def Percent (d : Double) : Prop := ∃ q : ℚ, d = some q ∧ 0 ≤ q ∧ q ≤ 100

section Divisors

/-- What is divided by for the points of one piece of data. -/
def pointDivisors (data : RmsRequestData) : List Int :=
  match data.dataType with
  | .kRamUsage =>
    let ram := data.data.ramData
    ram.mainTotal :: (if ram.swapTotal ≠ 0 then [ram.swapTotal] else [])
  | _ => []

/-- What is divided by when the averages of a computer are pushed. -/
def pushDivisors (c : RmsComputer) : List Int :=
  (c.usageInfo.filter (fun u => !u.culminating)).map (fun u => (u.dataPoints.length : Int))

/-- The ingestor and the computer after one piece of data. -/
def served (s : DbRequestIngestor × RmsComputer) (p : Clock × RmsRequestData) :
    DbRequestIngestor × RmsComputer :=
  ((s.1.usagePush p.1).1, addUsageInfos s.2 (usagePoints p.2))

/-- Everything that is divided by while the data of a request are ingested. -/
def divisors (s : DbRequestIngestor × RmsComputer) : List (Clock × RmsRequestData) → List Int
  | [] => []
  | p :: rest =>
    pointDivisors p.2 ++
      (if (s.1.usagePush p.1).2.isSome then pushDivisors (served s p).2 else []) ++
      divisors (served s p) rest

/-- The request is ingested in these steps, whatever the database answers. -/
theorem ingestRequest_returns {σ : Type} (handle : Query × Bool → σ → RmsQueryResult × σ)
    (ing : DbRequestIngestor) (c : RmsComputer) (items : List (Clock × RmsRequestData)) (s : σ) :
    ((ingestRequest ing (some c) items).run handle s).1 =
      some ((items.foldl served (ing, c)).1, some (items.foldl served (ing, c)).2) := by
  induction items generalizing ing c s with
  | nil => rfl
  | cons p rest ih =>
    simp only [ingestRequest, bind_eq, run_bind, ingestRequestData_returns]
    exact ih _ _ _

/-- A point of the memory is undefined exactly if it is divided by zero. -/
theorem undefined_iff {data : RmsRequestData} (ram : data.dataType = .kRamUsage) :
    (∃ p ∈ usagePoints data, p.point = none) ↔ 0 ∈ pointDivisors data := by
  simp only [usagePoints, pointDivisors, ram, percentage]
  by_cases swap : data.data.ramData.swapTotal = 0
  · simp [swap, eq_comm]
  · simp [swap, eq_comm]

end Divisors

theorem percent_percentage {total free : Int} (nonneg : 0 ≤ free) (le : free ≤ total)
    (some : total ≠ 0) : Percent (percentage total free) := by
  have positive : (0 : ℚ) < total := by
    have : 0 < total := by omega
    exact_mod_cast this
  have below : (0 : ℚ) ≤ (total - free : Int) := by exact_mod_cast Int.sub_nonneg_of_le le
  have above : ((total - free : Int) : ℚ) ≤ total := by
    have : total - free ≤ total := by omega
    exact_mod_cast this
  refine ⟨_, if_neg some, ?_, ?_⟩
  · positivity
  · rw [div_le_iff₀ positive]
    linarith

/-- The points of valid data are percentages if there is a main memory. -/
theorem percent_of_valid {data : RmsRequestData}
    (valid : data.dataType = .kRamUsage → ValidRam data.data.ramData)
    (main : data.dataType = .kRamUsage → data.data.ramData.mainTotal ≠ 0) :
    ∀ p ∈ usagePoints data, p.type = .kRam → Percent p.point := by
  intro p hp type
  cases kind : data.dataType with
  | kRamUsage =>
    have ram := valid kind
    have first := percent_percentage ram.mainFree ram.mainTotal (main kind)
    simp only [usagePoints, kind, List.mem_cons] at hp
    rcases hp with rfl | hp
    · exact first
    · split at hp
      · rename_i swap
        obtain rfl := List.mem_singleton.mp hp
        exact percent_percentage ram.swapFree ram.swapTotal swap
      · cases hp
  | kCpuUsage =>
    simp only [usagePoints, kind, List.mem_map] at hp
    obtain ⟨_, -, rfl⟩ := hp
    cases type
  | kSysInfo | kNetworkUsage | kExecutorResult | kPing | kUnknown =>
    simp [usagePoints, kind] at hp

/-- No container is ever empty. -/
def Filled (c : RmsComputer) : Prop := ∀ u ∈ c.usageInfo, u.dataPoints ≠ []

theorem filled_addUsageInfos {c : RmsComputer} (h : Filled c) (calls : List UsagePoint) :
    Filled (addUsageInfos c calls) := by
  rw [Filled, usageInfo_addUsageInfos]
  have point (u : UsageContainer) (x : Double) : (u.addPoint x).dataPoints ≠ [] :=
    List.append_ne_nil_of_right_ne_nil _ (List.cons_ne_nil _ _)
  exact KeyedList.forall_mem_upsertAll (fun p _ => point _ p.point)
    (fun u p _ _ _ => point u p.point) h

theorem pushDivisors_ne_zero {c : RmsComputer} (h : Filled c) : ∀ d ∈ pushDivisors c, d ≠ 0 := by
  intro d hd
  obtain ⟨u, hu, rfl⟩ := List.mem_map.mp hd
  have nonempty := h u (List.mem_filter.mp hu).1
  simpa using nonempty

theorem pointDivisors_ne_zero_iff {data : RmsRequestData} :
    (∀ d ∈ pointDivisors data, d ≠ 0) ↔
      (data.dataType = .kRamUsage → data.data.ramData.mainTotal ≠ 0) := by
  rw [pointDivisors]
  split
  · rename_i kind
    simp only [kind, forall_const, List.forall_mem_cons]
    refine and_iff_left fun d hd => ?_
    split at hd
    · rename_i swap
      exact List.mem_singleton.mp hd ▸ swap
    · cases hd
  · rename_i other
    exact iff_of_true (by simp) fun kind => absurd kind other

theorem divisors_ne_zero_iff {s : DbRequestIngestor × RmsComputer}
    {items : List (Clock × RmsRequestData)} (filled : Filled s.2) :
    (∀ d ∈ divisors s items, d ≠ 0) ↔
      ∀ p ∈ items, p.2.dataType = .kRamUsage → p.2.data.ramData.mainTotal ≠ 0 := by
  induction items generalizing s with
  | nil => simp [divisors]
  | cons p rest ih =>
    have next : Filled (served s p).2 := filled_addUsageInfos filled _
    have pushed : ∀ d ∈ (if (s.1.usagePush p.1).2.isSome then pushDivisors (served s p).2 else []),
        d ≠ 0 := by
      split
      · exact pushDivisors_ne_zero next
      · simp
    simp only [divisors, List.forall_mem_append, List.forall_mem_cons, ih next,
      pointDivisors_ne_zero_iff]
    exact and_congr (and_iff_left pushed) Iff.rfl

/-- Valid memory readings are ingested without a division by zero, as
percentages, exactly if none is without main memory. -/
theorem defined_iff {s : DbRequestIngestor × RmsComputer} {items : List (Clock × RmsRequestData)}
    (filled : Filled s.2)
    (valid : ∀ p ∈ items, p.2.dataType = .kRamUsage → ValidRam p.2.data.ramData) :
    ((∀ d ∈ divisors s items, d ≠ 0) ∧
      ∀ p ∈ items, ∀ point ∈ usagePoints p.2, point.type = .kRam → Percent point.point) ↔
      ∀ p ∈ items, p.2.dataType = .kRamUsage → p.2.data.ramData.mainTotal ≠ 0 := by
  rw [divisors_ne_zero_iff filled]
  refine and_iff_left_of_imp fun main p hp => ?_
  exact percent_of_valid (valid p hp) (main p hp)

def booted : DbRequestIngestor × RmsComputer := (.create 0, RmsComputer.create 1)

def reading (ram : RamData) : Clock × RmsRequestData :=
  (⟨minutes 6, 12, Usage.newYear⟩, { dataType := .kRamUsage, data := { ramData := ram } })

/-- Half of the main memory is free, and there is no swap. -/
theorem defined_halfFree :
    let items := [reading { mainTotal := 8, mainFree := 4 }]
    (∀ d ∈ divisors booted items, d ≠ 0) ∧
      ∀ p ∈ items, ∀ point ∈ usagePoints p.2, point.type = .kRam → Percent point.point := by
  have filled : Filled booted.2 := by simp [Filled, booted, RmsComputer.create]
  refine (defined_iff filled fun p hp _ => ?_).mpr fun p hp _ => ?_
  · obtain rfl := List.mem_singleton.mp hp
    exact ⟨by decide, by decide, by decide, by decide⟩
  · obtain rfl := List.mem_singleton.mp hp
    decide

/-- What is sent when the memory cannot be read is divided by zero. -/
theorem unread_undefined :
    ValidRam {} ∧ 0 ∈ divisors booted [reading {}] ∧
      (usagePoints (reading {}).2).map UsagePoint.point = [none] :=
  ⟨⟨by decide, by decide, by decide, by decide⟩, by decide, by decide⟩

end RamUsage
