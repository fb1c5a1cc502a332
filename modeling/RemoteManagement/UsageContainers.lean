import RemoteManagement.Ingestor
import RemoteManagement.Library.SlidingWindow
import Mathlib.Algebra.BigOperators.Group.List.Basic

/-!
# Usage containers

A container is a window over the last points of one type and id, and what it
reports is their average. A computer keeps its containers by type and id.
-/

namespace UsageContainers

open ThriftTypes Computer Ingestor SlidingWindow

def feed (u : UsageContainer) (points : List Double) : UsageContainer :=
  points.foldl UsageContainer.addPoint u

theorem feed_eq (u : UsageContainer) (points : List Double) :
    feed u points =
      { u with dataPoints := points.foldl (push rmsMaxContainerDataPoints) u.dataPoints } := by
  induction points generalizing u with
  | nil => rfl
  | cons point points ih => exact ih (u.addPoint point)

section Window

def mean (points : List ℚ) : ℚ := points.sum / points.length

theorem sum_rationals (points : List ℚ) : sum (points.map some) = some points.sum := by
  have step (total : ℚ) : (points.map some).foldl
      (fun total point => total.bind (fun x => point.map (fun y => x + y))) (some total) =
      some (total + points.sum) := by
    induction points generalizing total with
    | nil => simp
    | cons point points ih => simpa [add_assoc] using ih (total + point)
  simpa [sum] using step 0

theorem getData_rationals {u : UsageContainer} {points : List ℚ}
    (data : u.dataPoints = points.map some) (average : u.culminating = false)
    (some : 0 < points.length) : u.getData = .some (mean points) := by
  have length : u.dataPoints.length = points.length := by rw [data, List.length_map]
  rw [UsageContainer.getData, average, if_neg Bool.false_ne_true, length,
    if_neg (Nat.ne_of_gt some), data, sum_rationals, Option.map_some, mean]

/-- The window holds one point more than the header says. -/
theorem dataPoints_feed (type : UsageType) (id : Int) (culminating : Bool) (points : List ℚ) :
    (feed { usageType := type, id := id, culminating := culminating }
        (points.map some)).dataPoints =
      (points.rtake (rmsMaxContainerDataPoints + 1)).map some := by
  rw [feed_eq, foldl_push _ (Nat.zero_le _), List.nil_append, List.rtake, List.rtake,
    List.map_drop, List.length_map]

/-- A container holds the last sixty points, and reports their mean, exactly if
it was not given more. -/
theorem window_iff (type : UsageType) (id : Int) (culminating : Bool) (points : List ℚ) :
    let u := feed { usageType := type, id := id, culminating := culminating } (points.map some)
    (u.dataPoints = (points.rtake rmsMaxContainerDataPoints).map some ∧
        (culminating = false → 0 < points.length →
          u.getData = some (mean (points.rtake rmsMaxContainerDataPoints)))) ↔
      points.length ≤ rmsMaxContainerDataPoints := by
  intro u
  have held : u.dataPoints = _ := dataPoints_feed type id culminating points
  constructor
  · rintro ⟨window, -⟩
    have lengths := congrArg List.length (held.symm.trans window)
    rw [List.length_map, List.length_map, length_rtake, length_rtake] at lengths
    omega
  · intro few
    have all : points.rtake rmsMaxContainerDataPoints = points := rtake_of_length_le few
    have window : u.dataPoints = points.map some := by
      rw [held, rtake_of_length_le (by omega)]
    have flag : u.culminating = culminating := congrArg UsageContainer.culminating (feed_eq _ _)
    rw [all]
    exact ⟨window, fun average some => getData_rationals window (flag.trans average) some⟩

/-- After an hour of points, the first of them is still in the average. -/
theorem firstPoint_kept :
    let points : List ℚ := 61 :: List.replicate 60 0
    let u := feed { usageType := .kCpu, id := 0 } (points.map some)
    u.dataPoints ≠ (points.rtake rmsMaxContainerDataPoints).map some ∧
      u.getData = some 1 ∧ mean (points.rtake rmsMaxContainerDataPoints) = 0 := by
  decide +kernel

end Window

section Keys

def containerKey (u : UsageContainer) : UsageType × Int := (u.usageType, u.id)

def pointKey (p : UsagePoint) : UsageType × Int := (p.type, p.id)

def writePoint (o : Option UsageContainer) (p : UsagePoint) : UsageContainer :=
  (o.getD { usageType := p.type, id := p.id }).addPoint p.point

abbrev containersAfter (l : List UsageContainer) (calls : List UsagePoint) : List UsageContainer :=
  KeyedList.upsertAll containerKey pointKey writePoint l calls

def addUsageInfos (c : RmsComputer) (calls : List UsagePoint) : RmsComputer :=
  calls.foldl (fun c p => c.addUsageInfo p.type p.point p.id) c

theorem keyed_writePoint : KeyedList.Keyed containerKey pointKey writePoint := by
  intro o p own
  cases o with
  | none => rfl
  | some u => exact own u rfl

theorem usageInfo_addUsageInfo (c : RmsComputer) (p : UsagePoint) :
    (c.addUsageInfo p.type p.point p.id).usageInfo =
      KeyedList.upsert containerKey pointKey writePoint p c.usageInfo := by
  simp only [RmsComputer.addUsageInfo]
  induction c.usageInfo with
  | nil => rfl
  | cons u us ih =>
    simp only [KeyedList.upsert, ih]
    rfl

theorem usageInfo_addUsageInfos (c : RmsComputer) (calls : List UsagePoint) :
    (addUsageInfos c calls).usageInfo = containersAfter c.usageInfo calls := by
  induction calls generalizing c with
  | nil => rfl
  | cons p calls ih =>
    rw [containersAfter, KeyedList.upsertAll_cons, ← usageInfo_addUsageInfo]
    exact ih (c.addUsageInfo p.type p.point p.id)

theorem foldl_writePoint (u : UsageContainer) (calls : List UsagePoint) :
    calls.foldl (fun u p => writePoint (some u) p) u = feed u (calls.map UsagePoint.point) := by
  rw [feed, List.foldl_map]
  rfl

/-- The points of one key fill a container of that key. -/
theorem amend_none {k : UsageType × Int} {calls : List UsagePoint} (own : ∀ p ∈ calls, pointKey p = k)
    (some : calls ≠ []) :
    KeyedList.amend writePoint none calls =
      .some (feed { usageType := k.1, id := k.2 } (calls.map UsagePoint.point)) := by
  cases calls with
  | nil => contradiction
  | cons p calls =>
    obtain rfl := own p List.mem_cons_self
    exact (KeyedList.amend_some _ calls).trans (congrArg _ (foldl_writePoint _ calls))

theorem feed_ne_nil (u : UsageContainer) (points : List Double) (some : points ≠ []) :
    (feed u points).dataPoints ≠ [] := by
  rw [← List.dropLast_append_getLast some, feed, List.foldl_concat]
  exact List.append_ne_nil_of_right_ne_nil _ (List.cons_ne_nil _ _)

/-- Every key that occurs has one container, with what its own points make of a
fresh one. -/
theorem addUsageInfos_separate {c : RmsComputer} (fresh : c.usageInfo = [])
    (calls : List UsagePoint) :
    ((addUsageInfos c calls).usageInfo.map containerKey).Nodup ∧
      (∀ k, k ∈ (addUsageInfos c calls).usageInfo.map containerKey ↔
        ∃ p ∈ calls, pointKey p = k) ∧
      ∀ u ∈ (addUsageInfos c calls).usageInfo, u.dataPoints ≠ [] ∧
        u = feed { usageType := u.usageType, id := u.id }
          ((calls.filter (fun p => pointKey p = containerKey u)).map UsagePoint.point) := by
  rw [usageInfo_addUsageInfos, fresh]
  refine ⟨KeyedList.nodup_upsertAll keyed_writePoint calls List.nodup_nil, fun k => ?_,
    fun u hu => ?_⟩
  · rw [KeyedList.map_key_upsertAll keyed_writePoint, List.map_nil, List.nil_append,
      KeyedList.mem_newKeys]
    simp
  · have made := KeyedList.amend_of_mem_upsertAll (l := []) keyed_writePoint List.nodup_nil hu
    have some : KeyedList.entriesOf pointKey (containerKey u) calls ≠ [] := by
      intro none
      rw [none] at made
      cases made
    have fed : feed { usageType := u.usageType, id := u.id }
        ((KeyedList.entriesOf pointKey (containerKey u) calls).map UsagePoint.point) = u :=
      Option.some.inj ((amend_none (fun _ => KeyedList.key_of_mem_entriesOf) some).symm.trans made)
    have nonempty := feed_ne_nil { usageType := u.usageType, id := u.id }
      ((KeyedList.entriesOf pointKey (containerKey u) calls).map UsagePoint.point)
      (by simpa using some)
    rw [fed] at nonempty
    exact ⟨nonempty, fed.symm⟩

/-- Two cores and the memory of one computer. -/
def readings : List UsagePoint :=
  [⟨.kCpu, some 80, 0⟩, ⟨.kCpu, some 10, 1⟩, ⟨.kRam, some 50, 0⟩, ⟨.kCpu, some 60, 0⟩]

theorem readings_separate :
    (addUsageInfos (RmsComputer.create 1) readings).usageInfo.map containerKey =
        [(.kCpu, 0), (.kCpu, 1), (.kRam, 0)] ∧
      ∀ u ∈ (addUsageInfos (RmsComputer.create 1) readings).usageInfo, u.dataPoints ≠ [] ∧
        u = feed { usageType := u.usageType, id := u.id }
          ((readings.filter (fun p => pointKey p = containerKey u)).map UsagePoint.point) :=
  ⟨by decide, (addUsageInfos_separate rfl readings).2.2⟩

end Keys

end UsageContainers
