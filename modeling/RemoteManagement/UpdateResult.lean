import RemoteManagement.Computer

/-!
# The result of an update

`updateDB` keeps one result, which every query overwrites: what it returns is
how the last query ended. The dirty flags are set one by one, so they tell
whether any query failed. What is asked depends on the computer alone, and a
handler of queries stands for any pattern of answers.
-/

namespace UpdateResult

open SqlStatements ExecuteQuery Database QueryProgram Program Computer

/-- The updates of the dirty records, whatever the answers. -/
def storageQueries (devs : List RmsStorageInfo) : List (Query × Bool) :=
  (devs.filter RmsStorageInfo.dirty).map (fun dev => (updateStorage dev, false))

def updateQueries (c : RmsComputer) : List (Query × Bool) :=
  if c.sysInfoDirty then (.updateComputer c.updateArgs c.computerId, false) ::
    storageQueries c.storageInfo
  else storageQueries c.storageInfo

structure Clean (c : RmsComputer) : Prop where
  sysInfo : c.sysInfoDirty = false
  storage : ∀ dev ∈ c.storageInfo, dev.dirty = false

/-- The result of the last query, if there is one. -/
def lastResult (start : Bool) (answers : List RmsQueryResult) : Bool :=
  answers.foldl (fun _ res => res.success) start

theorem storageQueries_dirty {dev : RmsStorageInfo} (h : dev.dirty = true)
    (devs : List RmsStorageInfo) :
    storageQueries (dev :: devs) = (updateStorage dev, false) :: storageQueries devs := by
  simp [storageQueries, h]

theorem storageQueries_clean {dev : RmsStorageInfo} (h : dev.dirty = false)
    (devs : List RmsStorageInfo) : storageQueries (dev :: devs) = storageQueries devs := by
  simp [storageQueries, h]

theorem lastResult_append (start : Bool) (front : List RmsQueryResult) (last : RmsQueryResult) :
    lastResult start (front ++ [last]) = last.success := by
  simp [lastResult]

section Handlers

variable {σ : Type} (handle : Query × Bool → σ → RmsQueryResult × σ)

/-- The loop over the records asks its queries in their order, returns the
result of the last, and leaves dirty the records whose update failed. -/
theorem run_updateStorages (start : Bool) (devs : List RmsStorageInfo) (s : σ) :
    let answers := replies handle (storageQueries devs) s
    ((updateStorages start devs).run handle s).1.1 = lastResult start answers ∧
      ((updateStorages start devs).AllAnswers handle (fun res => res.success = true) s ↔
        ∀ res ∈ answers, res.success = true) ∧
      ((∀ dev ∈ ((updateStorages start devs).run handle s).1.2, dev.dirty = false) ↔
        ∀ res ∈ answers, res.success = true) := by
  induction devs generalizing start s with
  | nil => simp [updateStorages, storageQueries, replies, lastResult]
  | cons dev devs ih =>
    cases dirty : dev.dirty with
    | true =>
      obtain ⟨result, asked, clean⟩ := ih (handle (updateStorage dev, false) s).1.success
        (handle (updateStorage dev, false) s).2
      rw [storageQueries_dirty dirty]
      simp only [updateStorages, dirty, if_true, bind_eq, pure_eq, run_bind, run_ask, run_ret,
        allAnswers_bind, allAnswers_ask, allAnswers_ret, and_true, replies, List.forall_mem_cons,
        Bool.not_eq_false']
      exact ⟨result, and_congr Iff.rfl asked, and_congr Iff.rfl clean⟩
    | false =>
      obtain ⟨result, asked, clean⟩ := ih start s
      rw [storageQueries_clean dirty]
      simp only [updateStorages, dirty, Bool.false_eq_true, if_false, bind_eq, pure_eq, run_bind,
        run_ret, allAnswers_bind, allAnswers_ret, and_true, List.forall_mem_cons, true_and]
      exact ⟨result, asked, clean⟩

variable {c : RmsComputer}

/-- The update as a whole does as its loop. -/
theorem run_updateDB (valid : c.computerId ≠ -1) (s : σ) :
    let answers := replies handle (updateQueries c) s
    (c.updateDB.run handle s).1.1 = lastResult true answers ∧
      (c.updateDB.AllAnswers handle (fun res => res.success = true) s ↔
        ∀ res ∈ answers, res.success = true) ∧
      (Clean (c.updateDB.run handle s).1.2 ↔ ∀ res ∈ answers, res.success = true) := by
  have split_clean (d : RmsComputer) : Clean d ↔
      d.sysInfoDirty = false ∧ ∀ dev ∈ d.storageInfo, dev.dirty = false :=
    ⟨fun h => ⟨h.sysInfo, h.storage⟩, fun h => ⟨h.1, h.2⟩⟩
  cases dirty : c.sysInfoDirty with
  | true =>
    let first := handle (.updateComputer c.updateArgs c.computerId, false) s
    obtain ⟨result, asked, clean⟩ := run_updateStorages handle first.1.success c.storageInfo first.2
    simp only [RmsComputer.updateDB, RmsComputer.updateSysInfo, if_neg valid, dirty, if_true,
      updateQueries, bind_eq, pure_eq, run_bind, run_ask, run_ret, allAnswers_bind, allAnswers_ask,
      allAnswers_ret, and_true, replies, List.forall_mem_cons, split_clean, Bool.not_eq_false']
    exact ⟨result, and_congr Iff.rfl asked, and_congr Iff.rfl clean⟩
  | false =>
    obtain ⟨result, asked, clean⟩ := run_updateStorages handle true c.storageInfo s
    simp only [RmsComputer.updateDB, RmsComputer.updateSysInfo, if_neg valid, dirty,
      Bool.false_eq_true, if_false, updateQueries, bind_eq, pure_eq, run_bind, run_ret,
      allAnswers_bind, allAnswers_ret, and_true, true_and, split_clean]
    exact ⟨result, asked, clean⟩

/-- The result and the flags agree, and say whether every query succeeded,
exactly if no failure comes before a last query that succeeds. -/
theorem updateDB_result_iff (valid : c.computerId ≠ -1) (s : σ) :
    (((c.updateDB.run handle s).1.1 = true ↔
        c.updateDB.AllAnswers handle (fun res => res.success = true) s) ∧
      ((c.updateDB.run handle s).1.1 = true ↔ Clean (c.updateDB.run handle s).1.2)) ↔
    ∀ front last, replies handle (updateQueries c) s = front ++ [last] →
      last.success = true → ∀ res ∈ front, res.success = true := by
  obtain ⟨result, asked, clean⟩ := run_updateDB handle valid s
  rw [result, asked, clean, and_self]
  rcases List.eq_nil_or_concat (replies handle (updateQueries c) s) with none | ⟨front, last, some⟩
  · simp [none, lastResult]
  · rw [List.concat_eq_append] at some
    rw [some, lastResult_append]
    simp only [List.forall_mem_append, List.forall_mem_singleton]
    constructor
    · intro agree front' last' same success
      obtain ⟨rfl, ends⟩ := List.append_inj' same rfl
      obtain rfl := List.singleton_inj.mp ends
      exact (agree.mp success).1
    · intro unmasked
      exact ⟨fun success => ⟨unmasked front last rfl success, success⟩, fun all => all.2⟩

end Handlers

/-- A computer that has to write its row and that of its drive. -/
def unsavedPc : RmsComputer where
  computerId := 1
  sysInfoDirty := true
  storageInfo := [{ storageInfoId := 1, devPath := "/dev/sda1", dirty := true }]

/-- The last update fails. -/
theorem lastFails_reported :
    let conn : Connection := ⟨emptyDb, 0, [none, some .busy]⟩
    (((unsavedPc.updateDB.run (answer fun _ _ => none) conn).1.1 = true ↔
        unsavedPc.updateDB.AllAnswers (answer fun _ _ => none) (fun res => res.success = true)
          conn) ∧
      ((unsavedPc.updateDB.run (answer fun _ _ => none) conn).1.1 = true ↔
        Clean (unsavedPc.updateDB.run (answer fun _ _ => none) conn).1.2)) := by
  refine (updateDB_result_iff (answer fun _ _ => none) (by decide) _).mpr ?_
  intro front last same success
  have answers : front ++ [last] = [{ success := true }] ++ [{ success := false }] := by
    rw [← same]
    decide +kernel
  obtain ⟨-, ends⟩ := List.append_inj' answers rfl
  obtain rfl := List.singleton_inj.mp ends
  cases success

/-- The failure to write the computer is forgotten over the drive. -/
theorem failedRow_reported :
    let conn : Connection := ⟨emptyDb, 0, [some .busy]⟩
    (unsavedPc.updateDB.run (answer fun _ _ => none) conn).1.1 = true ∧
      ¬ unsavedPc.updateDB.AllAnswers (answer fun _ _ => none) (fun res => res.success = true)
        conn ∧
      ¬ Clean (unsavedPc.updateDB.run (answer fun _ _ => none) conn).1.2 := by
  refine ⟨by decide +kernel, fun all => absurd all.1 (by decide +kernel), fun clean => ?_⟩
  exact absurd clean.sysInfo (by decide +kernel)

end UpdateResult
