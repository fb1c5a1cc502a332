import RemoteManagement.ServerReplies
import Mathlib.Data.List.Perm.Subperm

/-!
# The list of clients

Whatever the order of events, the list holds each pointer once and only
pointers to live handlers. The other way round it may lack a live handler,
whose id a released one had: nothing puts it back, so that nothing is posted to
it for as long as it lives.
-/

namespace Registry

open ThriftTypes Database GuardedRun Server ServerReplies

def clientsConnected (s : RmsServer) : Nat := s.clients.length

/-- It follows the pointer of every client. -/
def getClientsIdList (s : RmsServer) : Option (List Int) := s.clients.mapM s.getId

structure Listed (s : RmsServer) : Prop where
  once : s.clients.Nodup
  live : ∀ h ∈ s.clients, (s.handlers h).isSome

/-- A live handler that the list lacks. -/
structure Unlisted (s : RmsServer) (h : Nat) : Prop where
  live : (s.handlers h).isSome
  missing : h ∉ s.clients

section Steps

variable (misread : List Char → Db → Option Outcome) (junk : VersionData)

theorem listed_start (backend : Backend) : Listed (start backend) :=
  ⟨List.nodup_nil, by simp [start]⟩

theorem step_listed (s : RmsServer) (e : Event) (t : RmsServer) (hs : Listed s)
    (h : step misread junk s e = some t) : Listed t := by
  by_cases connects : ∃ k, e = .connect k
  · obtain ⟨k, rfl⟩ := connects
    cases live : s.handlers k with
    | some client =>
      simp only [step, live, Option.some.injEq] at h
      exact h ▸ hs
    | none =>
      simp only [step, live, Option.some.injEq] at h
      subst h
      have fresh : k ∉ s.clients := fun mem => by simpa [live] using hs.live k mem
      refine ⟨?_, fun j hj => ?_⟩
      · exact List.nodup_append.mpr ⟨hs.once, List.nodup_singleton k, fun a ha b hb same =>
          fresh (List.mem_singleton.mp hb ▸ same ▸ ha)⟩
      · refine live_put_iff.mpr ?_
        rcases List.mem_append.mp hj with old | new
        · exact Or.inr (hs.live j old)
        · exact Or.inl (List.mem_singleton.mp new)
  by_cases disconnects : ∃ k, e = .disconnect k
  · obtain ⟨k, rfl⟩ := disconnects
    cases live : s.handlers k with
    | none =>
      simp only [step, live, Option.some.injEq] at h
      exact h ▸ hs
    | some client =>
      obtain ⟨id, own, rfl⟩ := disconnect_eq misread junk live h
      refine ⟨hs.once.filter _, fun j hj => ?_⟩
      obtain ⟨mem, other⟩ := List.mem_filter.mp hj
      refine live_delete_iff.mpr ⟨?_, hs.live j mem⟩
      rintro rfl
      simp [own] at other
  rcases step_puts misread junk (not_exists.mp connects) (not_exists.mp disconnects) h with
    rfl | ⟨k, client, client', backend, -, rfl⟩
  · exact hs
  · exact ⟨hs.once, fun j hj => live_put_iff.mpr (Or.inr (hs.live j hj))⟩

theorem Listed.clientsConnected_le {s : RmsServer} (h : Listed s) {hs : List Nat}
    (all : ∀ k, (s.handlers k).isSome → k ∈ hs) : clientsConnected s ≤ hs.length :=
  (List.subperm_of_subset h.once fun k mem => all k (h.live k mem)).length_le

theorem getClientsIdList_eq {s : RmsServer} {ids : List Int} :
    getClientsIdList s = some ids ↔
      List.Forall₂ (fun h id => s.getId h = some id) s.clients ids := by
  rw [getClientsIdList]
  generalize s.clients = hs
  induction hs generalizing ids with
  | nil => cases ids <;> simp
  | cons h hs ih =>
    cases ids with
    | nil => simp [List.mapM_cons, Option.bind_eq_some_iff]
    | cons id ids => simp [List.mapM_cons, ih, Option.bind_eq_some_iff]

/-- No run leaves a pointer to a released handler in the list, or one twice; so
no more clients are counted than are connected, and the list of their ids, where
it can be made, has one for each of them. -/
theorem run_listed (backend : Backend) {es : List Event} {t : RmsServer}
    (arrives : run (step misread junk) (start backend) es = some t) :
    Listed t ∧ (∀ hs : List Nat, (∀ k, (t.handlers k).isSome → k ∈ hs) →
        clientsConnected t ≤ hs.length) ∧
      ∀ ids, getClientsIdList t = some ids → ids.length = clientsConnected t := by
  have listed : Listed t := run_preserves (step_listed misread junk) (listed_start backend) arrives
  refine ⟨listed, fun hs all => listed.clientsConnected_le all, fun ids got => ?_⟩
  exact (getClientsIdList_eq.mp got).length_eq.symm

/-- Its queue is as it was, or has been collected. -/
structure Unreached (s t : RmsServer) (h : Nat) : Prop where
  unlisted : Unlisted t h
  queue : boxesOf t h = boxesOf s h ∨ boxesOf t h = some []

theorem unreached_put {s : RmsServer} {h k : Nat} (hs : Unlisted s h) {client : RmsClient}
    (backend : Backend)
    (queue : k = h → boxesOf s h = some client.responseQueue ∨ client.responseQueue = []) :
    Unreached s (s.put k client backend) h := by
  refine ⟨⟨live_put_iff.mpr (Or.inr hs.live), hs.missing⟩, ?_⟩
  rw [boxesOf_put, Function.update_apply]
  by_cases own : h = k
  · rw [if_pos own]
    rcases queue own.symm with same | empty
    · exact Or.inl same.symm
    · exact Or.inr (congrArg some empty)
  · rw [if_neg own]
    exact Or.inl rfl

theorem step_unreached {s t : RmsServer} {e : Event} {h : Nat} (hs : Unlisted s h)
    (stays : e ≠ .disconnect h) (moves : step misread junk s e = some t) : Unreached s t h := by
  have same : Unreached s s h := ⟨hs, Or.inl rfl⟩
  cases e with
  | connect k =>
    cases live : s.handlers k with
    | some client =>
      simp only [step, live, Option.some.injEq] at moves
      exact moves ▸ same
    | none =>
      simp only [step, live, Option.some.injEq] at moves
      subst moves
      have other : h ≠ k := by
        rintro rfl
        simpa [live] using hs.live
      have put : Unreached s (s.put k {} s.backend) h :=
        unreached_put hs s.backend fun own => absurd own.symm other
      refine ⟨⟨put.unlisted.live, fun mem => ?_⟩, put.queue⟩
      rcases List.mem_append.mp mem with old | new
      · exact hs.missing old
      · exact other (List.mem_singleton.mp new)
  | disconnect k =>
    cases live : s.handlers k with
    | none =>
      simp only [step, live, Option.some.injEq] at moves
      exact moves ▸ same
    | some client =>
      obtain ⟨id, -, rfl⟩ := disconnect_eq misread junk live moves
      have other : h ≠ k := by
        rintro rfl
        exact stays rfl
      refine ⟨⟨live_delete_iff.mpr ⟨other, hs.live⟩, ?_⟩, Or.inl ?_⟩
      · exact fun mem => hs.missing (List.mem_filter.mp mem).1
      · simp [boxesOf, other]
  | report k timestamp data =>
    cases live : s.handlers k with
    | none =>
      simp only [step, live, Option.some.injEq] at moves
      exact moves ▸ same
    | some client =>
      simp only [step, live, Option.map_eq_some_iff] at moves
      obtain ⟨⟨res, client', backend⟩, reported, rfl⟩ := moves
      exact unreached_put hs backend fun _ => Or.inr (report_reply misread reported).2.2
  | handshake k id sysInfo =>
    cases live : s.handlers k with
    | none =>
      simp only [step, live, Option.some.injEq] at moves
      exact moves ▸ same
    | some client =>
      simp only [step, live, Option.map_eq_some_iff] at moves
      obtain ⟨r, -, rfl⟩ := moves
      refine unreached_put hs r.2 fun own => Or.inl ?_
      rw [← own, boxesOf, live, Option.map_some]
  | sendSysInfo k sysInfo =>
    cases live : s.handlers k with
    | none =>
      simp only [step, live, Option.some.injEq] at moves
      exact moves ▸ same
    | some client =>
      simp only [step, live, Option.bind_eq_some_iff, Option.map_eq_some_iff] at moves
      obtain ⟨c, -, r, -, rfl⟩ := moves
      refine unreached_put hs r.2 fun own => Or.inl ?_
      rw [← own, boxesOf, live, Option.map_some]
  | status =>
    simp only [step, Option.some.injEq] at moves
    exact moves ▸ same
  | clients =>
    rw [step, Option.ite_none_right_eq_some, Option.some.injEq] at moves
    exact moves.2 ▸ same
  | infoClient id =>
    simp only [step, Option.map_eq_some_iff] at moves
    obtain ⟨_, -, rfl⟩ := moves
    exact same
  | getSysInfo id =>
    rcases getSysInfo_search misread junk moves with ⟨-, rfl⟩ | ⟨k, client, search, live, rfl⟩
    · exact same
    · have listed := (getClient_eq_some search).1
      exact unreached_put hs s.backend fun own => absurd (own ▸ listed) hs.missing
  | exec id timestamp cmd =>
    rcases exec_eq misread junk moves with ⟨-, rfl⟩ |
      ⟨k, client, data, backend, search, live, -, rfl⟩
    · exact same
    · have listed := (getClient_eq_some search).1
      exact unreached_put hs backend fun own => absurd (own ▸ listed) hs.missing

/-- As long as it is not released, a handler that the list lacks has nothing more
queued, whatever happens. -/
theorem run_unreached {s t : RmsServer} {h : Nat} (hs : Unlisted s h) {es : List Event}
    (stays : ∀ e ∈ es, e ≠ .disconnect h) (arrives : run (step misread junk) s es = some t) :
    Unreached s t h := by
  have kept (u : RmsServer) (e : Event) (v : RmsServer) (hu : Unreached s u h)
      (other : e ≠ .disconnect h) (moves : step misread junk u e = some v) :
      Unreached s v h := by
    have next := step_unreached misread junk hu.unlisted other moves
    refine ⟨next.unlisted, ?_⟩
    rcases next.queue with same | empty
    · rw [same]
      exact hu.queue
    · exact Or.inr empty
  have before : Unreached s s h := ⟨hs, Or.inl rfl⟩
  exact run_invariant kept before (guarded_of_forall stays) arrives

end Steps

theorem run_listed_reconnect :
    ∃ t, run (step (fun _ _ => none) {}) (start sqlite) reconnect = some t ∧
      Listed t ∧ (∀ hs : List Nat, (∀ k, (t.handlers k).isSome → k ∈ hs) →
        clientsConnected t ≤ hs.length) ∧
      ∀ ids, getClientsIdList t = some ids → ids.length = clientsConnected t := by
  have arrives : (run (step (fun _ _ => none) {}) (start sqlite) reconnect).isSome = true := by
    decide +kernel
  obtain ⟨t, arrives⟩ := Option.isSome_iff_exists.mp arrives
  exact ⟨t, arrives, run_listed (fun _ _ => none) {} sqlite arrives⟩

/-- The computer whose old connection was released is not reached on its new one. -/
theorem run_unreached_reconnect :
    ∃ s t, run (step (fun _ _ => none) {}) (start sqlite) reconnect = some s ∧
      run (step (fun _ _ => none) {}) s [.exec 1 0 "ls", .getSysInfo 1] = some t ∧
        Unreached s t 1 := by
  let s := (run (step (fun _ _ => none) {}) (start sqlite) reconnect).get (by decide +kernel)
  let t := (run (step (fun _ _ => none) {}) s [.exec 1 0 "ls", .getSysInfo 1]).get
    (by decide +kernel)
  refine ⟨s, t, (Option.some_get _).symm, (Option.some_get _).symm, ?_⟩
  refine run_unreached (fun _ _ => none) {} ⟨by decide +kernel, by decide +kernel⟩ ?_
    (Option.some_get _).symm
  simp

end Registry
