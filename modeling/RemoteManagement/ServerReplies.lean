import RemoteManagement.Server
import RemoteManagement.Library.Mailbox
import RemoteManagement.Library.RunTrace

/-!
# The replies of the server

The response queues of the handlers are boxes: a connection opens one, the
terminal posts to the one of the client it finds, a report collects it, and a
release closes it. So over a whole run of the server the replies hand out what
was posted, in its order and once, but for what a released handler still holds.
-/

namespace ServerReplies

open ThriftTypes SqlStatements ExecuteQuery Database QueryProgram Program GuardedRun RunTrace
open Computer Server Mailbox
open Ingestor (Clock DbRequestIngestor)

def boxesOf (s : RmsServer) (h : Nat) : Option (List RmsResponseData) :=
  (s.handlers h).map RmsClient.responseQueue

theorem boxesOf_put (s : RmsServer) (h : Nat) (client : RmsClient) (backend : Backend) :
    boxesOf (s.put h client backend) =
      Function.update (boxesOf s) h (some client.responseQueue) := by
  funext g
  rw [Function.update_apply]
  by_cases own : g = h
  · subst own
    simp [boxesOf, RmsServer.put]
  · simp [boxesOf, RmsServer.put, own]

/-- A write that leaves the queue of a client as it is. -/
theorem boxesOf_put_same {s : RmsServer} {h : Nat} {client client' : RmsClient}
    (live : s.handlers h = some client) (same : client'.responseQueue = client.responseQueue)
    (backend : Backend) : boxesOf (s.put h client' backend) = boxesOf s := by
  rw [boxesOf_put, same, Function.update_eq_self_iff]
  simp [boxesOf, live]

section Steps

variable (misread : List Char → Db → Option Outcome) (junk : VersionData)

/-- What an event does to the boxes. -/
def mail (s : RmsServer) : Event → List (Action Nat RmsResponseData)
  | .connect h => [.opened h]
  | .report h _ _ => [.collected h]
  | .disconnect h => [.closed h]
  | .getSysInfo id =>
    match s.getClient id s.clients with
    | some (some h) => [.posted h { dataType := .kSendSystemInfo }]
    | _ => []
  | .exec id timestamp cmd =>
    match s.getClient id s.clients,
        withDatabase misread (runCommand id timestamp cmd) s.backend with
    | some (some h), some (some data, _) => [.posted h data]
    | _, _ => []
  | .handshake _ _ _ | .sendSysInfo _ _ | .status | .clients | .infoClient _ => []

/-- The reply of an event, with the handler that gives it. -/
def reply (s : RmsServer) : Event → List (Nat × RmsResponse)
  | .report h timestamp data =>
    match s.handlers h with
    | none => []
    | some client =>
      ((report misread client timestamp data s.backend).map (fun r => (h, r.1))).toList
  | _ => []

/-- The boxes are the queues, and what is collected are the replies. -/
structure Mirrors (s : RmsServer) (p : Post Nat RmsResponseData)
    (replies : List (Nat × RmsResponse)) : Prop where
  boxes : p.boxes = boxesOf s
  collections : ∀ h, p.collections h =
    (replies.filter (fun r => r.1 = h)).map (fun r => r.2.data)
  counts : ∀ r ∈ replies, r.2.header.dataCount = r.2.data.length

theorem mirrors_start (backend : Backend) : Mirrors (Server.start backend) Post.empty [] :=
  ⟨rfl, fun _ => rfl, by simp⟩

theorem Mirrors.stay {s t : RmsServer} {p : Post Nat RmsResponseData}
    {replies : List (Nat × RmsResponse)} (h : Mirrors s p replies) (same : boxesOf t = boxesOf s) :
    Mirrors t p (replies ++ []) := by
  rw [List.append_nil]
  exact ⟨h.boxes.trans same.symm, h.collections, h.counts⟩

/-- Boxes that are opened or take a message have not been collected. -/
theorem Mirrors.move {s t : RmsServer} {p q : Post Nat RmsResponseData}
    {replies : List (Nat × RmsResponse)} (h : Mirrors s p replies) (boxes : q.boxes = boxesOf t)
    (left : q.left = p.left) : Mirrors t q (replies ++ []) := by
  rw [List.append_nil]
  refine ⟨boxes, fun k => ?_, h.counts⟩
  rw [Post.collections, left]
  exact h.collections k

theorem Mirrors.box {s : RmsServer} {p : Post Nat RmsResponseData}
    {replies : List (Nat × RmsResponse)} (h : Mirrors s p replies) {k : Nat}
    {client : RmsClient} (live : s.handlers k = some client) :
    p.boxes k = some client.responseQueue := by
  rw [h.boxes, boxesOf, live, Option.map_some]

theorem Mirrors.noBox {s : RmsServer} {p : Post Nat RmsResponseData}
    {replies : List (Nat × RmsResponse)} (h : Mirrors s p replies) {k : Nat}
    (dead : s.handlers k = none) : p.boxes k = none := by
  rw [h.boxes, boxesOf, dead, Option.map_none]

theorem Mirrors.post {s : RmsServer} {p : Post Nat RmsResponseData}
    {replies : List (Nat × RmsResponse)} (h : Mirrors s p replies) {k : Nat} {client : RmsClient}
    (live : s.handlers k = some client) (data : RmsResponseData) (backend : Backend) :
    Mirrors (s.put k (client.addResponse data) backend) (p.act (.posted k data))
      (replies ++ []) := by
  refine h.move ?_ ?_
  · rw [Post.act, h.box live, boxesOf_put, ← h.boxes]
    rfl
  · rw [Post.act, h.box live]

theorem Mirrors.collect {s : RmsServer} {p : Post Nat RmsResponseData}
    {replies : List (Nat × RmsResponse)} (h : Mirrors s p replies) {k : Nat}
    {client client' : RmsClient} (live : s.handlers k = some client) {res : RmsResponse}
    (all : res.data = client.responseQueue) (count : res.header.dataCount = res.data.length)
    (emptied : client'.responseQueue = []) (backend : Backend) :
    Mirrors (s.put k client' backend) (p.act (.collected k)) (replies ++ [(k, res)]) := by
  rw [Post.act, h.box live]
  refine ⟨?_, fun j => ?_, ?_⟩
  · rw [boxesOf_put, emptied, ← h.boxes]
    rfl
  · by_cases own : j = k
    · subst own
      have before := h.collections j
      rw [Post.collections] at before
      simp [Post.collections, Post.leave, List.filterMap_append, List.filter_append, before,
        Leaving.collection, all]
    · have before := h.collections j
      rw [Post.collections] at before
      simp [Post.collections, Post.leave, own, Ne.symm own, before, List.filter_append]
  · intro r hr
    rcases List.mem_append.mp hr with old | new
    · exact h.counts r old
    · rw [List.mem_singleton.mp new]
      exact count

theorem Mirrors.close {s : RmsServer} {p : Post Nat RmsResponseData}
    {replies : List (Nat × RmsResponse)} (h : Mirrors s p replies) {k : Nat} {client : RmsClient}
    (live : s.handlers k = some client) (clients : List Nat) :
    Mirrors { s with clients := clients, handlers := Function.update s.handlers k none }
      (p.act (.closed k)) (replies ++ []) := by
  rw [Post.act, h.box live, List.append_nil]
  refine ⟨?_, fun j => ?_, h.counts⟩
  · change Function.update p.boxes k none = _
    rw [h.boxes]
    funext j
    rw [Function.update_apply]
    by_cases own : j = k
    · subst own
      simp [boxesOf]
    · simp [boxesOf, own]
  · have before := h.collections j
    rw [Post.collections] at before
    by_cases own : j = k
    · subst own
      simp [Post.collections, Post.leave, List.filterMap_append, before, Leaving.collection]
    · simp [Post.collections, Post.leave, own, before]

theorem report_reply {client client' : RmsClient} {timestamp : Int}
    {data : List (Clock × RmsRequestData)} {backend backend' : Backend} {res : RmsResponse}
    (h : report misread client timestamp data backend = some (res, client', backend')) :
    res.data = client.responseQueue ∧ res.header.dataCount = res.data.length ∧
      client'.responseQueue = [] := by
  cases backend with
  | log =>
    cases h
    exact ⟨rfl, rfl, rfl⟩
  | sqlite ing conn =>
    simp only [report] at h
    split at h
    · cases h
    · cases h
      exact ⟨rfl, rfl, rfl⟩

/-- The client that is found has the request queued. -/
theorem getSysInfo_search {s t : RmsServer} {id : Int}
    (h : step misread junk s (.getSysInfo id) = some t) :
    (s.getClient id s.clients = some none ∧ t = s) ∨
      ∃ k client, s.getClient id s.clients = some (some k) ∧ s.handlers k = some client ∧
        t = s.put k (client.addResponse { dataType := .kSendSystemInfo }) s.backend := by
  simp only [step, Option.bind_eq_bind, Option.bind_eq_some_iff] at h
  obtain ⟨found, search, h⟩ := h
  cases found with
  | none => exact Or.inl ⟨search, (Option.some.inj h).symm⟩
  | some k =>
    simp only [Option.bind_eq_some_iff, pure, Option.some.injEq] at h
    obtain ⟨client, live, rfl⟩ := h
    exact Or.inr ⟨k, client, search, live, rfl⟩

theorem step_mirrors {s t : RmsServer} {e : Event} {p : Post Nat RmsResponseData}
    {replies : List (Nat × RmsResponse)} (h : Mirrors s p replies)
    (moves : step misread junk s e = some t) :
    Mirrors t ((mail misread s e).foldl Post.act p) (replies ++ reply misread s e) := by
  cases e with
  | connect k =>
    cases live : s.handlers k with
    | some client =>
      simp only [step, live, Option.some.injEq] at moves
      subst moves
      simpa [mail, reply, Post.act, h.box live] using h
    | none =>
      simp only [step, live, Option.some.injEq] at moves
      subst moves
      refine h.move ?_ ?_
      · change (p.act (.opened k)).boxes = boxesOf (s.put k {} s.backend)
        rw [Post.act, h.noBox live, boxesOf_put, ← h.boxes]
      · change (p.act (.opened k)).left = p.left
        rw [Post.act, h.noBox live]
  | report k timestamp data =>
    cases live : s.handlers k with
    | none =>
      simp only [step, live, Option.some.injEq] at moves
      subst moves
      simpa [mail, reply, live, Post.act, h.noBox live] using h
    | some client =>
      simp only [step, live, Option.map_eq_some_iff] at moves
      obtain ⟨⟨res, client', backend⟩, reported, rfl⟩ := moves
      obtain ⟨all, count, emptied⟩ := report_reply misread reported
      have replied : reply misread s (.report k timestamp data) = [(k, res)] := by
        simp [reply, live, reported]
      rw [replied]
      exact h.collect live all count emptied backend
  | disconnect k =>
    cases live : s.handlers k with
    | none =>
      simp only [step, live, Option.some.injEq] at moves
      subst moves
      simpa [mail, reply, Post.act, h.noBox live] using h
    | some client =>
      obtain ⟨id, -, rfl⟩ := disconnect_eq misread junk live moves
      exact h.close live _
  | handshake k id sysInfo =>
    refine h.stay ?_
    cases live : s.handlers k with
    | none =>
      simp only [step, live, Option.some.injEq] at moves
      rw [moves]
    | some client =>
      simp only [step, live, Option.map_eq_some_iff] at moves
      obtain ⟨r, -, rfl⟩ := moves
      have same : (RmsClient.mk (some r.1.2) client.responseQueue).responseQueue =
          client.responseQueue := rfl
      exact boxesOf_put_same live same _
  | sendSysInfo k sysInfo =>
    refine h.stay ?_
    cases live : s.handlers k with
    | none =>
      simp only [step, live, Option.some.injEq] at moves
      rw [moves]
    | some client =>
      simp only [step, live, Option.bind_eq_some_iff, Option.map_eq_some_iff] at moves
      obtain ⟨c, -, r, -, rfl⟩ := moves
      have same : (RmsClient.mk (some r.1.2) client.responseQueue).responseQueue =
          client.responseQueue := rfl
      exact boxesOf_put_same live same _
  | status =>
    simp only [step, Option.some.injEq] at moves
    exact h.stay (moves ▸ rfl)
  | clients =>
    rw [step, Option.ite_none_right_eq_some, Option.some.injEq] at moves
    exact h.stay (moves.2 ▸ rfl)
  | infoClient id =>
    simp only [step, Option.map_eq_some_iff] at moves
    obtain ⟨_, -, rfl⟩ := moves
    exact h.stay rfl
  | getSysInfo id =>
    rcases getSysInfo_search misread junk moves with ⟨search, rfl⟩ | ⟨k, client, search, live, rfl⟩
    · simpa [mail, reply, search] using h.stay rfl
    · simpa [mail, reply, search] using h.post live { dataType := .kSendSystemInfo } s.backend
  | exec id timestamp cmd =>
    rcases exec_eq misread junk moves with ⟨search, rfl⟩ |
      ⟨k, client, data, backend, search, live, asked, rfl⟩
    · simpa [mail, reply, search] using h.stay rfl
    · cases data with
      | none => simpa [mail, reply, search, asked] using h.stay (boxesOf_put_same live rfl backend)
      | some data => simpa [mail, reply, search, asked] using h.post live data backend

/-- What a step posts, collects and replies. -/
def exchange (s : RmsServer) (e : Event) :
    List (List (Action Nat RmsResponseData) × List (Nat × RmsResponse)) :=
  [(mail misread s e, reply misread s e)]

/-- In every run, and for every handler, the replies so far are what has been
collected from its box, and these, what was lost in releases and what is queued
are the responses that were posted to it, each once and in their order. -/
theorem run_replies (backend : Backend) {es : List Event} {t : RmsServer}
    (arrives : run (step misread junk) (Server.start backend) es = some t) :
    let seen := observed (step misread junk) (exchange misread) (Server.start backend) es
    let replies := seen.flatMap Prod.snd
    let post := (seen.flatMap Prod.fst).foldl Post.act Post.empty
    (∀ r ∈ replies, r.2.header.dataCount = r.2.data.length) ∧
      ∀ h, post.collections h = (replies.filter (fun r => r.1 = h)).map (fun r => r.2.data) ∧
        (post.left h).flatMap Leaving.messages ++
            ((t.handlers h).map RmsClient.responseQueue).getD [] =
          (seen.flatMap Prod.fst).filterMap (sent h) := by
  intro seen replies post
  have mirrors : Mirrors t post replies := by
    refine run_observed_start (fun s seen => Mirrors s
      ((seen.flatMap Prod.fst).foldl Post.act Post.empty) (seen.flatMap Prod.snd)) ?_
      (mirrors_start backend) arrives
    intro s e t seen h moves
    simpa [exchange] using step_mirrors misread junk h moves
  refine ⟨mirrors.counts, fun h => ⟨mirrors.collections h, ?_⟩⟩
  have all := all_acts Post.empty (seen.flatMap Prod.fst) h
  rw [Post.all, mirrors.boxes] at all
  exact all

end Steps

/-- One request is replied to, and one is queued. -/
def twoRequests : List Event :=
  [.connect 0, .handshake 0 (-1) { hostName := "a" }, .getSysInfo 1, .report 0 0 [],
    .getSysInfo 1]

theorem run_replies_twoRequests :
    let t := (run (step (fun _ _ => none) {}) (Server.start sqlite) twoRequests).get
      (by decide +kernel)
    let seen := observed (step (fun _ _ => none) {}) (exchange (fun _ _ => none))
      (Server.start sqlite) twoRequests
    let replies := seen.flatMap Prod.snd
    let post := (seen.flatMap Prod.fst).foldl Post.act Post.empty
    (∀ r ∈ replies, r.2.header.dataCount = r.2.data.length) ∧
      ∀ h, post.collections h = (replies.filter (fun r => r.1 = h)).map (fun r => r.2.data) ∧
        (post.left h).flatMap Leaving.messages ++
            ((t.handlers h).map RmsClient.responseQueue).getD [] =
          (seen.flatMap Prod.fst).filterMap (sent h) :=
  run_replies (fun _ _ => none) {} sqlite (Option.some_get _).symm

end ServerReplies
