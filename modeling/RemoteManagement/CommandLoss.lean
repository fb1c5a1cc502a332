import RemoteManagement.Identity
import RemoteManagement.ReporterCommands
import RemoteManagement.Server

/-!
# The way of a command to its reporter

A command is put in the queue of a handler. A report takes the queue away, and
its reply brings the commands to the reporter, which hands over one after the
other. A connection may drop at any time, and the server learns of it later:
until then it answers what it has received, and then it deletes the handler.
-/

namespace CommandLoss

open ThriftTypes SqlStatements ExecuteQuery Database QueryProgram Program GuardedRun
open Computer Ingestor Server ReporterCommands

/-- The reporter's end of a connection: the reply that is under way, and the
responses that the reporter is handling. `owner` records whose queue they come
from. -/
structure Link where
  lost : Bool := false
  owner : Option Int := none
  reply : Option (List RmsResponseData) := none
  handling : List RmsResponseData := []

def Link.underway (l : Link) : List RmsResponseData := l.reply.getD [] ++ l.handling

/-- The server, the reporters' ends of all connections so far, the commands that
were accepted, and those that a reporter was handed. -/
structure State where
  server : RmsServer
  links : Nat → Option Link
  accepted : List (Int × Command)
  handed : List (Option Int × Command)

def start (backend : Backend) : State := ⟨Server.start backend, fun _ => none, [], []⟩

inductive Event where
  | connect (h : Nat)
  | handshake (h : Nat) (id : Int) (sysInfo : SystemInfo)
  | sendSysInfo (h : Nat) (sysInfo : SystemInfo)
  | exec (id : Int) (timestamp : Int) (cmd : String)
  | getSysInfo (id : Int)
  | report (h : Nat) (timestamp : Int) (data : List (Clock × RmsRequestData))
  | arrive (h : Nat)
  | handle (h : Nat) (sent : Bool)
  | drop (h : Nat)
  | release (h : Nat)

def State.setLink (s : State) (h : Nat) (link : Link) : State :=
  { s with links := Function.update s.links h (some link) }

section Steps

variable (misread : List Char → Db → Option Outcome) (junk : VersionData)

/-- The command that `runCommand` has stored and queued, if it has. -/
def acceptedBy (s : RmsServer) (id timestamp : Int) (cmd : String) : List (Int × Command) :=
  match s.getClient id s.clients with
  | some (some _) =>
    match withDatabase misread (runCommand id timestamp cmd) s.backend with
    | some (some data, _) => [(id, data.data.command)]
    | _ => []
  | _ => []

/-- A reporter handshakes once on each connection, and reports again only when
it has handled the reply. -/
def step (s : State) : Event → Option State
  | .connect h =>
    if (s.links h).isSome ∨ (s.server.handlers h).isSome then some s
    else (Server.step misread junk s.server (.connect h)).map
      (fun server => { s with server := server }.setLink h {})
  | .handshake h id sysInfo =>
    if (s.server.getId h).isSome then some s
    else (Server.step misread junk s.server (.handshake h id sysInfo)).map
      (fun server => { s with server := server })
  | .sendSysInfo h sysInfo => (Server.step misread junk s.server (.sendSysInfo h sysInfo)).map
      (fun server => { s with server := server })
  | .exec id timestamp cmd => (Server.step misread junk s.server (.exec id timestamp cmd)).map
      (fun server => { s with
        server := server, accepted := s.accepted ++ acceptedBy misread s.server id timestamp cmd })
  | .getSysInfo id => (Server.step misread junk s.server (.getSysInfo id)).map
      (fun server => { s with server := server })
  | .report h timestamp data =>
    match s.server.handlers h, s.links h with
    | some client, some link =>
      if link.underway ≠ [] then some s
      else (report misread client timestamp data s.server.backend).map (fun r =>
        { s with server := s.server.put h r.2.1 r.2.2 }.setLink h { link with
          owner := s.server.getId h, reply := if link.lost then none else some r.1.data })
    | _, _ => some s
  | .arrive h =>
    match s.links h with
    | some link =>
      some (s.setLink h { link with reply := none, handling := link.underway })
    | none => some s
  | .handle h sent =>
    match s.links h with
    | some { lost, owner, reply, handling := data :: rest } =>
      match data.dataType with
      | .kRunCommand => some ({ s with handed := s.handed ++ [(owner, data.data.command)] }.setLink h
          ⟨lost, owner, reply, rest⟩)
      -- a system information that cannot be sent throws out of the loop
      | .kSendSystemInfo => some (s.setLink h ⟨lost, owner, reply, if sent then rest else []⟩)
      | .kRunScript => some (s.setLink h ⟨lost, owner, reply, rest⟩)
    | _ => some s
  | .drop h =>
    match s.links h with
    | some link => some (s.setLink h { link with lost := true, reply := none })
    | none => some s
  | .release h => (Server.step misread junk s.server (.disconnect h)).map
      (fun server => { s with server := server })

end Steps

/-- The command is in the queue of a live handler of its computer, or on its way
to the reporter, or the reporter has been handed it. -/
inductive Waits (s : State) (a : Int × Command) : Prop where
  | queued (h : Nat) (client : RmsClient) (live : s.server.handlers h = some client)
    (own : s.server.getId h = some a.1) (mem : a.2 ∈ commands client.responseQueue)
  | underway (h : Nat) (link : Link) (here : s.links h = some link) (own : link.owner = some a.1)
    (mem : a.2 ∈ commands link.underway)
  | handed (mem : (some a.1, a.2) ∈ s.handed)

/-- No accepted command has vanished. -/
def Kept (s : State) : Prop := ∀ a ∈ s.accepted, Waits s a

/-- No command is in a queue that is deleted, in a reply that cannot arrive, or
behind a system information that cannot be sent. -/
def Lossless (s : State) : Event → Prop
  | .report h _ _ => ∀ client ∈ s.server.handlers h, ∀ link ∈ s.links h,
      link.lost = true → commands client.responseQueue = []
  | .drop h => ∀ link ∈ s.links h, commands (link.reply.getD []) = []
  | .handle h sent => sent = true ∨ ∀ link ∈ s.links h, ∀ data ∈ link.handling.head?,
      data.dataType = .kSendSystemInfo → commands link.handling = []
  | .release h => ∀ client ∈ s.server.handlers h, commands client.responseQueue = []
  | _ => True

instance decidableLossless (s : State) : ∀ e, Decidable (Lossless s e)
  | .report h _ _ => inferInstanceAs (Decidable (∀ client ∈ s.server.handlers h,
      ∀ link ∈ s.links h, link.lost = true → commands client.responseQueue = []))
  | .drop h => inferInstanceAs (Decidable (∀ link ∈ s.links h, commands (link.reply.getD []) = []))
  | .handle h sent => inferInstanceAs (Decidable (sent = true ∨ ∀ link ∈ s.links h,
      ∀ data ∈ link.handling.head?, data.dataType = .kSendSystemInfo → commands link.handling = []))
  | .release h => inferInstanceAs (Decidable (∀ client ∈ s.server.handlers h,
      commands client.responseQueue = []))
  | .connect _ | .handshake _ _ _ | .sendSysInfo _ _ | .exec _ _ _ | .getSysInfo _ | .arrive _ =>
    isTrue trivial

section Servers

variable {misread : List Char → Db → Option Outcome} {junk : VersionData}

/-- What is queued for a computer stays queued for it. -/
def Holds (s t : RmsServer) : Prop :=
  ∀ h client i, s.handlers h = some client → s.getId h = some i →
    ∃ client', t.handlers h = some client' ∧ t.getId h = some i ∧
      commands client.responseQueue ⊆ commands client'.responseQueue

theorem Holds.refl (s : RmsServer) : Holds s s :=
  fun _ client _ live own => ⟨client, live, own, List.Subset.refl _⟩

theorem getId_of_live {s : RmsServer} {h : Nat} {client : RmsClient}
    (live : s.handlers h = some client) : s.getId h = client.computer.map RmsComputer.computerId := by
  cases computer : client.computer <;> simp [RmsServer.getId, live, computer]

theorem getId_put_self (s : RmsServer) (h : Nat) (client : RmsClient) (backend : Backend) :
    (s.put h client backend).getId h = client.computer.map RmsComputer.computerId :=
  getId_of_live (by simp [RmsServer.put])

theorem getId_put_of_ne (s : RmsServer) {h g : Nat} (other : g ≠ h) (client : RmsClient)
    (backend : Backend) : (s.put h client backend).getId g = s.getId g := by
  simp [RmsServer.getId, RmsServer.put, other]

/-- A client that is written has its id and its commands as before, if it had
an id. -/
theorem holds_put {s : RmsServer} {k : Nat} {client' : RmsClient} {backend : Backend}
    (own : ∀ client i, s.handlers k = some client → s.getId k = some i →
      client'.computer.map RmsComputer.computerId = some i ∧
        commands client.responseQueue ⊆ commands client'.responseQueue) :
    Holds s (s.put k client' backend) := by
  intro h client i live id
  by_cases same : h = k
  · subst same
    obtain ⟨id', kept⟩ := own client i live id
    exact ⟨client', by simp [RmsServer.put], by rw [getId_put_self, id'], kept⟩
  · exact ⟨client, by simp [RmsServer.put, same, live], by rw [getId_put_of_ne s same, id],
      List.Subset.refl _⟩

theorem holds_addResponse {s : RmsServer} {k : Nat} {client : RmsClient}
    (live : s.handlers k = some client) (data : RmsResponseData) (backend : Backend) :
    Holds s (s.put k (client.addResponse data) backend) := by
  refine holds_put fun client' i live' id => ?_
  obtain rfl := Option.some.inj (live.symm.trans live')
  refine ⟨by rw [← id, getId_of_live live]; rfl, ?_⟩
  rw [RmsClient.addResponse, commands_append]
  exact List.subset_append_left _ _

theorem withDatabase_returns {α : Type} {P : α → Prop} {p : DbProgram α} (returns : p.Returns P)
    {backend backend' : Backend} {a : α}
    (h : withDatabase misread p backend = some (a, backend')) : P a := by
  cases backend with
  | sqlite ing conn =>
    simp only [withDatabase, Option.some.injEq, Prod.mk.injEq] at h
    exact h.1 ▸ run_returns (answer misread) returns conn
  | log =>
    cases p with
    | ret a' =>
      simp only [withDatabase, Option.some.injEq, Prod.mk.injEq] at h
      exact h.1 ▸ returns
    | query q next => cases h

theorem updateDB_returns (c : RmsComputer) :
    c.updateDB.Returns (fun r => r.2.computerId = c.computerId) := by
  rw [RmsComputer.updateDB]
  split
  · rfl
  · exact returns_bind (returns_any _) fun _ _ => returns_bind (returns_any _) fun _ _ => rfl

theorem runCommand_returns (id timestamp : Int) (cmd : String) :
    (runCommand id timestamp cmd).Returns (fun o => ∀ data ∈ o, data.dataType = .kRunCommand) := by
  simp only [runCommand, ask, bind_eq, query_bind, ret_bind, returns_query]
  intro res
  split
  · rintro data ⟨⟩
    rfl
  · rintro data ⟨⟩

theorem holds_connect {s t : RmsServer} {h : Nat}
    (made : Server.step misread junk s (.connect h) = some t) : Holds s t := by
  cases live : s.handlers h with
  | some client =>
    simp only [Server.step, live, Option.some.injEq] at made
    exact made ▸ .refl s
  | none =>
    simp only [Server.step, live, Option.some.injEq] at made
    have unborn : Holds s (s.put h {} s.backend) := holds_put fun client i live' _ => by
      rw [live] at live'
      cases live'
    exact made ▸ unborn

theorem holds_handshake {s t : RmsServer} {h : Nat} {id : Int} {sysInfo : SystemInfo}
    (unready : s.getId h = none)
    (made : Server.step misread junk s (.handshake h id sysInfo) = some t) : Holds s t := by
  cases live : s.handlers h with
  | none =>
    simp only [Server.step, live, Option.some.injEq] at made
    exact made ▸ .refl s
  | some client =>
    simp only [Server.step, live, Option.map_eq_some_iff] at made
    obtain ⟨r, -, rfl⟩ := made
    refine holds_put fun _ i _ ready => ?_
    rw [unready] at ready
    cases ready

theorem holds_sendSysInfo {s t : RmsServer} {h : Nat} {sysInfo : SystemInfo}
    (made : Server.step misread junk s (.sendSysInfo h sysInfo) = some t) : Holds s t := by
  cases live : s.handlers h with
  | none =>
    simp only [Server.step, live, Option.some.injEq] at made
    exact made ▸ .refl s
  | some client =>
    simp only [Server.step, live, Option.bind_eq_some_iff, Option.map_eq_some_iff] at made
    obtain ⟨c, computer, ⟨⟨done, c'⟩, backend⟩, stored, rfl⟩ := made
    have same := withDatabase_returns (updateDB_returns (c.setSysInfo sysInfo)) stored
    rw [setSysInfo_computerId] at same
    refine holds_put fun client' i live' id => ?_
    obtain rfl := Option.some.inj (live.symm.trans live')
    rw [getId_of_live live, computer] at id
    exact ⟨by rw [← id]; exact congrArg some same, List.Subset.refl _⟩

theorem holds_getSysInfo {s t : RmsServer} {id : Int}
    (made : Server.step misread junk s (.getSysInfo id) = some t) : Holds s t := by
  rcases getSysInfo_eq misread junk made with rfl | ⟨k, client, live, rfl⟩
  · exact .refl t
  · exact holds_addResponse live _ _

/-- A command that is accepted is queued for the computer that it is meant for. -/
theorem holds_exec {s t : RmsServer} {id timestamp : Int} {cmd : String}
    (made : Server.step misread junk s (.exec id timestamp cmd) = some t) :
    Holds s t ∧ ∀ a ∈ acceptedBy misread s id timestamp cmd, ∃ h client,
      t.handlers h = some client ∧ t.getId h = some a.1 ∧ a.2 ∈ commands client.responseQueue := by
  rcases exec_eq misread junk made with ⟨search, rfl⟩ |
    ⟨k, client, data, backend, search, live, stored, rfl⟩
  · exact ⟨.refl t, by simp [acceptedBy, search]⟩
  · have own := (getClient_eq_some search).2
    cases data with
    | none =>
      refine ⟨holds_put fun client' i live' id => ?_, by simp [acceptedBy, search, stored]⟩
      obtain rfl := Option.some.inj (live.symm.trans live')
      exact ⟨by rw [← id, getId_of_live live]; rfl, List.Subset.refl _⟩
    | some data =>
      have command := withDatabase_returns (runCommand_returns id timestamp cmd) stored data rfl
      refine ⟨holds_addResponse live data backend, ?_⟩
      simp only [acceptedBy, search, stored, List.mem_singleton, forall_eq]
      refine ⟨k, client.addResponse data, by simp [RmsServer.put], ?_, ?_⟩
      · rw [← own, getId_of_live live]
        exact getId_put_self s k _ _
      · rw [RmsClient.addResponse, commands_append, commands_cons_command command]
        exact List.mem_append_right _ List.mem_cons_self

end Servers

section Steps

variable {misread : List Char → Db → Option Outcome} {junk : VersionData}

/-- What is under way on a link stays under way, or is handed over. -/
theorem Waits.mono {s t : State} {a : Int × Command} (waits : Waits s a)
    (queued : ∀ h client, s.server.handlers h = some client → s.server.getId h = some a.1 →
      a.2 ∈ commands client.responseQueue → Waits t a)
    (underway : ∀ h link, s.links h = some link → link.owner = some a.1 →
      a.2 ∈ commands link.underway → Waits t a)
    (handed : s.handed ⊆ t.handed) : Waits t a := by
  cases waits with
  | queued h client live own mem => exact queued h client live own mem
  | underway h link here own mem => exact underway h link here own mem
  | handed mem => exact .handed (handed mem)

theorem Waits.server {s : State} {a : Int × Command} (waits : Waits s a) {server : RmsServer}
    (holds : Holds s.server server) (accepted : List (Int × Command)) :
    Waits { s with server := server, accepted := accepted } a := by
  refine waits.mono (fun h client live own mem => ?_)
    (fun h link here own mem => .underway h link here own mem) (List.Subset.refl _)
  obtain ⟨client', live', own', kept⟩ := holds h client a.1 live own
  exact .queued h client' live' own' (kept mem)

theorem Kept.server {s : State} (kept : Kept s) {server : RmsServer}
    (holds : Holds s.server server) : Kept { s with server := server } :=
  fun a ha => (kept a ha).server holds s.accepted

/-- A link that is written has what it had, apart from what is handed over. -/
theorem Kept.setLink {s : State} (kept : Kept s) {h : Nat} {link' : Link}
    {handed : List (Option Int × Command)}
    (own : ∀ link, s.links h = some link → ∀ a : Int × Command, link.owner = some a.1 →
      a.2 ∈ commands link.underway →
      link'.owner = some a.1 ∧ a.2 ∈ commands link'.underway ∨ (some a.1, a.2) ∈ handed) :
    Kept ({ s with handed := s.handed ++ handed }.setLink h link') := by
  intro a ha
  refine (kept a ha).mono (fun g client live own mem => .queued g client live own mem) ?_
    (List.subset_append_left _ _)
  intro g link here owner mem
  by_cases same : g = h
  · subst same
    rcases own link here a owner mem with ⟨owner', mem'⟩ | given
    · exact .underway g link' (by simp [State.setLink]) owner' mem'
    · exact .handed (List.mem_append_right _ given)
  · exact .underway g link (by simp [State.setLink, same, here]) owner mem

theorem Kept.relink {s : State} (kept : Kept s) {h : Nat} {link' : Link}
    (own : ∀ link, s.links h = some link → ∀ a : Int × Command, link.owner = some a.1 →
      a.2 ∈ commands link.underway →
      link'.owner = some a.1 ∧ a.2 ∈ commands link'.underway) : Kept (s.setLink h link') := by
  have written : Kept ({ s with handed := s.handed ++ [] }.setLink h link') :=
    kept.setLink fun link here a owner mem => Or.inl (own link here a owner mem)
  rw [List.append_nil] at written
  exact written

/-- A report takes the queue away, which is under way then or has no commands. -/
theorem kept_report {s : State} (kept : Kept s) {h : Nat} {client client' : RmsClient} {link : Link}
    (live : s.server.handlers h = some client) (here : s.links h = some link)
    (ready : link.underway = [])
    (lossless : link.lost = true → commands client.responseQueue = []) (backend : Backend) :
    Kept ({ s with server := s.server.put h client' backend }.setLink h { link with
      owner := s.server.getId h
      reply := if link.lost then none else some client.responseQueue }) := by
  intro a ha
  refine (kept a ha).mono ?_ ?_ (List.Subset.refl _)
  · intro g client₀ live₀ own mem
    by_cases same : g = h
    · subst same
      obtain rfl := Option.some.inj (live.symm.trans live₀)
      have connected : link.lost = false := by
        by_contra lost
        rw [lossless (by simpa using lost)] at mem
        cases mem
      refine .underway g _ (by simp [State.setLink]; rfl) own ?_
      simp only [Link.underway, connected, commands_append]
      exact List.mem_append_left _ mem
    · exact .queued g client₀ (by simp [State.setLink, RmsServer.put, same, live₀])
        (by simpa [State.setLink, getId_put_of_ne s.server same] using own) mem
  · intro g link₀ here₀ own mem
    by_cases same : g = h
    · subst same
      obtain rfl := Option.some.inj (here.symm.trans here₀)
      rw [ready] at mem
      cases mem
    · exact .underway g link₀ (by simp [State.setLink, same, here₀]) own mem

theorem data_report {client : RmsClient} {timestamp : Int} {data : List (Clock × RmsRequestData)}
    {backend : Backend} {r : RmsResponse × RmsClient × Backend}
    (h : report misread client timestamp data backend = some r) :
    r.1.data = client.responseQueue := by
  cases backend with
  | log => exact Option.some.inj h ▸ rfl
  | sqlite ing conn =>
    simp only [report] at h
    split at h
    · cases h
    · exact Option.some.inj h ▸ rfl

/-- The server deletes a handler. -/
theorem kept_release {s : State} (kept : Kept s) {h : Nat} {server : RmsServer}
    (lossless : ∀ client ∈ s.server.handlers h, commands client.responseQueue = [])
    (made : Server.step misread junk s.server (.disconnect h) = some server) :
    Kept { s with server := server } := by
  cases live : s.server.handlers h with
  | none =>
    simp only [Server.step, live, Option.some.injEq] at made
    exact made ▸ kept
  | some client =>
    obtain ⟨id, -, rfl⟩ := disconnect_eq misread junk live made
    refine fun a ha => (kept a ha).mono (fun g client₀ live₀ own mem => ?_)
      (fun g link here own mem => .underway g link here own mem) (List.Subset.refl _)
    by_cases same : g = h
    · subst same
      rw [lossless client₀ live₀] at mem
      cases mem
    · exact .queued g client₀ (by simpa [same] using live₀)
        (by simpa [RmsServer.getId, same] using own) mem

/-- The responses are handled one after the other. -/
theorem kept_handle {s t : State} (kept : Kept s) {h : Nat} {sent : Bool}
    (lossless : Lossless s (.handle h sent))
    (made : step misread junk s (.handle h sent) = some t) : Kept t := by
  rw [step] at made
  split at made
  · rename_i lost owner reply data rest here
    -- what is left of the link when a response that is no command is handled
    have other (rest' : List RmsResponseData)
        (same : ∀ c, c ∈ commands (data :: rest) → c ∈ commands rest') :
        Kept (s.setLink h ⟨lost, owner, reply, rest'⟩) := by
      refine kept.relink fun link here' a own mem => ?_
      obtain rfl := Option.some.inj (here.symm.trans here')
      simp only [Link.underway, commands_append, List.mem_append] at mem ⊢
      exact ⟨own, mem.imp_right (same a.2)⟩
    split at made
    · rename_i command
      obtain rfl := Option.some.inj made
      refine kept.setLink fun link here' a own mem => ?_
      obtain rfl := Option.some.inj (here.symm.trans here')
      simp only [Link.underway, commands_append, commands_cons_command command, List.mem_append,
        List.mem_cons] at mem ⊢
      rcases mem with inReply | first | later
      · exact Or.inl ⟨own, Or.inl inReply⟩
      · have owner : owner = some a.1 := own
        exact Or.inr (Or.inl (by rw [owner, first]))
      · exact Or.inl ⟨own, Or.inr later⟩
    · rename_i sysInfo
      obtain rfl := Option.some.inj made
      refine other _ fun c mem => ?_
      rcases lossless with rfl | none
      · rwa [commands_cons_of_ne (by simp [sysInfo])] at mem
      · rw [none _ here data rfl sysInfo] at mem
        cases mem
    · rename_i script
      obtain rfl := Option.some.inj made
      refine other rest fun c mem => ?_
      rwa [commands_cons_of_ne (by simp [script])] at mem
  · exact Option.some.inj made ▸ kept

theorem step_kept (s : State) (e : Event) (t : State) (kept : Kept s) (lossless : Lossless s e)
    (h : step misread junk s e = some t) : Kept t := by
  cases e with
  | connect g =>
    rw [step] at h
    split at h
    · exact Option.some.inj h ▸ kept
    · rename_i new
      obtain ⟨server, made, rfl⟩ := Option.map_eq_some_iff.mp h
      refine (kept.server (holds_connect made)).relink fun link here => ?_
      have old : s.links g = some link := here
      simp [old] at new
  | handshake g id sysInfo =>
    rw [step] at h
    split at h
    · exact Option.some.inj h ▸ kept
    · rename_i unready
      obtain ⟨server, made, rfl⟩ := Option.map_eq_some_iff.mp h
      exact kept.server (holds_handshake (by simpa using unready) made)
  | sendSysInfo g sysInfo =>
    obtain ⟨server, made, rfl⟩ := Option.map_eq_some_iff.mp h
    exact kept.server (holds_sendSysInfo made)
  | exec id timestamp cmd =>
    obtain ⟨server, made, rfl⟩ := Option.map_eq_some_iff.mp h
    obtain ⟨holds, queued⟩ := holds_exec made
    intro a ha
    rcases List.mem_append.mp ha with old | new
    · exact (kept a old).server holds _
    · obtain ⟨k, client, live, own, mem⟩ := queued a new
      exact .queued k client live own mem
  | getSysInfo id =>
    obtain ⟨server, made, rfl⟩ := Option.map_eq_some_iff.mp h
    exact kept.server (holds_getSysInfo made)
  | report g timestamp data =>
    rw [step] at h
    split at h
    · rename_i client link live here
      split at h
      · exact Option.some.inj h ▸ kept
      · rename_i ready
        obtain ⟨r, made, rfl⟩ := Option.map_eq_some_iff.mp h
        rw [data_report made]
        exact kept_report kept live here (not_not.mp ready) (lossless client live link here) r.2.2
    · exact Option.some.inj h ▸ kept
  | arrive g =>
    rw [step] at h
    split at h
    · rename_i link here
      obtain rfl := Option.some.inj h
      refine kept.relink fun link' here' a own mem => ?_
      obtain rfl := Option.some.inj (here.symm.trans here')
      exact ⟨own, mem⟩
    · exact Option.some.inj h ▸ kept
  | handle g sent => exact kept_handle kept lossless h
  | drop g =>
    rw [step] at h
    split at h
    · rename_i link here
      obtain rfl := Option.some.inj h
      refine kept.relink fun link' here' a own mem => ?_
      obtain rfl := Option.some.inj (here.symm.trans here')
      rw [Link.underway, commands_append, lossless link here, List.nil_append] at mem
      exact ⟨own, mem⟩
    · exact Option.some.inj h ▸ kept
  | release g =>
    obtain ⟨server, made, rfl⟩ := Option.map_eq_some_iff.mp h
    exact kept_release kept lossless made

/-- On a run that loses none, every accepted command is at every moment in the
queue of a live handler of its computer, on its way, or handed to the reporter. -/
theorem lossless_run_kept (backend : Backend) {es : List Event} {t : State}
    (lossless : Guarded (step misread junk) Lossless (start backend) es)
    (arrives : run (step misread junk) (start backend) es = some t) : Kept t :=
  run_invariant step_kept (fun _ ha => absurd ha List.not_mem_nil) lossless arrives

end Steps

/-- A command that arrives, after a request for the system information. -/
def arriving : List Event :=
  [.connect 0, .handshake 0 (-1) { hostName := "a" }, .getSysInfo 1, .exec 1 5 "uptime",
    .report 0 6 [], .arrive 0, .handle 0 true, .handle 0 true, .drop 0, .release 0]

theorem arriving_kept :
    Kept ((run (step (fun _ _ => none) {}) (start sqlite) arriving).get (by decide +kernel)) :=
  lossless_run_kept sqlite (by decide +kernel) (Option.some_get _).symm

section Connected

variable {misread : List Char → Db → Option Outcome} {junk : VersionData} {P : Nat → Prop}

/-- Handlers and links are under numbers of a kind. -/
def Known (P : Nat → Prop) (s : State) : Prop :=
  ∀ h, (s.server.handlers h).isSome ∨ (s.links h).isSome → P h

theorem Known.server {s : State} (known : Known P s) {server : RmsServer}
    (live : ∀ h, (server.handlers h).isSome → P h) (accepted : List (Int × Command)) :
    Known P { s with server := server, accepted := accepted } :=
  fun h there => there.elim (live h) fun link => known h (Or.inr link)

theorem Known.setLink {s : State} (known : Known P s) {h : Nat} (here : P h) (link : Link)
    (handed : List (Option Int × Command)) :
    Known P ({ s with handed := handed }.setLink h link) := by
  intro g there
  by_cases same : g = h
  · exact same ▸ here
  · exact known g (by simpa [State.setLink, same] using there)

/-- Only a connect makes a handler. -/
theorem live_of_step {s t : RmsServer} {e : Server.Event} (connects : ∀ k, e ≠ .connect k)
    (made : Server.step misread junk s e = some t) (h : Nat) (live : (t.handlers h).isSome) :
    (s.handlers h).isSome := by
  by_cases disconnects : ∃ k, e = .disconnect k
  · obtain ⟨k, rfl⟩ := disconnects
    cases before : s.handlers k with
    | none =>
      simp only [Server.step, before, Option.some.injEq] at made
      exact made ▸ live
    | some client =>
      obtain ⟨id, -, rfl⟩ := disconnect_eq misread junk before made
      exact (live_delete_iff.mp live).2
  · rcases step_puts misread junk connects (not_exists.mp disconnects) made with
      rfl | ⟨k, client, client', backend, before, rfl⟩
    · exact live
    · rcases live_put_iff.mp live with rfl | old
      · rw [before]
        rfl
      · exact old

theorem step_known (s : State) (e : Event) (t : State) (known : Known P s)
    (connects : ∀ h, e = .connect h → P h) (h : step misread junk s e = some t) : Known P t := by
  -- the server's own steps
  have server {event : Server.Event} {server : RmsServer} (other : ∀ k, event ≠ .connect k)
      (made : Server.step misread junk s.server event = some server) (k : Nat)
      (live : (server.handlers k).isSome) : P k :=
    known k (Or.inl (live_of_step other made k live))
  cases e with
  | connect g =>
    rw [step] at h
    split at h
    · exact Option.some.inj h ▸ known
    · obtain ⟨server, made, rfl⟩ := Option.map_eq_some_iff.mp h
      refine (known.server (fun k live => ?_) s.accepted).setLink (connects g rfl) {} s.handed
      cases before : s.server.handlers g with
      | some client =>
        simp only [Server.step, before, Option.some.injEq] at made
        exact known k (Or.inl (made ▸ live))
      | none =>
        simp only [Server.step, before, Option.some.injEq] at made
        subst made
        rcases live_put_iff.mp live with rfl | old
        · exact connects k rfl
        · exact known k (Or.inl old)
  | handshake g id sysInfo =>
    rw [step] at h
    split at h
    · exact Option.some.inj h ▸ known
    · obtain ⟨after, made, rfl⟩ := Option.map_eq_some_iff.mp h
      exact known.server (server (by simp) made) s.accepted
  | sendSysInfo | exec | getSysInfo | release =>
    obtain ⟨after, made, rfl⟩ := Option.map_eq_some_iff.mp h
    exact known.server (server (by simp) made) _
  | report g timestamp data =>
    rw [step] at h
    split at h
    · rename_i client link live here
      have own : P g := known g (Or.inl (by rw [live]; rfl))
      split at h
      · exact Option.some.inj h ▸ known
      · obtain ⟨r, -, rfl⟩ := Option.map_eq_some_iff.mp h
        refine (known.server (fun k live => ?_) s.accepted).setLink own _ s.handed
        rcases live_put_iff.mp live with rfl | old
        · exact own
        · exact known k (Or.inl old)
    · exact Option.some.inj h ▸ known
  | arrive g | drop g =>
    rw [step] at h
    split at h
    · rename_i link here
      exact Option.some.inj h ▸ known.setLink (known g (Or.inr (by rw [here]; rfl))) _ s.handed
    · exact Option.some.inj h ▸ known
  | handle g sent =>
    rw [step] at h
    split at h
    · rename_i here
      have own : P g := known g (Or.inr (by rw [here]; rfl))
      split at h <;> exact Option.some.inj h ▸ known.setLink own _ _
    · exact Option.some.inj h ▸ known

end Connected

/-- The connection drops while the reply with the command is under way. -/
def dropping : List Event :=
  [.connect 0, .handshake 0 (-1) { hostName := "a" }, .exec 1 5 "uptime", .report 0 6 [], .drop 0]

theorem dropping_arrives : ∃ t ∈ run (step (fun _ _ => none) {}) (start sqlite) dropping,
    (1, { command := "uptime", id := 1 }) ∈ t.accepted ∧ t.handed = [] ∧
      (∀ client ∈ t.server.handlers 0, commands client.responseQueue = []) ∧
        ∀ link ∈ t.links 0, commands link.underway = [] := by
  decide +kernel

theorem dropping_not_kept :
    ¬ ∀ backend es t, run (step (fun _ _ => none) {}) (start backend) es = some t → Kept t := by
  intro all
  obtain ⟨t, arrives, accepted, handed, noQueue, noReply⟩ := dropping_arrives
  -- every handler and link is that of the one connection
  have one : Known (· = 0) t :=
    run_invariant step_known (fun h there => by simp [start, Server.start] at there)
      (guarded_of_forall (P := fun e => ∀ h, e = Event.connect h → h = 0)
        fun e he h connect => by subst connect; simpa [dropping] using he) arrives
  cases all sqlite dropping t arrives _ accepted with
  | queued h client live own mem =>
    obtain rfl : h = 0 := one h (Or.inl (by rw [live]; rfl))
    rw [noQueue client live] at mem
    cases mem
  | underway h link here own mem =>
    obtain rfl : h = 0 := one h (Or.inr (by rw [here]; rfl))
    rw [noReply link here] at mem
    cases mem
  | handed mem =>
    rw [handed] at mem
    cases mem

end CommandLoss
