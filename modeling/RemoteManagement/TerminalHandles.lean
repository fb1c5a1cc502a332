import RemoteManagement.Server

/-!
# The handlers that the terminal holds

The terminal looks a client up under the lock of the registry and uses the
pointer after the lock is released. A connection that ends is taken out of the
registry under the lock, and its handler is deleted after that. Between these
steps anything can happen.
-/

namespace TerminalHandles

open ThriftTypes SqlStatements ExecuteQuery Database QueryProgram Program GuardedRun
open Computer Ingestor Server

/-- What the terminal does with a client that it has looked up. -/
inductive Use where
  | print
  | addResponse (data : RmsResponseData)
  | runCommand (timestamp : Int) (cmd : String)

/-- The terminal's commands that look a client up. -/
inductive Command where
  | infoClient
  | getSysInfo
  | exec (timestamp : Int) (cmd : String)

def Command.use : Command → Use
  | .infoClient => .print
  | .getSysInfo => .addResponse { dataType := .kSendSystemInfo }
  | .exec timestamp cmd => .runCommand timestamp cmd

/-- What a connection calls on its handler. -/
inductive Call where
  | handshake (id : Int) (sysInfo : SystemInfo)
  | report (timestamp : Int) (data : List (Clock × RmsRequestData))
  | sendSysInfo (sysInfo : SystemInfo)

def Call.event (h : Nat) : Call → Server.Event
  | .handshake id sysInfo => .handshake h id sysInfo
  | .report timestamp data => .report h timestamp data
  | .sendSysInfo sysInfo => .sendSysInfo h sysInfo

/-- The handlers that were made, each under a number of its own, those that are
out of the registry and about to be deleted, and the one that the terminal has
a pointer to. -/
structure State where
  server : RmsServer
  made : List Nat
  leaving : List Nat
  held : Option (Nat × Use)

def start (backend : Backend) : State := ⟨Server.start backend, [], [], none⟩

inductive Event where
  | connect (h : Nat)
  | call (h : Nat) (call : Call)
  | removeClient (h : Nat)
  | delete (h : Nat)
  | getClient (id : Int) (command : Command)
  | use

section Steps

variable (misread : List Char → Db → Option Outcome) (junk : VersionData)

/-- A step of the terminal on a live client, and what is left to do with it. -/
def useClient (s : RmsServer) (h : Nat) (client : RmsClient) :
    Use → Option (RmsServer × Option (Nat × Use))
  | .print => (s.getId h).map (fun _ => (s, none))
  | .addResponse data => some (s.put h (client.addResponse data) s.backend, none)
  | .runCommand timestamp cmd => do
    let id ← s.getId h
    let (data, backend) ← withDatabase misread (runCommand id timestamp cmd) s.backend
    return ({ s with backend := backend }, data.map (fun data => (h, .addResponse data)))

/-- `releaseHandler` in two steps; the terminal does one thing after the other. -/
def step (s : State) : Event → Option State
  | .connect h =>
    if h ∈ s.made then some s
    else (Server.step misread junk s.server (.connect h)).map
      (fun server => { s with server := server, made := h :: s.made })
  | .call h call =>
    if h ∈ s.leaving then some s
    else (Server.step misread junk s.server (call.event h)).map
      (fun server => { s with server := server })
  | .removeClient h =>
    if (s.server.handlers h).isNone ∨ h ∈ s.leaving then some s
    else do
      let id ← s.server.getId h
      let server ← s.server.removeClient id
      return { s with server := server, leaving := h :: s.leaving }
  | .delete h =>
    if h ∈ s.leaving then some { s with
      server := { s.server with handlers := Function.update s.server.handlers h none }
      leaving := s.leaving.filter (· ≠ h) }
    else some s
  | .getClient id command =>
    match s.held with
    | some _ => some s
    | none => (s.server.getClient id s.server.clients).map
      (fun found => { s with held := found.map (fun h => (h, command.use)) })
  | .use =>
    match s.held with
    | none => some s
    | some (h, use) => do
      -- a client that has been deleted cannot be used
      let client ← s.server.handlers h
      let (server, held) ← useClient misread s.server h client use
      return { s with server := server, held := held }

/-- The terminal uses a handler that has not been deleted. -/
def UsesLive (s : State) : Event → Prop
  | .use => ∀ held ∈ s.held, (s.server.handlers held.1).isSome
  | _ => True

instance decidableUsesLive (s : State) : ∀ e, Decidable (UsesLive s e)
  | .use => inferInstanceAs (Decidable (∀ held ∈ s.held, (s.server.handlers held.1).isSome))
  | .connect _ | .call _ _ | .removeClient _ | .delete _ | .getClient _ _ => isTrue trivial

/-- No handler is deleted while the terminal has a pointer to it. -/
def KeepsHeld (s : State) : Event → Prop
  | .delete h => h ∈ s.leaving → ∀ held ∈ s.held, held.1 ≠ h
  | _ => True

/-- The registry has live handlers that are not about to be deleted, and every
handler has a number. -/
structure Tidy (s : State) : Prop where
  registered : ∀ h ∈ s.server.clients, (s.server.handlers h).isSome ∧ h ∉ s.leaving
  live : ∀ h, (s.server.handlers h).isSome → h ∈ s.made
  leaving : ∀ h ∈ s.leaving, h ∈ s.made

/-- What the terminal holds is live. -/
def HeldLive (s : State) : Prop := ∀ held ∈ s.held, (s.server.handlers held.1).isSome

variable {misread junk}

/-- The same handlers are live, and the same ones are registered. -/
structure Keeps (s t : RmsServer) : Prop where
  live : ∀ h, (t.handlers h).isSome ↔ (s.handlers h).isSome
  clients : t.clients = s.clients

theorem Keeps.refl (s : RmsServer) : Keeps s s := ⟨fun _ => Iff.rfl, rfl⟩

theorem keeps_put {s : RmsServer} {h : Nat} (live : (s.handlers h).isSome) (client : RmsClient)
    (backend : Backend) : Keeps s (s.put h client backend) := by
  refine ⟨fun g => live_put_iff.trans (or_iff_right_of_imp ?_), rfl⟩
  rintro rfl
  exact live

theorem keeps_call {s t : RmsServer} {h : Nat} {call : Call}
    (made : Server.step misread junk s (call.event h) = some t) : Keeps s t := by
  have puts := step_puts misread junk (by cases call <;> simp [Call.event])
    (by cases call <;> simp [Call.event]) made
  rcases puts with rfl | ⟨k, client, client', backend, live, rfl⟩
  · exact .refl t
  · exact keeps_put (by rw [live]; rfl) client' backend

/-- The terminal goes on with the same handler, if there is more to do. -/
theorem keeps_useClient {s t : RmsServer} {h : Nat} {client : RmsClient}
    (live : s.handlers h = some client) {use : Use} {held : Option (Nat × Use)}
    (used : useClient misread s h client use = some (t, held)) :
    Keeps s t ∧ ∀ more ∈ held, more.1 = h := by
  cases use with
  | print =>
    simp only [useClient, Option.map_eq_some_iff, Prod.mk.injEq] at used
    obtain ⟨-, -, rfl, rfl⟩ := used
    exact ⟨.refl s, by simp⟩
  | addResponse data =>
    simp only [useClient, Option.some.injEq, Prod.mk.injEq] at used
    obtain ⟨rfl, rfl⟩ := used
    exact ⟨keeps_put (by rw [live]; rfl) _ _, by simp⟩
  | runCommand timestamp cmd =>
    simp only [useClient, Option.bind_eq_bind, Option.bind_eq_some_iff, pure, Option.some.injEq,
      Prod.mk.injEq] at used
    obtain ⟨id, -, ⟨data, backend⟩, -, rfl, rfl⟩ := used
    refine ⟨⟨fun _ => Iff.rfl, rfl⟩, fun more hmore => ?_⟩
    obtain ⟨_, -, rfl⟩ := Option.map_eq_some_iff.mp hmore
    rfl

theorem Tidy.keep {s : State} (tidy : Tidy s) {server : RmsServer} (keeps : Keeps s.server server)
    (held : Option (Nat × Use)) : Tidy { s with server := server, held := held } where
  registered := by
    rw [keeps.clients]
    exact fun h hh =>
      ⟨(keeps.live h).mpr (tidy.registered h hh).1, (tidy.registered h hh).2⟩
  live := fun h live => tidy.live h ((keeps.live h).mp live)
  leaving := tidy.leaving

theorem Tidy.unborn {s : State} (tidy : Tidy s) {h : Nat} (fresh : h ∉ s.made) :
    s.server.handlers h = none := by
  by_contra there
  exact fresh (tidy.live h (Option.isSome_iff_ne_none.mpr there))

theorem tidy_connect {s : State} (tidy : Tidy s) {h : Nat} (fresh : h ∉ s.made) :
    Tidy { s with
      server := { s.server.put h {} s.server.backend with clients := s.server.clients ++ [h] }
      made := h :: s.made } := by
  refine ⟨fun g hg => ?_, fun g live => ?_,
    fun g leaves => List.mem_cons_of_mem h (tidy.leaving g leaves)⟩
  · rcases List.mem_append.mp hg with old | new
    · obtain ⟨live, stays⟩ := tidy.registered g old
      exact ⟨live_put_iff.mpr (Or.inr live), stays⟩
    · obtain rfl := List.mem_singleton.mp new
      exact ⟨live_put_iff.mpr (Or.inl rfl), fun leaves => fresh (tidy.leaving g leaves)⟩
  · rcases live_put_iff.mp live with rfl | old
    · exact List.mem_cons_self
    · exact List.mem_cons_of_mem h (tidy.live g old)

theorem tidy_removeClient {s : State} (tidy : Tidy s) {h : Nat} {id : Int}
    (own : s.server.getId h = some id) {server : RmsServer}
    (removed : s.server.removeClient id = some server) :
    Tidy { s with server := server, leaving := h :: s.leaving } ∧
      server.handlers = s.server.handlers := by
  have here : (s.server.handlers h).isSome := by
    cases live : s.server.handlers h with
    | none => simp [RmsServer.getId, live] at own
    | some client => rfl
  rw [RmsServer.removeClient, Option.ite_none_right_eq_some] at removed
  rw [← Option.some.inj removed.2]
  refine ⟨⟨fun g hg => ?_, tidy.live, fun g leaves => ?_⟩, rfl⟩
  · obtain ⟨mem, other⟩ := List.mem_filter.mp hg
    obtain ⟨live, stays⟩ := tidy.registered g mem
    refine ⟨live, fun leaves => ?_⟩
    rcases List.mem_cons.mp leaves with rfl | before
    · simp [own] at other
    · exact stays before
  · rcases List.mem_cons.mp leaves with rfl | before
    · exact tidy.live g here
    · exact tidy.leaving g before

theorem tidy_delete {s : State} (tidy : Tidy s) {h : Nat} (leaves : h ∈ s.leaving) :
    Tidy { s with
      server := { s.server with handlers := Function.update s.server.handlers h none }
      leaving := s.leaving.filter (· ≠ h) } := by
  refine ⟨fun g hg => ?_, fun g live => tidy.live g (live_delete_iff.mp live).2,
    fun g hg => tidy.leaving g (List.mem_filter.mp hg).1⟩
  obtain ⟨live, stays⟩ := tidy.registered g hg
  have other : g ≠ h := fun own => stays (own ▸ leaves)
  exact ⟨live_delete_iff.mpr ⟨other, live⟩, fun hg => stays (List.mem_filter.mp hg).1⟩

/-- What a step can do. -/
inductive Moved (s : State) : Event → State → Prop where
  | same (e : Event) (kept : KeepsHeld s e) : Moved s e s
  | connect (h : Nat) (fresh : h ∉ s.made) : Moved s (.connect h) { s with
      server := { s.server.put h {} s.server.backend with clients := s.server.clients ++ [h] }
      made := h :: s.made }
  | keep (e : Event) (kept : KeepsHeld s e) (server : RmsServer) (keeps : Keeps s.server server)
    (held : Option (Nat × Use))
    (own : held = s.held ∨ ∀ more ∈ held, (s.server.handlers more.1).isSome) :
    Moved s e { s with server := server, held := held }
  | removeClient (h : Nat) (id : Int) (own : s.server.getId h = some id) (server : RmsServer)
    (removed : s.server.removeClient id = some server) :
    Moved s (.removeClient h) { s with server := server, leaving := h :: s.leaving }
  | delete (h : Nat) (leaves : h ∈ s.leaving) : Moved s (.delete h) { s with
      server := { s.server with handlers := Function.update s.server.handlers h none }
      leaving := s.leaving.filter (· ≠ h) }

theorem step_moved {s : State} {e : Event} {t : State} (tidy : Tidy s)
    (h : step misread junk s e = some t) : Moved s e t := by
  cases e with
  | connect g =>
    by_cases fresh : g ∈ s.made
    · rw [step, if_pos fresh, Option.some.injEq] at h
      exact h ▸ .same _ trivial
    · simp only [step, if_neg fresh, Server.step, tidy.unborn fresh, Option.map_some,
        Option.some.injEq] at h
      exact h ▸ .connect g fresh
  | call g call =>
    by_cases leaves : g ∈ s.leaving
    · rw [step, if_pos leaves, Option.some.injEq] at h
      exact h ▸ .same _ trivial
    · rw [step, if_neg leaves, Option.map_eq_some_iff] at h
      obtain ⟨server, made, rfl⟩ := h
      exact .keep (.call g call) trivial server (keeps_call made) s.held (Or.inl rfl)
  | removeClient g =>
    rw [step] at h
    split at h
    · exact Option.some.inj h ▸ .same _ trivial
    · simp only [Option.bind_eq_bind, Option.bind_eq_some_iff, pure, Option.some.injEq] at h
      obtain ⟨id, own, server, removed, rfl⟩ := h
      exact .removeClient g id own server removed
  | delete g =>
    by_cases leaves : g ∈ s.leaving
    · rw [step, if_pos leaves, Option.some.injEq] at h
      exact h ▸ .delete g leaves
    · rw [step, if_neg leaves, Option.some.injEq] at h
      exact h ▸ .same _ fun there => absurd there leaves
  | getClient id command =>
    cases holds : s.held with
    | some held =>
      simp only [step, holds, Option.some.injEq] at h
      exact h ▸ .same _ trivial
    | none =>
      simp only [step, holds, Option.map_eq_some_iff] at h
      obtain ⟨found, search, rfl⟩ := h
      refine .keep (.getClient id command) trivial s.server (.refl _) _ (Or.inr fun more hmore => ?_)
      obtain ⟨k, rfl, rfl⟩ := Option.map_eq_some_iff.mp hmore
      obtain ⟨client, live⟩ := handler_of_getClient search
      rw [live]
      rfl
  | use =>
    cases holds : s.held with
    | none =>
      simp only [step, holds, Option.some.injEq] at h
      exact h ▸ .same _ trivial
    | some held =>
      obtain ⟨g, use⟩ := held
      simp only [step, holds, Option.bind_eq_bind, Option.bind_eq_some_iff, pure,
        Option.some.injEq] at h
      obtain ⟨client, live, ⟨server, held⟩, used, rfl⟩ := h
      obtain ⟨keeps, same⟩ := keeps_useClient live used
      refine .keep .use trivial server keeps held (Or.inr fun more hmore => ?_)
      rw [same more hmore, live]
      rfl

theorem step_tidy (s : State) (e : Event) (t : State) (tidy : Tidy s)
    (h : step misread junk s e = some t) : Tidy t := by
  cases step_moved tidy h with
  | same => exact tidy
  | connect g fresh => exact tidy_connect tidy fresh
  | keep _ _ server keeps held => exact tidy.keep keeps held
  | removeClient g id own server removed => exact (tidy_removeClient tidy own removed).1
  | delete g leaves => exact tidy_delete tidy leaves

theorem keepsHeld_iff (s : State) (e : Event) (t : State) (tidy : Tidy s) (live : HeldLive s)
    (h : step misread junk s e = some t) : KeepsHeld s e ↔ HeldLive t := by
  cases step_moved tidy h with
  | same _ kept => exact iff_of_true kept live
  | connect g fresh =>
    exact iff_of_true trivial fun held holds =>
      live_put_iff.mpr (Or.inr (live held holds))
  | keep _ kept server keeps held own =>
    refine iff_of_true kept fun more holds => (keeps.live more.1).mpr ?_
    rcases own with rfl | found
    · exact live more holds
    · exact found more holds
  | removeClient g id own server removed =>
    have same := (tidy_removeClient tidy own removed).2
    exact iff_of_true trivial fun held holds => same ▸ live held holds
  | delete g leaves =>
    constructor
    · exact fun kept held holds =>
        live_delete_iff.mpr ⟨kept leaves held holds, live held holds⟩
    · exact fun after _ held holds => (live_delete_iff.mp (after held holds)).1

theorem tidy_start (backend : Backend) : Tidy (start backend) :=
  ⟨fun h hh => absurd hh List.not_mem_nil, fun h live => by simp [start, Server.start] at live,
    fun h hh => absurd hh List.not_mem_nil⟩

theorem heldLive_start (backend : Backend) : HeldLive (start backend) := by
  intro held holds
  cases holds

variable (misread junk)

theorem keepsHeld_of_undefined (s : State) (e : Event) (h : step misread junk s e = none) :
    KeepsHeld s e := by
  cases e with
  | delete g =>
    rw [step] at h
    split at h <;> cases h
  | _ => exact trivial

theorem usesLive_of_heldLive (s : State) (e : Event) (live : HeldLive s) : UsesLive s e := by
  cases e with
  | use => exact live
  | _ => exact trivial

/-- Exactly the runs that delete no handler while the terminal has a pointer to
it let the terminal go on at any time without using a deleted handler. -/
theorem keepsHeld_iff_usesLive (backend : Backend) (es : List Event) :
    Guarded (step misread junk) KeepsHeld (start backend) es ↔
      ∀ front back, es = front ++ back →
        Guarded (step misread junk) UsesLive (start backend) (front ++ [.use]) := by
  have probes (s : State) (_ : Tidy s) : UsesLive s .use ↔ HeldLive s := Iff.rfl
  refine guarded_iff_probe step_tidy probes ?_ ?_ es (tidy_start backend) (heldLive_start backend)
  · intro s e t tidy live h
    rw [keepsHeld_iff s e t tidy live h]
    exact (and_iff_right (usesLive_of_heldLive s e live)).symm
  · exact fun s e _ live h =>
      iff_of_true (keepsHeld_of_undefined misread junk s e h) (usesLive_of_heldLive s e live)

end Steps

/-- The terminal looks a client up, whose connection ends before it is used. -/
def dropped : List Event :=
  [.connect 0, .call 0 (.handshake (-1) { hostName := "a" }), .getClient 1 .infoClient,
    .removeClient 0, .delete 0, .use]

theorem dropped_not_usesLive :
    ¬ ∀ backend es, Guarded (step (fun _ _ => none) {}) UsesLive (start backend) es := by
  intro all
  exact absurd (all sqlite dropped) (by decide +kernel)

end TerminalHandles
