import RemoteManagement.ConfigFile
import RemoteManagement.Library.LongArithmetic
import RemoteManagement.Library.RunTrace

/-!
# The id of a reporter over its restarts

The configuration file outlives the processes that load it. A handshake that
brings another id has the configuration saved. If the file cannot be opened the
save says so and nothing more, and the process can be killed between two of its
lines. A server may answer another id than it was told.
-/

namespace ReporterRestarts

open ConfigFile Stdio GuardedRun RunTrace
open DecimalText (StdException stol stol_repr)
open RmsConfig (computerId serverIp serverPort)

/-- What becomes of a save; the entries are written in some order, a line each. -/
inductive Save where
  | failed
  | written (order : List Entry)
  | killed (order : List Entry) (line : Nat)

inductive Event where
  | boot
  | find (key : String)
  | handshake (newId : Int) (save : Save)
  | exit

structure State where
  file : List Char
  process : Option Statics := none

/-- The keys that the reporter looks up. -/
def keys : List String :=
  [computerId, serverIp, serverPort, "timeout", "ping_timeout", "shell"]

/-- `handshakeTCP` up to the save, with the answer of the server and whether there
is something to save. Without a port or an address the process exits, and what
does not convert ends it too. -/
def handshakeTCP (c : Statics) (newId : Int) : Option (Statics × Bool) :=
  let (port, c) := c.find serverPort
  if port = "" then none else
  let (ip, c) := c.find serverIp
  if ip = "" then none else
  match stol port.toList with
  | .error _ => none
  | .ok _ =>
    let (id, c) := c.find computerId
    match stol id.toList with
    | .error _ => none
    | .ok n => some (if n = newId then (c, false) else (c.replace computerId newId.repr, true))

def save (s : State) (c : Statics) : Save → Option State
  | .failed => some { s with process := some c }
  | .written order =>
    if order.Perm c.config then
      (c.save order).map (fun file => { s with file := file, process := some c })
    else none
  | .killed order line =>
    if order.Perm c.config then
      (c.save (order.take line)).map (fun file => { s with file := file, process := none })
    else none

/-- The server's answer is an i64. -/
def step (configPath : String) (s : State) : Event → Option State
  | .boot =>
    match s.process with
    | none => (Statics.load {} configPath s.file).map (fun c => { s with process := some c })
    | some _ => none
  | .find key =>
    if key ∈ keys then s.process.map (fun c => { s with process := some (c.find key).2 }) else none
  | .handshake newId outcome =>
    if LongArithmetic.InLong newId then
      match s.process with
      | none => none
      | some c =>
        match handshakeTCP c newId with
        | none => some { s with process := none }
        | some (c, false) => some { s with process := some c }
        | some (c, true) => save s c outcome
    else none
  | .exit => s.process.map (fun _ => { s with process := none })

/-- The entries of a file in a fresh process. -/
def loaded (file : List Char) : List Entry :=
  (lines file).foldl (fun config l => emplace (parseLine l) config) []

def textId (config : List Entry) : Except StdException Int :=
  stol (value config computerId).toList

/-- A handshake that was answered another id than it told. -/
structure Change where
  told : Int
  newId : Int
  failed : Bool
  deriving DecidableEq

def Save.hasFailed : Save → Bool
  | .failed => true
  | .written _ | .killed _ _ => false

def changes (s : State) : Event → List Change
  | .handshake newId outcome =>
    match s.process with
    | none => []
    | some c =>
      match handshakeTCP c newId, textId c.config with
      | some (_, true), .ok told => [⟨told, newId, outcome.hasFailed⟩]
      | _, _ => []
  | .boot | .find _ | .exit => []

/-- The ids that were given, in their order; -1 is none. -/
def given (seen : List Change) : List Int := (seen.map Change.newId).filter (· ≠ -1)

/-- The saves that failed. -/
def unsaved (seen : List Change) : Nat := seen.countP Change.failed

/-- The handshakes that told an id and were answered another. -/
def renamed (seen : List Change) : Nat := seen.countP (fun x => x.told ≠ -1)

section Processes

variable {c c' : Statics}

theorem value_find (c : Statics) (key other : String) :
    value (c.find key).2.config other = value c.config other := by
  rw [Statics.find]
  split
  · exact value_emplace_empty _ _ _
  · rfl

theorem configPath_find (c : Statics) (key : String) :
    (c.find key).2.configPath = c.configPath := by
  rw [Statics.find]
  split <;> rfl

theorem sound_find (sound : Sound c.config) {key : String} (solid : Solid key) :
    Sound (c.find key).2.config := by
  rw [Statics.find]
  split
  · exact sound_emplace sound ⟨solid, by simp, fun _ => rfl⟩
  · exact sound

theorem configPath_replace (c : Statics) (key text : String) :
    (c.replace key text).configPath = c.configPath := by
  rw [Statics.replace]
  split <;> rfl

theorem value_replace (opened : c.configPath ≠ "") (key text other : String) :
    value (c.replace key text).config other =
      if other = key then text else value c.config other := by
  have replaced := congrFun (replace_toConfig opened key text) other
  rw [RmsConfig.replace, Function.update_apply] at replaced
  simpa [Statics.toConfig, configPath_replace, opened] using replaced

/-- What lookups leave of a configuration. -/
structure Looked (c c' : Statics) : Prop where
  configPath : c'.configPath = c.configPath
  sound : Sound c.config → Sound c'.config
  values : ∀ key, value c'.config key = value c.config key

theorem Looked.find (looked : Looked c c') {key : String} (solid : Solid key) :
    Looked c (c'.find key).2 where
  configPath := (configPath_find c' key).trans looked.configPath
  sound := fun before => sound_find (looked.sound before) solid
  values := fun other => (value_find c' key other).trans (looked.values other)

theorem looked_handshake (c : Statics) :
    Looked c (((c.find serverPort).2.find serverIp).2.find computerId).2 := by
  have same : Looked c c := ⟨rfl, id, fun _ => rfl⟩
  exact ((same.find (by decide)).find (by decide)).find (by decide)

/-- A handshake that goes through changes at most the id. -/
structure Handshaken (c : Statics) (newId : Int) (c' : Statics) (changed : Bool) : Prop where
  opened : c.configPath ≠ ""
  configPath : c'.configPath = c.configPath
  sound : Sound c.config → Sound c'.config
  others : ∀ key ≠ computerId, value c'.config key = value c.config key
  read : ∃ n, textId c.config = .ok n ∧ changed = decide (n ≠ newId)
  id : value c'.config computerId = if changed then newId.repr else value c.config computerId

theorem handshakeTCP_handshaken {newId : Int} {changed : Bool}
    (h : handshakeTCP c newId = some (c', changed)) : Handshaken c newId c' changed := by
  simp only [handshakeTCP, Option.ite_none_left_eq_some] at h
  obtain ⟨port, ip, h⟩ := h
  have opened : c.configPath ≠ "" := by
    intro closed
    exact port (by rw [find_value, if_pos closed])
  have looked := looked_handshake c
  split at h
  · cases h
  split at h
  · cases h
  rename_i n id
  have read : textId c.config = .ok n := by
    rw [find_value, configPath_find, configPath_find, if_neg opened, value_find, value_find] at id
    exact id
  generalize (((c.find serverPort).2.find serverIp).2.find computerId).2 = found at h looked
  by_cases same : n = newId
  · rw [if_pos same] at h
    cases h
    exact ⟨opened, looked.configPath, looked.sound, fun key _ => looked.values key,
      ⟨n, read, by simp [same]⟩, looked.values computerId⟩
  · rw [if_neg same] at h
    cases h
    have isOpen : found.configPath ≠ "" := looked.configPath ▸ opened
    have solid : Solid computerId := by decide
    have named : computerId ≠ "" := by decide
    refine ⟨opened, (configPath_replace found _ _).trans looked.configPath, fun before => ?_,
      fun key other => ?_, ⟨n, read, by simp [same]⟩, ?_⟩
    · rw [Statics.replace, if_neg isOpen]
      exact sound_overwrite (looked.sound before)
        ⟨solid, solid_repr newId, fun none => absurd none named⟩
    · rw [value_replace isOpen, if_neg other, looked.values key]
    · rw [value_replace isOpen, if_pos rfl, if_pos rfl]

end Processes

section Files

variable {c : Statics} {order : List Entry} {file : List Char}

theorem sound_loaded (file : List Char) : Sound (loaded file) := by
  have none : Sound [] := ⟨List.nodup_nil, by simp⟩
  exact sound_load none _

theorem load_eq_some {configPath : String} (h : Statics.load {} configPath file = some c) :
    c.configPath = configPath ∧ c.config = loaded file := by
  rw [Statics.load, Option.ite_none_left_eq_some] at h
  obtain ⟨-, h⟩ := h
  cases h
  exact ⟨rfl, rfl⟩

theorem value_written (sound : Sound c.config) (perm : order.Perm c.config)
    (saved : c.save order = some file) (key : String) :
    value (loaded file) key = value c.config key := by
  rw [Statics.save, Option.ite_none_left_eq_some] at saved
  obtain ⟨-, saved⟩ := saved
  cases saved
  exact value_saved sound perm key

theorem value_of_mem {config : List Entry} (distinct : (config.map Prod.fst).Nodup) {e : Entry}
    (mem : e ∈ config) : value config e.1 = e.2 := by
  rw [value, KeyedList.lookup_eq_some_of_mem distinct mem]
  rfl

/-- A save that is cut off between two lines loses entries, and alters none. -/
theorem value_killed (sound : Sound c.config) (perm : order.Perm c.config) {line : Nat}
    (saved : c.save (order.take line) = some file) (key : String) :
    value (loaded file) key = value c.config key ∨ value (loaded file) key = "" := by
  have mem {e : Entry} (he : e ∈ order.take line) : e ∈ c.config :=
    perm.mem_iff.mp (List.mem_of_mem_take he)
  have distinct : (order.map Prod.fst).Nodup := (perm.map Prod.fst).nodup_iff.mpr sound.distinct
  have part : Sound (order.take line) :=
    ⟨distinct.sublist ((List.take_sublist line order).map _), fun e he => sound.entries e (mem he)⟩
  rw [value_written (c := ⟨c.configPath, order.take line⟩) part (List.Perm.refl _) saved key]
  cases found : KeyedList.lookup Prod.fst key (order.take line) with
  | none => exact Or.inr (by rw [value, found]; rfl)
  | some e =>
    have he := KeyedList.mem_of_lookup found
    obtain rfl : e.1 = key := by simpa [KeyedList.lookup] using List.find?_some found
    exact Or.inl ((value_of_mem part.distinct he).trans (value_of_mem sound.distinct (mem he)).symm)

end Files

section Identity

variable {configPath : String} {first : List Entry} {seen : List Change}

/-- The other entries are those of the first file, or lost. -/
def Others (first config : List Entry) : Prop :=
  ∀ key ≠ computerId, value config key = value first key ∨ value config key = ""

/-- What the changes say about a configuration. Where it has no id, there was a
failed save or a new name for each id that was given; what it has is one of them. -/
structure Traced (seen : List Change) (config : List Entry) : Prop where
  count : (given seen).length ≤ unsaved seen + renamed seen + 1
  none : textId config = .ok (-1) → (given seen).length ≤ unsaved seen + renamed seen
  known : ∀ n, textId config = .ok n → n = -1 ∨ n ∈ given seen
  last : unsaved seen = 0 → ∀ n, textId config = .ok n → n = -1 ∨ (given seen).getLast? = some n

theorem traced_nil {config : List Entry} (unregistered : textId config = .ok (-1)) :
    Traced [] config := by
  have only (n : Int) (read : textId config = .ok n) : n = -1 :=
    Except.ok.inj (read.symm.trans unregistered)
  exact ⟨Nat.zero_le _, fun _ => Nat.zero_le _, fun n read => Or.inl (only n read),
    fun _ n read => Or.inl (only n read)⟩

theorem Traced.congr {config config' : List Entry} (h : Traced seen config)
    (same : value config' computerId = value config computerId) : Traced seen config' := by
  have id : textId config' = textId config := by rw [textId, textId, same]
  exact ⟨h.count, id ▸ h.none, id ▸ h.known, id ▸ h.last⟩

theorem Traced.lost {config config' : List Entry} (h : Traced seen config)
    (empty : value config' computerId = "") : Traced seen config' := by
  have unread (n : Int) : textId config' ≠ .ok n := by
    rw [textId, empty]
    exact nofun
  exact ⟨h.count, fun read => absurd read (unread _), fun n read => absurd read (unread n),
    fun _ n read => absurd read (unread n)⟩

theorem given_append (x : Change) :
    given (seen ++ [x]) = given seen ++ if x.newId = -1 then [] else [x.newId] := by
  rw [given, given, List.map_append, List.filter_append]
  by_cases none : x.newId = -1 <;> simp [none]

theorem length_given_append (x : Change) :
    (given (seen ++ [x])).length = (given seen).length + if x.newId = -1 then 0 else 1 := by
  rw [given_append, List.length_append]
  split <;> rfl

theorem unsaved_append (x : Change) :
    unsaved (seen ++ [x]) = unsaved seen + if x.failed then 1 else 0 := by
  simp [unsaved, List.countP_append, List.countP_cons]

theorem renamed_append (x : Change) :
    renamed (seen ++ [x]) = renamed seen + if x.told = -1 then 0 else 1 := by
  by_cases none : x.told = -1 <;> simp [renamed, List.countP_append, none]

/-- The configuration that has the answer. -/
theorem Traced.answered {config config' : List Entry} (h : Traced seen config) {x : Change}
    (told : textId config = .ok x.told) (differs : x.told ≠ x.newId)
    (id : textId config' = .ok x.newId) : Traced (seen ++ [x]) config' := by
  have count : (given (seen ++ [x])).length ≤
      unsaved (seen ++ [x]) + renamed (seen ++ [x]) + 1 := by
    have before := h.count
    rw [length_given_append, unsaved_append, renamed_append]
    by_cases none : x.told = -1
    · have unnamed := h.none (none ▸ told)
      split <;> omega
    · rw [if_neg none]
      split <;> omega
  have own (n : Int) (read : textId config' = .ok n) :
      n = -1 ∨ (given (seen ++ [x])).getLast? = some n := by
    obtain rfl := Except.ok.inj (id.symm.trans read)
    by_cases none : x.newId = -1
    · exact Or.inl none
    · exact Or.inr (by rw [given_append, if_neg none, List.getLast?_concat])
  refine ⟨count, fun none => ?_, fun n read => (own n read).imp_right List.mem_of_getLast?,
    fun _ => own⟩
  -- an id was told, and none is answered
  have unnamed := Except.ok.inj (id.symm.trans none)
  have named : x.told ≠ -1 := by omega
  have before := h.count
  rw [length_given_append, unsaved_append, renamed_append, if_pos unnamed, if_neg named]
  omega

/-- The file that could not be opened. -/
theorem Traced.unopened {config : List Entry} (h : Traced seen config) {x : Change}
    (failed : x.failed = true) : Traced (seen ++ [x]) config := by
  have one : (given (seen ++ [x])).length ≤ (given seen).length + 1 := by
    rw [length_given_append]
    split <;> omega
  have more : unsaved (seen ++ [x]) = unsaved seen + 1 := by rw [unsaved_append, if_pos failed]
  have least : renamed seen ≤ renamed (seen ++ [x]) := by
    rw [renamed_append]
    omega
  refine ⟨?_, fun none => ?_, fun n read => (h.known n read).imp_right fun mem => ?_,
    fun zero => by omega⟩
  · have before := h.count
    omega
  · have before := h.none none
    omega
  · rw [given_append]
    exact List.mem_append_left _ mem

structure Kept (configPath : String) (first : List Entry) (s : State) (seen : List Change) :
    Prop where
  file : Others first (loaded s.file)
  traced : Traced seen (loaded s.file)
  process : ∀ c ∈ s.process, c.configPath = configPath ∧ Sound c.config ∧ Others first c.config ∧
    Traced seen c.config

/-- The process ends. -/
theorem Kept.exit {s : State} (hs : Kept configPath first s seen) :
    Kept configPath first { s with process := none } seen :=
  ⟨hs.file, hs.traced, by simp⟩

/-- The process goes on with a configuration that has the same values. -/
theorem Kept.looks {s : State} {c c' : Statics} (hs : Kept configPath first s seen)
    (running : s.process = some c) (path : c'.configPath = c.configPath)
    (sound : Sound c.config → Sound c'.config)
    (values : ∀ key, value c'.config key = value c.config key) :
    Kept configPath first { s with process := some c' } seen := by
  obtain ⟨opened, before, others, traced⟩ := hs.process c running
  refine ⟨hs.file, hs.traced, ?_⟩
  rintro _ ⟨⟩
  exact ⟨path.trans opened, sound before, fun key other => values key ▸ others key other,
    traced.congr (values computerId)⟩

/-- A handshake that brings another id, and what becomes of the save. -/
theorem Kept.save {s t : State} {c c' : Statics} {told newId : Int} {outcome : Save}
    (hs : Kept configPath first s seen) (running : s.process = some c)
    (fits : LongArithmetic.InLong newId) (shaken : Handshaken c newId c' true)
    (read : textId c.config = .ok told) (h : save s c' outcome = some t) :
    Kept configPath first t (seen ++ [⟨told, newId, outcome.hasFailed⟩]) := by
  obtain ⟨opened, before, others, traced⟩ := hs.process c running
  obtain ⟨n, same, changed⟩ := shaken.read
  obtain rfl := Except.ok.inj (read.symm.trans same)
  have differs : told ≠ newId := by simpa using changed
  have id : textId c'.config = .ok newId := by
    rw [textId, shaken.id, if_pos rfl, stol_repr]
    exact if_pos fits
  have answered {config : List Entry} (id : textId config = .ok newId) :
      Traced (seen ++ [⟨told, newId, outcome.hasFailed⟩]) config := traced.answered read differs id
  have sound := shaken.sound before
  have kept : Others first c'.config := by
    intro key other
    rw [shaken.others key other]
    exact others key other
  have process : ∀ d ∈ some c', d.configPath = configPath ∧ Sound d.config ∧
      Others first d.config ∧ Traced (seen ++ [⟨told, newId, outcome.hasFailed⟩]) d.config := by
    rintro _ ⟨⟩
    exact ⟨shaken.configPath.trans opened, sound, kept, answered id⟩
  cases outcome with
  | failed =>
    cases h
    exact ⟨hs.file, hs.traced.unopened rfl, process⟩
  | written order =>
    simp only [ReporterRestarts.save, Option.ite_none_right_eq_some, Option.map_eq_some_iff] at h
    obtain ⟨perm, text, saved, rfl⟩ := h
    have values := value_written sound perm saved
    exact ⟨fun key other => values key ▸ kept key other, (answered id).congr (values computerId),
      process⟩
  | killed order line =>
    simp only [ReporterRestarts.save, Option.ite_none_right_eq_some, Option.map_eq_some_iff] at h
    obtain ⟨perm, text, saved, rfl⟩ := h
    have values := value_killed sound perm saved
    refine ⟨fun key other => ?_, ?_, by simp⟩
    · rcases values key with same | empty
      · exact same ▸ kept key other
      · exact Or.inr empty
    · rcases values computerId with same | empty
      · exact (answered id).congr same
      · exact (answered id).lost empty

theorem solid_keys : ∀ key ∈ keys, Solid key := by decide

theorem step_kept (s : State) (e : Event) (t : State) (seen : List Change)
    (hs : Kept configPath first s seen) (h : step configPath s e = some t) :
    Kept configPath first t (seen ++ changes s e) := by
  cases e with
  | boot =>
    rw [changes, List.append_nil]
    simp only [step] at h
    split at h
    · obtain ⟨c, loads, rfl⟩ := Option.map_eq_some_iff.mp h
      obtain ⟨path, config⟩ := load_eq_some loads
      refine ⟨hs.file, hs.traced, ?_⟩
      rintro _ ⟨⟩
      exact ⟨path, config ▸ sound_loaded s.file, config ▸ hs.file, config ▸ hs.traced⟩
    · cases h
  | find key =>
    rw [changes, List.append_nil]
    rw [step, Option.ite_none_right_eq_some, Option.map_eq_some_iff] at h
    obtain ⟨own, c, running, rfl⟩ := h
    exact hs.looks running (configPath_find c key)
      (fun sound => sound_find sound (solid_keys key own)) (value_find c key)
  | handshake newId outcome =>
    rw [step, Option.ite_none_right_eq_some] at h
    obtain ⟨fits, h⟩ := h
    split at h
    · cases h
    rename_i c running
    split at h
    · rename_i dies
      cases h
      simpa [changes, running, dies] using hs.exit
    · rename_i c' shakes
      cases h
      have shaken := handshakeTCP_handshaken shakes
      have none : changes s (.handshake newId outcome) = [] := by simp [changes, running, shakes]
      rw [none, List.append_nil]
      refine hs.looks running shaken.configPath shaken.sound fun key => ?_
      by_cases own : key = computerId
      · rw [own, shaken.id, if_neg (by decide)]
      · exact shaken.others key own
    · rename_i c' shakes
      have shaken := handshakeTCP_handshaken shakes
      obtain ⟨told, read, -⟩ := shaken.read
      have one : changes s (.handshake newId outcome) = [⟨told, newId, outcome.hasFailed⟩] := by
        simp [changes, running, shakes, read]
      rw [one]
      exact hs.save running fits shaken read h
  | exit =>
    obtain ⟨c, -, rfl⟩ := Option.map_eq_some_iff.mp h
    rw [changes, List.append_nil]
    exact hs.exit

/-- Over all restarts of a reporter whose file has no id at first, whatever the
server answers and whatever becomes of the saves, it is given at most one id more
than there were failed saves and ids that were answered by another. Neither file
nor process ever has an id but one of these, and no other entry ever has another
value, though it can be lost. -/
theorem run_identity {file : List Char} (unregistered : textId (loaded file) = .ok (-1))
    {es : List Event} {s : State} (arrives : run (step configPath) { file := file } es = some s) :
    let seen := observed (step configPath) changes { file := file } es
    (given seen).length ≤ unsaved seen + renamed seen + 1 ∧
      ∀ config, config = loaded s.file ∨ (∃ c, s.process = some c ∧ config = c.config) →
        Others (loaded file) config ∧
          ∀ n, textId config = .ok n → n = -1 ∨ n ∈ given seen ∧
            (unsaved seen = 0 → (given seen).getLast? = some n) := by
  have before : Kept configPath (loaded file) { file := file } [] :=
    ⟨fun key _ => Or.inl rfl, traced_nil unregistered, by simp⟩
  have kept := run_observed_start (Kept configPath (loaded file)) step_kept before arrives
  refine ⟨kept.traced.count, ?_⟩
  rintro config which
  obtain ⟨others, traced⟩ : Others (loaded file) config ∧
      Traced (observed (step configPath) changes { file := file } es) config := by
    rcases which with rfl | ⟨c, running, rfl⟩
    · exact ⟨kept.file, kept.traced⟩
    · exact (kept.process c running).2.2
  refine ⟨others, fun n read => ?_⟩
  by_cases none : n = -1
  · exact Or.inl none
  · exact Or.inr ⟨(traced.known n read).resolve_left none,
      fun zero => (traced.last zero n read).resolve_left none⟩

def unregistered : List Char := "server_ip 10.0.0.1\nserver_port 80\ncomputer_id -1\n".toList

def registered (id : Int) : List Entry :=
  [("computer_id", id.repr), ("server_port", "80"), ("server_ip", "10.0.0.1")]

/-- A save fails, the next process gets another id, and the one after it is told that
it has a third. -/
def threeProcesses : List Event :=
  [.boot, .handshake 5 .failed, .handshake 5 .failed, .exit, .boot,
    .handshake 6 (.written (registered 6)), .exit, .boot, .find "shell",
    .handshake 7 (.written (("shell", "") :: registered 7))]

theorem run_identity_threeProcesses :
    let s := (run (step "rms.cfg") { file := unregistered } threeProcesses).get (by decide +kernel)
    let seen := observed (step "rms.cfg") changes { file := unregistered } threeProcesses
    (given seen = [5, 6, 7] ∧ unsaved seen = 1 ∧ renamed seen = 1 ∧ s.process.isSome = true) ∧
      (given seen).length ≤ unsaved seen + renamed seen + 1 ∧
      ∀ config, config = loaded s.file ∨ (∃ c, s.process = some c ∧ config = c.config) →
        Others (loaded unregistered) config ∧
          ∀ n, textId config = .ok n → n = -1 ∨ n ∈ given seen ∧
            (unsaved seen = 0 → (given seen).getLast? = some n) :=
  ⟨by decide +kernel, run_identity (by decide +kernel) (Option.some_get _).symm⟩

end Identity

end ReporterRestarts
