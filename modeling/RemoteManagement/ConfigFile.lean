import RemoteManagement.RmsConfig
import RemoteManagement.Library.StringStream
import RemoteManagement.Library.KeyedList
import RemoteManagement.Library.GuardedRun

/-!
# The file of the configuration

The static members of RmsConfig are the path and a map, here the list of its entries with
distinct keys, which can be iterated in any order. `operator[]` adds an entry
with an empty value for a key that has none. The file has a line for each entry,
its key and its value separated by a blank.
-/

namespace ConfigFile

open DecimalText Stdio

abbrev Entry := String × String

def keep (old : Option Entry) (e : Entry) : Entry := old.getD e

def overwrite (_ : Option Entry) (e : Entry) : Entry := e

/-- `config_.emplace(key, value)` -/
def emplace (e : Entry) (config : List Entry) : List Entry :=
  KeyedList.upsert Prod.fst Prod.fst keep e config

/-- `config_[key]` as a value. -/
def value (config : List Entry) (key : String) : String :=
  ((KeyedList.lookup Prod.fst key config).map Prod.snd).getD ""

structure Statics where
  configPath : String := ""
  config : List Entry := []
  deriving DecidableEq, Repr

/-- The value found, and the configuration afterwards. -/
def Statics.find (c : Statics) (key : String) : String × Statics :=
  if c.configPath ≠ "" then (value c.config key, { c with config := emplace (key, "") c.config })
  else ("", c)

def Statics.replace (c : Statics) (key value : String) : Statics :=
  if c.configPath = "" then c
  else { c with config := KeyedList.upsert Prod.fst Prod.fst overwrite (key, value) c.config }

/-- The entry of a line: `config_line_stream >> key; config_line_stream >> value;` -/
def parseLine (configLine : List Char) : Entry :=
  let (key, stream) := Stream.extractString ⟨configLine, false⟩ []
  let (value, _) := stream.extractString []
  (String.ofList key, String.ofList value)

/-- No file can be opened under the empty path, and the process ends then. -/
def Statics.load (c : Statics) (configPath : String) (file : List Char) : Option Statics :=
  if configPath = "" then none
  else some ⟨configPath, (lines file).foldl (fun config l => emplace (parseLine l) config) c.config⟩

/-- What is written if the entries are iterated in some order. -/
def Statics.save (c : Statics) (order : List Entry) : Option (List Char) :=
  if c.configPath = "" then none
  else some (order.flatMap (fun e => e.1.toList ++ ' ' :: e.2.toList ++ ['\n']))

inductive Call where
  | load (configPath : String) (file : List Char)
  | find (key : String)
  | replace (key : String) (n : Int)

def step (c : Statics) : Call → Option Statics
  | .load configPath file => c.load configPath file
  | .find key => some (c.find key).2
  | .replace key n => some (c.replace key n.repr)

theorem keyed_keep : KeyedList.Keyed Prod.fst Prod.fst keep := by
  intro old e same
  cases old with
  | none => rfl
  | some a => exact same a rfl

theorem keyed_overwrite : KeyedList.Keyed Prod.fst Prod.fst overwrite := fun _ _ _ => rfl

section Reading

/-- Words, the second of which can be missing, and both can. -/
structure WellFormed (e : Entry) : Prop where
  key : ∀ c ∈ e.1.toList, isSpace c = false
  value : ∀ c ∈ e.2.toList, isSpace c = false
  empty : e.1 = "" → e.2 = ""

theorem solid_word {text : List Char} {c : Char} (h : c ∈ word text) : isSpace c = false := by
  simpa using List.mem_takeWhile_imp h

/-- What is extracted has no white space, and is empty only if nothing is left. -/
theorem extractString_solid (s : Stream) :
    (∀ c ∈ (s.extractString []).1, isSpace c = false) ∧
      ((s.extractString []).1 = [] → (s.extractString []).2.failed = true) := by
  rw [Stream.extractString]
  split
  · exact ⟨by simp, fun _ => rfl⟩
  · rename_i more
    refine ⟨fun c hc => solid_word hc, fun none => ?_⟩
    obtain ⟨c, cs, starts⟩ := List.exists_cons_of_ne_nil (not_or.mp more).2
    have solid : isSpace c = false := isSpace_of_skipSpace starts
    simp [starts, word, solid] at none

theorem wellFormed_parseLine (configLine : List Char) : WellFormed (parseLine configLine) := by
  obtain ⟨key, none⟩ := extractString_solid ⟨configLine, false⟩
  obtain ⟨value, -⟩ := extractString_solid (Stream.extractString ⟨configLine, false⟩ []).2
  refine ⟨by simpa [parseLine] using key, by simpa [parseLine] using value, fun empty => ?_⟩
  have failed := none (by simpa [parseLine] using empty)
  have second := Stream.extractString.eq_1 (Stream.extractString ⟨configLine, false⟩ []).2 []
  simp [parseLine, second, failed]

/-- The line of an entry is read as the entry. -/
theorem parseLine_render {e : Entry} (h : WellFormed e) :
    parseLine (e.1.toList ++ ' ' :: e.2.toList) = e := by
  have blank : ∀ c ∈ [' '], isSpace c = true := by simp [isSpace]
  have isWord {text : String} (nonempty : text ≠ "")
      (solid : ∀ c ∈ text.toList, isSpace c = false) : IsWord text.toList :=
    ⟨fun none => nonempty (String.toList_eq_nil_iff.mp none), solid⟩
  obtain ⟨key, value⟩ := e
  by_cases noKey : key = ""
  · obtain rfl : value = "" := h.empty noKey
    subst noKey
    have first := Stream.extractString_blank blank false []
    have second := Stream.extractString_blank blank true []
    simp [parseLine, first, second]
  · have ends : EndsWord (' ' :: value.toList) := endsWord_cons (by decide) _
    have first := Stream.extractString_word (isWord noKey h.key) ends [] (by simp) []
    rw [List.nil_append] at first
    by_cases noValue : value = ""
    · subst noValue
      rw [show "".toList = [] from rfl] at first
      have second := Stream.extractString_blank blank false []
      simp [parseLine, first, second]
    · have second := Stream.extractString_word (isWord noValue h.value) endsWord_nil [' '] blank []
      rw [List.append_nil, List.singleton_append] at second
      simp [parseLine, first, second]

end Reading

section Maps

/-- What every run keeps of the map. -/
structure Sound (config : List Entry) : Prop where
  distinct : (config.map Prod.fst).Nodup
  entries : ∀ e ∈ config, WellFormed e

theorem sound_upsert {write : Option Entry → Entry → Entry}
    (keyed : KeyedList.Keyed Prod.fst Prod.fst write) {config : List Entry} (h : Sound config)
    {e : Entry} (new : WellFormed (write none e))
    (kept : ∀ a, WellFormed a → WellFormed (write (some a) e)) :
    Sound (KeyedList.upsert Prod.fst Prod.fst write e config) := by
  have entries : ∀ x ∈ KeyedList.upsertAll Prod.fst Prod.fst write config [e], WellFormed x := by
    refine KeyedList.forall_mem_upsertAll (by simpa using new) ?_ h.entries
    intro a e' he' _ ha
    exact List.mem_singleton.mp he' ▸ kept a ha
  exact ⟨KeyedList.nodup_upsert keyed e h.distinct, entries⟩

theorem sound_emplace {config : List Entry} (h : Sound config) {e : Entry} (he : WellFormed e) :
    Sound (emplace e config) :=
  sound_upsert keyed_keep h he fun _ ha => ha

theorem sound_overwrite {config : List Entry} (h : Sound config) {e : Entry} (he : WellFormed e) :
    Sound (KeyedList.upsert Prod.fst Prod.fst overwrite e config) :=
  sound_upsert keyed_overwrite h he fun _ _ => he

theorem sound_load {config : List Entry} (h : Sound config) (ls : List (List Char)) :
    Sound (ls.foldl (fun config l => emplace (parseLine l) config) config) := by
  induction ls generalizing config with
  | nil => exact h
  | cons l ls ih => exact ih (sound_emplace h (wellFormed_parseLine l))

/-- An empty value that is added changes no value. -/
theorem value_emplace_empty (config : List Entry) (key other : String) :
    value (emplace (key, "") config) other = value config other := by
  rw [value, emplace, KeyedList.lookup_upsert keyed_keep]
  by_cases same : key = other
  · subst same
    cases found : KeyedList.lookup Prod.fst key config <;> simp [keep, value, found]
  · simp [same, value]

/-- The entries written in any order are read back as they are. -/
theorem value_saved {config order : List Entry} (h : Sound config) (perm : order.Perm config)
    (key : String) :
    value ((lines (order.flatMap (fun e => e.1.toList ++ ' ' :: e.2.toList ++ ['\n']))).foldl
      (fun config l => emplace (parseLine l) config) []) key = value config key := by
  have wellFormed : ∀ e ∈ order, WellFormed e := fun e he => h.entries e (perm.mem_iff.mp he)
  have distinct : (order.map Prod.fst).Nodup := (perm.map Prod.fst).nodup_iff.mpr h.distinct
  have one : ∀ l ∈ order.map (fun e => e.1.toList ++ ' ' :: e.2.toList), '\n' ∉ l := by
    intro l hl newline
    obtain ⟨e, he, rfl⟩ := List.mem_map.mp hl
    rcases List.mem_append.mp newline with inKey | inValue
    · exact absurd ((wellFormed e he).key _ inKey) (by decide)
    · rcases List.mem_cons.mp inValue with blank | inValue
      · exact absurd blank (by decide)
      · exact absurd ((wellFormed e he).value _ inValue) (by decide)
  have text := lines_flatMap one
  rw [List.flatMap_map] at text
  have parsed : (order.map (fun e => e.1.toList ++ ' ' :: e.2.toList)).map parseLine = order := by
    rw [List.map_map]
    exact (List.map_congr_left fun e he => parseLine_render (wellFormed e he)).trans
      (List.map_id' order)
  have entries : (order.map (fun e => e.1.toList ++ ' ' :: e.2.toList)).foldl
      (fun config l => emplace (parseLine l) config) [] =
        KeyedList.upsertAll Prod.fst Prod.fst keep [] order := by
    rw [← List.foldl_map (f := parseLine) (g := fun config e => emplace e config), parsed]
    rfl
  have looked :
      KeyedList.lookup Prod.fst key (KeyedList.upsertAll Prod.fst Prod.fst keep [] order) =
        KeyedList.lookup Prod.fst key config := by
    have entries : KeyedList.entriesOf Prod.fst key order =
        (KeyedList.lookup Prod.fst key order).toList :=
      KeyedList.filter_key_eq_lookup distinct key
    rw [KeyedList.lookup_upsertAll keyed_keep, ← KeyedList.lookup_perm h.distinct perm key, entries]
    cases KeyedList.lookup Prod.fst key order <;> rfl
  rw [text, entries, value, looked, value]

end Maps

section Runs

open GuardedRun

/-- Keys without white space; the value of a number has none. -/
def Solid (key : String) : Prop := ∀ c ∈ key.toList, isSpace c = false

instance (key : String) : Decidable (Solid key) :=
  decidable_of_iff (key.toList.all (fun c => !isSpace c) = true) (by simp [Solid])

def Call.SolidKey : Call → Prop
  | .load _ _ => True
  | .find key => key ≠ "" ∧ Solid key
  | .replace key _ => key ≠ "" ∧ Solid key

instance decidableSolidKey : ∀ call : Call, Decidable call.SolidKey
  | .load _ _ => isTrue trivial
  | .find key => inferInstanceAs (Decidable (key ≠ "" ∧ Solid key))
  | .replace key _ => inferInstanceAs (Decidable (key ≠ "" ∧ Solid key))

theorem solid_repr (n : Int) : Solid n.repr := by
  intro c hc
  rw [toList_repr_eq_if] at hc
  have digits : ∀ c ∈ n.natAbs.repr.toList, isSpace c = false :=
    fun c hc => isSpace_of_isDigit (isDigit_of_mem_repr hc)
  split at hc
  · rcases List.mem_cons.mp hc with rfl | hc
    · decide
    · exact digits c hc
  · exact digits c hc

theorem step_sound (c : Statics) (call : Call) (c' : Statics) (sound : Sound c.config)
    (solid : call.SolidKey) (h : step c call = some c') : Sound c'.config := by
  cases call with
  | load configPath file =>
    rw [step, Statics.load, Option.ite_none_left_eq_some] at h
    obtain ⟨-, loaded⟩ := h
    rw [← Option.some.inj loaded]
    exact sound_load sound _
  | find key =>
    obtain rfl := Option.some.inj h
    rw [Statics.find]
    split
    · exact sound_emplace sound ⟨solid.2, by simp, fun _ => rfl⟩
    · exact sound
  | replace key n =>
    obtain rfl := Option.some.inj h
    rw [Statics.replace]
    split
    · exact sound
    · exact sound_overwrite sound ⟨solid.2, solid_repr n, fun none => absurd none solid.1⟩

theorem find_value (c : Statics) (key : String) :
    (c.find key).1 = if c.configPath = "" then "" else value c.config key := by
  rw [Statics.find]
  by_cases closed : c.configPath = "" <;> simp [closed]

/-- The configuration as a map from keys to values. -/
def Statics.toConfig (c : Statics) : RmsConfig.Config :=
  fun key => if c.configPath = "" then "" else value c.config key

/-- A lookup gives the value of the key, and the entry that it may add none. -/
theorem find_toConfig (c : Statics) (key : String) :
    (c.find key).1 = RmsConfig.find c.toConfig key ∧ (c.find key).2.toConfig = c.toConfig := by
  refine ⟨find_value c key, funext fun other => ?_⟩
  rw [Statics.find]
  by_cases closed : c.configPath = ""
  · simp [closed]
  · simp [closed, Statics.toConfig, value_emplace_empty]

theorem replace_toConfig {c : Statics} (opened : c.configPath ≠ "") (key value : String) :
    (c.replace key value).toConfig = RmsConfig.replace c.toConfig key value := by
  funext other
  rw [Statics.replace, if_neg opened, RmsConfig.replace, Function.update_apply]
  simp only [Statics.toConfig, if_neg opened, ConfigFile.value,
    KeyedList.lookup_upsert keyed_overwrite]
  by_cases same : other = key
  · simp [same, overwrite]
  · simp [same, Ne.symm same]

/-- What any calls with keys without white space make of the configuration is
saved, in whatever order, so that a fresh process finds the same values. -/
theorem save_load {calls : List Call} (solid : ∀ call ∈ calls, call.SolidKey) {c : Statics}
    (arrives : run step {} calls = some c) {order : List Entry} (perm : order.Perm c.config)
    {file : List Char} (saved : c.save order = some file) :
    ∃ c', Statics.load {} c.configPath file = some c' ∧
      ∀ key, (c'.find key).1 = (c.find key).1 := by
  have start : Sound (Statics.config {}) := ⟨List.nodup_nil, by simp⟩
  have sound : Sound c.config :=
    run_invariant step_sound start (guarded_of_forall solid) arrives
  rw [Statics.save, Option.ite_none_left_eq_some] at saved
  obtain ⟨opened, rfl⟩ : c.configPath ≠ "" ∧ _ = file := ⟨saved.1, Option.some.inj saved.2⟩
  refine ⟨_, if_neg opened, fun key => ?_⟩
  rw [find_value, find_value, if_neg opened, if_neg opened]
  exact value_saved sound perm key

/-- A file with a blank line, a key without a value and a key twice. -/
theorem save_load_reporter :
    let calls := [Call.load "rms.cfg" "server_ip 10.0.0.1 x\n\ntimeout\nserver_ip 10.0.0.2".toList,
      .find "shell", .replace "computer_id" 7]
    let c := (run step {} calls).get (by decide)
    let file := (c.save c.config.reverse).get (by decide)
    file = "computer_id 7\nshell \ntimeout \n \nserver_ip 10.0.0.1\n".toList ∧
      ∃ c', Statics.load {} c.configPath file = some c' ∧
        ∀ key, (c'.find key).1 = (c.find key).1 :=
  ⟨by decide +kernel, save_load (by decide +kernel) (Option.some_get _).symm (List.reverse_perm _)
    (Option.some_get _).symm⟩

/-- A key with a blank that is looked up is found as a key and a value afterwards. -/
theorem blankKey_not_same :
    ∃ c file c', run step {} [Call.load "rms.cfg" [], .find "a b"] = some c ∧
      c.save c.config = some file ∧ Statics.load {} c.configPath file = some c' ∧
      (c.find "a").1 = "" ∧ (c'.find "a").1 = "b" :=
  ⟨_, _, _, rfl, rfl, rfl, by decide +kernel, by decide +kernel⟩

end Runs

end ConfigFile
