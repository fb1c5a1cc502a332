import RemoteManagement.SysReporter

/-!
# The mounts that are reported

The directives of one `fscanf` take one line of /proc/mounts and the white space
behind it, so the next call starts at the next line. Its end is that of the file.
-/

namespace ReportedStorage

open ThriftTypes DecimalText Stdio SysReporter

/-- A word that fits in a buffer and in a C string. -/
structure Token where
  chars : List Char
  word : IsWord chars
  nulFree : SqlLiteral.nul ∉ chars
  short : chars.length < 128

structure MountLine where
  device : Token
  mountPoint : Token
  fsType : Token
  options : Token

def MountLine.text (l : MountLine) : List Char :=
  l.device.chars ++ ' ' :: (l.mountPoint.chars ++ ' ' :: (l.fsType.chars ++
    ' ' :: (l.options.chars ++ [' ', '0', ' ', '0', '\n'])))

/-- The text of the file. -/
def mounts (lines : List MountLine) : List Char := lines.flatMap MountLine.text

def MountLine.buffers (l : MountLine) : MountBuffers :=
  ⟨String.ofList l.device.chars, String.ofList l.mountPoint.chars, String.ofList l.fsType.chars⟩

theorem mountFormat_eq : mountFormat =
    [.word true, .space, .word true, .space, .word true, .space, .word false, .space,
      .literal '0', .space, .literal '0', .space] := by
  decide

theorem scan_mountLine (l : MountLine) (rest : List Char) :
    scan mountFormat (l.text ++ rest) =
      ⟨[.text l.device.chars, .text l.mountPoint.chars, .text l.fsType.chars],
        skipSpace rest, .complete⟩ := by
  have blank (cs : List Char) : EndsWord (' ' :: cs) := endsWord_cons (by decide) cs
  have gap (t : Token) (cs : List Char) : skipSpace (' ' :: (t.chars ++ cs)) = t.chars ++ cs :=
    (skipSpace_cons (by decide) _).trans (t.word.skipSpace cs)
  have zero (cs : List Char) : skipSpace (' ' :: '0' :: cs) = '0' :: cs :=
    (skipSpace_cons (by decide) _).trans (skipSpace_of_head (by decide) cs)
  have newline : skipSpace ('\n' :: rest) = skipSpace rest := skipSpace_cons (by decide) rest
  simp only [mountFormat_eq, MountLine.text, List.append_assoc, List.cons_append, List.nil_append,
    scan_word (Token.word _) (blank _), scan_space, gap, zero, scan_literal, newline, scan_nil]
  rfl

theorem store_mountLine (l : MountLine) (b : MountBuffers) :
    b.store [.text l.device.chars, .text l.mountPoint.chars, .text l.fsType.chars] =
      some l.buffers := by
  have fits (old : String) (t : Token) :
      storeWord old (some (.text t.chars)) = some (String.ofList t.chars) := by
    rw [storeWord, if_pos t.short, SqlLiteral.cString_of_nul_free t.nulFree]
  simp [MountBuffers.store, fits, MountLine.buffers]

/-- The file starts with a word, if there is a line. -/
theorem skipSpace_mounts (lines : List MountLine) : skipSpace (mounts lines) = mounts lines := by
  cases lines with
  | nil => rfl
  | cons l lines =>
    simp only [mounts, List.flatMap_cons, MountLine.text, List.append_assoc]
    exact l.device.word.skipSpace _

/-- The lines of device files. -/
def ofDevices (lines : List MountLine) : List MountLine :=
  lines.filter (fun l => l.device.chars.head? = some '/')

theorem storageLoop_eq (statfs : String → Statfs) (lines : List MountLine) (b : MountBuffers)
    (more : Nat) :
    storageLoop statfs (lines.length + 1 + more) b (mounts lines) =
      some ((ofDevices lines).map (fun l => storageInfo statfs l.buffers)) := by
  induction lines generalizing b with
  | nil =>
    rw [List.length_nil, Nat.add_right_comm, storageLoop]
    rfl
  | cons l lines ih =>
    have turns : (l :: lines).length + 1 + more = lines.length + 1 + more + 1 := by
      rw [List.length_cons]
      omega
    have read := scan_mountLine l (mounts lines)
    rw [skipSpace_mounts] at read
    have file : mounts (l :: lines) = l.text ++ mounts lines := List.flatMap_cons
    have dev : l.buffers.dev.toList = l.device.chars := String.toList_ofList
    simp only [turns, storageLoop, file, read, Scanned.isEof, reduceCtorEq, false_and, if_false,
      store_mountLine, ih, dev, Option.bind_eq_bind, Option.bind_some, ofDevices, List.filter_cons]
    by_cases file : l.device.chars.head? = some '/'
    · simp [file]
    · simp [file]

/-- The loop ends, and what it has collected is, in order, the device, the mount
point and the type of each line of a device file. -/
theorem storageLoop_mounts (statfs : String → Statfs) (lines : List MountLine) (b : MountBuffers)
    (more : Nat) :
    ∃ infos, storageLoop statfs (lines.length + 1 + more) b (mounts lines) = some infos ∧
      infos.map (fun i => (i.dev.toList, i.mountPoint.toList, i.fsType.toList)) =
        (ofDevices lines).map (fun l => (l.device.chars, l.mountPoint.chars, l.fsType.chars)) := by
  refine ⟨_, storageLoop_eq statfs lines b more, ?_⟩
  rw [List.map_map]
  refine List.map_congr_left fun l _ => ?_
  simp only [Function.comp_apply, storageInfo, MountLine.buffers, String.toList_ofList]

/-- Such a token from a text. -/
def token (s : String) (h : s.toList ≠ [] ∧ s.toList.all (fun c => !isSpace c) = true ∧
    SqlLiteral.nul ∉ s.toList ∧ s.toList.length < 128) : Token where
  chars := s.toList
  word := ⟨h.1, by simpa using h.2.1⟩
  nulFree := h.2.2.1
  short := h.2.2.2

def proc : MountLine where
  device := token "proc" (by decide)
  mountPoint := token "/proc" (by decide)
  fsType := token "proc" (by decide)
  options := token "rw,nosuid" (by decide)

def disk (device mountPoint : Token) : MountLine where
  device := device
  mountPoint := mountPoint
  fsType := token "ext4" (by decide)
  options := token "rw,relatime" (by decide)

/-- Two disks around a line that is none. -/
def threeMounts : List MountLine :=
  [disk (token "/dev/sda1" (by decide)) (token "/" (by decide)), proc,
    disk (token "/dev/sdb1" (by decide)) (token "/home" (by decide))]

theorem storageLoop_threeMounts :
    mounts threeMounts = fileOf
        ["/dev/sda1 / ext4 rw,relatime 0 0", "proc /proc proc rw,nosuid 0 0",
          "/dev/sdb1 /home ext4 rw,relatime 0 0"] ∧
      ∃ infos, storageLoop (fun _ => ⟨0, 0, 0⟩) 4 ⟨"", "", ""⟩ (mounts threeMounts) = some infos ∧
        infos.map (fun i => (i.dev.toList, i.mountPoint.toList, i.fsType.toList)) =
          [("/dev/sda1".toList, "/".toList, "ext4".toList),
            ("/dev/sdb1".toList, "/home".toList, "ext4".toList)] :=
  ⟨by decide, storageLoop_mounts (fun _ => ⟨0, 0, 0⟩) threeMounts ⟨"", "", ""⟩ 0⟩

end ReportedStorage
