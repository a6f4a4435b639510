import MultiSpeed.Lib.Fallible
import MultiSpeed.Providers.Output

/-!
# Installing the Ookla executable

`BinaryManager.Install` puts an upload in a temporary file beside the managed path,
checks it there and renames it.  Installs are serialised by the mutex and nothing else
touches the two paths meanwhile.  What each call to the file system is answered is given
beforehand; every call but the writes is made at most once, and the writes fail from the
first byte on that cannot be stored.
-/

namespace MultiSpeed.Providers.BinaryInstall

open Fallible

def maxBinaryUploadBytes : ℕ := 64 * 2 ^ 20

def errBinaryUploadDisabled : Text := utf8 "ookla binary upload is disabled"
def errBinaryTooLarge : Text := utf8 "ookla binary exceeds the upload limit"
def errInvalidBinary : Text := utf8 "uploaded file is not a compatible Ookla executable"
def errBinaryPathConflict : Text :=
  utf8 "managed Ookla binary path must be absent or a regular file"

/-- `fmt.Errorf(context + ": %w", err)` -/
def wrapped (context : Text) (message : Text) : Text := context ++ utf8 ": " ++ message

/-! ## Uploads -/

/-- What an `io.Reader` gives: bytes in pieces of any length, then an error; `none` is
`io.EOF`.  The last bytes may come together with it. -/
inductive Reader where
  | ends (failure : Option Text)
  | last (bytes : List UInt8) (failure : Option Text)
  | gives (bytes : List UInt8) (rest : Reader)

namespace Reader

/-- One `Read`: the bytes, the error, and what is left. -/
def read (limit : ℕ) : Reader → List UInt8 × Option (Option Text) × Reader
  | .ends failure => ([], some failure, .ends failure)
  | .last bytes failure =>
      if bytes.length ≤ limit then (bytes, some failure, .ends failure)
      else (bytes.take limit, none, .last (bytes.drop limit) failure)
  | .gives bytes rest =>
      if bytes.length ≤ limit then (bytes, none, rest)
      else (bytes.take limit, none, .gives (bytes.drop limit) rest)

/-- The `Read` of an `io.LimitReader` with `remaining` bytes left. -/
def readLimited (limit remaining : ℕ) (source : Reader) :
    List UInt8 × Option (Option Text) × Reader :=
  if remaining = 0 then ([], some none, source) else source.read (min limit remaining)

/-- All the bytes of an upload. -/
def bytes : Reader → List UInt8
  | .ends _ => []
  | .last bytes _ => bytes
  | .gives bytes rest => bytes ++ rest.bytes

/-- The error an upload ends with. -/
def failure : Reader → Option Text
  | .ends failure | .last _ failure => failure
  | .gives _ rest => rest.failure

def size : Reader → ℕ
  | .ends _ => 0
  | .last bytes _ => bytes.length
  | .gives bytes rest => bytes.length + 1 + rest.size

/-- A read takes the first bytes and leaves the others. -/
theorem read_split {limit : ℕ} (hlimit : 0 < limit) {source rest : Reader}
    {chunk : List UInt8} {ending : Option (Option Text)}
    (h : source.read limit = (chunk, ending, rest)) :
    chunk.length ≤ limit ∧ source.bytes = chunk ++ rest.bytes ∧
      rest.failure = source.failure ∧ (ending = none → rest.size < source.size) ∧
      ∀ failure, ending = some failure → rest.bytes = [] ∧ failure = source.failure := by
  cases source with
  | ends failure =>
      obtain ⟨rfl, rfl, rfl⟩ : [] = chunk ∧ some failure = ending ∧ .ends failure = rest := by
        simpa [read] using h
      exact ⟨Nat.zero_le _, rfl, rfl, by simp, fun _ h ↦ ⟨rfl, (Option.some.inj h).symm⟩⟩
  | last bytes failure =>
      by_cases hfits : bytes.length ≤ limit
      · obtain ⟨rfl, rfl, rfl⟩ :
            bytes = chunk ∧ some failure = ending ∧ .ends failure = rest := by
          simpa [read, hfits] using h
        exact ⟨hfits, (List.append_nil _).symm, rfl, by simp,
          fun _ h ↦ ⟨rfl, (Option.some.inj h).symm⟩⟩
      · obtain ⟨rfl, rfl, rfl⟩ : bytes.take limit = chunk ∧ none = ending ∧
            .last (bytes.drop limit) failure = rest := by
          simpa [read, hfits] using h
        refine ⟨List.length_take_le _ _, (List.take_append_drop limit bytes).symm, rfl,
          fun _ ↦ ?_, by simp⟩
        change (bytes.drop limit).length < bytes.length
        rw [List.length_drop]
        omega
  | gives bytes next =>
      by_cases hfits : bytes.length ≤ limit
      · obtain ⟨rfl, rfl, rfl⟩ : bytes = chunk ∧ none = ending ∧ next = rest := by
          simpa [read, hfits] using h
        refine ⟨hfits, rfl, rfl, fun _ ↦ ?_, by simp⟩
        change next.size < bytes.length + 1 + next.size
        omega
      · obtain ⟨rfl, rfl, rfl⟩ : bytes.take limit = chunk ∧ none = ending ∧
            .gives (bytes.drop limit) next = rest := by
          simpa [read, hfits] using h
        refine ⟨List.length_take_le _ _, ?_, rfl, fun _ ↦ ?_, by simp⟩
        · change bytes ++ next.bytes = bytes.take limit ++ (bytes.drop limit ++ next.bytes)
          rw [← List.append_assoc, List.take_append_drop]
        · change (bytes.drop limit).length + 1 + next.size < bytes.length + 1 + next.size
          rw [List.length_drop]
          omega

/-- At the limit nothing more is asked of the source. -/
theorem readLimited_split {limit remaining : ℕ} (hlimit : 0 < limit)
    {source rest : Reader} {chunk : List UInt8} {ending : Option (Option Text)}
    (h : source.readLimited limit remaining = (chunk, ending, rest)) :
    chunk.length ≤ remaining ∧ source.bytes = chunk ++ rest.bytes ∧
      rest.failure = source.failure ∧ (ending = none → rest.size < source.size) ∧
      ∀ failure, ending = some failure → remaining = 0 ∧ chunk = [] ∧ failure = none ∨
        rest.bytes = [] ∧ failure = source.failure := by
  by_cases hremaining : remaining = 0
  · obtain ⟨rfl, rfl, rfl⟩ : [] = chunk ∧ some none = ending ∧ source = rest := by
      simpa [readLimited, hremaining] using h
    exact ⟨Nat.zero_le _, rfl, rfl, by simp,
      fun _ h ↦ Or.inl ⟨hremaining, rfl, (Option.some.inj h).symm⟩⟩
  · rw [readLimited, if_neg hremaining] at h
    obtain ⟨hlength, hbytes, hfailure, hsize, hend⟩ :=
      read_split (lt_min hlimit (Nat.pos_of_ne_zero hremaining)) h
    exact ⟨hlength.trans (min_le_right _ _), hbytes, hfailure, hsize,
      fun failure hending ↦ Or.inr (hend failure hending)⟩

end Reader

/-! ## Files -/

/-- What `os.Lstat` tells of a path. -/
inductive Kind where
  | regular
  | directory
  | symlink
  | other
deriving DecidableEq

structure File where
  kind : Kind
  content : List UInt8
  mode : ℕ
deriving DecidableEq

/-- The file system's answers, `none` where a call succeeds. -/
structure FileSystem where
  /-- `os.Lstat` of the data directory. -/
  dataDir : Except Text Kind
  mkdirAll : Option Text
  /-- `os.Lstat` of a directory below it. -/
  component : String → Except Text Kind
  /-- An error of `os.Lstat` at the managed path other than that nothing is there. -/
  inspect : Option Text
  createTemp : Option Text
  chmodTemporary : Option Text
  /-- The number of bytes that can be stored, and the error of a write that goes beyond. -/
  full : Option (ℕ × Text)
  sync : Option Text
  close : Option Text
  openTemporary : Option Text
  readTemporary : Option Text
  closeInspected : Option Text
  rename : Option Text
  chmodManaged : Option Text
  remove : Option Text

/-- The two paths, and the variables of `Install` that its steps share: the bytes that
went into the hash, and whether the deferred function keeps the temporary file. -/
structure Installation where
  managed : Option File
  temporary : Option File
  hash : List UInt8
  keep : Bool

namespace Installation

def appendTemporary (s : Installation) (bytes : List UInt8) : Installation :=
  { s with temporary := s.temporary.map fun file ↦ { file with content := file.content ++ bytes } }

def hashed (s : Installation) (bytes : List UInt8) : Installation :=
  { s with hash := s.hash ++ bytes }

def content (s : Installation) : List UInt8 := s.temporary.elim [] File.content

end Installation

/-- The steps of `Install`. -/
abbrev Step := Fallible Installation Text

variable (fs : FileSystem)

/-! ## Copying -/

/-- `temporary.Write` -/
def write (chunk : List UInt8) : Step Unit := do
  let stored ← reads fun s ↦ s.content.length
  match fs.full with
  | some (room, message) =>
      if stored + chunk.length ≤ room then modify fun s ↦ s.appendTemporary chunk
      else do
        modify fun s ↦ s.appendTemporary (chunk.take (room - stored))
        fail message
  | none => modify fun s ↦ s.appendTemporary chunk

/-- The `Write` of `io.MultiWriter(temporary, hash)`. -/
def writeBoth (chunk : List UInt8) : Step Unit := do
  write fs chunk
  modify fun s ↦ s.hashed chunk

/-- What `io.Copy` does with the bytes of a read. -/
def store (chunk : List UInt8) : Step Unit :=
  if 0 < chunk.length then writeBoth fs chunk else pure ()

/-- The buffer of `io.Copy`. -/
def bufferSize : ℕ := 32 * 1024

/-- The loop of `io.Copy(io.MultiWriter(temporary, hash), io.LimitReader(source, …))`. -/
def copyBuffer (source : Reader) (remaining written : ℕ) : Step ℕ :=
  match _h : source.readLimited bufferSize remaining with
  | (chunk, some none, _) => do
      store fs chunk
      pure (written + chunk.length)
  | (chunk, some (some message), _) => do
      store fs chunk
      fail message
  | (chunk, none, rest) => do
      store fs chunk
      copyBuffer rest (remaining - chunk.length) (written + chunk.length)
termination_by source.size
decreasing_by exact (Reader.readLimited_split (by decide) _h).2.2.2.1 rfl

/-! ## Installing -/

/-- The loop of `prepareParent` over the directories between the data directory and the
managed path. -/
def inspectComponents : List String → Step Unit
  | [] => pure ()
  | component :: components =>
      match fs.component component with
      | .error message => fail (wrapped (utf8 "inspect Ookla provider directory") message)
      | .ok kind =>
          if kind ≠ .directory then
            fail (utf8 "ookla provider directory must not contain symbolic links")
          else inspectComponents components

def prepareParent : Step Unit :=
  match fs.dataDir with
  | .error message => fail (wrapped (utf8 "inspect APP_DATA_DIR") message)
  | .ok kind =>
      if kind ≠ .directory then fail (utf8 "APP_DATA_DIR must be a real directory")
      else do
        check (fs.mkdirAll.map (wrapped (utf8 "create Ookla provider directory")))
        inspectComponents fs ["providers", "ookla"]

/-- `binary.LittleEndian.Uint16(header[offset : offset+2])` -/
def uint16 (header : List UInt8) (offset : ℕ) : ℕ :=
  (header.getD offset 0).toNat + 256 * (header.getD (offset + 1) 0).toNat

/-- What `validateLinuxAMD64ELF` finds wrong with the header it has read. -/
def headerError (header : List UInt8) : Option Text :=
  if header.take 4 ≠ [0x7f, 0x45, 0x4c, 0x46] ∨ header.getD 4 0 ≠ 2 ∨ header.getD 5 0 ≠ 1 then
    some (wrapped errInvalidBinary (utf8 "expected a 64-bit little-endian ELF file"))
  else if (uint16 header 16 ≠ 2 ∧ uint16 header 16 ≠ 3) ∨ uint16 header 18 ≠ 62 then
    some (wrapped errInvalidBinary (utf8 "expected a Linux amd64 executable"))
  else none

/-- The error of `io.ReadFull`, to which a file that is too short is one. -/
def readError (header : List UInt8) : Option Text :=
  if header.length < 20 then some (utf8 "unexpected EOF") else fs.readTemporary

def validateLinuxAMD64ELF : Step Unit := do
  check (fs.openTemporary.map fun _ ↦ wrapped errInvalidBinary (utf8 "cannot inspect file"))
  let header ← reads fun s ↦ s.content.take 20
  check ((readError fs header).map fun _ ↦
    wrapped errInvalidBinary (utf8 "incomplete ELF header"))
  check (fs.closeInspected.map fun _ ↦
    wrapped errInvalidBinary (utf8 "cannot finish inspecting file"))
  check (headerError header)

structure BinaryStatus where
  uploadEnabled : Bool
  installed : Bool
  maxUploadBytes : ℕ
  message : String

structure BinaryInstallResult where
  status : BinaryStatus
  version : Text
  sha256 : String

/-- The verifier is asked about what the file holds. -/
structure BinaryManager where
  enabled : Bool
  managed : Bool
  verify : List UInt8 → Except Text Text

namespace BinaryManager

variable (manager : BinaryManager)

/-- `Status`, where `os.Stat` finds this file. -/
def status (found : Option File) : BinaryStatus where
  uploadEnabled := manager.enabled && manager.managed
  installed := found.any fun file ↦ file.kind = .regular && file.mode.testBit 6
  maxUploadBytes := maxBinaryUploadBytes
  message :=
    if !manager.enabled then
      "Manual Ookla executable upload is disabled by this deployment."
    else if !manager.managed then
      "Manual upload is available only at APP_DATA_DIR/providers/ookla/speedtest; use an " ++
        "external read-only mount without upload for every other OOKLA_BINARY path."
    else "Upload a separately obtained Linux amd64 Speedtest by Ookla executable."

end BinaryManager

/-- `hex.EncodeToString` -/
def hexEncode (bytes : List UInt8) : String :=
  String.ofList (bytes.flatMap fun b ↦ [(b.toNat / 16).digitChar, (b.toNat % 16).digitChar])

/-- The deferred function: a temporary file that is not kept is removed. -/
def cleanup (s : Installation) : Installation :=
  if s.keep then s
  else match fs.remove with
    | some _ => s
    | none => { s with temporary := none }

/-- `os.Lstat` of the managed path. -/
def inspectManaged : Step Unit := do
  check (fs.inspect.map (wrapped (utf8 "inspect managed Ookla executable")))
  let managed ← reads Installation.managed
  match managed with
  | some file => if file.kind ≠ .regular then fail errBinaryPathConflict else pure ()
  | none => pure ()

/-- What `Install` does to the temporary file up to the verifier; the answer is the
version. -/
def stage (manager : BinaryManager) (source : Reader) : Step Text := do
  check (fs.chmodTemporary.map (wrapped (utf8 "secure Ookla upload permissions")))
  modify fun s ↦ { s with temporary := s.temporary.map fun file ↦ { file with mode := 0o700 } }
  let written ← rethrow (wrapped (utf8 "read Ookla upload"))
    (copyBuffer fs source (maxBinaryUploadBytes + 1) 0)
  if written = 0 then fail (wrapped errInvalidBinary (utf8 "file body is empty"))
  else if maxBinaryUploadBytes < written then fail errBinaryTooLarge
  else do
    check (fs.sync.map (wrapped (utf8 "sync Ookla upload")))
    check (fs.close.map (wrapped (utf8 "close Ookla upload")))
    validateLinuxAMD64ELF fs
    let content ← reads Installation.content
    match manager.verify content with
    | .error message => fail (wrapped errInvalidBinary (sanitizeOutput message 512))
    | .ok version => pure version

/-- The rename and what follows it. -/
def activate (sha256 : List UInt8 → List UInt8) (manager : BinaryManager) (version : Text) :
    Step BinaryInstallResult := do
  check (fs.rename.map (wrapped (utf8 "activate Ookla executable")))
  modify fun s ↦ { s with managed := s.temporary, temporary := none }
  modify fun s ↦ { s with keep := true }
  check (fs.chmodManaged.map (wrapped (utf8 "secure Ookla executable permissions")))
  modify fun s ↦ { s with managed := s.managed.map fun file ↦ { file with mode := 0o700 } }
  let installed ← reads Installation.managed
  let digest ← reads fun s ↦ sha256 s.hash
  pure ⟨{ manager.status installed with installed := true }, version, hexEncode digest⟩

/-- `Install`, with the hash function. -/
def install (sha256 : List UInt8 → List UInt8) (manager : BinaryManager)
    (source : Option Reader) : Step BinaryInstallResult :=
  if !manager.enabled || !manager.managed then fail errBinaryUploadDisabled
  else
    match source with
    | none => fail (wrapped errInvalidBinary (utf8 "file body is empty"))
    | some source => do
        prepareParent fs
        inspectManaged fs
        check (fs.createTemp.map (wrapped (utf8 "create Ookla upload")))
        modify fun s ↦ { s with temporary := some ⟨.regular, [], 0o600⟩ }
        deferring (cleanup fs) do
          let version ← stage fs manager source
          activate fs sha256 manager version

/-! ## Copying an upload -/

/-- So many bytes can be stored. -/
def Fits (size : ℕ) : Prop := ∀ room message, fs.full = some (room, message) → size ≤ room

/-- Neither what is managed nor whether the file is kept has changed. -/
structure Staged (s t : Installation) : Prop where
  managed : t.managed = s.managed
  keep : t.keep = s.keep

theorem Staged.trans {s t u : Installation} (h : Staged s t) (h' : Staged t u) : Staged s u :=
  ⟨h'.managed.trans h.managed, h'.keep.trans h.keep⟩

namespace Installation

/-- The bytes are in the temporary file and in the hash. -/
def stored (s : Installation) (bytes : List UInt8) : Installation :=
  (s.appendTemporary bytes).hashed bytes

theorem staged_stored (s : Installation) (bytes : List UInt8) : Staged s (s.stored bytes) :=
  ⟨rfl, rfl⟩

theorem stored_nil (s : Installation) : s.stored [] = s := by
  rcases s with ⟨managed, _ | file, hash, keep⟩
  · simp [stored, appendTemporary, hashed]
  · simp [stored, appendTemporary, hashed]

theorem stored_append (s : Installation) (bytes more : List UInt8) :
    (s.stored bytes).stored more = s.stored (bytes ++ more) := by
  rcases s with ⟨managed, _ | file, hash, keep⟩
  · simp [stored, appendTemporary, hashed]
  · simp [stored, appendTemporary, hashed]

theorem content_stored {s : Installation} (hs : s.temporary.isSome) (bytes : List UInt8) :
    (s.stored bytes).content = s.content ++ bytes := by
  obtain ⟨file, hfile⟩ := Option.isSome_iff_exists.mp hs
  simp [stored, appendTemporary, hashed, content, hfile]

end Installation

variable {fs}

theorem store_ends {s : Installation} (chunk : List UInt8) (hfits : Fits fs s.content.length) :
    Ends (store fs chunk)
      (fun _ t ↦ t = s.stored chunk ∧ Fits fs (s.content.length + chunk.length))
      (fun _ t ↦ Staged s t ∧ ¬ Fits fs (s.content.length + chunk.length)) s := by
  unfold store
  split
  · unfold writeBoth write
    simp only [ends_bind, ends_reads]
    split
    · rename_i room message hfull
      split
      · rename_i hroom
        have hall : Fits fs (s.content.length + chunk.length) := by
          intro room' message' hfull'
          obtain ⟨rfl, -⟩ := Prod.mk.inj (Option.some.inj (hfull.symm.trans hfull'))
          exact hroom
        exact ⟨rfl, hall⟩
      · rename_i hroom
        exact ⟨⟨rfl, rfl⟩, fun hall ↦ hroom (hall room message hfull)⟩
    · rename_i hfull
      have hall : Fits fs (s.content.length + chunk.length) :=
        fun room message hfull' ↦ by cases hfull.symm.trans hfull'
      exact ⟨rfl, hall⟩
  · rename_i hempty
    obtain rfl := List.eq_nil_of_length_eq_zero (Nat.eq_zero_of_not_pos hempty)
    exact ⟨s.stored_nil.symm, hfits⟩

theorem Fits.mono {size size' : ℕ} (h : Fits fs size) (hle : size' ≤ size) : Fits fs size' :=
  fun room message hfull ↦ hle.trans (h room message hfull)

/-- A copy stores the upload up to the limit; it fails only where the whole upload could
not be stored or does not end well. -/
theorem copyBuffer_ends (source : Reader) (remaining written : ℕ) {s : Installation}
    (hs : s.temporary.isSome) (hfits : Fits fs s.content.length) :
    Ends (copyBuffer fs source remaining written)
      (fun total t ↦ t = s.stored (source.bytes.take remaining) ∧
        total = written + (source.bytes.take remaining).length ∧
        Fits fs (s.content.length + (source.bytes.take remaining).length) ∧
        (source.bytes.length < remaining → source.failure = none))
      (fun _ t ↦ Staged s t ∧ ¬ (source.bytes.length < remaining ∧ source.failure = none ∧
        Fits fs (s.content.length + source.bytes.length))) s := by
  induction source, remaining, written using copyBuffer.induct generalizing s with
  | case1 source remaining written chunk rest hread =>
      obtain ⟨hlength, hbytes, hfailure, -, hend⟩ := Reader.readLimited_split (by decide) hread
      have htaken : source.bytes.take remaining = chunk ∧
          (source.bytes.length < remaining → source.failure = none) ∧
          chunk.length ≤ source.bytes.length := by
        rcases hend none rfl with ⟨rfl, rfl, -⟩ | ⟨hrest, hnone⟩
        · exact ⟨rfl, fun h ↦ absurd h (Nat.not_lt_zero _), Nat.zero_le _⟩
        · rw [hbytes, hrest, List.append_nil]
          exact ⟨List.take_of_length_le hlength, fun _ ↦ hnone.symm, le_rfl⟩
      obtain ⟨htaken, hnone, hle⟩ := htaken
      rw [copyBuffer, hread, htaken]
      simp only [ends_bind, ends_pure]
      apply (store_ends chunk hfits).mono
      · rintro _ t ⟨rfl, hroom⟩
        exact ⟨rfl, trivial, hroom, hnone⟩
      · rintro _ t ⟨hstaged, hroom⟩
        exact ⟨hstaged, fun h ↦ hroom (h.2.2.mono (by omega))⟩
  | case2 source remaining written chunk message rest hread =>
      obtain ⟨hlength, hbytes, hfailure, -, hend⟩ := Reader.readLimited_split (by decide) hread
      have hsome : source.bytes.length < remaining → source.failure ≠ none := by
        intro hlt
        rcases hend _ rfl with ⟨hzero, -, hmessage⟩ | ⟨hrest, hmessage⟩
        · cases hmessage
        · intro h
          cases hmessage.trans h
      rw [copyBuffer, hread]
      simp only [ends_bind, ends_fail]
      apply (store_ends chunk hfits).mono
      · rintro _ t ⟨rfl, hroom⟩
        exact ⟨s.staged_stored chunk, fun h ↦ hsome h.1 h.2.1⟩
      · rintro _ t ⟨hstaged, hroom⟩
        exact ⟨hstaged, fun h ↦ hsome h.1 h.2.1⟩
  | case3 source remaining written chunk rest hread ih =>
      obtain ⟨hlength, hbytes, hfailure, -, hend⟩ := Reader.readLimited_split (by decide) hread
      rw [copyBuffer, hread]
      simp only [ends_bind]
      apply (store_ends chunk hfits).mono
      · rintro _ t ⟨rfl, hroom⟩
        have hs' : (s.stored chunk).temporary.isSome := by
          obtain ⟨file, hfile⟩ := Option.isSome_iff_exists.mp hs
          simp [Installation.stored, Installation.appendTemporary, Installation.hashed, hfile]
        have hcontent : (s.stored chunk).content.length = s.content.length + chunk.length := by
          rw [Installation.content_stored hs, List.length_append]
        have htaken : source.bytes.take remaining =
            chunk ++ rest.bytes.take (remaining - chunk.length) := by
          rw [hbytes, List.take_append, List.take_of_length_le hlength]
        apply (ih hs' (hcontent ▸ hroom)).mono
        · rintro total u ⟨rfl, rfl, hfits', hnone⟩
          rw [htaken, Installation.stored_append, List.length_append]
          refine ⟨rfl, Nat.add_assoc _ _ _, ?_, fun hlt ↦ ?_⟩
          · rw [hcontent] at hfits'
            exact hfits'.mono (by omega)
          · rw [← hfailure]
            rw [hbytes, List.length_append] at hlt
            exact hnone (by omega)
        · rintro _ u ⟨hstaged, hnot⟩
          refine ⟨(s.staged_stored chunk).trans hstaged, ?_⟩
          rintro ⟨hlt, hnone, hall⟩
          rw [hbytes, List.length_append] at hlt hall
          refine hnot ⟨by omega, hfailure.trans hnone, ?_⟩
          rw [hcontent]
          exact hall.mono (by omega)
      · rintro _ t ⟨hstaged, hroom⟩
        refine ⟨hstaged, ?_⟩
        rintro ⟨-, -, hall⟩
        refine hroom (hall.mono ?_)
        rw [hbytes, List.length_append]
        omega

/-! ## Checks -/

/-- The file begins like a 64-bit little-endian executable for amd64. -/
structure IsLinuxAMD64 (content : List UInt8) : Prop where
  length : 20 ≤ content.length
  magic : content.take 4 = [0x7f, 0x45, 0x4c, 0x46]
  bits : content.getD 4 0 = 2
  order : content.getD 5 0 = 1
  fileType : uint16 content 16 = 2 ∨ uint16 content 16 = 3
  machine : uint16 content 18 = 62

theorem getD_take {content : List UInt8} {size index : ℕ} (h : index < size) :
    (content.take size).getD index 0 = content.getD index 0 := by
  rw [List.getD_eq_getElem?_getD, List.getD_eq_getElem?_getD, List.getElem?_take_of_lt h]

theorem uint16_take {content : List UInt8} {size offset : ℕ} (h : offset + 1 < size) :
    uint16 (content.take size) offset = uint16 content offset := by
  rw [uint16, getD_take (by omega), getD_take h, uint16]

/-- The temporary file can be read back, and is an executable. -/
structure Inspected (fs : FileSystem) (content : List UInt8) : Prop where
  openTemporary : fs.openTemporary = none
  readTemporary : fs.readTemporary = none
  closeInspected : fs.closeInspected = none
  executable : IsLinuxAMD64 content

theorem headerError_eq_none {content : List UInt8} (hlength : 20 ≤ content.length) :
    headerError (content.take 20) = none ↔ IsLinuxAMD64 content := by
  unfold headerError
  rw [List.take_take, getD_take (by decide), getD_take (by decide), uint16_take (by decide),
    uint16_take (by decide)]
  constructor
  · intro h
    split at h
    · cases h
    · split at h
      · cases h
      · rename_i hident hmachine
        push Not at hident hmachine
        obtain ⟨hmagic, hbits, horder⟩ := hident
        exact ⟨hlength, hmagic, hbits, horder, or_iff_not_imp_left.mpr hmachine.1, hmachine.2⟩
  · rintro ⟨-, hmagic, hbits, horder, htype, hmachine⟩
    rw [if_neg, if_neg]
    · rintro (⟨h2, h3⟩ | h)
      · exact htype.elim h2 h3
      · exact h hmachine
    · rintro (h | h | h)
      · exact h hmagic
      · exact h hbits
      · exact h horder

theorem readError_eq_none {content : List UInt8} :
    readError fs (content.take 20) = none ↔ 20 ≤ content.length ∧ fs.readTemporary = none := by
  unfold readError
  rw [List.length_take]
  split
  · simp only [reduceCtorEq, false_iff]
    omega
  · exact ⟨fun h ↦ ⟨by omega, h⟩, fun h ↦ h.2⟩

theorem validateLinuxAMD64ELF_tests :
    Tests (validateLinuxAMD64ELF fs) fun s ↦ Inspected fs s.content := by
  have htests : Tests (validateLinuxAMD64ELF fs) _ :=
    (Tests.check _).bind fun _ ↦ Tests.reads fun header ↦
      (Tests.check _).bind fun _ ↦ (Tests.check _).bind fun _ ↦ Tests.check (headerError header)
  apply htests.congr
  intro s
  rw [Option.map_eq_none_iff, Option.map_eq_none_iff, Option.map_eq_none_iff, readError_eq_none]
  constructor
  · rintro ⟨hopen, ⟨hlength, hread⟩, hclose, hheader⟩
    exact ⟨hopen, hread, hclose, (headerError_eq_none hlength).mp hheader⟩
  · rintro ⟨hopen, hread, hclose, hexecutable⟩
    have hlength := hexecutable.length
    exact ⟨hopen, ⟨hlength, hread⟩, hclose, (headerError_eq_none hlength).mpr hexecutable⟩

/-- The directories down to the managed path are real ones. -/
structure Prepared (fs : FileSystem) : Prop where
  dataDir : fs.dataDir = .ok .directory
  mkdirAll : fs.mkdirAll = none
  components : ∀ component ∈ ["providers", "ookla"], fs.component component = .ok .directory

theorem inspectComponents_tests (components : List String) :
    Tests (inspectComponents fs components)
      fun _ ↦ ∀ component ∈ components, fs.component component = .ok .directory := by
  induction components with
  | nil => exact Tests.pure.congr fun _ ↦ by simp
  | cons component components ih =>
      unfold inspectComponents
      cases hcomponent : fs.component component with
      | error message => exact Tests.fail.congr fun _ ↦ by simp [hcomponent]
      | ok kind => exact ih.refuse.congr fun _ ↦ by simp [hcomponent]

theorem prepareParent_tests : Tests (prepareParent fs) fun _ ↦ Prepared fs := by
  unfold prepareParent
  cases hdata : fs.dataDir with
  | error message =>
      exact Tests.fail.congr fun _ ↦ ⟨False.elim, fun h ↦ by cases hdata.symm.trans h.dataDir⟩
  | ok kind =>
      apply (((Tests.check _).bind fun _ ↦ inspectComponents_tests _).refuse).congr
      intro _
      rw [Option.map_eq_none_iff, not_not]
      constructor
      · rintro ⟨rfl, hmkdir, hcomponents⟩
        exact ⟨hdata, hmkdir, hcomponents⟩
      · intro h
        exact ⟨Except.ok.inj (hdata.symm.trans h.dataDir), h.mkdirAll, h.components⟩

/-- The managed path is free or holds a regular file. -/
structure Replaceable (fs : FileSystem) (managed : Option File) : Prop where
  inspect : fs.inspect = none
  regular : ∀ file ∈ managed, file.kind = .regular

theorem inspectManaged_tests : Tests (inspectManaged fs) fun s ↦ Replaceable fs s.managed := by
  have hregular : ∀ managed : Option File,
      Tests (match managed with
        | some file => if file.kind ≠ .regular then fail errBinaryPathConflict else pure ()
        | none => pure () : Step Unit) fun _ ↦ ∀ file ∈ managed, file.kind = .regular := by
    intro managed
    cases managed with
    | none => exact Tests.pure.congr fun _ ↦ by simp
    | some file => exact Tests.pure.refuse.congr fun _ ↦ by simp
  have htests : Tests (inspectManaged fs) _ :=
    (Tests.check _).bind fun _ ↦ Tests.reads hregular
  apply htests.congr
  intro s
  rw [Option.map_eq_none_iff]
  exact ⟨fun h ↦ ⟨h.1, h.2⟩, fun h ↦ ⟨h.inspect, h.regular⟩⟩

/-! ## Staging -/

/-- The state while an upload is staged. -/
def staging (managed : Option File) (content : List UInt8) (mode : ℕ) : Installation :=
  ⟨managed, some ⟨.regular, content, mode⟩, content, false⟩

/-- What `Install` copies is the upload up to one byte more than the limit. -/
theorem copy_ends (source : Reader) (managed : Option File) (mode : ℕ) :
    Ends (copyBuffer fs source (maxBinaryUploadBytes + 1) 0)
      (fun written t ↦
        t = staging managed (source.bytes.take (maxBinaryUploadBytes + 1)) mode ∧
        written = (source.bytes.take (maxBinaryUploadBytes + 1)).length ∧ Fits fs written ∧
        (source.bytes.length ≤ maxBinaryUploadBytes → source.failure = none))
      (fun _ t ↦ t.managed = managed ∧ t.keep = false ∧
        ¬ (source.bytes.length ≤ maxBinaryUploadBytes ∧ source.failure = none ∧
          Fits fs source.bytes.length))
      (staging managed [] mode) := by
  have hempty : Fits fs (staging managed [] mode).content.length :=
    fun room message _ ↦ Nat.zero_le room
  apply (copyBuffer_ends source (maxBinaryUploadBytes + 1) 0 rfl hempty).mono
  · rintro written t ⟨rfl, rfl, hfits, hfailure⟩
    rw [Nat.zero_add]
    exact ⟨rfl, rfl, hfits.mono (Nat.le_add_left _ _),
      fun hsize ↦ hfailure (Nat.lt_succ_of_le hsize)⟩
  · rintro _ t ⟨hstaged, hnot⟩
    refine ⟨hstaged.managed, hstaged.keep, fun ⟨hsize, hfailure, hfits⟩ ↦ hnot ?_⟩
    refine ⟨Nat.lt_succ_of_le hsize, hfailure, hfits.mono ?_⟩
    exact (Nat.zero_add _).le

/-- The upload arrives whole, is stored, and passes every check. -/
structure Acceptable (fs : FileSystem) (manager : BinaryManager) (source : Reader) : Prop where
  chmodTemporary : fs.chmodTemporary = none
  failure : source.failure = none
  size : source.bytes.length ≤ maxBinaryUploadBytes
  fits : Fits fs source.bytes.length
  sync : fs.sync = none
  close : fs.close = none
  inspected : Inspected fs source.bytes
  verified : ∃ version, manager.verify source.bytes = .ok version

theorem stage_ends (manager : BinaryManager) (source : Reader) (managed : Option File) (mode : ℕ) :
    Ends (stage fs manager source)
      (fun version t ↦ t = staging managed source.bytes 0o700 ∧ Acceptable fs manager source ∧
        manager.verify source.bytes = .ok version)
      (fun _ t ↦ t.managed = managed ∧ t.keep = false ∧ ¬ Acceptable fs manager source)
      (staging managed [] mode) := by
  unfold stage
  apply (Tests.check _).ends_bind
  case hbad =>
    exact fun _ h ↦ ⟨rfl, rfl, fun haccept ↦ h (by rw [haccept.chmodTemporary]; rfl)⟩
  intro hchmod
  rw [ends_bind, ends_modify, ends_bind, ends_rethrow]
  apply (copy_ends source managed 0o700).mono
  case hbad =>
    rintro _ t ⟨hmanaged, hkeep, hnot⟩
    exact ⟨hmanaged, hkeep, fun haccept ↦ hnot ⟨haccept.size, haccept.failure, haccept.fits⟩⟩
  rintro written t ⟨rfl, hwritten, hfits, hfailure⟩
  -- The number of bytes tells whether the upload is empty, too large or complete.
  split
  · rename_i hzero
    refine ⟨rfl, rfl, fun haccept ↦ ?_⟩
    have hlength := haccept.inspected.executable.length
    rw [hwritten, List.length_take] at hzero
    omega
  split
  · rename_i hlarge
    refine ⟨rfl, rfl, fun haccept ↦ ?_⟩
    have hsize := haccept.size
    rw [hwritten, List.length_take] at hlarge
    omega
  have hsize : source.bytes.length ≤ maxBinaryUploadBytes := by
    rename_i hlarge
    rw [hwritten, List.length_take] at hlarge
    omega
  obtain rfl : written = source.bytes.length := by
    rw [hwritten, List.length_take]
    omega
  rw [List.take_of_length_le (Nat.le_succ_of_le hsize)]
  apply (Tests.check _).ends_bind
  case hbad =>
    exact fun _ h ↦ ⟨rfl, rfl, fun haccept ↦ h (by rw [haccept.sync]; rfl)⟩
  intro hsync
  apply (Tests.check _).ends_bind
  case hbad =>
    exact fun _ h ↦ ⟨rfl, rfl, fun haccept ↦ h (by rw [haccept.close]; rfl)⟩
  intro hclose
  apply validateLinuxAMD64ELF_tests.ends_bind
  case hbad =>
    exact fun _ h ↦ ⟨rfl, rfl, fun haccept ↦ h haccept.inspected⟩
  intro hinspected
  rw [ends_bind, ends_reads]
  change Ends (match manager.verify source.bytes with
    | .error message => fail (wrapped errInvalidBinary (sanitizeOutput message 512))
    | .ok version => pure version) _ _ _
  cases hverify : manager.verify source.bytes with
  | error message =>
      refine ⟨rfl, rfl, fun haccept ↦ ?_⟩
      obtain ⟨version, hversion⟩ := haccept.verified
      cases hverify.symm.trans hversion
  | ok version =>
      exact ⟨rfl, ⟨Option.map_eq_none_iff.mp hchmod, hfailure hsize, hsize, hfits,
        Option.map_eq_none_iff.mp hsync, Option.map_eq_none_iff.mp hclose, hinspected,
        version, hverify⟩, rfl⟩

/-! ## All or nothing -/

section Install

variable {sha256 : List UInt8 → List UInt8} {manager : BinaryManager}

/-- The file an upload becomes. -/
def uploaded (upload : Reader) : File := ⟨.regular, upload.bytes, 0o700⟩

/-- What is there before an install. -/
def start (managed : Option File) : Installation := ⟨managed, none, [], false⟩

/-- What is there once the upload is renamed. -/
def renamed (upload : Reader) : Installation := ⟨some (uploaded upload), none, upload.bytes, true⟩

/-- Every step up to the rename succeeds, and so does the rename. -/
structure Replaces (fs : FileSystem) (manager : BinaryManager) (managed : Option File)
    (upload : Reader) : Prop where
  enabled : manager.enabled = true
  managedPath : manager.managed = true
  prepared : Prepared fs
  replaceable : Replaceable fs managed
  createTemp : fs.createTemp = none
  accepted : Acceptable fs manager upload
  rename : fs.rename = none

theorem cleanup_managed (s : Installation) : (cleanup fs s).managed = s.managed := by
  unfold cleanup
  split
  · rfl
  · split
    · rfl
    · rfl

theorem cleanup_temporary {s : Installation} (hkeep : s.keep = false) (hremove : fs.remove = none) :
    (cleanup fs s).temporary = none := by
  simp [cleanup, hkeep, hremove]

/-- The rename puts the staged file at the managed path; only the chmod of that path can
fail afterwards. -/
theorem activate_ends (upload : Reader) (managed : Option File) (version : Text) :
    Ends (activate fs sha256 manager version)
      (fun result t ↦ t = renamed upload ∧ fs.rename = none ∧ fs.chmodManaged = none ∧
        result.version = version ∧ result.sha256 = hexEncode (sha256 upload.bytes))
      (fun _ t ↦ t = staging managed upload.bytes 0o700 ∧ fs.rename ≠ none ∨
        t = renamed upload ∧ fs.rename = none ∧ fs.chmodManaged ≠ none)
      (staging managed upload.bytes 0o700) := by
  unfold activate
  apply (Tests.check _).ends_bind
  case hbad =>
    exact fun _ h ↦ Or.inl ⟨rfl, fun hrename ↦ h (by rw [hrename]; rfl)⟩
  intro hrename
  rw [ends_bind, ends_modify, ends_bind, ends_modify]
  apply (Tests.check _).ends_bind
  case hbad =>
    exact fun _ h ↦ Or.inr ⟨rfl, Option.map_eq_none_iff.mp hrename,
      fun hchmod ↦ h (by rw [hchmod]; rfl)⟩
  intro hchmod
  exact ⟨rfl, Option.map_eq_none_iff.mp hrename, Option.map_eq_none_iff.mp hchmod, rfl, rfl⟩

/-- The three ends of an install. -/
theorem install_ends (upload : Reader) (managed : Option File) :
    Ends (install fs sha256 manager (some upload))
      (fun result t ↦ t = renamed upload ∧ Replaces fs manager managed upload ∧
        fs.chmodManaged = none ∧ manager.verify upload.bytes = .ok result.version ∧
        result.sha256 = hexEncode (sha256 upload.bytes))
      (fun _ t ↦ (t.managed = managed ∧ (fs.remove = none → t.temporary = none)) ∧
          ¬ Replaces fs manager managed upload ∨
        t = renamed upload ∧ Replaces fs manager managed upload ∧ fs.chmodManaged ≠ none)
      (start managed) := by
  unfold install
  split
  · rename_i hdisabled
    refine Or.inl ⟨⟨rfl, fun _ ↦ rfl⟩, fun hreplaces ↦ ?_⟩
    simp [hreplaces.enabled, hreplaces.managedPath] at hdisabled
  rename_i hallowed
  have hallowed : manager.enabled = true ∧ manager.managed = true := by
    simpa [Bool.or_eq_true, not_or] using hallowed
  apply prepareParent_tests.ends_bind
  case hbad =>
    exact fun _ h ↦ Or.inl ⟨⟨rfl, fun _ ↦ rfl⟩, fun hreplaces ↦ h hreplaces.prepared⟩
  intro hprepared
  apply inspectManaged_tests.ends_bind
  case hbad =>
    exact fun _ h ↦ Or.inl ⟨⟨rfl, fun _ ↦ rfl⟩, fun hreplaces ↦ h hreplaces.replaceable⟩
  intro hreplaceable
  apply (Tests.check _).ends_bind
  case hbad =>
    exact fun _ h ↦ Or.inl ⟨⟨rfl, fun _ ↦ rfl⟩,
      fun hreplaces ↦ h (by rw [hreplaces.createTemp]; rfl)⟩
  intro hcreate
  rw [ends_bind, ends_modify, ends_deferring, ends_bind]
  apply (stage_ends manager upload managed 0o600).mono
  case hbad =>
    rintro _ t ⟨hmanaged, hkeep, hnot⟩
    exact Or.inl ⟨⟨(cleanup_managed t).trans hmanaged, cleanup_temporary hkeep⟩,
      fun hreplaces ↦ hnot hreplaces.accepted⟩
  rintro version t ⟨rfl, haccept, hversion⟩
  have hreplaces : fs.rename = none → Replaces fs manager managed upload := fun hrename ↦
    ⟨hallowed.1, hallowed.2, hprepared, hreplaceable, Option.map_eq_none_iff.mp hcreate,
      haccept, hrename⟩
  apply (activate_ends upload managed version).mono
  · rintro result u ⟨rfl, hrename, hchmod, rfl, hdigest⟩
    exact ⟨rfl, hreplaces hrename, hchmod, hversion, hdigest⟩
  · rintro _ u (⟨rfl, hrename⟩ | ⟨rfl, hrename, hchmod⟩)
    · exact Or.inl ⟨⟨cleanup_managed _, cleanup_temporary rfl⟩,
        fun hreplaces ↦ hrename hreplaces.rename⟩
    · exact Or.inr ⟨rfl, hreplaces hrename, hchmod⟩

/-- What a successful install promises of the managed file and of its answer. -/
structure Installed (sha256 : List UInt8 → List UInt8) (manager : BinaryManager)
    (upload : Reader) (result : BinaryInstallResult) (file : File) : Prop where
  complete : upload.failure = none
  content : file.content = upload.bytes
  atLeast : 20 ≤ file.content.length
  atMost : file.content.length ≤ maxBinaryUploadBytes
  digest : result.sha256 = hexEncode (sha256 file.content)
  executable : IsLinuxAMD64 file.content
  approved : manager.verify file.content = .ok result.version

/-- After an error the managed path is as before, and no temporary file is left that could
be removed; after a success the upload is installed. -/
def AllOrNothing (fs : FileSystem) (sha256 : List UInt8 → List UInt8) (manager : BinaryManager)
    (source : Option Reader) (managed : Option File) : Prop :=
  Ends (install fs sha256 manager source)
    (fun result t ↦ ∃ upload file, source = some upload ∧ t.managed = some file ∧
      Installed sha256 manager upload result file)
    (fun _ t ↦ t.managed = managed ∧ (fs.remove = none → t.temporary = none))
    (start managed)

theorem Replaces.installed {managed : Option File} {upload : Reader}
    (h : Replaces fs manager managed upload) {result : BinaryInstallResult}
    (hverify : manager.verify upload.bytes = .ok result.version)
    (hdigest : result.sha256 = hexEncode (sha256 upload.bytes)) :
    Installed sha256 manager upload result (uploaded upload) where
  complete := h.accepted.failure
  content := rfl
  atLeast := h.accepted.inspected.executable.length
  atMost := h.accepted.size
  digest := hdigest
  executable := h.accepted.inspected.executable
  approved := hverify

theorem install_allOrNothing_iff (fs : FileSystem) (sha256 : List UInt8 → List UInt8)
    (manager : BinaryManager) (source : Option Reader) (managed : Option File) :
    AllOrNothing fs sha256 manager source managed ↔
      fs.chmodManaged = none ∨ ∀ upload, source = some upload →
        Replaces fs manager managed upload → managed = some (uploaded upload) := by
  constructor
  · intro h
    refine or_iff_not_imp_left.mpr fun hchmod upload hsource hreplaces ↦ ?_
    subst hsource
    apply (h.and (install_ends upload managed)).elim
    · rintro result t ⟨-, -, -, hnone, -⟩
      exact absurd hnone hchmod
    · rintro _ t ⟨⟨hmanaged, -⟩, ⟨-, hnot⟩ | ⟨rfl, -, -⟩⟩
      · exact absurd hreplaces hnot
      · exact hmanaged.symm
  · intro h
    cases source with
    | none =>
        unfold AllOrNothing install
        split
        · exact ⟨rfl, fun _ ↦ rfl⟩
        · exact ⟨rfl, fun _ ↦ rfl⟩
    | some upload =>
        apply (install_ends upload managed).mono
        · rintro result t ⟨rfl, hreplaces, -, hverify, hdigest⟩
          exact ⟨upload, uploaded upload, rfl, rfl, hreplaces.installed hverify hdigest⟩
        · rintro _ t (⟨hsame, -⟩ | ⟨rfl, hreplaces, hchmod⟩)
          · exact hsame
          · have hmanaged := (h.resolve_left hchmod) upload rfl hreplaces
            exact ⟨hmanaged.symm, fun _ ↦ rfl⟩

/-- A file system on which everything succeeds but the last chmod. -/
def refusing : FileSystem where
  dataDir := .ok .directory
  mkdirAll := none
  component _ := .ok .directory
  inspect := none
  createTemp := none
  chmodTemporary := none
  full := none
  sync := none
  close := none
  openTemporary := none
  readTemporary := none
  closeInspected := none
  rename := none
  chmodManaged := some (utf8 "operation not permitted")
  remove := none

/-- The header of an executable for amd64. -/
def header : List UInt8 :=
  [0x7f, 0x45, 0x4c, 0x46, 2, 1, 1, 0, 0, 0, 0, 0, 0, 0, 0, 0, 3, 0, 62, 0]

def approving : BinaryManager := ⟨true, true, fun _ ↦ .ok (utf8 "Speedtest by Ookla 1.2.0")⟩

/-- The new executable stays where an error is reported. -/
theorem install_replaced : ¬ AllOrNothing refusing id approving (some (.last header none)) none := by
  have hreplaces : Replaces refusing approving none (.last header none) := by
    have hheader : IsLinuxAMD64 header :=
      ⟨by decide, by decide, by decide, by decide, by decide, by decide⟩
    have haccept : Acceptable refusing approving (.last header none) :=
      ⟨rfl, rfl, by decide, (fun _ _ h ↦ by cases h), rfl, rfl, ⟨rfl, rfl, rfl, hheader⟩, _, rfl⟩
    have hprepared : Prepared refusing := ⟨rfl, rfl, fun _ _ ↦ rfl⟩
    exact ⟨rfl, rfl, hprepared, ⟨rfl, (fun _ h ↦ by cases h)⟩, rfl, haccept, rfl⟩
  intro h
  apply (h.and (install_ends (.last header none) none)).elim
  · rintro result t ⟨-, -, -, hnone, -⟩
    cases hnone
  · rintro _ t ⟨⟨hmanaged, -⟩, ⟨-, hnot⟩ | ⟨rfl, -, -⟩⟩
    · exact hnot hreplaces
    · cases hmanaged

end Install

end MultiSpeed.Providers.BinaryInstall
