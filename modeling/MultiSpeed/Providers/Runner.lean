import MultiSpeed.Providers.Environment

/-!
# Running a provider process

`internal/providers/process`: a request is checked, the command is run, and its two
streams are kept up to a limit.  What the command writes, and in which portions, is a
parameter.
-/

namespace MultiSpeed.Providers

open Execution Network

/-! ## Bounded buffers -/

/-- `limitedBuffer` -/
structure LimitedBuffer where
  buffer : Text
  remaining : ℤ
  exceeded : Bool

namespace LimitedBuffer

def new (limit : ℤ) : LimitedBuffer := ⟨[], limit, false⟩

/-- `limitedBuffer.Write`, with the number of bytes and the error it reports. -/
def write (b : LimitedBuffer) (data : Text) : LimitedBuffer × ℕ × Option Text :=
  let original := data.length
  if b.remaining ≤ 0 then ({ b with exceeded := true }, original, none)
  else
    let cut := decide (b.remaining < data.length)
    let write := if cut then data.take b.remaining.toNat else data
    ({ buffer := b.buffer ++ write
       remaining := b.remaining - write.length
       exceeded := b.exceeded || cut }, original, none)

def writes (b : LimitedBuffer) : List Text → LimitedBuffer × List (ℕ × Option Text)
  | [] => (b, [])
  | data :: rest =>
      let (b, report) := b.write data
      let (b, reports) := b.writes rest
      (b, report :: reports)

/-- What the buffer holds when `written` has been written. -/
structure Holds (limit : ℤ) (written : Text) (b : LimitedBuffer) : Prop where
  buffer : b.buffer = written.take limit.toNat
  remaining : b.remaining = limit - b.buffer.length

theorem holds_new (limit : ℤ) : Holds limit [] (new limit) := ⟨List.take_nil.symm, (Int.sub_zero limit).symm⟩

theorem Holds.remaining_le_zero_iff {limit : ℤ} {written : Text} {b : LimitedBuffer}
    (h : Holds limit written b) : b.remaining ≤ 0 ↔ limit ≤ written.length := by
  rw [h.remaining, h.buffer, List.length_take]
  omega

theorem Holds.write {limit : ℤ} {written : Text} {b : LimitedBuffer}
    (h : Holds limit written b) (data : Text) :
    Holds limit (written ++ data) (b.write data).1 ∧
      (b.write data).2 = (data.length, none) ∧
      ((b.write data).1.exceeded = true ↔ b.exceeded = true ∨ limit ≤ written.length ∨
        limit < (written ++ data).length) := by
  have hfull := h.remaining_le_zero_iff
  unfold LimitedBuffer.write
  by_cases hremaining : b.remaining ≤ 0
  · rw [if_pos hremaining]
    refine ⟨⟨?_, h.remaining⟩, rfl, iff_of_true rfl (.inr (.inl (hfull.mp hremaining)))⟩
    rw [List.take_append_of_le_length (by have := hfull.mp hremaining; omega)]
    exact h.buffer
  · rw [if_neg hremaining]
    have hroom : written.length < limit := not_le.mp fun hle ↦ hremaining (hfull.mpr hle)
    have hbuffer : b.buffer = written := by
      rw [h.buffer, List.take_of_length_le (by omega)]
    have hrest : b.remaining = limit - written.length := by rw [h.remaining, hbuffer]
    have hcut : b.remaining < data.length ↔ limit < (written ++ data).length := by
      rw [hrest, List.length_append]
      omega
    have hwrite : (if decide (b.remaining < data.length) = true then
        data.take b.remaining.toNat else data) = data.take b.remaining.toNat := by
      split
      · rfl
      · rename_i hfits
        rw [decide_eq_true_eq] at hfits
        rw [List.take_of_length_le (by omega)]
    dsimp only
    rw [hwrite]
    refine ⟨⟨?_, ?_⟩, rfl, ?_⟩
    · have hroom' : b.remaining.toNat = limit.toNat - written.length := by omega
      rw [hbuffer, List.take_append, List.take_of_length_le (l := written) (by omega), hroom']
    · dsimp only
      rw [hbuffer, hrest, List.length_append]
      omega
    · rw [Bool.or_eq_true, decide_eq_true_eq, hcut]
      have hlt : ¬limit ≤ written.length := not_le.mpr hroom
      simp only [hlt, false_or]

/-- What is kept does not depend on the portions, and every write reports success. -/
theorem Holds.writes {limit : ℤ} {written : Text} {b : LimitedBuffer}
    (h : Holds limit written b) (ws : List Text) :
    Holds limit (written ++ ws.flatten) (b.writes ws).1 ∧
      (b.writes ws).2 = ws.map fun data ↦ (data.length, none) := by
  induction ws generalizing written b with
  | nil =>
      rw [List.flatten_nil, List.append_nil]
      exact ⟨h, rfl⟩
  | cons data ws ih =>
      obtain ⟨hwrite, hreport, -⟩ := h.write data
      obtain ⟨hwrites, hreports⟩ := ih hwrite
      rw [List.flatten_cons, ← List.append_assoc, List.map_cons, ← hreport, ← hreports]
      exact ⟨hwrites, rfl⟩

/-- An empty write arrives when the limit has been reached. -/
def EmptyAtLimit (limit : ℤ) (written : ℕ) (ws : List Text) : Prop :=
  ∃ before after, ws = before ++ [] :: after ∧ limit ≤ written + before.flatten.length

theorem emptyAtLimit_cons {limit : ℤ} {written : ℕ} {data : Text} {ws : List Text} :
    EmptyAtLimit limit written (data :: ws) ↔ data = [] ∧ limit ≤ written ∨
      EmptyAtLimit limit (written + data.length) ws := by
  constructor
  · rintro ⟨before, after, hws, hle⟩
    cases before with
    | nil =>
        obtain ⟨rfl, -⟩ := List.cons.inj hws
        exact .inl ⟨rfl, by simpa using hle⟩
    | cons first before =>
        obtain ⟨rfl, rfl⟩ := List.cons.inj hws
        rw [List.flatten_cons, List.length_append] at hle
        exact .inr ⟨before, after, rfl, by omega⟩
  · rintro (⟨rfl, hle⟩ | ⟨before, after, rfl, hle⟩)
    · exact ⟨[], ws, rfl, by simpa using hle⟩
    · refine ⟨data :: before, after, rfl, ?_⟩
      rw [List.flatten_cons, List.length_append]
      omega

theorem Holds.exceeded_writes {limit : ℤ} {written : Text} {b : LimitedBuffer}
    (h : Holds limit written b) (ws : List Text) :
    (b.writes ws).1.exceeded = true ↔ b.exceeded = true ∨
      (ws ≠ [] ∧ limit < written.length + ws.flatten.length ∨
        EmptyAtLimit limit written.length ws) := by
  induction ws generalizing written b with
  | nil =>
      have hnone : ¬EmptyAtLimit limit written.length [] := by
        rintro ⟨before, after, hws, -⟩
        exact absurd hws.symm (by simp)
      simp [LimitedBuffer.writes, hnone]
  | cons data ws ih =>
      obtain ⟨hwrite, -, hexceeded⟩ := h.write data
      have hrest := ih hwrite
      rw [hexceeded, List.length_append] at hrest
      rw [emptyAtLimit_cons, List.flatten_cons, List.length_append]
      refine hrest.trans ⟨?_, ?_⟩
      · rintro ((hold | hfull | hlong) | ⟨-, hlong⟩ | hempty)
        · exact .inl hold
        · rcases eq_or_ne data [] with rfl | hdata
          · exact .inr (.inr (.inl ⟨rfl, hfull⟩))
          · have hpos := List.length_pos_of_ne_nil hdata
            exact .inr (.inl ⟨List.cons_ne_nil data ws, by omega⟩)
        · exact .inr (.inl ⟨List.cons_ne_nil data ws, by omega⟩)
        · exact .inr (.inl ⟨List.cons_ne_nil data ws, by omega⟩)
        · exact .inr (.inr (.inr hempty))
      · rintro (hold | ⟨-, hlong⟩ | ⟨-, hfull⟩ | hempty)
        · exact .inl (.inl hold)
        · rcases eq_or_ne ws [] with rfl | hws
          · rw [List.flatten_nil, List.length_nil] at hlong
            exact .inl (.inr (.inr (by omega)))
          · exact .inr (.inl ⟨hws, by omega⟩)
        · exact .inl (.inr (.inl hfull))
        · exact .inr (.inr hempty)

/-- What is expected of a buffer after its writes. -/
structure Bounded (limit : ℤ) (ws : List Text) : Prop where
  contents : ((new limit).writes ws).1.buffer = ws.flatten.take limit.toNat
  reports : ((new limit).writes ws).2 = ws.map fun data ↦ (data.length, none)
  exceeded : ((new limit).writes ws).1.exceeded = true ↔ limit < ws.flatten.length

/-- No empty write arrives when a stream has ended at the limit. -/
structure Regular (limit : ℤ) (ws : List Text) : Prop where
  started : limit < 0 → ws ≠ []
  notEmpty : ∀ before after, ws = before ++ [] :: after → before.flatten.length = limit →
    after.flatten ≠ []

theorem exceeded_iff (limit : ℤ) (ws : List Text) :
    ((new limit).writes ws).1.exceeded = true ↔
      ws ≠ [] ∧ limit < ws.flatten.length ∨ EmptyAtLimit limit 0 ws := by
  have h := (holds_new limit).exceeded_writes ws
  simpa [new] using h

theorem regular_iff {limit : ℤ} {ws : List Text} : Regular limit ws ↔
    (((new limit).writes ws).1.exceeded = true ↔ limit < ws.flatten.length) := by
  rw [exceeded_iff]
  constructor
  · rintro ⟨hstarted, hnotEmpty⟩
    constructor
    · rintro (⟨-, hlong⟩ | ⟨before, after, rfl, hle⟩)
      · exact hlong
      · by_contra hshort
        rw [List.flatten_append, List.flatten_cons, List.nil_append, List.length_append] at hshort
        have hafter : after.flatten.length = 0 := by omega
        exact hnotEmpty before after rfl (by omega) (List.length_eq_zero_iff.mp hafter)
    · intro hlong
      refine .inl ⟨?_, hlong⟩
      rintro rfl
      exact hstarted hlong rfl
  · intro h
    refine ⟨?_, ?_⟩
    · rintro hnegative rfl
      rcases h.mpr hnegative with ⟨hne, -⟩ | ⟨before, after, hws, -⟩
      · exact hne rfl
      · exact absurd hws.symm (by simp)
    · rintro before after rfl hlength hafter
      have hlong := h.mp (.inr ⟨before, after, rfl, by omega⟩)
      rw [List.flatten_append, List.flatten_cons, hafter, List.append_nil, List.append_nil,
        hlength] at hlong
      exact lt_irrefl _ hlong

/-- The writes of `io.Copy`, which makes none without a byte. -/
def Copied (ws : List Text) : Prop := ∀ data ∈ ws, data ≠ []

instance decidableCopied (ws : List Text) : Decidable (Copied ws) :=
  inferInstanceAs (Decidable (∀ data ∈ ws, data ≠ []))

theorem Copied.regular {limit : ℤ} {ws : List Text} (h : Copied ws)
    (hstarted : 0 ≤ limit ∨ ws ≠ []) : Regular limit ws where
  started hnegative := hstarted.resolve_left (not_le.mpr hnegative)
  notEmpty before after hws := by
    have hmem : [] ∈ ws := hws ▸ List.mem_append_right before List.mem_cons_self
    exact absurd rfl (h [] hmem)

theorem bounded_iff_regular {limit : ℤ} {ws : List Text} : Bounded limit ws ↔ Regular limit ws := by
  obtain ⟨hholds, hreports⟩ := (holds_new limit).writes ws
  exact ⟨fun h ↦ regular_iff.mpr h.exceeded,
    fun h ↦ ⟨hholds.buffer, hreports, regular_iff.mp h⟩⟩

end LimitedBuffer

namespace ExecRunner

/-! ## The runner -/

/-- What the runner is given by the system it runs on; `upper` is `unicode.ToUpper`,
`clean` is `filepath.Clean`. -/
structure Host where
  upper : Char → Char
  environ : List (List Char)
  clean : String → String

/-- The command that is started. -/
structure Command where
  binary : String
  arguments : List String
  environment : List (List Char)
  stdin : Text

def validateHomeDirectory (clean : String → String) (value : String) : Except String String :=
  if value = "" then .ok ""
  else if maxArgumentLength < (utf8 value).length || containsAny value ['\x00', '\r', '\n'] ||
      value.toList.head? ≠ some '/' then
    .error "provider home directory is invalid"
  else .ok (clean value)

/-- `ExecRunner.Run` up to the start of the command. -/
def prepare (host : Host) (request : ProcessRequest) : Except String Command :=
  if trimmed request.binary = "" || containsAny request.binary ['\x00', '\r', '\n'] then
    .error "provider executable is invalid"
  else if 128 < request.arguments.length then .error "too many provider arguments"
  else if request.arguments.any fun argument ↦ maxArgumentLength < (utf8 argument).length ||
      containsAny argument ['\x00'] then
    .error "provider argument is invalid"
  else
    match validateHomeDirectory host.clean request.homeDirectory with
    | .error err => .error err
    | .ok homeDirectory =>
        match providerEnvironment host.upper host.environ request.environment homeDirectory with
        | .error err => .error err
        | .ok environment =>
            .ok ⟨request.binary, request.arguments, environment, request.stdin⟩

/-- The error of `exec.Cmd.Run`. -/
inductive CommandError where
  /-- `exec.ExitError` -/
  | exit (code : ℤ) (message : Text)
  | other (message : Text)

def CommandError.message : CommandError → Text
  | .exit _ message | .other message => message

/-- What a command that was started does. -/
structure Outcome where
  /-- The writes to the standard output. -/
  stdout : List Text
  stderr : List Text
  err : Option CommandError
  /-- The error of the context when the command has ended. -/
  context : Option ContextError
  duration : ℤ

/-- The same streams, each written at once. -/
def Outcome.whole (o : Outcome) : Outcome :=
  { o with stdout := [o.stdout.flatten], stderr := [o.stderr.flatten] }

inductive RunError where
  | refused (message : String)
  /-- `provider output exceeded … byte safety limit` -/
  | exceeded (limit : ℕ)
  | context (err : ContextError)
  /-- `provider process exited with code …` -/
  | exited (code : ℤ) (err : CommandError)

def streamLimit (outputLimit : ℕ) : ℕ :=
  let limit := if outputLimit < 1024 then 262144 else outputLimit
  if 1048576 < limit then 1048576 else limit

def exitCode : Option CommandError → ℤ
  | some (.exit code _) => code
  | some (.other _) => -1
  | none => 0

/-- The error `ExecRunner.Run` returns with the result. -/
def runError (limit : ℕ) (exceeded : Bool) (err : Option CommandError)
    (context : Option ContextError) : Option RunError :=
  if exceeded then some (.exceeded limit)
  else
    match err with
    | none => none
    | some commandErr =>
        match context with
        | some cause => some (.context cause)
        | none => some (.exited (exitCode err) commandErr)

/-- `ExecRunner.Run` from the end of the command on. -/
def finish (limit : ℕ) (o : Outcome) : ProcessResult × Option RunError :=
  let stdout := ((LimitedBuffer.new limit).writes o.stdout).1
  let stderr := ((LimitedBuffer.new (min limit 65536 : ℕ)).writes o.stderr).1
  (⟨stdout.buffer, stderr.buffer, exitCode o.err, o.duration⟩,
    runError limit (stdout.exceeded || stderr.exceeded) o.err o.context)

/-- `ExecRunner.Run`, where `execute` is what the operating system does with a command. -/
def run (host : Host) (execute : Command → Outcome) (request : ProcessRequest) :
    ProcessResult × Option RunError :=
  match prepare host request with
  | .error message => (⟨[], [], 0, 0⟩, some (.refused message))
  | .ok command => finish (streamLimit request.outputLimit) (execute command)

theorem streamLimit_pos (outputLimit : ℕ) : 0 < streamLimit outputLimit := by
  unfold streamLimit
  dsimp only
  split <;> split <;> omega

theorem runError_exceeded_inj {limit : ℕ} {e e' : Bool} {err : Option CommandError}
    {context : Option ContextError}
    (h : runError limit e err context = runError limit e' err context) : e = e' := by
  have hne : runError limit true err context ≠ runError limit false err context := by
    unfold runError
    cases err with
    | none => exact nofun
    | some commandErr => cases context <;> exact nofun
  cases e <;> cases e'
  · rfl
  · exact absurd h.symm hne
  · exact absurd h hne
  · rfl

theorem runError_eq_none {limit : ℕ} {exceeded : Bool} {err : Option CommandError}
    {context : Option ContextError} (h : runError limit exceeded err context = none) :
    exceeded = false := by
  unfold runError at h
  cases exceeded with
  | false => rfl
  | true => cases h

open LimitedBuffer

theorem buffer_writes (limit : ℤ) (ws : List Text) :
    ((new limit).writes ws).1.buffer = ws.flatten.take limit.toNat :=
  ((holds_new limit).writes ws).1.buffer

theorem lt_of_exceeded_eq_false {limit : ℤ} {ws : List Text}
    (h : ((new limit).writes ws).1.exceeded = false) (hlimit : 0 ≤ limit) :
    ws.flatten.length ≤ limit := by
  by_contra hlong
  have hexceeded := (exceeded_iff limit ws).mpr (.inl ⟨?_, not_le.mp hlong⟩)
  · rw [h] at hexceeded
    cases hexceeded
  · rintro rfl
    exact hlong hlimit

theorem regular_singleton {limit : ℤ} (hlimit : 0 < limit) (data : Text) :
    Regular limit [data] := by
  refine ⟨fun h ↦ absurd h hlimit.not_gt, ?_⟩
  intro before after hws hlength
  cases before with
  | nil =>
      rw [List.flatten_nil, List.length_nil] at hlength
      omega
  | cons first before =>
      obtain ⟨-, hrest⟩ := List.cons.inj hws
      exact absurd hrest.symm (by simp)

/-- A run that succeeds has captured both streams completely. -/
theorem finish_ok {limit : ℕ} {o : Outcome} {result : ProcessResult}
    (h : finish limit o = (result, none)) :
    result.stdout = o.stdout.flatten ∧ result.stderr = o.stderr.flatten := by
  obtain ⟨hresult, herr⟩ := Prod.ext_iff.mp h
  obtain ⟨hstdout, hstderr⟩ := Bool.or_eq_false_iff.mp (runError_eq_none herr)
  have hout := lt_of_exceeded_eq_false hstdout (Int.natCast_nonneg _)
  have herr := lt_of_exceeded_eq_false hstderr (Int.natCast_nonneg _)
  obtain rfl : (finish limit o).1 = result := hresult
  refine ⟨(buffer_writes _ _).trans (List.take_of_length_le ?_),
    (buffer_writes _ _).trans (List.take_of_length_le ?_)⟩
  · omega
  · omega

/-- One of the streams is longer than what is kept of it. -/
def Outcome.TooLong (o : Outcome) (limit : ℕ) : Prop :=
  limit < o.stdout.flatten.length ∨ min limit 65536 < o.stderr.flatten.length

/-- No empty write arrives when a stream has ended at its limit. -/
def Outcome.Regular (o : Outcome) (limit : ℕ) : Prop :=
  LimitedBuffer.Regular limit o.stdout ∧ LimitedBuffer.Regular (min limit 65536 : ℕ) o.stderr

theorem exceeded_of_long {limit : ℤ} {ws : List Text} (hlimit : 0 < limit)
    (h : limit < ws.flatten.length) : ((new limit).writes ws).1.exceeded = true := by
  refine (exceeded_iff limit ws).mpr (.inl ⟨?_, h⟩)
  rintro rfl
  exact absurd h (not_lt.mpr hlimit.le)

theorem exceeded_whole_iff {limit : ℕ} (hlimit : 0 < limit) (ws : List Text) :
    ((new limit).writes [ws.flatten]).1.exceeded = true ↔ limit < ws.flatten.length := by
  have h := regular_iff.mp (regular_singleton (Int.natCast_pos.mpr hlimit) ws.flatten)
  rw [List.flatten_singleton, Int.ofNat_lt] at h
  exact h

theorem finish_whole_iff {limit : ℕ} (hlimit : 0 < limit) (o : Outcome) :
    finish limit o = finish limit o.whole ↔ o.TooLong limit ∨ o.Regular limit := by
  have hlimit' : 0 < min limit 65536 := by omega
  have hsame : finish limit o = finish limit o.whole ↔
      (((new limit).writes o.stdout).1.exceeded ||
        ((new (min limit 65536 : ℕ)).writes o.stderr).1.exceeded) =
      (((new limit).writes [o.stdout.flatten]).1.exceeded ||
        ((new (min limit 65536 : ℕ)).writes [o.stderr.flatten]).1.exceeded) := by
    constructor
    · intro h
      exact runError_exceeded_inj (Prod.ext_iff.mp h).2
    · intro h
      simp only [finish, Outcome.whole, buffer_writes, List.flatten_singleton, h]
  rw [hsame, Bool.eq_iff_iff, Bool.or_eq_true, Bool.or_eq_true, exceeded_whole_iff hlimit,
    exceeded_whole_iff hlimit', Outcome.TooLong, Outcome.Regular, regular_iff, regular_iff,
    Int.ofNat_lt, Int.ofNat_lt]
  have hstdout : limit < o.stdout.flatten.length →
      ((new limit).writes o.stdout).1.exceeded = true :=
    fun h ↦ exceeded_of_long (Int.natCast_pos.mpr hlimit) (Int.ofNat_lt.mpr h)
  have hstderr : min limit 65536 < o.stderr.flatten.length →
      ((new (min limit 65536 : ℕ)).writes o.stderr).1.exceeded = true :=
    fun h ↦ exceeded_of_long (Int.natCast_pos.mpr hlimit') (Int.ofNat_lt.mpr h)
  by_cases hlong : limit < o.stdout.flatten.length ∨ min limit 65536 < o.stderr.flatten.length
  · exact iff_of_true (iff_of_true (hlong.imp hstdout hstderr) hlong) (.inl hlong)
  · obtain ⟨hout, herr⟩ := not_or.mp hlong
    simp only [hout, herr, or_self, iff_false, not_or, false_or]

/-- A buffer is bounded as expected exactly when no empty write arrives after a stream has
ended at the limit.  A run that succeeds has captured both streams completely, and what a
run answers depends on the portions only through such a write. -/
theorem limitedBuffer_bounded_iff (limit : ℤ) (ws : List Text) (host : Host)
    (execute : Command → Outcome) (request : ProcessRequest) :
    (Bounded limit ws ↔ LimitedBuffer.Regular limit ws) ∧
    (∀ result : ProcessResult, run host execute request = (result, none) →
      ∃ command, prepare host request = .ok command ∧
        result.stdout = (execute command).stdout.flatten ∧
        result.stderr = (execute command).stderr.flatten) ∧
    (run host execute request = run host (fun command ↦ (execute command).whole) request ↔
      ∀ command, prepare host request = .ok command →
        (execute command).TooLong (streamLimit request.outputLimit) ∨
          (execute command).Regular (streamLimit request.outputLimit)) := by
  refine ⟨bounded_iff_regular, ?_, ?_⟩
  · intro result h
    unfold run at h
    split at h
    · cases (Prod.ext_iff.mp h).2
    · rename_i command hcommand
      exact ⟨command, hcommand, finish_ok h⟩
  · unfold run
    cases prepare host request with
    | error message => exact iff_of_true rfl fun command hcommand ↦ by cases hcommand
    | ok command =>
        refine (finish_whole_iff (streamLimit_pos _) _).trans ⟨?_, fun h ↦ h command rfl⟩
        rintro h _ ⟨⟩
        exact h

/-- What a command writes reaches the buffers through `io.Copy`. -/
structure Outcome.Copied (o : Outcome) : Prop where
  stdout : LimitedBuffer.Copied o.stdout
  stderr : LimitedBuffer.Copied o.stderr

theorem finish_whole {limit : ℕ} (hlimit : 0 < limit) {o : Outcome} (h : o.Copied) :
    finish limit o = finish limit o.whole :=
  (finish_whole_iff hlimit o).mpr (.inr ⟨h.stdout.regular (.inl (Int.natCast_nonneg _)),
    h.stderr.regular (.inl (Int.natCast_nonneg _))⟩)

/-- A buffer is bounded as expected for every sequence of writes that `io.Copy` makes.  A
run that succeeds has captured both streams completely, and what a run answers does not
depend on the portions in which the streams were copied. -/
theorem limitedBuffer_bounded (host : Host) (request : ProcessRequest) :
    (∀ limit ws, (0 ≤ limit ∨ ws ≠ []) → LimitedBuffer.Copied ws → Bounded limit ws) ∧
    (∀ execute result, run host execute request = (result, none) →
      ∃ command, prepare host request = .ok command ∧
        result.stdout = (execute command).stdout.flatten ∧
        result.stderr = (execute command).stderr.flatten) ∧
    (∀ execute execute' : Command → Outcome, (∀ command, (execute command).Copied) →
      (∀ command, (execute' command).Copied) →
      (∀ command, (execute command).whole = (execute' command).whole) →
        run host execute request = run host execute' request) := by
  refine ⟨?_, ?_, ?_⟩
  · intro limit ws hstarted hcopied
    exact bounded_iff_regular.mpr (hcopied.regular hstarted)
  · intro execute result
    exact (limitedBuffer_bounded_iff 0 [] host execute request).2.1 result
  · intro execute execute' hcopied hcopied' hsame
    unfold run
    cases prepare host request with
    | error message => rfl
    | ok command =>
        have hlimit := streamLimit_pos request.outputLimit
        calc finish (streamLimit request.outputLimit) (execute command)
            = finish (streamLimit request.outputLimit) (execute command).whole :=
              finish_whole hlimit (hcopied command)
          _ = finish (streamLimit request.outputLimit) (execute' command).whole := by
              rw [hsame command]
          _ = finish (streamLimit request.outputLimit) (execute' command) :=
              (finish_whole hlimit (hcopied' command)).symm

/-- A command that writes to its standard output only. -/
def printing (stdout : List Text) : Command → Outcome := fun _ ↦ ⟨stdout, [], none, none, 0⟩

theorem copied_printing {stdout : List Text} (h : LimitedBuffer.Copied stdout)
    (command : Command) : (printing stdout command).Copied :=
  ⟨h, fun _ hdata ↦ absurd hdata List.not_mem_nil⟩

/-- Three bytes in two ways, and a buffer for two of them. -/
theorem limitedBuffer_bounded_printed :
    Bounded 2 [[0x61], [0x62, 0x63]] ∧
      run ⟨id, [], id⟩ (printing [[0x61], [0x62, 0x63]]) ⟨"echo", [], [], 0, "", []⟩ =
        run ⟨id, [], id⟩ (printing [[0x61, 0x62], [0x63]]) ⟨"echo", [], [], 0, "", []⟩ := by
  have hfirst : LimitedBuffer.Copied [[0x61], [0x62, 0x63]] := by decide
  have hsecond : LimitedBuffer.Copied [[0x61, 0x62], [0x63]] := by decide
  obtain ⟨hbounded, -, hsame⟩ :=
    limitedBuffer_bounded ⟨id, [], id⟩ ⟨"echo", [], [], 0, "", []⟩
  exact ⟨hbounded 2 _ (.inl (by decide)) hfirst,
    hsame _ _ (copied_printing hfirst) (copied_printing hsecond) fun _ ↦ rfl⟩

/-- A stream of exactly as many bytes as are kept, and an empty write behind it. -/
theorem bounded_empty_write_fails :
    ¬Bounded 1024 [List.replicate 1024 0x20, []] := by
  intro h
  have hlength : [List.replicate 1024 (0x20 : UInt8)].flatten.length = 1024 := by
    rw [List.flatten_singleton, List.length_replicate]
  have hempty : EmptyAtLimit 1024 0 [List.replicate 1024 0x20, []] :=
    ⟨[List.replicate 1024 0x20], [], rfl, by rw [hlength]; decide⟩
  have hlong := h.exceeded.mp ((exceeded_iff _ _).mpr (.inr hempty))
  rw [List.flatten_cons, List.flatten_singleton, List.append_nil, List.length_replicate] at hlong
  exact absurd hlong (by decide)

end ExecRunner

end MultiSpeed.Providers
