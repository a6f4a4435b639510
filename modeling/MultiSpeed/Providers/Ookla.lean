import MultiSpeed.Lib.Program
import MultiSpeed.Providers.Requests

/-!
# The Ookla adapter

`Availability`, `Version`, `ListServers` and `Run` of `internal/providers/ookla` as
programs.  Their calls are what leaves the adapter: the acceptance source, the search
of the executable, the preparation of the state directory, and a process.  How the
output of the process is read is a parameter.
-/

namespace MultiSpeed.Providers.Ookla

open Concurrent Execution

inductive Call where
  /-- The acceptance source. -/
  | acceptance
  | lookPath (binary : String)
  | prepareRuntimeHome (interfaceName sourceIP : String)
  /-- `runProcess`, which takes the lock of the state directory first. -/
  | process (request : ProcessRequest)

def Call.Answer : Call → Type
  | .acceptance => Except Text Bool
  | .lookPath _ => Bool
  | .prepareRuntimeHome _ _ => Except Text String
  | .process _ => ProcessResult × Option Text

abbrev Adapting := Program Call.Answer

abbrev ask (c : Call) : Adapting c.Answer := Program.perform c

structure Adapter where
  binary : String
  /-- `parseResult` -/
  parseResult : Text → Except Text ProviderResult
  /-- `parseServerList` and `filterServers` -/
  listed : Text → ServerListRequest → Except Text (List ProviderServer)
  /-- `failureMessage` -/
  failureMessage : Text → Text

variable (a : Adapter)

/-- `processRequest` -/
def processRequest (arguments : List String) (outputLimit : ℕ) (interfaceName sourceIP : String) :
    Adapting (Except Text ProcessRequest) := do
  match ← ask (.prepareRuntimeHome interfaceName sourceIP) with
  | .error message =>
      pure (.error (utf8 ("prepare Ookla CLI state under APP_DATA_DIR (must be writable by the " ++
          "effective container user; image default UID 10001): ") ++ message))
  | .ok homeDirectory =>
      pure (.ok ⟨a.binary, arguments, [], outputLimit, homeDirectory, []⟩)

def version : Adapting (Except Text String) := do
  match ← processRequest a ["--version"] 16384 "" "" with
  | .error message => pure (.error message)
  | .ok request =>
      match ← ask (.process request) with
      | (_, some message) => pure (.error message)
      | (result, none) =>
          let version := decoded (sanitizeOutput result.stdout 512)
          if version = "" then pure (.error (utf8 "ookla CLI returned an empty version"))
          else pure (.ok version)

def availability : Adapting Availability := do
  match ← ask .acceptance with
  | .error _ =>
      pure ⟨false, "", utf8 ("Ookla is disabled because the terms acknowledgement could not be " ++
          "verified.")⟩
  | .ok false =>
      pure ⟨false, "", utf8 ("Ookla is disabled. Agree to its current EULA and Terms of Use, review " ++
          "its Privacy Policy, authorize the non-interactive CLI acceptance flags, and record the technical " ++
          "acknowledgement in MultiSpeed settings before use.")⟩
  | .ok true =>
      match ← ask (.lookPath a.binary) with
      | false =>
          pure ⟨false, "", utf8 ("The operator-installed Ookla 'speedtest' executable was not " ++
              "found. It is not distributed with MultiSpeed.")⟩
      | true =>
          match ← version a with
          | .error message =>
              pure ⟨false, "", utf8 "The Ookla executable was found but could not be queried: " ++
                sanitizeOutput message 512⟩
          | .ok version =>
              pure ⟨true, version, utf8 ("Operator-installed CLI; use is governed by Ookla's " ++
                  "terms.")⟩

def validate (target : TestTarget) : Option Text :=
  match target.selectionMode with
  | "" | "automatic" => none
  | "fixed" =>
      if !numericID target.serverID then
        some (utf8 "ookla fixed server ID must contain only digits: invalid provider target")
      else none
  | _ =>
      some (utf8 "ookla supports automatic or fixed target selection: invalid provider target")

def baseArgs (interfaceName sourceIP : String) : List String :=
  let args := ["--accept-license", "--accept-gdpr", "--format=json", "--progress=no"]
  if sourceIP ≠ "" then args ++ ["--ip=" ++ sourceIP]
  else if interfaceName ≠ "" then args ++ ["--interface=" ++ interfaceName]
  else args

def listServers (request : ServerListRequest) : Adapting (Except Text (List ProviderServer)) := do
  let availability ← availability a
  if !availability.available then
    pure (.error (availability.message ++ utf8 ": provider unavailable"))
  else
    match ← processRequest a (baseArgs request.interfaceName request.sourceIP ++ ["--servers"])
        maxStoredOutput request.interfaceName request.sourceIP with
    | .error message => pure (.error message)
    | .ok processRequest =>
        match ← ask (.process processRequest) with
        | (result, some message) =>
            pure (.error (utf8 "ookla server discovery failed: " ++ a.failureMessage result.stderr ++
              utf8 ": " ++ message))
        | (result, none) => pure (a.listed result.stdout request)

/-- The arguments of a test. -/
def runArgs (request : RunRequest) : List String :=
  let args := baseArgs request.interfaceName request.sourceIP
  if request.target.selectionMode = "fixed" then
    args ++ ["--server-id=" ++ request.target.serverID]
  else args

def run (request : RunRequest) : Adapting RunAnswer := do
  let availability ← availability a
  if !availability.available then
    pure (runFailed (availability.message ++ utf8 ": provider unavailable"))
  else
    match validate request.target with
    | some message => pure (runFailed message)
    | none =>
        match ← processRequest a (runArgs request) maxStoredOutput request.interfaceName
            request.sourceIP with
        | .error message => pure (runFailed message)
        | .ok processRequest =>
            match ← ask (.process processRequest) with
            | (result, some message) =>
                pure ({ noResult with
                  exitCode := some result.exitCode
                  durationMilliseconds := result.duration
                  rawResponse := sanitizeOutput result.stdout maxStoredOutput },
                  some (utf8 ("ookla test failed (exit " ++ toString result.exitCode ++ "): ") ++
                    a.failureMessage result.stderr ++ utf8 ": " ++ message))
            | (result, none) =>
                match a.parseResult result.stdout with
                | .error message =>
                    pure ({ noResult with
                      exitCode := some result.exitCode
                      rawResponse := sanitizeOutput result.stdout maxStoredOutput }, some message)
                | .ok parsed =>
                    let version ← version a
                    pure ({ parsed with
                      exitCode := some result.exitCode
                      durationMilliseconds := result.duration
                      rawResponse := sanitizeOutput result.stdout maxStoredOutput
                      providerVersion := version.toOption.getD "" }, none)

end MultiSpeed.Providers.Ookla
