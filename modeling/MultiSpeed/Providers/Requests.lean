import MultiSpeed.Execution.Run

/-!
# Provider requests

What the adapters of `internal/providers` are asked, and what they ask of the
processes they start.
-/

namespace MultiSpeed.Providers

structure Availability where
  available : Bool
  version : String
  message : Text

structure TestTarget where
  selectionMode : String
  serverID : String
  serverURL : String
  customServerDefinition : Option JsonObject

structure ServerListRequest where
  interfaceName : String
  sourceIP : String
  ipFamily : String
  search : String
  limit : ℤ

structure RunRequest where
  interfaceName : String
  sourceIP : String
  ipFamily : String
  target : TestTarget
  timeoutSeconds : ℤ
  options : Option JsonObject

/-- `process.Request`. -/
structure ProcessRequest where
  binary : String
  arguments : List String
  stdin : Text
  outputLimit : ℕ
  homeDirectory : String
  environment : List (String × String)

/-- `process.Result`; the duration in milliseconds. -/
structure ProcessResult where
  stdout : Text
  stderr : Text
  exitCode : ℤ
  duration : ℤ

/-- The zero value of `ProviderResult`. -/
def noResult : Execution.ProviderResult where
  downloadBitsPerSecond := none
  uploadBitsPerSecond := none
  latencyMilliseconds := none
  jitterMilliseconds := none
  packetLossPercent := none
  downloadBytes := none
  uploadBytes := none
  publicIP := ""
  server := ⟨"", "", "", "", "", ""⟩
  resultURL := ""
  cloudflareColo := ""
  durationMilliseconds := 0
  exitCode := none
  rawResponse := []
  providerVersion := ""
  tlsVerificationDisabled := false

/-- What a provider returns for a run: the result, and the error with it. -/
abbrev RunAnswer := Execution.ProviderResult × Option Text

/-- A run that returns nothing but its error. -/
def runFailed (message : Text) : RunAnswer := (noResult, some message)

/-- `numericID`. -/
def numericID (value : String) : Bool :=
  decide (value ≠ "" ∧ value.utf8ByteSize ≤ 20) && value.toList.all Char.isDigit

end MultiSpeed.Providers
