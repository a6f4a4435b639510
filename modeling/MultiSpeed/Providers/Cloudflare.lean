import MultiSpeed.Providers.Discovery
import Mathlib.Data.Rat.Floor

/-!
# The run of the Cloudflare adapter

`Run` of `internal/providers/cloudflare` as a program.  Its calls are the clock, the
source-bound dialer and the requests to the edge, each answered with what it measured.
Samples are rationals; a `float64` operation is the exact one followed by a rounding,
which is a parameter, as is the conversion to an `int64`.
-/

namespace MultiSpeed.Providers.Cloudflare

open AddressText Concurrent Execution

inductive Call where
  | now
  /-- `ctx.Err()` -/
  | contextError
  /-- `network.NewSourceBoundDialer` -/
  | newDialer (source : BitVec 128)
  /-- The public address and the colo. -/
  | trace
  | latency
  | download (size : ℤ)
  | upload (size : ℤ)

def Call.Answer : Call → Type
  | .now => Time
  | .contextError => Option Text
  | .newDialer _ => Except Text Unit
  | .trace => Except Text (String × String)
  | .latency => Except Text (ℚ × String)
  | .download _ => Except Text (ℚ × ℤ × String)
  | .upload _ => Except Text (ℚ × String)

abbrev Adapting := Program Call.Answer

abbrev ask (c : Call) : Adapting c.Answer := Program.perform c

structure Measurement where
  latencyMS : List ℚ
  downloadBPS : List ℚ
  uploadBPS : List ℚ
  downloadBytes : ℤ
  uploadBytes : ℤ
  publicIP : String
  colo : String
  methodology : String
  payloadCapBytes : ℤ

structure Adapter where
  round : ℚ → ℚ
  /-- The conversion of a `float64`, which differs by machine where it does not fit. -/
  toInt64 : ℚ → ℤ
  /-- `json.Marshal` -/
  marshal : Measurement → Text

def defaultPayloadCap : ℤ := 134217728

def absolutePayloadCap : ℤ := 536870912

/-! ## Summaries of samples -/

section

variable (round : ℚ → ℚ) (values : List ℚ)

def percentile (quantile : ℚ) : ℚ :=
  if values = [] then 0
  else
    let copyValues := values.insertionSort (· ≤ ·)
    let position := round (quantile * (copyValues.length - 1 : ℕ))
    let lower := ⌊position⌋.toNat
    let upper := ⌈position⌉.toNat
    if lower = upper then copyValues.getD lower 0
    else
      let weight := round (position - lower)
      round (round (copyValues.getD lower 0 * round (1 - weight)) +
        round (copyValues.getD upper 0 * weight))

def adjacentJitter : ℚ :=
  if values.length < 2 then 0
  else
    let total := (values.zip values.tail).foldl
      (fun total pair ↦ round (total + |round (pair.2 - pair.1)|)) 0
    round (total / (values.length - 1 : ℕ))

end

/-! ## The adapter -/

variable (a : Adapter)

def optionInt64 (options : Option JsonObject) (key : String) (fallback : ℤ) : ℤ :=
  match (options.getD []).lookup key with
  | some (.number value) => a.toInt64 value
  | _ => fallback

def payloadCap (options : Option JsonObject) : ℤ :=
  let cap := optionInt64 a options "maxPayloadBytes" defaultPayloadCap
  let cap := if cap < 4194304 then 4194304 else cap
  if absolutePayloadCap < cap then absolutePayloadCap else cap

def boundClient (source : BitVec 128) (family : String) : Adapting (Except Text Unit) :=
  if family = "ipv4" ∧ !isIPv4 source then
    pure (.error (utf8 "ipv4 mode requires an IPv4 source address"))
  else if family = "ipv6" ∧ isIPv4 source then
    pure (.error (utf8 "ipv6 mode requires an IPv6 source address"))
  else ask (.newDialer source)

/-- The first colo that is observed is kept. -/
def Measurement.observe (m : Measurement) (observedColo : String) : Measurement :=
  { m with colo := if m.colo = "" then observedColo else m.colo }

/-- The latency samples with these numbers. -/
def latencies : List ℕ → Measurement → Adapting (Except Text Measurement)
  | [], m => pure (.ok m)
  | i :: rest, m => do
      match ← ask .latency with
      | .error message =>
          pure (.error (utf8 ("cloudflare latency sample " ++ toString (i + 1) ++ " failed: ") ++
            message))
      | .ok (latency, observedColo) =>
          latencies rest
            (Measurement.observe { m with latencyMS := m.latencyMS ++ [latency] } observedColo)

def ladders : List ℤ :=
  [100000, 100000, 100000, 1000000, 1000000, 1000000, 10000000, 10000000, 25000000, 25000000]

def downloads : List ℤ → Measurement → Adapting (Except Text Measurement)
  | [], m => pure (.ok m)
  | size :: rest, m => do
      match ← ask .contextError with
      | some message => pure (.error message)
      | none =>
          if m.payloadCapBytes / 2 < m.downloadBytes + size then pure (.ok m)
          else
            match ← ask (.download size) with
            | .error message =>
                pure (.error (utf8 ("cloudflare download sample (" ++ toString size ++
                  " bytes) failed: ") ++ message))
            | .ok (bps, count, observedColo) =>
                downloads rest (Measurement.observe { m with
                  downloadBPS := if 0 < bps then m.downloadBPS ++ [bps] else m.downloadBPS
                  downloadBytes := m.downloadBytes + count } observedColo)

def uploads : List ℤ → Measurement → Adapting (Except Text Measurement)
  | [], m => pure (.ok m)
  | size :: rest, m => do
      match ← ask .contextError with
      | some message => pure (.error message)
      | none =>
          if m.payloadCapBytes / 2 < m.uploadBytes + size then pure (.ok m)
          else
            match ← ask (.upload size) with
            | .error message =>
                pure (.error (utf8 ("cloudflare upload sample (" ++ toString size ++
                  " bytes) failed: ") ++ message))
            | .ok (bps, observedColo) =>
                uploads rest (Measurement.observe { m with
                  uploadBPS := if 0 < bps then m.uploadBPS ++ [bps] else m.uploadBPS
                  uploadBytes := m.uploadBytes + size } observedColo)

/-- What a run returns for its samples. -/
def summarize (m : Measurement) (duration : ℤ) : RunAnswer :=
  if m.downloadBPS.length < 3 ∨ m.uploadBPS.length < 3 then
    runFailed (utf8 "cloudflare payload cap produced too few bandwidth samples")
  else
    ({ noResult with
      downloadBitsPerSecond :=
        some (a.toInt64 (percentile a.round m.downloadBPS (a.round (9 / 10))))
      uploadBitsPerSecond := some (a.toInt64 (percentile a.round m.uploadBPS (a.round (9 / 10))))
      latencyMilliseconds := some (.finite (percentile a.round m.latencyMS (1 / 2)))
      jitterMilliseconds := some (.finite (adjacentJitter a.round m.latencyMS))
      downloadBytes := some m.downloadBytes
      uploadBytes := some m.uploadBytes
      publicIP := m.publicIP
      cloudflareColo := m.colo
      durationMilliseconds := duration
      rawResponse := sanitizeOutput (a.marshal m) maxStoredOutput
      providerVersion := methodologyVersion }, none)

def run (request : RunRequest) : Adapting RunAnswer :=
  match validate request.target with
  | some message => pure (runFailed message)
  | none =>
      match Address.parseIP request.sourceIP.toList with
      | none => pure (runFailed (utf8 "cloudflare source IP is invalid"))
      | some source => do
          match ← boundClient source request.ipFamily with
          | .error message =>
              pure (runFailed (utf8 "cloudflare source binding failed: " ++ message))
          | .ok () =>
              let started ← ask .now
              match ← ask .trace with
              | .error message =>
                  pure (runFailed (utf8 "cloudflare bound path discovery failed: " ++ message))
              | .ok (publicIP, colo) =>
                  match ← latencies (List.range 9) ⟨[], [], [], 0, 0, publicIP, colo,
                      methodologyVersion, payloadCap a request.options⟩ with
                  | .error message => pure (runFailed message)
                  | .ok m =>
                      match ← downloads ladders m with
                      | .error message => pure (runFailed message)
                      | .ok m =>
                          match ← uploads ladders m with
                          | .error message => pure (runFailed message)
                          | .ok m =>
                              let finished ← ask .now
                              pure (summarize a m (milliseconds started finished))

/-! ## What a run returns -/

/-- Every run that returns no error names the methodology. -/
theorem ends_run (request : RunRequest) :
    (run a request).Ends fun answer ↦
      answer.2 = none → answer.1.providerVersion = methodologyVersion := by
  have hfailed : ∀ message, (pure (runFailed message) : Adapting RunAnswer).Ends fun answer ↦
      answer.2 = none → answer.1.providerVersion = methodologyVersion := by
    intro message
    apply Program.Ends.pure
    intro h
    cases h
  unfold run
  split
  · exact hfailed _
  split
  · exact hfailed _
  · apply Program.Ends.bind
    rintro (message | _)
    · exact hfailed _
    · apply Program.Ends.bind
      intro started
      apply Program.Ends.bind
      rintro (message | traced)
      · exact hfailed _
      · apply Program.Ends.bind
        rintro (message | m)
        · exact hfailed _
        · apply Program.Ends.bind
          rintro (message | m)
          · exact hfailed _
          · apply Program.Ends.bind
            rintro (message | m)
            · exact hfailed _
            · apply Program.Ends.bind
              intro finished
              apply Program.Ends.pure
              unfold summarize
              split
              · intro h
                cases h
              · exact fun _ ↦ rfl

end MultiSpeed.Providers.Cloudflare
