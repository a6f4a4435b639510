import MultiSpeed.Network.Route
import MultiSpeed.Scheduler.Memory

/-!
# Statistics queries

The request of `internal/statistics` and the rows it is answered from.  A query
names its granularity and its comparison dimension by text; a normalized query
has one of the supported values, so that no later function meets another.
-/

namespace MultiSpeed.Statistics

open Scheduling (Location Env)
open Network (trimmed)

/-- A row of `results` as the statistics read it. -/
structure StatisticsResult where
  id : String
  taskID : String
  routeProfileID : String
  provider : ProviderID
  status : ResultStatus
  timestamp : Time
  downloadBitsPerSecond : Option ℤ
  uploadBitsPerSecond : Option ℤ
  latencyMilliseconds : Option Float64
  jitterMilliseconds : Option Float64
  packetLossPercent : Option Float64
  executionDurationMS : ℤ
  interface : String
  sourceIP : String
  serverID : String
  publicIP : String
  providerVersion : String
  deriving DecidableEq

inductive Granularity where
  | raw
  | day
  | isoWeek
  | month
  | year
  | custom
  deriving DecidableEq, Repr

def Granularity.ofText : String → Option Granularity
  | "raw" => some .raw
  | "day" => some .day
  | "iso-week" => some .isoWeek
  | "month" => some .month
  | "year" => some .year
  | "custom" => some .custom
  | _ => none

inductive Dimension where
  | none
  | task
  | interface
  | sourceIP
  | provider
  | server
  | routeProfile
  | publicIP
  deriving DecidableEq, Repr

def Dimension.ofText : String → Option Dimension
  | "" => some .none
  | "task" => some .task
  | "interface" => some .interface
  | "source-ip" => some .sourceIP
  | "provider" => some .provider
  | "server" => some .server
  | "route-profile" => some .routeProfile
  | "public-ip" => some .publicIP
  | _ => Option.none

/-- The values a comparison is restricted to; an empty list includes every value. -/
structure Filter where
  taskIDs : List String
  interfaces : List String
  sourceIPs : List String
  providers : List String
  serverIDs : List String
  routeProfileIDs : List String
  publicIPs : List String

structure Query where
  «from» : Time
  «to» : Time
  granularity : String
  reportingTimezone : String
  groupBy : String
  filter : Filter

structure NormalizedQuery where
  «from» : Time
  «to» : Time
  granularity : Granularity
  reportingTimezone : String
  groupBy : Dimension
  filter : Filter

inductive StatisticsError where
  /-- statistics time range must have a non-zero end after start -/
  | timeRange
  /-- unsupported statistics granularity -/
  | granularity (text : String)
  /-- load reporting timezone -/
  | timezone (name : String)
  /-- unsupported statistics comparison dimension -/
  | dimension (text : String)
  /-- statistics result source is not configured -/
  | noSource
  /-- statistics result limit exceeded -/
  | resultLimit
  /-- statistics output limit exceeded -/
  | outputLimit
  /-- statistics comparison dimension limit exceeded -/
  | dimensionLimit
  /-- The error of the source itself. -/
  | source (message : Text)
  deriving DecidableEq, Repr

/-- The zero `time.Time`, the beginning of the year one. -/
def zeroTime : Time := -62135596800000000000

def isZero (t : Time) : Bool := decide (t = zeroTime)

/-- Trimmed values without the empty ones, each at its first place. -/
def normalizeValues (values : List String) : List String :=
  (values.map trimmed).foldl
    (fun normalized value ↦
      if value = "" ∨ value ∈ normalized then normalized else normalized ++ [value]) []

def normalizeFilter (filter : Filter) : Filter where
  taskIDs := normalizeValues filter.taskIDs
  interfaces := normalizeValues filter.interfaces
  sourceIPs := normalizeValues filter.sourceIPs
  providers := normalizeValues filter.providers
  serverIDs := normalizeValues filter.serverIDs
  routeProfileIDs := normalizeValues filter.routeProfileIDs
  publicIPs := normalizeValues filter.publicIPs

def normalizeQuery (env : Env) (query : Query) :
    Except StatisticsError (NormalizedQuery × Location) :=
  if isZero query.from || isZero query.to || decide (query.to ≤ query.from) then
    .error .timeRange
  else
    let granularity := if query.granularity = "" then "day" else query.granularity
    let granularity := if granularity = "week" then "iso-week" else granularity
    match Granularity.ofText granularity with
    | none => .error (.granularity granularity)
    | some granularity =>
        let timezone := if query.reportingTimezone = "" then "UTC" else query.reportingTimezone
        match env.loadLocation timezone with
        | none => .error (.timezone timezone)
        | some location =>
            match Dimension.ofText query.groupBy with
            | none => .error (.dimension query.groupBy)
            | some groupBy =>
                .ok (⟨query.from, query.to, granularity, timezone, groupBy,
                  normalizeFilter query.filter⟩, location)

end MultiSpeed.Statistics
