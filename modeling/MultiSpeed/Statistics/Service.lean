import MultiSpeed.Statistics.Report

/-!
# The statistics service

`Query` walks the selected rows once and keeps three accumulators for each of them:
its bucket, its group and the whole report.  The limits are checked before anything
is allocated.
-/

namespace MultiSpeed.Statistics

open Scheduling (Location Env)

def maxStatisticsResults : ℕ := 50000

/-- The overall bucket, the overall bucket of every group and every bucket of a group
are output points. -/
def maxStatisticsOutputPoints : ℕ := 5000

def maxStatisticsGroups : ℕ := 1000

def maxStatisticsDimensionBytes : ℕ := 512

/-- The text of a provider identifier. -/
def providerText : ProviderID → String
  | .ookla => "ookla"
  | .librespeed => "librespeed"
  | .cloudflare => "cloudflare"
  | .other name => name

/-- The key and the label of the group a result belongs to. -/
def comparisonGroup (result : StatisticsResult) : Dimension → String × String
  | .none => ("all", "All results")
  | .task => named result.taskID
  | .interface => named result.interface
  | .sourceIP => named result.sourceIP
  | .provider => named (providerText result.provider)
  | .server => named result.serverID
  | .routeProfile => named result.routeProfileID
  | .publicIP => named result.publicIP
where
  named (key : String) : String × String := if key = "" then ("", "Unassigned") else (key, key)

structure Accumulation where
  totalResults : ℕ
  overall : BucketAccumulator
  groups : AList fun _ : String ↦ GroupAccumulator
  outputPoints : ℕ

def Accumulation.start (query : NormalizedQuery) : Accumulation :=
  ⟨0, .new (fullRangeBucket query), ∅, 1⟩

/-- The timestamp lies in the half-open range of the query. -/
def inRange (query : NormalizedQuery) (result : StatisticsResult) : Bool :=
  !(decide (result.timestamp < query.from) || !decide (result.timestamp < query.to))

section Query

variable {R : Type*} (A : Arithmetic R) (query : NormalizedQuery) (location : Location)

/-- The group of a row with the row in its bucket, and the output points.  The overall
bucket of the group does not have the row yet. -/
def visitGroup (acc : Accumulation) (result : StatisticsResult) :
    Except StatisticsError (GroupAccumulator × ℕ) :=
  let (key, label) := comparisonGroup result query.groupBy
  let descriptor := describeBucket result query location
  let first := (BucketAccumulator.new descriptor).add A result
  match acc.groups.lookup key with
  | none =>
      if maxStatisticsGroups ≤ acc.groups.entries.length ∨
          maxStatisticsOutputPoints - 2 < acc.outputPoints then .error .outputLimit
      else
        let group : GroupAccumulator :=
          ⟨key, label, .new (fullRangeBucket query), .singleton descriptor.key first⟩
        .ok (group, acc.outputPoints + 2)
  | some group =>
      match group.buckets.lookup descriptor.key with
      | none =>
          if maxStatisticsOutputPoints ≤ acc.outputPoints then .error .outputLimit
          else
            let buckets := group.buckets.insert descriptor.key first
            .ok ({ group with buckets := buckets }, acc.outputPoints + 1)
      | some bucket =>
          let buckets := group.buckets.insert descriptor.key (bucket.add A result)
          .ok ({ group with buckets := buckets }, acc.outputPoints)

/-- The visitor of `Query`. -/
def visit (acc : Accumulation) (result : StatisticsResult) :
    Except StatisticsError Accumulation :=
  if maxStatisticsResults ≤ acc.totalResults then .error .resultLimit
  else if !inRange query result then .ok acc
  else
    let (key, label) := comparisonGroup result query.groupBy
    if maxStatisticsDimensionBytes < key.utf8ByteSize ∨
        maxStatisticsDimensionBytes < label.utf8ByteSize then .error .dimensionLimit
    else
      match visitGroup A query location acc result with
      | .error e => .error e
      | .ok (group, outputPoints) =>
          .ok { totalResults := acc.totalResults + 1
                overall := acc.overall.add A result
                groups := acc.groups.insert key
                  { group with overall := group.overall.add A result }
                outputPoints := outputPoints }

def visitAll : Accumulation → List StatisticsResult → Except StatisticsError Accumulation
  | acc, [] => .ok acc
  | acc, result :: rest =>
      match visit A query location acc result with
      | .error e => .error e
      | .ok acc => visitAll acc rest

def Accumulation.ordered (acc : Accumulation) : List GroupAccumulator :=
  (acc.groups.entries.map (·.2)).mergeSort fun a b ↦ !groupBefore b a

def Accumulation.report (acc : Accumulation) : Report R where
  «from» := query.from
  «to» := query.to
  granularity := query.granularity
  reportingTimezone := query.reportingTimezone
  groupBy := query.groupBy
  totalResults := acc.totalResults
  overall := acc.overall.finish A
  groups := acc.ordered.map (·.finish A)

end Query

structure StatisticsFilter where
  «from» : Time
  «to» : Time
  filter : Filter

/-- `WalkStatisticsResults`: the rows it visits, and the error it ends with when the
visitor never stopped it. -/
def ResultSource : Type := StatisticsFilter → List StatisticsResult × Option Text

def Service.query {R : Type*} (A : Arithmetic R) (env : Env) (source : Option ResultSource)
    (query : Query) : Except StatisticsError (Report R) :=
  match normalizeQuery env query with
  | .error e => .error e
  | .ok (normalized, location) =>
      match source with
      | none => .error .noSource
      | some walk =>
          let (rows, failure) := walk ⟨normalized.from, normalized.to, normalized.filter⟩
          match visitAll A normalized location (.start normalized) rows with
          | .error e => .error e
          | .ok acc =>
              match failure with
              | some message => .error (.source message)
              | none => .ok (acc.report A normalized)

end MultiSpeed.Statistics
