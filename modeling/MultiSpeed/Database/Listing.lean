import MultiSpeed.Database.Dashboard
import MultiSpeed.Database.Statements
import MultiSpeed.Lib.Paging
import Mathlib.Order.WithBot

/-!
# Lists and exports of results

`ListResults` and `WalkResults` of `internal/database/results.go`, and
`WalkStatisticsResults` of `internal/database/statistics.go`: the pages of a list, the
rows of an export and those of the statistics.
-/

namespace MultiSpeed.Database

open Statistics (Filter StatisticsFilter StatisticsResult)

/-- What is left of a number in an `int`, which has 64 bits. -/
def int64 (x : ℤ) : ℤ := x.bmod (2 ^ 64)

/-- `MaxResultPageSize` -/
def maxResultPageSize : ℤ := 200

/-- The fields of `ResultFilter` that choose no rows. -/
structure Listing where
  page : ℤ
  pageSize : ℤ
  sort : String
  descending : Bool

/-- `models.Page` -/
structure ResultPage where
  items : List Result
  page : ℤ
  pageSize : ℤ
  totalItems : ℤ
  totalPages : ℤ

/-! ## Page numbers -/

/-- The numbers of a page. -/
structure Pagination where
  page : ℤ
  pageSize : ℤ
  totalPages : ℤ
  /-- The operand of `OFFSET`, which is computed up to the last page only. -/
  offset : Option ℤ

/-- What `ListResults` computes from the number of rows; `int` is what is left of a sum or
a product. -/
def paginate (int : ℤ → ℤ) (listing : Listing) (total : ℤ) : Pagination :=
  let page := if listing.page < 1 then 1 else listing.page
  let pageSize := if listing.pageSize < 1 then 25 else listing.pageSize
  let pageSize := if maxResultPageSize < pageSize then maxResultPageSize else pageSize
  let totalPages := total / pageSize
  let totalPages := if total % pageSize ≠ 0 then int (totalPages + 1) else totalPages
  { page := page
    pageSize := pageSize
    totalPages := totalPages
    offset :=
      if total = 0 ∨ totalPages < page then none else some (int (int (page - 1) * pageSize)) }

/-! ## Orders -/

inductive SortColumn where
  | queuedAt
  | startedAt
  | finishedAt
  | download
  | upload
  | latency
  deriving DecidableEq

def sortColumn : String → SortColumn
  | "startedAt" => .startedAt
  | "finishedAt" => .finishedAt
  | "download" => .download
  | "upload" => .upload
  | "latency" => .latency
  | _ => .queuedAt

/-- A column that holds an instant or `NULL`, which is the least value. -/
def textKey (value : Option Time) : WithBot String := value.map formatTime

def integerKey (value : Option ℤ) : WithBot ℤ := value

/-- A column that holds a number other than NaN or `NULL`. -/
def realKey : Option Float64 → WithBot (WithBot (WithTop ℚ))
  | none | some .nan => ⊥
  | some (.infinity true) => (⊥ : WithBot (WithTop ℚ))
  | some (.finite q) => ((q : WithTop ℚ) : WithBot (WithTop ℚ))
  | some (.infinity false) => ((⊤ : WithTop ℚ) : WithBot (WithTop ℚ))

/-- `ORDER BY key, id DESC`, or with `DESC` after the key. -/
def KeyOrder {κ : Type} [LinearOrder κ] (key : Result → κ) (descending : Bool)
    (first second : Result) : Prop :=
  (if descending then key second < key first else key first < key second) ∨
    key first = key second ∧ second.id ≤ first.id

instance {κ : Type} [LinearOrder κ] (key : Result → κ) (descending : Bool) :
    DecidableRel (KeyOrder key descending) := fun first second ↦ by
  unfold KeyOrder
  infer_instance

def SortColumn.order : SortColumn → Bool → Result → Result → Prop
  | .queuedAt => KeyOrder fun row ↦ formatTime row.queuedAt
  | .startedAt => KeyOrder fun row ↦ textKey row.startedAt
  | .finishedAt => KeyOrder fun row ↦ textKey row.finishedAt
  | .download => KeyOrder fun row ↦ integerKey row.downloadBitsPerSecond
  | .upload => KeyOrder fun row ↦ integerKey row.uploadBitsPerSecond
  | .latency => KeyOrder fun row ↦ realKey row.latencyMilliseconds

instance (column : SortColumn) (descending : Bool) : DecidableRel (column.order descending) := by
  cases column <;> unfold SortColumn.order <;> infer_instance

/-- `ORDER BY queued_at ASC, id ASC` -/
def oldestFirst (first second : Result) : Prop :=
  formatTime first.queuedAt < formatTime second.queuedAt ∨
    formatTime first.queuedAt = formatTime second.queuedAt ∧ first.id ≤ second.id

instance : DecidableRel oldestFirst := fun first second ↦ by
  unfold oldestFirst
  infer_instance

/-- `ORDER BY COALESCE(started_at, finished_at, scheduled_at, queued_at) ASC, id ASC` -/
def earliestFirst (first second : Result) : Prop :=
  timestampText first < timestampText second ∨
    timestampText first = timestampText second ∧ first.id ≤ second.id

instance : DecidableRel earliestFirst := fun first second ↦ by
  unfold earliestFirst
  infer_instance

/-! ## Reading rows -/

def nullableTime : Option String → Option (Option Time)
  | none => some none
  | some value => if value = "" then some none else (parseTime value).map some

/-- `scanResult`, which fails where an instant cannot be read back. -/
def scanResult (row : Result) : Option Result := do
  let queuedAt ← parseTime (formatTime row.queuedAt)
  let scheduledAt ← nullableTime (row.scheduledAt.map formatTime)
  let startedAt ← nullableTime (row.startedAt.map formatTime)
  let finishedAt ← nullableTime (row.finishedAt.map formatTime)
  return { row with
    queuedAt := queuedAt
    scheduledAt := scheduledAt
    startedAt := startedAt
    finishedAt := finishedAt }

/-- A row as the statistics read it, filed under an instant. -/
def statisticsResult (row : Result) (timestamp : Time) : StatisticsResult where
  id := row.id
  taskID := row.taskID
  routeProfileID := row.routeProfileID.getD ""
  provider := row.provider
  status := row.status
  timestamp := timestamp
  downloadBitsPerSecond := row.downloadBitsPerSecond
  uploadBitsPerSecond := row.uploadBitsPerSecond
  latencyMilliseconds := row.latencyMilliseconds
  jitterMilliseconds := row.jitterMilliseconds
  packetLossPercent := row.packetLossPercent
  executionDurationMS := row.executionDurationMS
  interface := row.selectedInterface
  sourceIP := row.selectedSourceIP
  serverID := row.serverID
  publicIP := row.detectedPublicIP
  providerVersion := row.providerVersion

def scanStatisticsResult (row : Result) : Option StatisticsResult :=
  (parseTime (timestampText row)).map (statisticsResult row)

/-- The loop over `rows.Next()`: the items before the first row that cannot be read, and
whether there is none. -/
def scanRows {α : Type} (scan : Result → Option α) : List Result → List α × Bool
  | [] => ([], true)
  | row :: rows =>
      match scan row with
      | none => ([], false)
      | some item => (item :: (scanRows scan rows).1, (scanRows scan rows).2)

/-! ## The queries -/

/-- `LIMIT limit OFFSET offset` -/
def limitOffset (limit offset : ℤ) (rows : List Result) : List Result :=
  if limit < 0 then rows.drop offset.toNat else (rows.drop offset.toNat).take limit.toNat

namespace Store

variable (s : Store)

def selected (filter : ResultFilter) : List Result := s.results.rows.filter (resultWhere filter)

/-- `ListResults`; there is no page where one of its rows cannot be read. -/
def listResults (filter : ResultFilter) (listing : Listing) : Option ResultPage :=
  let total : ℤ := (s.selected filter).length
  let p := paginate int64 listing total
  match p.offset with
  | none => some ⟨[], p.page, p.pageSize, total, p.totalPages⟩
  | some offset =>
      let descending := listing.descending || listing.sort = ""
      let ordered := (s.selected filter).insertionSort ((sortColumn listing.sort).order descending)
      match scanRows (fun row ↦ scanResult (listColumns row))
          (limitOffset p.pageSize offset ordered) with
      | (_, false) => none
      | (items, true) => some ⟨items, p.page, p.pageSize, total, p.totalPages⟩

/-- `WalkResults` with a visitor that does not stop it: the rows it visits, and whether it
ends without an error. -/
def walkResults (filter : ResultFilter) : List Result × Bool :=
  scanRows scanResult ((s.selected filter).insertionSort oldestFirst)

/-- The clauses of `WalkStatisticsResults` that list values, with their columns. -/
def statisticsClauses (filter : Filter) : List (String × List String) :=
  [("task_id", filter.taskIDs), ("selected_interface", filter.interfaces),
    ("selected_source_ip", filter.sourceIPs), ("provider", filter.providers),
    ("server_id", filter.serverIDs), ("route_profile_id", filter.routeProfileIDs),
    ("detected_public_ip", filter.publicIPs)]

/-- `WalkStatisticsResults` with a visitor that does not stop it. -/
def walkStatisticsResults (filter : StatisticsFilter) :
    Except Text (List StatisticsResult × Bool) :=
  if filter.from = zeroTime ∨ filter.to = zeroTime ∨ ¬filter.from < filter.to then
    .error (utf8 "statistics time range must have a non-zero end after start")
  else
    match (statisticsClauses filter.filter).find? fun clause ↦ 200 < clause.2.length with
    | some clause =>
        .error (utf8 ("statistics filter " ++ clause.1 ++ " has more than 200 values"))
    | none =>
        .ok (scanRows scanStatisticsResult
          ((s.results.rows.filter (statisticsWhere filter)).insertionSort earliestFirst))

end Store

/-! ## The numbers of a page -/

/-- The page size that `ListResults` uses. -/
def Listing.size (listing : Listing) : ℕ :=
  if listing.pageSize < 1 then 25 else min listing.pageSize.toNat 200

theorem Listing.size_pos (listing : Listing) : 0 < listing.size := by
  rw [Listing.size]
  split <;> omega

theorem int64_eq {x : ℤ} (hlow : 0 ≤ x) (hhigh : x < 2 ^ 63) : int64 x = x :=
  Int.bmod_eq_of_le_mul_two (by omega) (by norm_num; omega)

section

variable {int : ℤ → ℤ} (hint : ∀ x, 0 ≤ x → x < 2 ^ 63 → int x = x) {total size : ℕ}
  (hsize : 0 < size) (htotal : total < 2 ^ 63)

include hint hsize htotal

theorem totalPages_eq :
    (if (total : ℤ) % size ≠ 0 then int (total / size + 1) else (total : ℤ) / size) =
      (total ⌈/⌉ size : ℕ) := by
  have hle := Paging.ceilDiv_le_self total hsize
  have hceil := Paging.ceilDiv_eq total hsize
  split
  · rename_i hrest
    rw [if_neg (by exact_mod_cast hrest)] at hceil
    rw [hceil] at hle ⊢
    rw [hint _ (by positivity) (by exact_mod_cast hle.trans_lt htotal)]
    push_cast
    rfl
  · rename_i hzero
    rw [if_pos (by exact_mod_cast not_not.mp hzero)] at hceil
    rw [hceil]
    push_cast
    rfl

/-- Up to the last page the offset is below the number of rows. -/
theorem offset_eq {page : ℤ} (hpage : 1 ≤ page) :
    (if (total : ℤ) = 0 ∨ ((total ⌈/⌉ size : ℕ) : ℤ) < page then none
      else some (int (int (page - 1) * size))) =
      if ((total ⌈/⌉ size : ℕ) : ℤ) < page then none else some ((page - 1) * size) := by
  have hle := Paging.ceilDiv_le_self total hsize
  by_cases hbeyond : ((total ⌈/⌉ size : ℕ) : ℤ) < page
  · rw [if_pos (.inr hbeyond), if_pos hbeyond]
  · rw [if_neg (by omega), if_neg hbeyond]
    have hlast : (page - 1).toNat < total ⌈/⌉ size := by omega
    have hlt := (Paging.lt_pages_iff (List.replicate total ()) hsize).mp
      (by rwa [List.length_replicate])
    rw [List.length_replicate] at hlt
    have hcast : ((page - 1).toNat : ℤ) = page - 1 := by omega
    have hoffset : (page - 1) * size < 2 ^ 63 := by
      rw [← hcast]
      exact_mod_cast hlt.trans htotal
    rw [hint (page - 1) (by omega) (by omega), hint _ (mul_nonneg (by omega) (by omega)) hoffset]

end

/-- Where `int` keeps the numbers that fit, what is computed is what is meant. -/
theorem paginate_eq {int : ℤ → ℤ} (hint : ∀ x, 0 ≤ x → x < 2 ^ 63 → int x = x)
    (listing : Listing) {total : ℕ} (htotal : total < 2 ^ 63) :
    paginate int listing total = {
      page := max listing.page 1
      pageSize := listing.size
      totalPages := (total ⌈/⌉ listing.size : ℕ)
      offset :=
        if (total ⌈/⌉ listing.size : ℕ) < max listing.page 1 then none
        else some ((max listing.page 1 - 1) * listing.size) } := by
  have hpage : (if listing.page < 1 then 1 else listing.page) = max listing.page 1 := by
    split <;> omega
  have hsize : (if maxResultPageSize < (if listing.pageSize < 1 then 25 else listing.pageSize)
      then maxResultPageSize else if listing.pageSize < 1 then 25 else listing.pageSize) =
        (listing.size : ℤ) := by
    rw [Listing.size, maxResultPageSize]
    split <;> split <;> omega
  unfold paginate
  simp only [hpage, hsize, totalPages_eq hint listing.size_pos htotal,
    offset_eq hint listing.size_pos htotal (le_max_right listing.page 1)]

/-! ## Orders -/

theorem keyOrder_total {κ : Type} [LinearOrder κ] (key : Result → κ) (descending : Bool)
    (first second : Result) :
    KeyOrder key descending first second ∨ KeyOrder key descending second first := by
  unfold KeyOrder
  rcases lt_trichotomy (key first) (key second) with h | h | h
  · cases descending
    · exact .inl (.inl h)
    · exact .inr (.inl h)
  · rcases le_total second.id first.id with hid | hid
    · exact .inl (.inr ⟨h, hid⟩)
    · exact .inr (.inr ⟨h.symm, hid⟩)
  · cases descending
    · exact .inr (.inl h)
    · exact .inl (.inl h)

theorem keyOrder_trans {κ : Type} [LinearOrder κ] (key : Result → κ) (descending : Bool)
    {first second third : Result} (h : KeyOrder key descending first second)
    (h' : KeyOrder key descending second third) : KeyOrder key descending first third := by
  unfold KeyOrder at h h' ⊢
  rcases h with h | ⟨h, hid⟩
  · rcases h' with h' | ⟨h', -⟩
    · cases descending
      · exact .inl (lt_trans h h')
      · exact .inl (lt_trans h' h)
    · rw [← h']
      exact .inl h
  · rw [h]
    rcases h' with h' | ⟨h', hid'⟩
    · exact .inl h'
    · exact .inr ⟨h', hid'.trans hid⟩

instance (column : SortColumn) (descending : Bool) : Std.Total (column.order descending) where
  total := by
    cases column <;> exact keyOrder_total _ descending

instance (column : SortColumn) (descending : Bool) :
    IsTrans Result (column.order descending) where
  trans _ _ _ h h' := by
    cases column <;> simp only [SortColumn.order] at h h' ⊢ <;>
      exact keyOrder_trans _ descending h h'

@[simp] theorem order_listColumns (column : SortColumn) (descending : Bool)
    (first second : Result) : column.order descending (listColumns first) (listColumns second) ↔
      column.order descending first second := by
  cases column <;> rfl

/-! ## Rows that are read -/

theorem scanRows_complete {α : Type} {scan : Result → Option α} {rows : List Result}
    {items : List α} : scanRows scan rows = (items, true) ↔ rows.map scan = items.map some := by
  induction rows generalizing items with
  | nil =>
      rw [scanRows, Prod.mk.injEq, List.map_nil, eq_comm (a := []), eq_comm (a := [])]
      simp
  | cons row rows ih =>
      rw [scanRows, List.map_cons]
      cases hrow : scan row with
      | none => cases items <;> simp
      | some item =>
          cases items with
          | nil => simp
          | cons item' items =>
              have hrest : scanRows scan rows = (items, true) ↔ rows.map scan = items.map some := ih
              rw [Prod.ext_iff] at hrest ⊢
              simp only [List.cons.injEq, List.map_cons, Option.some.injEq, and_assoc]
              exact and_congr_right fun _ ↦ hrest

theorem formatTime_ne_empty (t : Time) : formatTime t ≠ "" := by
  intro h
  have hlist := congrArg String.toList h
  rw [formatTime, String.toList_ofList] at hlist
  simp at hlist

/-- What is read back is what was written. -/
theorem eq_of_parseTime {t t' : Time} (h : parseTime (formatTime t) = some t') : t' = t := by
  by_cases hyear : FourDigitYear t
  · rw [parseTime_formatTime hyear] at h
    exact (Option.some.inj h).symm
  · rw [parseTime_formatTime_none hyear] at h
    cases h

theorem nullableTime_eq_some {t t' : Option Time}
    (h : nullableTime (t.map formatTime) = some t') : t' = t := by
  cases t with
  | none => exact (Option.some.inj h).symm
  | some t =>
      rw [Option.map_some, nullableTime, if_neg (formatTime_ne_empty t),
        Option.map_eq_some_iff] at h
      obtain ⟨read, hread, rfl⟩ := h
      rw [eq_of_parseTime hread]

theorem scanResult_eq_some {row row' : Result} (h : scanResult row = some row') : row' = row := by
  simp only [scanResult, Option.bind_eq_bind, Option.bind_eq_some_iff, Option.pure_def,
    Option.some.injEq] at h
  obtain ⟨queuedAt, hqueued, scheduledAt, hscheduled, startedAt, hstarted, finishedAt, hfinished,
    rfl⟩ := h
  rw [eq_of_parseTime hqueued, nullableTime_eq_some hscheduled, nullableTime_eq_some hstarted,
    nullableTime_eq_some hfinished]

/-- A row whose instants are read back. -/
def Readable (row : Result) : Prop := scanResult row = some row

theorem scanResult_listColumns {row : Result} (h : Readable row) :
    scanResult (listColumns row) = some (listColumns row) := by
  simp only [Readable, scanResult, Option.bind_eq_bind, Option.bind_eq_some_iff,
    Option.pure_def, Option.some.injEq] at h ⊢
  obtain ⟨queuedAt, hqueued, scheduledAt, hscheduled, startedAt, hstarted, finishedAt, hfinished,
    hrow⟩ := h
  exact ⟨queuedAt, hqueued, scheduledAt, hscheduled, startedAt, hstarted, finishedAt, hfinished,
    congrArg listColumns hrow⟩

theorem fourDigitYear_of_parseTime {t t' : Time} (h : parseTime (formatTime t) = some t') :
    FourDigitYear t := by
  by_contra hyear
  rw [parseTime_formatTime_none hyear] at h
  cases h

theorem scanStatisticsResult_of_readable {row : Result} (h : Readable row) :
    scanStatisticsResult row = some (statisticsResult row (timestamp row)) := by
  have hnullable : ∀ {t t' : Option Time}, nullableTime (t.map formatTime) = some t' →
      ∀ x ∈ t, FourDigitYear x := by
    rintro _ t' ht x rfl
    rw [Option.map_some, nullableTime, if_neg (formatTime_ne_empty x),
      Option.map_eq_some_iff] at ht
    obtain ⟨read, hread, -⟩ := ht
    exact fourDigitYear_of_parseTime hread
  simp only [Readable, scanResult, Option.bind_eq_bind, Option.bind_eq_some_iff] at h
  obtain ⟨queuedAt, hqueued, scheduledAt, hscheduled, startedAt, hstarted, finishedAt, hfinished,
    -⟩ := h
  have hyear : FourDigitYear (timestamp row) := by
    unfold timestamp
    cases hstart : row.startedAt with
    | some t => exact hnullable hstarted t hstart
    | none =>
        cases hfinish : row.finishedAt with
        | some t => exact hnullable hfinished t hfinish
        | none =>
            cases hschedule : row.scheduledAt with
            | some t => exact hnullable hscheduled t hschedule
            | none => exact fourDigitYear_of_parseTime hqueued
  rw [scanStatisticsResult, timestampText_eq, parseTime_formatTime hyear, Option.map_some]

theorem scanRows_of_readable {rows : List Result} (h : ∀ row ∈ rows, Readable row) :
    scanRows (fun row ↦ scanResult (listColumns row)) rows = (rows.map listColumns, true) := by
  rw [scanRows_complete, List.map_map]
  exact List.map_congr_left fun row hrow ↦ scanResult_listColumns (h row hrow)

/-- An export that ends without an error visits the selected rows. -/
theorem readable_of_walkResults {s : Store} {filter : ResultFilter} {rows : List Result}
    (h : s.walkResults filter = (rows, true)) :
    rows.Perm (s.selected filter) ∧ ∀ row ∈ rows, Readable row := by
  have hscan := scanRows_complete.mp h
  have hrows : rows = (s.selected filter).insertionSort oldestFirst := by
    apply List.map_injective_iff.mpr (Option.some_injective _)
    rw [← hscan]
    apply List.map_congr_left
    intro row hrow
    have hmem : scanResult row ∈ rows.map some := hscan ▸ List.mem_map_of_mem hrow
    obtain ⟨item, -, hitem⟩ := List.mem_map.mp hmem
    rw [← hitem, scanResult_eq_some hitem.symm]
  rw [← hrows] at hscan
  constructor
  · rw [hrows]
    exact List.perm_insertionSort oldestFirst _
  · intro row hrow
    exact List.map_inj_left.mp hscan row hrow

/-! ## Pages -/

/-- The selected rows in the order of a list. -/
def Store.ordered (s : Store) (filter : ResultFilter) (listing : Listing) : List Result :=
  (s.selected filter).insertionSort
    ((sortColumn listing.sort).order (listing.descending || listing.sort = ""))

theorem Store.perm_ordered (s : Store) (filter : ResultFilter) (listing : Listing) :
    (s.ordered filter listing).Perm (s.selected filter) := List.perm_insertionSort _ _

/-- A list shows one page of the selected rows. -/
theorem listResults_eq {s : Store} {filter : ResultFilter}
    (hcount : (s.selected filter).length < 2 ^ 63)
    (hread : ∀ row ∈ s.selected filter, Readable row) (listing : Listing) :
    s.listResults filter listing = some {
      items := Paging.page ((s.ordered filter listing).map listColumns) listing.size
        (max listing.page 1 - 1).toNat
      page := max listing.page 1
      pageSize := listing.size
      totalItems := (s.selected filter).length
      totalPages := ((s.selected filter).length ⌈/⌉ listing.size : ℕ) } := by
  have hlength := (s.perm_ordered filter listing).length_eq
  unfold Store.listResults
  simp only [paginate_eq (fun x ↦ int64_eq) listing hcount]
  rw [← Paging.map_page]
  by_cases hbeyond : (((s.selected filter).length ⌈/⌉ listing.size : ℕ) : ℤ) < max listing.page 1
  · have hnil : Paging.page (s.ordered filter listing) listing.size
        (max listing.page 1 - 1).toNat = [] := by
      apply (Paging.page_eq_nil_iff _ listing.size_pos).mpr
      rw [hlength]
      omega
    rw [if_pos hbeyond, hnil]
    rfl
  · have hpage : limitOffset listing.size ((max listing.page 1 - 1) * listing.size)
        (s.ordered filter listing) = Paging.page (s.ordered filter listing) listing.size
          (max listing.page 1 - 1).toNat := by
      have hoffset : ((max listing.page 1 - 1) * listing.size).toNat =
          (max listing.page 1 - 1).toNat * listing.size := by
        rw [Int.toNat_mul (by omega) (by omega), Int.toNat_natCast]
      rw [limitOffset, if_neg (by omega), hoffset, Int.toNat_natCast, Paging.page]
    have hreadable : ∀ row ∈ Paging.page (s.ordered filter listing) listing.size
        (max listing.page 1 - 1).toNat, Readable row := by
      intro row hrow
      have hmem := List.mem_of_mem_drop (List.mem_of_mem_take hrow)
      exact hread row ((s.perm_ordered filter listing).mem_iff.mp hmem)
    rw [if_neg hbeyond]
    change (match scanRows (fun row ↦ scanResult (listColumns row))
      (limitOffset listing.size ((max listing.page 1 - 1) * listing.size)
        (s.ordered filter listing)) with
      | (_, false) => none
      | (items, true) => some _) = _
    rw [hpage, scanRows_of_readable hreadable]

/-- The items of the first pages in one list. -/
def Store.listedPages (s : Store) (filter : ResultFilter) (listing : Listing) :
    ℕ → Option (List Result)
  | 0 => some []
  | n + 1 => do
      let front ← s.listedPages filter listing n
      let last ← s.listResults filter { listing with page := n + 1 }
      return front ++ last.items

theorem listedPages_eq {s : Store} {filter : ResultFilter}
    (hcount : (s.selected filter).length < 2 ^ 63)
    (hread : ∀ row ∈ s.selected filter, Readable row) (listing : Listing) (n : ℕ) :
    s.listedPages filter listing n = some
      ((List.range n).map
        (Paging.page ((s.ordered filter listing).map listColumns) listing.size)).flatten := by
  induction n with
  | zero => rfl
  | succ n ih =>
      have hpage : (max ((n : ℤ) + 1) 1 - 1).toNat = n := by omega
      rw [Store.listedPages, ih, listResults_eq hcount hread, List.range_succ, List.map_append,
        List.flatten_append]
      simp only [hpage, Option.bind_eq_bind, Option.bind_some, Option.pure_def, List.map_cons,
        List.map_nil, List.flatten_cons, List.flatten_nil, List.append_nil]
      rfl

/-! ## The statistics -/

/-- The one value of a list of values; the empty text includes every value. -/
def single (value : String) : List String := if value = "" then [] else [value]

/-- The filter of the statistics for the same rows. -/
def ResultFilter.statistics (filter : ResultFilter) («from» «to» : Time) : StatisticsFilter where
  «from» := «from»
  «to» := «to»
  filter := {
    taskIDs := single filter.taskID
    interfaces := single filter.interface
    sourceIPs := single filter.sourceIP
    providers := single filter.provider
    serverIDs := single filter.serverID
    routeProfileIDs := []
    publicIPs := [] }

theorem statisticsInClause_single (column value : String) :
    statisticsInClause (some column) (single value) = equals (value, column) := by
  rw [single, equals]
  split
  · rename_i h
    simp [statisticsInClause, h]
  · rename_i h
    simp [statisticsInClause, h]

theorem length_single_le (value : String) : (single value).length ≤ 200 := by
  rw [single]
  split <;> simp

theorem statisticsWhere_eq {filter : ResultFilter} {«from» «to» : Time}
    (hstatus : filter.status = "") (hfrom : filter.from = some «from»)
    (hto : filter.to = some «to») (row : Result) :
    statisticsWhere (filter.statistics «from» «to») row = resultWhere filter row := by
  rw [statisticsWhere, resultWhere, hfrom, hto, Option.all_some, Option.all_some,
    statisticsFields, ResultFilter.fields]
  simp only [ResultFilter.statistics, statisticsInClause_single, List.all_cons, List.all_nil,
    hstatus]
  have hall : ∀ column, statisticsInClause column [] = true := fun _ ↦ rfl
  have hempty : ∀ column, equals ("", column) = true := fun _ ↦ rfl
  rw [hall, hall, hempty]
  simp only [Bool.true_and, Bool.and_assoc, Bool.and_comm, Bool.and_left_comm]
  rfl

/-- Where the statistics accept the bounds they visit the rows of the export. -/
theorem walkStatisticsResults_eq {s : Store} {filter : ResultFilter} {«from» «to» : Time}
    (hstatus : filter.status = "") (hfrom : filter.from = some «from»)
    (hto : filter.to = some «to») (hbounds : «from» ≠ zeroTime ∧ «to» ≠ zeroTime ∧ «from» < «to»)
    (hread : ∀ row ∈ s.selected filter, Readable row) :
    ∃ items, s.walkStatisticsResults (filter.statistics «from» «to») = .ok (items, true) ∧
      items.Perm ((s.selected filter).map fun row ↦ statisticsResult row (timestamp row)) := by
  have hselected : s.results.rows.filter (statisticsWhere (filter.statistics «from» «to»)) =
      s.selected filter :=
    List.filter_congr fun row _ ↦ statisticsWhere_eq hstatus hfrom hto row
  have hclauses : (Store.statisticsClauses (filter.statistics «from» «to»).filter).find?
      (fun clause ↦ 200 < clause.2.length) = none := by
    apply List.find?_eq_none.mpr
    intro clause hclause
    simp only [Store.statisticsClauses, ResultFilter.statistics, List.mem_cons,
      List.not_mem_nil, or_false] at hclause
    rw [decide_eq_true_eq, not_lt]
    rcases hclause with rfl | rfl | rfl | rfl | rfl | rfl | rfl <;>
      first | exact length_single_le _ | exact Nat.zero_le _
  have hperm := List.perm_insertionSort earliestFirst (s.selected filter)
  refine ⟨((s.selected filter).insertionSort earliestFirst).map
    fun row ↦ statisticsResult row (timestamp row), ?_, hperm.map _⟩
  have hscan : scanRows scanStatisticsResult ((s.selected filter).insertionSort earliestFirst) =
      (((s.selected filter).insertionSort earliestFirst).map
        fun row ↦ statisticsResult row (timestamp row), true) := by
    rw [scanRows_complete, List.map_map]
    exact List.map_congr_left fun row hrow ↦
      scanStatisticsResult_of_readable (hread row (hperm.mem_iff.mp hrow))
  obtain ⟨hzero, hzero', hlt⟩ := hbounds
  rw [Store.walkStatisticsResults, if_neg (by
    rintro (h | h | h)
    · exact hzero h
    · exact hzero' h
    · exact h hlt), hclauses, hselected, hscan]

/-- An export ends without an error exactly where every selected row is readable. -/
theorem walkResults_complete_iff {s : Store} {filter : ResultFilter} :
    (∃ rows, s.walkResults filter = (rows, true)) ↔ ∀ row ∈ s.selected filter, Readable row := by
  constructor
  · rintro ⟨rows, h⟩ row hrow
    obtain ⟨hperm, hread⟩ := readable_of_walkResults h
    exact hread row (hperm.mem_iff.mpr hrow)
  · intro hread
    refine ⟨(s.selected filter).insertionSort oldestFirst, scanRows_complete.mpr ?_⟩
    exact List.map_congr_left fun row hrow ↦
      hread row ((List.perm_insertionSort oldestFirst _).mem_iff.mp hrow)

/-- The pages of a list are the rows of an export, each once and in the order of the list,
and there are no others; the machine integers that number them do not overflow.  The
statistics for the same bounds and values visit the same rows. -/
theorem lists_match_export {s : Store} {filter : ResultFilter} {rows : List Result}
    (hwalk : s.walkResults filter = (rows, true)) (hcount : rows.length < 2 ^ 63)
    (listing : Listing) :
    (∃ ordered, s.listedPages filter listing (rows.length ⌈/⌉ listing.size) = some ordered ∧
      ordered.Perm (rows.map listColumns) ∧
      ordered.Pairwise
        ((sortColumn listing.sort).order (listing.descending || listing.sort = ""))) ∧
    (∃ answer, s.listResults filter listing = some answer ∧
      answer.page = max listing.page 1 ∧ answer.pageSize = listing.size ∧
      answer.totalItems = rows.length ∧
      answer.totalPages = (rows.length ⌈/⌉ listing.size : ℕ) ∧
      (answer.totalPages < answer.page → answer.items = []) ∧
      (answer.page < answer.totalPages → answer.items.length = listing.size)) ∧
    paginate int64 listing rows.length = paginate id listing rows.length ∧
    ∀ «from» «to», filter.status = "" → filter.from = some «from» → filter.to = some «to» →
      «from» ≠ zeroTime ∧ «to» ≠ zeroTime ∧ «from» < «to» →
      ∃ items, s.walkStatisticsResults (filter.statistics «from» «to») = .ok (items, true) ∧
        items.Perm (rows.map fun row ↦ statisticsResult row (timestamp row)) := by
  obtain ⟨hperm, hread⟩ := readable_of_walkResults hwalk
  have hselected : ∀ row ∈ s.selected filter, Readable row :=
    fun row hrow ↦ hread row (hperm.mem_iff.mpr hrow)
  have hlength := hperm.length_eq
  have hcount' : (s.selected filter).length < 2 ^ 63 := hlength ▸ hcount
  have hordered := s.perm_ordered filter listing
  have hpages : ((s.ordered filter listing).map listColumns).length = rows.length := by
    rw [List.length_map, hordered.length_eq, hlength]
  refine ⟨⟨(s.ordered filter listing).map listColumns, ?_, ?_, ?_⟩, ?_, ?_, ?_⟩
  · rw [listedPages_eq hcount' hselected, ← hpages, Paging.flatten_all_pages _ listing.size_pos]
  · exact (hordered.trans hperm.symm).map listColumns
  · rw [List.pairwise_map]
    simp only [order_listColumns]
    exact List.pairwise_insertionSort _ _
  · refine ⟨_, listResults_eq hcount' hselected listing, rfl, rfl, ?_, ?_, ?_, ?_⟩
    · rw [hlength]
    · rw [hlength]
    · intro (hbeyond : (((s.selected filter).length ⌈/⌉ listing.size : ℕ) : ℤ) <
        max listing.page 1)
      apply (Paging.page_eq_nil_iff _ listing.size_pos).mpr
      rw [hpages, hlength]
      omega
    · intro (hbefore : max listing.page 1 <
        (((s.selected filter).length ⌈/⌉ listing.size : ℕ) : ℤ))
      apply Paging.length_page_of_lt _ listing.size_pos
      rw [hpages, hlength]
      omega
  · have hid : ∀ x : ℤ, 0 ≤ x → x < 2 ^ 63 → id x = x := fun _ _ _ ↦ rfl
    rw [paginate_eq (fun x ↦ int64_eq) listing hcount, paginate_eq hid listing hcount]
  · intro «from» «to» hstatus hfrom hto hbounds
    obtain ⟨items, hitems, hvisited⟩ :=
      walkStatisticsResults_eq hstatus hfrom hto hbounds hselected
    exact ⟨items, hitems, hvisited.trans (hperm.symm.map _)⟩

/-- Two results of one task. -/
def twoResults : Store :=
  ["first", "second"].foldl (fun s uuid ↦
    match s.createResult (Execution.queuedResult "1.0.0" scheduledTask .manual none 0) uuid 0 with
    | .ok (_, s') => s'
    | .error _ => s) oneTask

def everyResult : ResultFilter := ⟨"", "", "", "", "", "", none, none⟩

theorem lists_match_export_two :
    ∃ ordered, twoResults.listedPages everyResult ⟨1, 1, "finishedAt", false⟩ 2 = some ordered ∧
      ordered.Perm ((twoResults.walkResults everyResult).1.map listColumns) ∧
      ordered.Pairwise (SortColumn.finishedAt.order false) := by
  have hwalk : twoResults.walkResults everyResult =
      ((twoResults.walkResults everyResult).1, true) := Prod.ext rfl (by decide +kernel)
  have hlength : (twoResults.walkResults everyResult).1.length = 2 := by decide +kernel
  have hlists := (lists_match_export hwalk (by rw [hlength]; decide)
    ⟨1, 1, "finishedAt", false⟩).1
  rw [hlength] at hlists
  exact hlists

end MultiSpeed.Database
