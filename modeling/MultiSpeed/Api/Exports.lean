import MultiSpeed.Database.Listing
import MultiSpeed.Lib.Delimited
import MultiSpeed.Providers.Output
import MultiSpeed.Statistics.Zone

/-!
# The export of results

`exportResultsCSV` of `internal/api` with `encoding/csv`.  The texts are bytes, as a stored
error may be cut within a character.  `strconv.FormatFloat` is a parameter.
-/

namespace MultiSpeed.Api

open Database Delimited Statistics

/-! ## Cells -/

def timeText (value : Option Time) : Text :=
  value.elim [] fun t ↦ utf8 (formatRFC3339Nano utc t)

def int64Text (value : Option ℤ) : Text := value.elim [] fun v ↦ utf8 (toString v)

def floatText (formatFloat : Float64 → Text) (value : Option Float64) : Text :=
  value.elim [] formatFloat

/-- `strings.TrimLeft(value, " \t\r\n")`. -/
def trimLeft (value : Text) : Text := value.dropWhile (· ∈ [0x20, 0x09, 0x0D, 0x0A])

/-- A spreadsheet may take the text for a formula. -/
def Formula (value : Text) : Prop := ∃ c ∈ (trimLeft value).head?, c ∈ utf8 "=+-@"

instance decidableFormula (value : Text) : Decidable (Formula value) :=
  inferInstanceAs (Decidable (∃ c ∈ (trimLeft value).head?, c ∈ utf8 "=+-@"))

def spreadsheetSafe (value : Text) : Text := if Formula value then 0x27 :: value else value

def triggerText : TriggerType → String
  | .manual => "manual"
  | .scheduled => "scheduled"

def header : List Text :=
  ["id", "task_id", "provider", "trigger", "status", "started_at", "finished_at", "download_bps",
    "upload_bps", "latency_ms", "jitter_ms", "packet_loss_percent", "interface", "source_ip",
    "public_ip", "server_id", "server_name", "error"].map utf8

def cells (formatFloat : Float64 → Text) (item : Result) : List Text :=
  [utf8 item.id, utf8 item.taskID, utf8 (providerText item.provider),
    utf8 (triggerText item.trigger), utf8 (statusText item.status), timeText item.startedAt,
    timeText item.finishedAt, int64Text item.downloadBitsPerSecond,
    int64Text item.uploadBitsPerSecond, floatText formatFloat item.latencyMilliseconds,
    floatText formatFloat item.jitterMilliseconds, floatText formatFloat item.packetLossPercent,
    utf8 item.selectedInterface, utf8 item.selectedSourceIP, utf8 item.detectedPublicIP,
    utf8 item.serverID, utf8 item.serverName, item.sanitizedError]

/-! ## The file -/

/-- `csv.Writer.fieldNeedsQuotes`. -/
def fieldNeedsQuotes (field : Text) : Bool :=
  if field = [] then false
  else if field = utf8 "\\." then true
  else if field.any (· ∈ [0x2C, 0x22, 0x0A, 0x0D]) then true
  else Providers.isSpace (Providers.decodeRune field).1

/-- The dialect of `csv.NewWriter`. -/
def csv : Dialect UInt8 where
  comma := 0x2C
  quote := 0x22
  lineFeed := 0x0A
  carriageReturn := 0x0D
  quoted := fieldNeedsQuotes
  differ := by decide
  special cell c hc hmem := by
    have hany : cell.any (· ∈ [0x2C, 0x22, 0x0A, 0x0D]) = true :=
      List.any_eq_true.mpr ⟨c, hmem, decide_eq_true hc⟩
    have hne : cell ≠ [] := List.ne_nil_of_mem hmem
    unfold fieldNeedsQuotes
    rw [if_neg hne, if_pos hany, ite_self]

/-- The body of the response.  An error of the walk ends the file after the rows before it,
and an error of the writer leaves a part of the file. -/
def exportResultsCSV (formatFloat : Float64 → Text) (s : Store) (filter : ResultFilter) : Text :=
  csv.table (header ::
    (s.walkResults filter).1.map fun item ↦ (cells formatFloat item).map spreadsheetSafe)

/-! ## What a reader finds -/

theorem harmless_spreadsheetSafe (value : Text) : ¬Formula (spreadsheetSafe value) := by
  unfold spreadsheetSafe
  split
  · rintro ⟨c, hc, hmem⟩
    have hhead : trimLeft (0x27 :: value) = 0x27 :: value := by simp [trimLeft]
    rw [hhead] at hc
    obtain rfl : (0x27 : UInt8) = c := Option.some.inj hc
    revert hmem
    decide
  · rename_i hplain
    exact hplain

theorem formula_of_start {start value : Text} (h : start <+: value) (hstart : Formula start) :
    Formula value := by
  obtain ⟨rest, rfl⟩ := h
  obtain ⟨c, hc, hmem⟩ := hstart
  refine ⟨c, ?_, hmem⟩
  unfold trimLeft at hc ⊢
  have hne : (start.dropWhile (· ∈ [0x20, 0x09, 0x0D, 0x0A])).isEmpty = false := by
    rw [List.isEmpty_eq_false_iff]
    intro hnil
    rw [hnil] at hc
    cases hc
  rw [List.dropWhile_append, hne]
  exact List.mem_head?_append_of_mem_head? hc

/-- The text of a cell without the apostrophe of `spreadsheetSafe`. -/
def unguarded : Text → Text
  | [] => []
  | c :: rest => if c = 0x27 ∧ Formula rest then rest else c :: rest

/-- A text that looks like a guarded one. -/
def Guarded (value : Text) : Prop := ∃ rest, Formula rest ∧ value = 0x27 :: rest

theorem unguarded_spreadsheetSafe_iff (value : Text) :
    unguarded (spreadsheetSafe value) = value ↔ ¬Guarded value := by
  unfold spreadsheetSafe
  split
  · rename_i hformula
    rw [unguarded, if_pos ⟨rfl, hformula⟩]
    refine iff_of_true rfl ?_
    rintro ⟨rest, hrest, rfl⟩
    exact harmless_spreadsheetSafe rest (by rwa [spreadsheetSafe, if_pos hrest])
  · cases value with
    | nil => exact iff_of_true rfl fun ⟨_, _, h⟩ ↦ by cases h
    | cons c rest =>
        rw [unguarded]
        split
        · rename_i hguard
          refine iff_of_false (fun h ↦ List.cons_ne_self _ _ h.symm) ?_
          exact not_not.mpr ⟨rest, hguard.2, by rw [hguard.1]⟩
        · rename_i hguard
          refine iff_of_true rfl ?_
          rintro ⟨other, hother, heq⟩
          obtain ⟨rfl, rfl⟩ := List.cons.inj heq
          exact hguard ⟨rfl, hother⟩

variable {formatFloat : Float64 → Text}

structure Exported (formatFloat : Float64 → Text) (rows : List Result) (file : Text) : Prop where
  /-- One row for each result, after the header. -/
  table : read csv file =
    header :: rows.map fun item ↦ (cells formatFloat item).map spreadsheetSafe
  width : ∀ row ∈ read csv file, row.length = header.length
  /-- A download that breaks off has the complete rows, and the beginning of the next one. -/
  part : ∀ n ≤ file.length, Broken csv (read csv file) n (read csv (file.take n))
  /-- No cell is a formula, in no part of the file. -/
  harmless : ∀ n, ∀ row ∈ read csv (file.take n), ∀ cell ∈ row, ¬Formula cell
  /-- The values can be found again, unless one looks like a guarded formula. -/
  values : (read csv file).tail.map (·.map unguarded) = rows.map (cells formatFloat) ↔
    ∀ item ∈ rows, ∀ value ∈ cells formatFloat item, ¬Guarded value

/-- Every export of results can be read back. -/
theorem export_read_back (formatFloat : Float64 → Text) (s : Store) (filter : ResultFilter) :
    Exported formatFloat (s.walkResults filter).1 (exportResultsCSV formatFloat s filter) := by
  have hne : ∀ row ∈ header ::
      (s.walkResults filter).1.map fun item ↦ (cells formatFloat item).map spreadsheetSafe,
      row ≠ [] := by
    intro row hrow
    rcases List.mem_cons.mp hrow with rfl | hrow
    · exact List.cons_ne_nil _ _
    · obtain ⟨item, -, rfl⟩ := List.mem_map.mp hrow
      exact List.cons_ne_nil _ _
  have hread : read csv (exportResultsCSV formatFloat s filter) = header ::
      (s.walkResults filter).1.map fun item ↦ (cells formatFloat item).map spreadsheetSafe :=
    read_table hne
  have hpart : ∀ n ≤ (exportResultsCSV formatFloat s filter).length,
      Broken csv (read csv (exportResultsCSV formatFloat s filter)) n
        (read csv ((exportResultsCSV formatFloat s filter).take n)) := by
    intro n hn
    rw [hread]
    exact read_table_take hne hn
  have hwhole : ∀ row ∈ read csv (exportResultsCSV formatFloat s filter), ∀ cell ∈ row,
      ¬Formula cell := by
    intro row hrow cell hcell
    rw [hread] at hrow
    rcases List.mem_cons.mp hrow with rfl | hrow
    · have hheader : ∀ name ∈ header, ¬Formula name := by decide
      exact hheader cell hcell
    · obtain ⟨item, -, rfl⟩ := List.mem_map.mp hrow
      obtain ⟨value, -, rfl⟩ := List.mem_map.mp hcell
      exact harmless_spreadsheetSafe value
  refine ⟨hread, fun row hrow ↦ ?_, hpart, fun n row hrow start hstart hformula ↦ ?_, ?_⟩
  · rw [hread] at hrow
    rcases List.mem_cons.mp hrow with rfl | hrow
    · rfl
    · obtain ⟨item, -, rfl⟩ := List.mem_map.mp hrow
      rfl
  · rw [List.take_eq_take_min] at hrow
    have hbroken := hpart (min n (exportResultsCSV formatFloat s filter).length)
      (min_le_right _ _)
    obtain ⟨row', hrow', cell, hcell, hprefix⟩ := hbroken.exists_prefix hrow hstart
    exact hwhole row' hrow' cell hcell (formula_of_start hprefix hformula)
  · rw [hread, List.tail_cons, List.map_map, List.map_inj_left]
    refine forall₂_congr fun item _ ↦ ?_
    rw [Function.comp_apply, List.map_map]
    conv_lhs => rhs; rw [← List.map_id (cells formatFloat item)]
    rw [List.map_inj_left]
    exact forall₂_congr fun value _ ↦ unguarded_spreadsheetSafe_iff value

end MultiSpeed.Api
