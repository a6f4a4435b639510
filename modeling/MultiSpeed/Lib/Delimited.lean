import Mathlib.Data.List.Infix
import Mathlib.Tactic.Common

/-!
# Delimited rows

Tables as text: the cells of a row are separated by a comma, a row ends with a line feed, and
a cell with one of the special symbols in it stands in quotes, with its own quotes doubled.
The symbols are parameters.  A reader takes one symbol after the other, and the last row may
end with the text.
-/

namespace Delimited

variable {α : Type*} [DecidableEq α]

/-- The special symbols, and the cells that are written in quotes. -/
structure Dialect (α : Type*) where
  comma : α
  quote : α
  lineFeed : α
  carriageReturn : α
  quoted : List α → Bool
  differ : [comma, quote, lineFeed, carriageReturn].Nodup
  special : ∀ cell : List α, ∀ c ∈ [comma, quote, lineFeed, carriageReturn], c ∈ cell →
    quoted cell = true

namespace Dialect

variable (d : Dialect α)

/-- The text between the quotes. -/
def doubled (cell : List α) : List α :=
  cell.flatMap fun c ↦ if c = d.quote then [d.quote, d.quote] else [c]

def field (cell : List α) : List α :=
  if d.quoted cell then d.quote :: d.doubled cell ++ [d.quote] else cell

/-- The cells of a row. -/
def fields : List (List α) → List α
  | [] => []
  | [cell] => d.field cell
  | cell :: next :: rest => d.field cell ++ d.comma :: fields (next :: rest)

def row (cells : List (List α)) : List α := d.fields cells ++ [d.lineFeed]

def table (rows : List (List (List α))) : List α := rows.flatMap d.row

theorem symbols_ne {α : Type*} (d : Dialect α) :
    d.comma ≠ d.quote ∧ d.lineFeed ≠ d.quote ∧ d.lineFeed ≠ d.comma := by
  have hdiffer := d.differ
  simp only [List.nodup_cons, List.mem_cons, not_or] at hdiffer
  exact ⟨hdiffer.1.1, fun h ↦ hdiffer.2.1.1 h.symm, fun h ↦ hdiffer.1.2.1 h.symm⟩

end Dialect

/-! ## Reading -/

inductive Mode where
  /-- Before the first symbol of a cell. -/
  | first
  | plain
  | quoted
  /-- After a quote in a quoted cell. -/
  | closing
  deriving DecidableEq, Repr

structure Reader (α : Type*) where
  mode : Mode
  cell : List α
  cells : List (List α)
  rows : List (List (List α))

namespace Reader

def start : Reader α := ⟨.first, [], [], []⟩

variable (d : Dialect α)

def endCell (r : Reader α) : Reader α :=
  { r with mode := .first, cell := [], cells := r.cells ++ [r.cell] }

/-- A carriage return before the line feed belongs to the end of the row. -/
def endRow (r : Reader α) : Reader α :=
  let cell :=
    if r.mode = .plain ∧ r.cell.getLast? = some d.carriageReturn then r.cell.dropLast else r.cell
  ⟨.first, [], [], r.rows ++ [r.cells ++ [cell]]⟩

/-- A symbol that is not within quotes. -/
def outside (r : Reader α) (c : α) : Reader α :=
  if c = d.comma then r.endCell
  else if c = d.lineFeed then r.endRow d
  else { r with mode := .plain, cell := r.cell ++ [c] }

def feed (r : Reader α) (c : α) : Reader α :=
  match r.mode with
  | .quoted =>
      if c = d.quote then { r with mode := .closing } else { r with cell := r.cell ++ [c] }
  | .closing =>
      if c = d.quote then { r with mode := .quoted, cell := r.cell ++ [c] } else r.outside d c
  | .first => if c = d.quote then { r with mode := .quoted } else r.outside d c
  | .plain => r.outside d c

def feedAll (r : Reader α) (text : List α) : Reader α := text.foldl (feed d) r

/-- Nothing of a row has been read. -/
def Between (r : Reader α) : Prop := r.mode = .first ∧ r.cells = []

instance decidableBetween (r : Reader α) : Decidable r.Between :=
  inferInstanceAs (Decidable (_ ∧ _))

/-- The end of the text ends a row that has begun. -/
def finish (r : Reader α) : List (List (List α)) := if r.Between then r.rows else (r.endRow d).rows

end Reader

/-- The rows of a text. -/
def read (d : Dialect α) (text : List α) : List (List (List α)) :=
  (Reader.start.feedAll d text).finish d

/-! ## Cells -/

namespace Reader

variable (d : Dialect α)

@[simp] theorem feedAll_nil (r : Reader α) : r.feedAll d [] = r := rfl

@[simp] theorem feedAll_cons (r : Reader α) (c : α) (text : List α) :
    r.feedAll d (c :: text) = (r.feed d c).feedAll d text := rfl

theorem feedAll_append (r : Reader α) (text text' : List α) :
    r.feedAll d (text ++ text') = (r.feedAll d text).feedAll d text' :=
  List.foldl_append

/-- Before a cell. -/
structure Ready (r : Reader α) : Prop where
  mode : r.mode = .first
  cell : r.cell = []

/-- A cell has been read, and its end is still to come. -/
structure Holds (r : Reader α) (text : List α) (r' : Reader α) : Prop where
  cell : r'.cell = text
  cells : r'.cells = r.cells
  rows : r'.rows = r.rows
  outside : r'.mode ≠ .quoted
  plain : r'.mode = .plain → d.carriageReturn ∉ text

variable {d} {r r' : Reader α} {cell : List α}

theorem feedAll_doubled (hr : r.mode = .quoted) :
    r.feedAll d (d.doubled cell) = { r with cell := r.cell ++ cell } := by
  induction cell generalizing r with
  | nil => simp [Dialect.doubled]
  | cons c rest ih =>
      have hsplit : d.doubled (c :: rest) =
          (if c = d.quote then [d.quote, d.quote] else [c]) ++ d.doubled rest := rfl
      have hone : r.feedAll d (if c = d.quote then [d.quote, d.quote] else [c]) =
          { r with cell := r.cell ++ [c] } := by
        split
        · rename_i hquote
          simp [feed, hr, hquote]
        · rename_i hother
          simp [feed, hr, hother]
      rw [hsplit, feedAll_append, hone, ih (by exact hr)]
      simp

theorem feedAll_plain (hr : r.mode = .first ∨ r.mode = .plain)
    (hcell : ∀ c ∈ cell, c ≠ d.comma ∧ c ≠ d.quote ∧ c ≠ d.lineFeed) :
    r.feedAll d cell =
      { r with mode := if cell = [] then r.mode else .plain, cell := r.cell ++ cell } := by
  induction cell generalizing r with
  | nil => simp
  | cons c rest ih =>
      obtain ⟨hcomma, hquote, hfeed⟩ := hcell c List.mem_cons_self
      have hone : r.feed d c = { r with mode := .plain, cell := r.cell ++ [c] } := by
        rcases hr with hr | hr <;> simp [feed, hr, outside, hcomma, hquote, hfeed]
      rw [feedAll_cons, hone, ih (.inr rfl) fun c h ↦ hcell c (List.mem_cons_of_mem _ h)]
      simp

theorem holds_field (hr : r.Ready) : Holds d r cell (r.feedAll d (d.field cell)) := by
  obtain ⟨hmode, hempty⟩ := hr
  unfold Dialect.field
  split
  · have hopen : r.feed d d.quote = { r with mode := .quoted } := by simp [feed, hmode]
    have hclose : ({ r with mode := .quoted, cell := cell } : Reader α).feed d d.quote =
        { r with mode := .closing, cell := cell } := by
      simp [feed]
    rw [List.cons_append, feedAll_cons, hopen, feedAll_append, feedAll_doubled rfl]
    dsimp only
    rw [hempty, List.nil_append, feedAll_cons, feedAll_nil, hclose]
    exact ⟨rfl, rfl, rfl, by simp, by simp⟩
  · rename_i hplain
    have hnone : ∀ c ∈ [d.comma, d.quote, d.lineFeed, d.carriageReturn], c ∉ cell :=
      fun c hc hmem ↦ hplain (d.special cell c hc hmem)
    have hcell : ∀ c ∈ cell, c ≠ d.comma ∧ c ≠ d.quote ∧ c ≠ d.lineFeed := by
      intro c hc
      refine ⟨?_, ?_, ?_⟩ <;> rintro rfl <;> exact hnone _ (by simp) hc
    rw [feedAll_plain (.inl hmode) hcell, hempty, List.nil_append]
    refine ⟨rfl, rfl, rfl, ?_, fun _ ↦ hnone _ (by simp)⟩
    dsimp only
    split <;> simp [hmode]

theorem feed_comma (h : Holds d r cell r') :
    r'.feed d d.comma = { r with mode := .first, cell := [], cells := r.cells ++ [cell] } := by
  obtain ⟨hcell, hcells, hrows, houtside, -⟩ := h
  obtain ⟨hquote, -⟩ := d.symbols_ne
  cases r' with
  | mk mode _ _ _ =>
      cases mode <;> simp_all [feed, outside, endCell]

theorem feed_lineFeed (h : Holds d r cell r') :
    r'.feed d d.lineFeed = ⟨.first, [], [], r.rows ++ [r.cells ++ [cell]]⟩ := by
  obtain ⟨hcell, hcells, hrows, houtside, hplain⟩ := h
  obtain ⟨-, hquote, hcomma⟩ := d.symbols_ne
  have hend : r'.mode = .plain → r'.cell.getLast? ≠ some d.carriageReturn := by
    intro hmode hlast
    exact hplain hmode (hcell ▸ List.mem_of_getLast? hlast)
  cases r' with
  | mk mode _ _ _ =>
      cases mode <;> simp_all [feed, outside, endRow]

/-! ## Rows -/

theorem feedAll_fields (hr : r.Ready) {cells : List (List α)} (hne : cells ≠ []) :
    Holds d { r with cells := r.cells ++ cells.dropLast } (cells.getLast hne)
      (r.feedAll d (d.fields cells)) := by
  induction cells generalizing r with
  | nil => exact absurd rfl hne
  | cons cell rest ih =>
      have hcell : Holds d r cell (r.feedAll d (d.field cell)) := holds_field hr
      obtain ⟨mode, start, before, rows⟩ := r
      obtain ⟨rfl, rfl⟩ : mode = .first ∧ start = [] := ⟨hr.mode, hr.cell⟩
      cases rest with
      | nil =>
          rw [Dialect.fields]
          simpa using hcell
      | cons next rest =>
          rw [Dialect.fields, feedAll_append, feedAll_cons, feed_comma hcell]
          have hrest := ih (r := ⟨.first, [], before ++ [cell], rows⟩) ⟨rfl, rfl⟩
            (List.cons_ne_nil _ _)
          simpa using hrest

theorem feedAll_row (hr : r.Ready) {cells : List (List α)} (hne : cells ≠ []) :
    r.feedAll d (d.row cells) = ⟨.first, [], [], r.rows ++ [r.cells ++ cells]⟩ := by
  rw [Dialect.row, feedAll_append, feedAll_cons, feedAll_nil, feed_lineFeed (feedAll_fields hr hne),
    List.append_assoc, List.dropLast_append_getLast]

/-- A reader does not take rows back. -/
theorem rows_feed (r : Reader α) (c : α) : r.rows <+: (r.feed d c).rows := by
  unfold feed outside endRow endCell
  repeat' split
  all_goals first
    | exact List.prefix_refl _
    | exact List.prefix_append _ _

theorem rows_feedAll (r : Reader α) (text : List α) : r.rows <+: (r.feedAll d text).rows := by
  induction text generalizing r with
  | nil => exact List.prefix_refl _
  | cons c rest ih => exact (rows_feed r c).trans (ih _)

end Reader

/-! ## Rows that break off -/

/-- The first cells of a row, the last of them perhaps in part. -/
def Begins {α : Type*} (part cells : List (List α)) : Prop :=
  ∃ j cell start, cells[j]? = some cell ∧ start <+: cell ∧ part = cells.take j ++ [start]

theorem begins_append {α : Type*} (cells : List (List α)) {start cell : List α}
    (h : start <+: cell) (more : List (List α)) :
    Begins (cells ++ [start]) (cells ++ cell :: more) :=
  ⟨cells.length, cell, start, by simp, h, by simp⟩

theorem Begins.trans {α : Type*} {part cells more : List (List α)} (h : Begins part cells)
    (h' : Begins cells more) : Begins part more := by
  obtain ⟨j, cell, start, hcell, hstart, rfl⟩ := h
  obtain ⟨j', cell', start', hcell', hstart', rfl⟩ := h'
  obtain ⟨hlt, -⟩ := List.getElem?_eq_some_iff.mp hcell'
  have hlength : (more.take j').length = j' := List.length_take_of_le hlt.le
  rcases lt_or_ge j j' with hj | hj
  · rw [List.getElem?_append_left (by omega), List.getElem?_take_of_lt hj] at hcell
    refine ⟨j, cell, start, hcell, hstart, ?_⟩
    rw [List.take_append_of_le_length (by omega), List.take_take, min_eq_left hj.le]
  · obtain ⟨hj', -⟩ := List.getElem?_eq_some_iff.mp hcell
    rw [List.length_append, hlength, List.length_singleton] at hj'
    obtain rfl : j = j' := by omega
    rw [List.getElem?_append_right (by omega), hlength, Nat.sub_self] at hcell
    obtain rfl : start' = cell := Option.some.inj hcell
    refine ⟨j, cell', start, hcell', hstart.trans hstart', ?_⟩
    rw [List.take_left' hlength]

theorem Begins.exists_prefix {α : Type*} {part cells : List (List α)} (h : Begins part cells)
    {start : List α} (hstart : start ∈ part) : ∃ cell ∈ cells, start <+: cell := by
  obtain ⟨j, cell, last, hcell, hlast, rfl⟩ := h
  rcases List.mem_append.mp hstart with hstart | hstart
  · exact ⟨start, List.mem_of_mem_take hstart, List.prefix_refl _⟩
  · rw [List.mem_singleton.mp hstart]
    exact ⟨cell, List.mem_of_getElem? hcell, hlast⟩

namespace Reader

variable {d : Dialect α} {r : Reader α}

/-- What the reader has of a row. -/
def sofar (r : Reader α) : List (List α) := r.cells ++ [r.cell]

/-- As long as no row ends, the reader goes on with the row. -/
theorem begins_feed (c : α) (hrows : (r.feed d c).rows = r.rows) :
    Begins r.sofar (r.feed d c).sofar ∧ ¬(r.feed d c).Between := by
  have hsame : Begins r.sofar r.sofar := begins_append r.cells (List.prefix_refl _) []
  have hmore : Begins r.sofar (r.cells ++ [r.cell ++ [c]]) :=
    begins_append r.cells (List.prefix_append _ _) []
  have houtside : (r.outside d c).rows = r.rows →
      Begins r.sofar (r.outside d c).sofar ∧ ¬(r.outside d c).Between := by
    intro hrows
    unfold outside at hrows ⊢
    split_ifs at hrows ⊢
    · refine ⟨?_, fun h ↦ by simp [endCell, Between] at h⟩
      have hcell : r.endCell.sofar = r.cells ++ r.cell :: [[]] := by simp [endCell, sofar]
      rw [hcell]
      exact begins_append r.cells (List.prefix_refl _) _
    · exact absurd (congrArg List.length hrows) (by simp [endRow])
    · exact ⟨hmore, fun h ↦ by cases h.1⟩
  unfold feed at hrows ⊢
  split at hrows
  · split at hrows
    · rename_i hquote
      rw [if_pos hquote]
      exact ⟨hsame, fun h ↦ by cases h.1⟩
    · rename_i hmode hquote
      rw [if_neg hquote]
      refine ⟨hmore, fun h ↦ ?_⟩
      rw [Between, hmode] at h
      cases h.1
  · split at hrows
    · rename_i hquote
      rw [if_pos hquote]
      exact ⟨hmore, fun h ↦ by cases h.1⟩
    · rename_i hquote
      rw [if_neg hquote]
      exact houtside hrows
  · split at hrows
    · rename_i hquote
      rw [if_pos hquote]
      exact ⟨hsame, fun h ↦ by cases h.1⟩
    · rename_i hquote
      rw [if_neg hquote]
      exact houtside hrows
  · exact houtside hrows

theorem begins_feedAll (text : List α) (hrows : (r.feedAll d text).rows = r.rows) :
    Begins r.sofar (r.feedAll d text).sofar ∧
      (text ≠ [] → ¬(r.feedAll d text).Between) := by
  induction text generalizing r with
  | nil => exact ⟨begins_append r.cells (List.prefix_refl _) [], fun h ↦ absurd rfl h⟩
  | cons c rest ih =>
      have hlater : (r.feed d c).rows <+: r.rows := hrows ▸ rows_feedAll (r.feed d c) rest
      have hfirst : (r.feed d c).rows = r.rows :=
        hlater.eq_of_length_le (rows_feed r c).length_le
      obtain ⟨hbegins, hbetween⟩ := begins_feed c hfirst
      obtain ⟨hrest, hnot⟩ := ih (r := r.feed d c) (hrows.trans hfirst.symm)
      refine ⟨hbegins.trans hrest, fun _ ↦ ?_⟩
      rcases eq_or_ne rest [] with rfl | hne
      · exact hbetween
      · exact hnot hne

/-- A part of a row leaves the rows before it, and the beginning of the row. -/
theorem feedAll_row_take (rows : List (List (List α))) {cells : List (List α)}
    (hne : cells ≠ []) {n : ℕ} (hn : n < (d.row cells).length) {r' : Reader α}
    (hr' : (⟨.first, [], [], rows⟩ : Reader α).feedAll d ((d.row cells).take n) = r') :
    r'.rows = rows ∧ Begins r'.sofar cells ∧ (n ≠ 0 → ¬r'.Between) := by
  rw [Dialect.row, List.length_append, List.length_singleton] at hn
  rw [Dialect.row, List.take_append_of_le_length (by omega)] at hr'
  have hwhole := feedAll_fields (d := d) (r := ⟨.first, [], [], rows⟩) ⟨rfl, rfl⟩ hne
  rw [← List.take_append_drop n (d.fields cells), feedAll_append, hr'] at hwhole
  have hstart := rows_feedAll (d := d) ⟨.first, [], [], rows⟩ ((d.fields cells).take n)
  rw [hr'] at hstart
  have hend := rows_feedAll (d := d) r' ((d.fields cells).drop n)
  have hrows : r'.rows = rows :=
    (hstart.eq_of_length_le (hwhole.rows ▸ hend).length_le).symm
  refine ⟨hrows, ?_, fun hzero ↦ ?_⟩
  · have hsofar : (r'.feedAll d ((d.fields cells).drop n)).sofar = cells := by
      rw [sofar, hwhole.cells, hwhole.cell]
      exact List.dropLast_append_getLast hne
    rw [← hsofar]
    exact (begins_feedAll ((d.fields cells).drop n) (hwhole.rows.trans hrows.symm)).1
  · rw [← hr'] at hrows ⊢
    refine (begins_feedAll ((d.fields cells).take n) hrows).2 fun hnil ↦ ?_
    have hlength := congrArg List.length hnil
    rw [List.length_take, List.length_nil] at hlength
    omega

theorem finish_of_not_between (h : ¬r.Between) :
    ∃ part, Begins part r.sofar ∧ r.finish d = r.rows ++ [part] := by
  rw [finish, if_neg h]
  refine ⟨_, begins_append r.cells ?_ [], rfl⟩
  split
  · exact List.dropLast_prefix _
  · exact List.prefix_refl _

end Reader

/-! ## Tables -/

variable {d : Dialect α}

@[simp] theorem table_cons (row : List (List α)) (rows : List (List (List α))) :
    d.table (row :: rows) = d.row row ++ d.table rows := List.flatMap_cons

/-- What a reader finds in the first `n` symbols of a table: the rows that lie within them,
and of the next row as much as does. -/
inductive Broken (d : Dialect α) (rows : List (List (List α))) (n : ℕ) :
    List (List (List α)) → Prop where
  | between {k : ℕ} (at_ : (d.table (rows.take k)).length = n) : Broken d rows n (rows.take k)
  | within {k : ℕ} {row part : List (List α)} (at_ : rows[k]? = some row)
      (after : (d.table (rows.take k)).length < n)
      (before : n < (d.table (rows.take (k + 1))).length) (begins : Begins part row) :
      Broken d rows n (rows.take k ++ [part])

theorem Broken.cons {row : List (List α)} {rows found : List (List (List α))} {n : ℕ}
    (h : Broken d rows n found) :
    Broken d (row :: rows) ((d.row row).length + n) (row :: found) := by
  have hlength : ∀ k, (d.table ((row :: rows).take (k + 1))).length =
      (d.row row).length + (d.table (rows.take k)).length := by
    intro k
    rw [List.take_succ_cons, table_cons, List.length_append]
  cases h with
  | @between k hat => exact .between (k := k + 1) (by rw [hlength, hat])
  | @within k next part hat hafter hbefore hbegins =>
      refine .within (k := k + 1) hat ?_ ?_ hbegins
      · rw [hlength]
        omega
      · rw [hlength]
        omega

/-- No cell is found that is not the beginning of one. -/
theorem Broken.exists_prefix {rows found : List (List (List α))} {n : ℕ}
    (h : Broken d rows n found) {row : List (List α)} (hrow : row ∈ found) {start : List α}
    (hstart : start ∈ row) : ∃ row' ∈ rows, ∃ cell ∈ row', start <+: cell := by
  cases h with
  | between => exact ⟨row, List.mem_of_mem_take hrow, start, hstart, List.prefix_refl _⟩
  | within hat _ _ hbegins =>
      rcases List.mem_append.mp hrow with hrow | hrow
      · exact ⟨row, List.mem_of_mem_take hrow, start, hstart, List.prefix_refl _⟩
      · rw [List.mem_singleton.mp hrow] at hstart
        exact ⟨_, List.mem_of_getElem? hat, hbegins.exists_prefix hstart⟩

theorem finish_table_take {rows : List (List (List α))} (before : List (List (List α)))
    (hne : ∀ row ∈ rows, row ≠ []) {n : ℕ} (hn : n ≤ (d.table rows).length) : ∃ found, Broken d rows n found ∧
      ((⟨.first, [], [], before⟩ : Reader α).feedAll d ((d.table rows).take n)).finish d =
        before ++ found := by
  induction rows generalizing before n with
  | nil =>
      obtain rfl : n = 0 := Nat.le_zero.mp hn
      exact ⟨[], .between (k := 0) rfl, (List.append_nil _).symm⟩
  | cons row rest ih =>
      rw [table_cons, List.length_append] at hn
      rw [table_cons]
      rcases lt_or_ge n (d.row row).length with hpart | hwhole
      · rw [List.take_append_of_le_length hpart.le]
        rcases eq_or_ne n 0 with rfl | hzero
        · exact ⟨[], .between (k := 0) rfl, (List.append_nil _).symm⟩
        · obtain ⟨hrows, hbegins, hbetween⟩ := Reader.feedAll_row_take before
            (hne row List.mem_cons_self) hpart rfl
          obtain ⟨part, hsofar, hfinish⟩ := Reader.finish_of_not_between (d := d) (hbetween hzero)
          refine ⟨[part], .within (k := 0) rfl (Nat.pos_of_ne_zero hzero) ?_
            (hsofar.trans hbegins), by rw [hfinish, hrows]⟩
          simpa [Dialect.table] using hpart
      · obtain ⟨m, rfl⟩ := Nat.exists_eq_add_of_le hwhole
        have hrow := Reader.feedAll_row (d := d) (r := ⟨.first, [], [], before⟩) ⟨rfl, rfl⟩
          (hne row List.mem_cons_self)
        obtain ⟨found, hfound, hfinish⟩ := ih (before ++ [row]) (n := m)
          (fun next h ↦ hne next (List.mem_cons_of_mem _ h)) (by omega)
        refine ⟨row :: found, hfound.cons, ?_⟩
        rw [List.take_length_add_append, Reader.feedAll_append, hrow]
        simpa using hfinish

/-- A reader of a table that breaks off has all rows that are complete, and no more than the
beginning of the next one. -/
theorem read_table_take {rows : List (List (List α))} (hne : ∀ row ∈ rows, row ≠ []) {n : ℕ}
    (hn : n ≤ (d.table rows).length) : Broken d rows n (read d ((d.table rows).take n)) := by
  obtain ⟨found, hfound, hfinish⟩ := finish_table_take [] hne hn
  rw [read, Reader.start, hfinish]
  exact hfound

theorem feedAll_table {rows before : List (List (List α))} (hne : ∀ row ∈ rows, row ≠ []) :
    (⟨.first, [], [], before⟩ : Reader α).feedAll d (d.table rows) =
      ⟨.first, [], [], before ++ rows⟩ := by
  induction rows generalizing before with
  | nil => rw [List.append_nil]; rfl
  | cons row rest ih =>
      rw [table_cons, Reader.feedAll_append,
        Reader.feedAll_row ⟨rfl, rfl⟩ (hne row List.mem_cons_self),
        ih fun next h ↦ hne next (List.mem_cons_of_mem _ h)]
      simp

/-- Reading a table gives its rows. -/
theorem read_table {rows : List (List (List α))} (hne : ∀ row ∈ rows, row ≠ []) :
    read d (d.table rows) = rows := by
  rw [read, Reader.start, feedAll_table hne, List.nil_append]
  exact if_pos ⟨rfl, rfl⟩

end Delimited
