import Mathlib.Data.List.Infix
import Mathlib.Tactic.Common

/-!
# Event streams

The format `text/event-stream`: a text is read line by line, a line is a comment or a field,
and a blank line ends an event.  A line ends with a line feed, a carriage return or both.
A reader sees the text character by character, so what it has dispatched does not depend on
the pieces in which the text arrives.
-/

namespace EventStream

/-- A dispatched event. -/
structure Message where
  type : List Char
  data : List Char
  lastEventID : List Char
  deriving DecidableEq, Repr

/-- A reader between two characters.  `afterReturn` is set where the last character was a
carriage return. -/
structure Reader where
  line : List Char
  afterReturn : Bool
  type : List Char
  data : List Char
  lastEventID : List Char
  reconnection : Option (List Char)
  messages : List Message
  deriving DecidableEq, Repr

def Reader.start : Reader := ⟨[], false, [], [], [], none, []⟩

/-- A field name and its value, without the blank after the colon. -/
def fieldOf (line : List Char) : List Char × List Char :=
  let value := (line.dropWhile (· ≠ ':')).tail
  (line.takeWhile (· ≠ ':'), if value.head? = some ' ' then value.tail else value)

namespace Reader

def field (r : Reader) (name value : List Char) : Reader :=
  if name = "event".toList then { r with type := value }
  else if name = "data".toList then { r with data := r.data ++ value ++ ['\n'] }
  else if name = "id".toList then
    if '\x00' ∈ value then r else { r with lastEventID := value }
  else if name = "retry".toList then
    if value.all Char.isDigit ∧ value ≠ [] then { r with reconnection := some value } else r
  else r

/-- What a blank line does. -/
def dispatch (r : Reader) : Reader :=
  if r.data = [] then { r with type := [] }
  else
    { r with
      type := []
      data := []
      messages := r.messages ++
        [⟨if r.type = [] then "message".toList else r.type, r.data.dropLast, r.lastEventID⟩] }

/-- What a complete line does; a line that begins with a colon is a comment. -/
def interpret (r : Reader) (line : List Char) : Reader :=
  if line = [] then r.dispatch
  else if line.head? = some ':' then r
  else r.field (fieldOf line).1 (fieldOf line).2

def endLine (r : Reader) (afterReturn : Bool) : Reader :=
  { r.interpret r.line with line := [], afterReturn := afterReturn }

def feed (r : Reader) (c : Char) : Reader :=
  if c = '\n' then
    if r.afterReturn then { r with afterReturn := false } else r.endLine false
  else if c = '\r' then r.endLine true
  else { r with line := r.line ++ [c], afterReturn := false }

def feedAll (r : Reader) (text : List Char) : Reader := text.foldl feed r

@[simp] theorem feedAll_nil (r : Reader) : r.feedAll [] = r := rfl

@[simp] theorem feedAll_cons (r : Reader) (c : Char) (text : List Char) :
    r.feedAll (c :: text) = (r.feed c).feedAll text := rfl

theorem feedAll_append (r : Reader) (first second : List Char) :
    r.feedAll (first ++ second) = (r.feedAll first).feedAll second :=
  List.foldl_append

/-- At the beginning of a line. -/
structure Fresh (r : Reader) : Prop where
  line : r.line = []
  afterReturn : r.afterReturn = false

end Reader

/-- The events of a text, whose first character may be a byte order mark. -/
def read (text : List Char) : List Message :=
  (Reader.start.feedAll
    (if text.head? = some '\uFEFF' then text.tail else text)).messages

/-! ## Lines -/

/-- A text without line breaks. -/
def OneLine (line : List Char) : Prop := '\n' ∉ line ∧ '\r' ∉ line

instance decidableOneLine (line : List Char) : Decidable (OneLine line) :=
  inferInstanceAs (Decidable (_ ∧ _))

theorem OneLine.append {first second : List Char} (h : OneLine first) (h' : OneLine second) :
    OneLine (first ++ second) :=
  ⟨by simp [h.1, h'.1], by simp [h.2, h'.2]⟩

theorem OneLine.of_prefix {first line : List Char} (h : OneLine line) (hle : first <+: line) :
    OneLine first :=
  ⟨fun hmem ↦ h.1 (hle.subset hmem), fun hmem ↦ h.2 (hle.subset hmem)⟩

namespace Reader

theorem fresh_interpret {r : Reader} (hr : r.Fresh) (line : List Char) :
    (r.interpret line).Fresh := by
  obtain ⟨hl, ha⟩ := hr
  unfold interpret dispatch field
  repeat' split
  all_goals exact ⟨hl, ha⟩

/-- A line does not read the beginning of the next one. -/
theorem interpret_with (r : Reader) (text line : List Char) :
    ({ r with line := text } : Reader).interpret line =
      { r.interpret line with line := text } := by
  unfold interpret dispatch field
  repeat' split
  all_goals rfl

theorem messages_interpret (r : Reader) {line : List Char} (hne : line ≠ []) :
    (r.interpret line).messages = r.messages := by
  unfold interpret field
  rw [if_neg hne]
  repeat' split
  all_goals rfl

variable {r : Reader} {line : List Char}

theorem feedAll_oneLine (hr : r.afterReturn = false) (hline : OneLine line) :
    r.feedAll line = { r with line := r.line ++ line } := by
  induction line generalizing r with
  | nil => simp
  | cons c rest ih =>
      obtain ⟨hn, hr'⟩ := hline
      rw [List.mem_cons, not_or] at hn hr'
      have hc : r.feed c = { r with line := r.line ++ [c] } := by
        simp [feed, Ne.symm hn.1, Ne.symm hr'.1, hr]
      rw [feedAll_cons, hc, ih (by exact hr) ⟨hn.2, hr'.2⟩]
      simp

/-- A complete line is interpreted, and the next one begins. -/
theorem feedAll_line (hr : r.Fresh) (hline : OneLine line) :
    r.feedAll (line ++ ['\n']) = r.interpret line := by
  have hopen := feedAll_oneLine hr.afterReturn hline
  rw [hr.line, List.nil_append] at hopen
  have hfeed : ({ r with line := line } : Reader).feed '\n' =
      ({ r with line := line } : Reader).endLine false := by
    simp [feed, hr.afterReturn]
  obtain ⟨hl, ha⟩ := fresh_interpret hr line
  rw [feedAll_append, hopen, feedAll_cons, feedAll_nil, hfeed, endLine, interpret_with]
  cases hcase : r.interpret line
  rw [hcase] at hl ha
  simp_all

/-! ## Blocks of lines -/

/-- Lines that do not end an event. -/
def block (lines : List (List Char)) : List Char := lines.flatMap (· ++ ['\n'])

/-- Lines that can stand in a block. -/
def Inner (lines : List (List Char)) : Prop := ∀ line ∈ lines, line ≠ [] ∧ OneLine line

theorem fresh_foldl (hr : r.Fresh) (lines : List (List Char)) :
    (lines.foldl interpret r).Fresh := by
  induction lines generalizing r with
  | nil => exact hr
  | cons line lines ih => exact ih (fresh_interpret hr line)

theorem feedAll_block {lines : List (List Char)} (hr : r.Fresh) (hlines : Inner lines) :
    r.feedAll (block lines) = lines.foldl interpret r := by
  induction lines generalizing r with
  | nil => rfl
  | cons line lines ih =>
      have hrest : Inner lines := fun other h ↦ hlines other (List.mem_cons_of_mem line h)
      have hline := (hlines line List.mem_cons_self).2
      rw [block, List.flatMap_cons, feedAll_append, feedAll_line hr hline, List.foldl_cons]
      exact ih (fresh_interpret hr line) hrest

/-- Where the lines of a block dispatch nothing, no part of the block does.  `I` is what the
reader keeps from line to line. -/
theorem messages_of_prefix {I : Reader → Prop} {L : List Char → Prop}
    (hline : ∀ r line, I r → L line →
      I (r.interpret line) ∧ (r.interpret line).messages = r.messages)
    {lines : List (List Char)} {text : List Char} (hr : r.Fresh) (hI : I r)
    (hlines : ∀ line ∈ lines, L line ∧ OneLine line) (htext : text <+: block lines) :
    (r.feedAll text).messages = r.messages := by
  induction lines generalizing r text with
  | nil =>
      obtain rfl : text = [] := List.prefix_nil.mp htext
      rfl
  | cons line lines ih =>
      obtain ⟨hL, hone⟩ := hlines line List.mem_cons_self
      have hsplit : block (line :: lines) = line ++ '\n' :: block lines := by simp [block]
      rw [hsplit] at htext
      rcases List.prefix_or_prefix_of_prefix htext (List.prefix_append _ _) with
        hin | ⟨beyond, rfl⟩
      · rw [feedAll_oneLine hr.afterReturn (hone.of_prefix hin)]
      · have hbeyond := (List.prefix_append_right_inj line).mp htext
        rcases List.prefix_cons_iff.mp hbeyond with rfl | ⟨after, rfl, hafter⟩
        · rw [List.append_nil, feedAll_oneLine hr.afterReturn hone]
        · have hjoin : line ++ '\n' :: after = (line ++ ['\n']) ++ after := by simp
          obtain ⟨hI', hsame⟩ := hline r line hI hL
          rw [hjoin, feedAll_append, feedAll_line hr hone, ← hsame]
          exact ih (fresh_interpret hr line) hI'
            (fun other h ↦ hlines other (List.mem_cons_of_mem line h)) hafter

/-! ## Lines without data -/

/-- A line that adds nothing to the data of an event. -/
structure Quiet (line : List Char) : Prop where
  oneLine : OneLine line
  name : (fieldOf line).1 ≠ "data".toList

theorem quiet_comment {text : List Char} (h : OneLine text) : Quiet (':' :: text) where
  oneLine := by
    have hcolon : OneLine [':'] := ⟨by decide, by decide⟩
    exact hcolon.append h
  name := by simp [fieldOf]

theorem data_interpret {r : Reader} {line : List Char} (hdata : r.data = [])
    (hline : (fieldOf line).1 ≠ "data".toList) :
    (r.interpret line).data = [] ∧ (r.interpret line).messages = r.messages := by
  unfold interpret dispatch field
  rw [if_neg hline, if_pos hdata]
  repeat' split
  all_goals exact ⟨hdata, rfl⟩

theorem messages_of_quiet {lines : List (List Char)} {text : List Char} (hr : r.Fresh)
    (hdata : r.data = []) (hlines : ∀ line ∈ lines, Quiet line) (htext : text <+: block lines) :
    (r.feedAll text).messages = r.messages :=
  messages_of_prefix (I := fun r ↦ r.data = []) (L := fun line ↦ (fieldOf line).1 ≠ "data".toList)
    (fun _ _ ↦ data_interpret) hr hdata
    (fun line h ↦ ⟨(hlines line h).name, (hlines line h).oneLine⟩) htext

/-- A line written after a part of a block ends the block early. -/
theorem block_cut {lines : List (List Char)} {line text : List Char}
    (hlines : ∀ other ∈ lines, Quiet other ∧ ∀ part, part <+: other → Quiet (part ++ line))
    (hline : Quiet line) (htext : text <+: block lines) :
    ∃ cut, (∀ other ∈ cut, Quiet other) ∧ text ++ line ++ ['\n'] = block cut := by
  induction lines generalizing text with
  | nil =>
      obtain rfl : text = [] := List.prefix_nil.mp htext
      exact ⟨[line], by simpa using hline, by simp [block]⟩
  | cons first lines ih =>
      obtain ⟨hfirst, hpart⟩ := hlines first List.mem_cons_self
      have hsplit : block (first :: lines) = first ++ '\n' :: block lines := by simp [block]
      rw [hsplit] at htext
      have hcut : ∀ part, part <+: first →
          ∃ cut, (∀ other ∈ cut, Quiet other) ∧ part ++ line ++ ['\n'] = block cut :=
        fun part h ↦ ⟨[part ++ line], by simpa using hpart part h, by simp [block]⟩
      rcases List.prefix_or_prefix_of_prefix htext (List.prefix_append _ _) with
        hin | ⟨beyond, rfl⟩
      · exact hcut text hin
      · have hbeyond := (List.prefix_append_right_inj first).mp htext
        rcases List.prefix_cons_iff.mp hbeyond with rfl | ⟨after, rfl, hafter⟩
        · exact hcut _ (by rw [List.append_nil])
        · obtain ⟨cut, hquiet, hcut⟩ :=
            ih (fun other h ↦ hlines other (List.mem_cons_of_mem first h)) hafter
          refine ⟨first :: cut, fun other h ↦ ?_, ?_⟩
          · rcases List.mem_cons.mp h with rfl | h
            · exact hfirst
            · exact hquiet other h
          · rw [block, List.flatMap_cons, ← block, ← hcut]
            simp

end Reader

/-! ## Frames -/

/-- A part of a stream: a comment, or an event with its three fields. -/
inductive Frame where
  | comment (text : List Char)
  | event (id type data : List Char)
  deriving DecidableEq, Repr

namespace Frame

def lines : Frame → List (List Char)
  | comment text => [':' :: text]
  | event id type data =>
      ["id: ".toList ++ id, "event: ".toList ++ type, "data: ".toList ++ data]

def text (frame : Frame) : List Char := Reader.block frame.lines ++ ['\n']

/-- The texts in the frame have no line breaks, and the identifier has no null character. -/
def Clean : Frame → Prop
  | comment text => OneLine text
  | event id type data => OneLine id ∧ OneLine type ∧ OneLine data ∧ '\x00' ∉ id

/-- What a reader is to dispatch for the frame. -/
def message? : Frame → Option Message
  | comment _ => none
  | event id type data => some ⟨if type = [] then "message".toList else type, data, id⟩

theorem Clean.inner {frame : Frame} (h : frame.Clean) : Reader.Inner frame.lines := by
  have hid : OneLine "id: ".toList := ⟨by decide, by decide⟩
  have htype : OneLine "event: ".toList := ⟨by decide, by decide⟩
  have hdata : OneLine "data: ".toList := ⟨by decide, by decide⟩
  intro line hline
  cases frame with
  | comment text =>
      obtain rfl := List.mem_singleton.mp hline
      have hcolon : OneLine [':'] := ⟨by decide, by decide⟩
      exact ⟨List.cons_ne_nil _ _, hcolon.append h⟩
  | event id type data =>
      simp only [lines, List.mem_cons, List.not_mem_nil, or_false] at hline
      rcases hline with rfl | rfl | rfl
      · exact ⟨by simp, hid.append h.1⟩
      · exact ⟨by simp, htype.append h.2.1⟩
      · exact ⟨by simp, hdata.append h.2.2.1⟩

end Frame

namespace Reader

/-- Between two events. -/
structure Idle (r : Reader) : Prop extends r.Fresh where
  type : r.type = []
  data : r.data = []

theorem idle_start : start.Idle := ⟨⟨rfl, rfl⟩, rfl, rfl⟩

theorem fieldOf_append {name : List Char} (hname : ':' ∉ name) (value : List Char) :
    fieldOf (name ++ ':' :: ' ' :: value) = (name, value) := by
  have hall : ∀ c ∈ name, decide (c ≠ ':') = true := fun c hc ↦
    decide_eq_true fun h ↦ hname (h ▸ hc)
  have hdrop : (name ++ ':' :: ' ' :: value).dropWhile (· ≠ ':') = ':' :: ' ' :: value := by
    rw [List.dropWhile_append_of_pos hall]
    rfl
  have htake : (name ++ ':' :: ' ' :: value).takeWhile (· ≠ ':') = name := by
    rw [List.takeWhile_append_of_pos hall]
    exact List.append_nil name
  rw [fieldOf, hdrop, htake]
  rfl

theorem interpret_field (r : Reader) (name value : List Char) (hne : name ≠ [])
    (hname : ':' ∉ name) :
    r.interpret (name ++ ':' :: ' ' :: value) = r.field name value := by
  rw [interpret, fieldOf_append hname, if_neg (by simp), if_neg]
  cases name with
  | nil => exact absurd rfl hne
  | cons c rest =>
      intro hhead
      exact hname (Option.some.inj hhead ▸ List.mem_cons_self)

theorem interpret_id (r : Reader) {value : List Char} (hvalue : '\x00' ∉ value) :
    r.interpret ("id: ".toList ++ value) = { r with lastEventID := value } := by
  have hline := interpret_field r "id".toList value (by decide) (by decide)
  simpa [field, hvalue] using hline

theorem interpret_event (r : Reader) (value : List Char) :
    r.interpret ("event: ".toList ++ value) = { r with type := value } := by
  have hline := interpret_field r "event".toList value (by decide) (by decide)
  simpa [field] using hline

theorem interpret_data (r : Reader) (value : List Char) :
    r.interpret ("data: ".toList ++ value) = { r with data := r.data ++ value ++ ['\n'] } := by
  have hline := interpret_field r "data".toList value (by decide) (by decide)
  simpa [field] using hline

/-- A whole frame is dispatched as its message, and a comment is passed over. -/
theorem feedAll_frame {r : Reader} (hr : r.Idle) {frame : Frame} (hclean : frame.Clean) :
    (r.feedAll frame.text).Idle ∧
      (r.feedAll frame.text).messages = r.messages ++ frame.message?.toList := by
  have hfresh := fresh_foldl hr.toFresh frame.lines
  have hblank : r.feedAll frame.text = (frame.lines.foldl interpret r).dispatch := by
    rw [Frame.text, feedAll_append, feedAll_block hr.toFresh hclean.inner]
    exact feedAll_line hfresh ⟨List.not_mem_nil, List.not_mem_nil⟩
  obtain ⟨⟨hline, hreturn⟩, htype, hdata⟩ := hr
  rw [hblank]
  cases frame with
  | comment text =>
      have hsame : [':' :: text].foldl interpret r = r := by simp [interpret]
      simp only [Frame.lines, hsame, dispatch, if_pos hdata]
      exact ⟨⟨⟨hline, hreturn⟩, rfl, hdata⟩, (List.append_nil _).symm⟩
  | event id type data =>
      have hfields : (Frame.event id type data).lines.foldl interpret r =
          { r with lastEventID := id, type := type, data := data ++ ['\n'] } := by
        simp only [Frame.lines, List.foldl_cons, List.foldl_nil]
        rw [interpret_id r hclean.2.2.2, interpret_event, interpret_data]
        simp [hdata]
      rw [hfields, dispatch, if_neg (by simp)]
      refine ⟨⟨⟨hline, hreturn⟩, rfl, rfl⟩, ?_⟩
      simp only [Frame.message?, Option.toList_some, List.dropLast_concat]

/-- A frame that has not arrived to its end dispatches nothing. -/
theorem messages_of_part {r : Reader} (hr : r.Idle) {frame : Frame} (hclean : frame.Clean)
    {n : ℕ} (hn : n < frame.text.length) :
    (r.feedAll (frame.text.take n)).messages = r.messages := by
  refine messages_of_prefix (I := fun _ ↦ True) (L := fun line ↦ line ≠ [])
    (fun r _ _ hne ↦ ⟨trivial, messages_interpret r hne⟩) hr.toFresh trivial hclean.inner ?_
  have hlength : frame.text.length = (block frame.lines).length + 1 := by simp [Frame.text]
  rw [Frame.text, List.take_append_of_le_length (by omega)]
  exact List.take_prefix n _

end Reader

/-! ## Streams -/

/-- The frames that have arrived to their end in the first `n` characters. -/
def arrived : List Frame → ℕ → List Frame
  | [], _ => []
  | frame :: rest, n =>
      if frame.text.length ≤ n then frame :: arrived rest (n - frame.text.length) else []

theorem arrived_isPrefix (frames : List Frame) (n : ℕ) : arrived frames n <+: frames := by
  induction frames generalizing n with
  | nil => exact List.prefix_refl _
  | cons frame rest ih =>
      rw [arrived]
      split
      · exact (List.prefix_cons_inj frame).mpr (ih _)
      · exact List.nil_prefix

theorem arrived_of_le {frames : List Frame} {n : ℕ}
    (hn : (frames.flatMap Frame.text).length ≤ n) : arrived frames n = frames := by
  induction frames generalizing n with
  | nil => rfl
  | cons frame rest ih =>
      rw [List.flatMap_cons, List.length_append] at hn
      rw [arrived, if_pos (by omega), ih (by omega)]

theorem messages_stream {r : Reader} (hr : r.Idle) {frames : List Frame}
    (hclean : ∀ frame ∈ frames, frame.Clean) (n : ℕ) :
    (r.feedAll ((frames.flatMap Frame.text).take n)).messages =
      r.messages ++ (arrived frames n).filterMap Frame.message? := by
  induction frames generalizing r n with
  | nil => simp [arrived]
  | cons frame rest ih =>
      have hframe := hclean frame List.mem_cons_self
      have hrest : ∀ other ∈ rest, other.Clean := fun other h ↦
        hclean other (List.mem_cons_of_mem frame h)
      rw [List.flatMap_cons, arrived]
      split
      · rename_i hfits
        obtain ⟨hidle, hmessages⟩ := Reader.feedAll_frame hr hframe
        rw [List.take_append, List.take_of_length_le hfits, Reader.feedAll_append,
          ih hidle hrest, hmessages, List.append_assoc]
        cases hmessage : frame.message? <;> simp [hmessage]
      · rename_i hfits
        rw [List.take_append_of_le_length (by omega),
          Reader.messages_of_part hr hframe (by omega), List.filterMap_nil, List.append_nil]

/-- However much of a stream has arrived, a reader has dispatched the events that have
arrived to their end, each once and in their order. -/
theorem read_stream {frames : List Frame} (hclean : ∀ frame ∈ frames, frame.Clean) (n : ℕ) :
    read ((frames.flatMap Frame.text).take n) = (arrived frames n).filterMap Frame.message? := by
  have hmark : ((frames.flatMap Frame.text).take n).head? ≠ some '\uFEFF' := by
    cases frames with
    | nil => simp
    | cons frame rest =>
        cases frame <;> simp [Frame.text, Frame.lines, Reader.block, List.head?_take]
  rw [read, if_neg hmark, messages_stream Reader.idle_start hclean]
  rfl

/-- A stream that is cut in its first comment and goes on with another line is empty. -/
theorem read_cut {comment line : List Char} (hcomment : OneLine comment)
    (hline : Reader.Quiet line) (hmark : line.head? ≠ some '\uFEFF') (n m : ℕ) :
    read (((Frame.comment comment).text.take n ++ line ++ ['\n']).take m) = [] := by
  have hhead : (((Frame.comment comment).text.take n ++ line ++ ['\n']).take m).head? ≠
      some '\uFEFF' := by
    rw [List.head?_take]
    cases n with
    | zero => cases line <;> simp_all
    | succ n => simp [Frame.text, Frame.lines, Reader.block]
  have hblock : (Frame.comment comment).text = Reader.block [':' :: comment, []] := by
    simp [Frame.text, Frame.lines, Reader.block]
  have hpart : ∀ part, part <+: ':' :: comment → Reader.Quiet (part ++ line) := by
    intro part h
    rcases List.prefix_cons_iff.mp h with rfl | ⟨rest, rfl, hrest⟩
    · exact hline
    · exact Reader.quiet_comment ((hcomment.of_prefix hrest).append hline.oneLine)
  have hempty : Reader.Quiet [] := ⟨⟨List.not_mem_nil, List.not_mem_nil⟩, by simp [fieldOf]⟩
  have hlines : ∀ other ∈ [':' :: comment, []],
      Reader.Quiet other ∧ ∀ part, part <+: other → Reader.Quiet (part ++ line) := by
    intro other h
    rcases List.mem_cons.mp h with rfl | h
    · exact ⟨Reader.quiet_comment hcomment, hpart⟩
    · obtain rfl := List.mem_singleton.mp h
      refine ⟨hempty, fun part hle ↦ ?_⟩
      obtain rfl := List.prefix_nil.mp hle
      exact hline
  have htext : (Frame.comment comment).text.take n <+: Reader.block [':' :: comment, []] :=
    hblock ▸ List.take_prefix n _
  obtain ⟨cut, hquiet, hcut⟩ := Reader.block_cut hlines hline htext
  rw [read, if_neg hhead, hcut]
  exact Reader.messages_of_quiet Reader.idle_start.toFresh rfl hquiet (List.take_prefix m _)

end EventStream
