import MultiSpeed.Database.Listing
import MultiSpeed.Providers.Cloudflare

/-!
# The traffic of a Cloudflare run

The samples of `internal/providers/cloudflare` as what an exchange with the edge gives, and
the bounds that a run keeps whatever the edge answers: the sizes that it asks for, and the
samples that it gets.
-/

namespace MultiSpeed.Providers.Cloudflare

open Concurrent Database Execution

/-! ## Samples -/

/-- What becomes of a request: the error of `client.Do`, the clock, the bytes that the body
has, the errors of reading and closing it, the status and the headers. -/
structure Exchange where
  error : Option Text
  started : Time
  firstByte : Option Time
  finished : Time
  available : ℕ
  readError : Option Text
  closeError : Option Text
  statusCode : ℤ
  serverDuration : ℤ
  colo : String

def Exchange.successful (x : Exchange) : Bool := 200 ≤ x.statusCode && x.statusCode < 300

def httpError (endpoint : String) (x : Exchange) : Text :=
  utf8 (endpoint ++ " endpoint returned HTTP " ++ toString x.statusCode)

/-- `duration.Seconds()`. -/
def seconds (round : ℚ → ℚ) (duration : ℤ) : ℚ :=
  round (round (duration.tdiv 1000000000) + round (round (duration.tmod 1000000000) / 1000000000))

def bitsPerSecond (round : ℚ → ℚ) (count duration : ℤ) : ℚ :=
  round (round (count * 8) / seconds round duration)

def latency (round : ℚ → ℚ) (x : Exchange) : Except Text (ℚ × String) :=
  match x.error with
  | some message => .error message
  | none =>
      match x.readError.or x.closeError with
      | some message => .error message
      | none =>
          if !x.successful then .error (httpError "latency" x)
          else
            match x.firstByte with
            | none => .error (utf8 "first response byte was not observed")
            | some firstByte =>
                let duration := int64 (int64 (firstByte - x.started) - x.serverDuration)
                if duration ≤ 0 then .error (utf8 "invalid latency duration")
                else .ok (round (round duration / 1000000), x.colo)

/-- The body is read up to one byte more than was asked for. -/
def download (round : ℚ → ℚ) (x : Exchange) (size : ℤ) : Except Text (ℚ × ℤ × String) :=
  match x.error with
  | some message => .error message
  | none =>
      let count : ℤ := min x.available (size + 1)
      match x.readError.or x.closeError with
      | some message => .error message
      | none =>
          if !x.successful then .error (httpError "download" x)
          else if count ≠ size then
            .error (utf8 ("expected " ++ toString size ++ " bytes, received " ++ toString count))
          else
            let duration := int64 (int64 (x.finished - x.started) - x.serverDuration)
            if x.firstByte = none ∨ duration < 10000000 then .ok (0, count, x.colo)
            else .ok (bitsPerSecond round count duration, count, x.colo)

def upload (round : ℚ → ℚ) (x : Exchange) (size : ℤ) : Except Text (ℚ × String) :=
  match x.error with
  | some message => .error message
  | none =>
      match x.readError.or x.closeError with
      | some message => .error message
      | none =>
          if !x.successful then .error (httpError "upload" x)
          else
            match x.firstByte with
            | none => .error (utf8 "first response byte was not observed")
            | some firstByte =>
                let duration := int64 (firstByte - x.started)
                if duration < 10000000 then .ok (0, x.colo)
                else .ok (bitsPerSecond round size duration, x.colo)

/-- The answer is what the sample makes of an exchange. -/
def Sampled (round : ℚ → ℚ) : Sigma Call.Answer → Prop
  | ⟨.latency, answer⟩ => ∃ x, answer = latency round x
  | ⟨.download size, answer⟩ => ∃ x, answer = download round x size
  | ⟨.upload size, answer⟩ => ∃ x, answer = upload round x size
  | _ => True

theorem count_of_download {round : ℚ → ℚ} {x : Exchange} {size count : ℤ} {bps : ℚ}
    {colo : String} (h : download round x size = .ok (bps, count, colo)) : count = size := by
  unfold download at h
  split at h
  · cases h
  · dsimp only at h
    split at h
    · cases h
    · split at h
      · cases h
      · split at h
        · cases h
        · rename_i hcount
          have hcount := not_not.mp hcount
          split at h
          · obtain ⟨-, rfl, -⟩ := Prod.mk.inj (Except.ok.inj h) |>.imp id Prod.mk.inj
            exact hcount
          · obtain ⟨-, rfl, -⟩ := Prod.mk.inj (Except.ok.inj h) |>.imp id Prod.mk.inj
            exact hcount

/-! ## Sizes -/

def downloadSizes (trace : List (Sigma Call.Answer)) : List ℤ :=
  trace.filterMap fun
    | ⟨.download size, _⟩ => some size
    | _ => none

def uploadSizes (trace : List (Sigma Call.Answer)) : List ℤ :=
  trace.filterMap fun
    | ⟨.upload size, _⟩ => some size
    | _ => none

/-- The sizes that fit into a half of the cap, as long as each of them does. -/
def planned (half : ℤ) : ℤ → List ℤ → List ℤ
  | _, [] => []
  | used, size :: rest =>
      if half < used + size then [] else size :: planned half (used + size) rest

/-- A call that fails. -/
def Failed : Sigma Call.Answer → Prop
  | ⟨.contextError, answer⟩ => answer ≠ none
  | ⟨.newDialer _, answer⟩ => ∃ message, answer = .error message
  | ⟨.trace, answer⟩ => ∃ message, answer = .error message
  | ⟨.latency, answer⟩ => ∃ message, answer = .error message
  | ⟨.download _, answer⟩ => ∃ message, answer = .error message
  | ⟨.upload _, answer⟩ => ∃ message, answer = .error message
  | ⟨.now, _⟩ => False

theorem planned_begins (half : ℤ) (sizes : List ℤ) (used : ℤ) :
    planned half used sizes <+: sizes := by
  induction sizes generalizing used with
  | nil => exact List.prefix_refl _
  | cons size rest ih =>
      rw [planned]
      split
      · exact List.nil_prefix
      · exact (List.prefix_cons_inj size).mpr (ih _)

/-! ## The loops -/

variable {round : ℚ → ℚ}

/-- What a loop over the sizes has done; `asked` are the sizes of its trace. -/
structure Loop (m : Measurement) (trace : List (Sigma Call.Answer)) (asked plan : List ℤ)
    (answer : Except Text Measurement) (bytes : Measurement → ℤ) : Prop where
  within : asked <+: plan
  complete : ∀ m', answer = .ok m' → asked = plan ∧ bytes m' = bytes m + plan.sum ∧
    m'.payloadCapBytes = m.payloadCapBytes
  ends : (∀ e ∈ trace, ¬Failed e) → ∃ m', answer = .ok m'

theorem loop_nil {m : Measurement} (bytes : Measurement → ℤ) {plan : List ℤ} (hplan : plan = []) :
    Loop m [] [] plan (.ok m) bytes := by
  subst hplan
  exact ⟨List.prefix_refl _, fun m' h ↦ by obtain rfl := Except.ok.inj h; simp, fun _ ↦ ⟨m, rfl⟩⟩

theorem loop_failed {m : Measurement} {trace : List (Sigma Call.Answer)} {asked plan : List ℤ}
    {message : Text} {bytes : Measurement → ℤ} (hwithin : asked <+: plan)
    (hfailed : ∃ e ∈ trace, Failed e) : Loop m trace asked plan (.error message) bytes :=
  ⟨hwithin, (fun _ h ↦ by cases h), fun hcalm ↦
    let ⟨e, he, h⟩ := hfailed
    absurd h (hcalm e he)⟩

/-- One size more. -/
theorem Loop.cons {m next : Measurement} {trace : List (Sigma Call.Answer)} {asked plan : List ℤ}
    {answer : Except Text Measurement} {bytes : Measurement → ℤ} {size : ℤ}
    {first second : Sigma Call.Answer} (h : Loop next trace asked plan answer bytes)
    (hbytes : bytes next = bytes m + size) (hcap : next.payloadCapBytes = m.payloadCapBytes) :
    Loop m (first :: second :: trace) (size :: asked) (size :: plan) answer bytes where
  within := (List.prefix_cons_inj size).mpr h.within
  complete m' hm' := by
    obtain ⟨hasked, hsum, hkept⟩ := h.complete m' hm'
    refine ⟨by rw [hasked], ?_, hkept.trans hcap⟩
    rw [hsum, hbytes, List.sum_cons, add_assoc]
  ends hcalm := h.ends fun e he ↦ hcalm e (List.mem_cons_of_mem _ (List.mem_cons_of_mem _ he))

/-- One direction of the transfers: what a sample makes of the measurement, the bytes that
it counts and those that it leaves alone, and which calls are its own. -/
structure Direction (round : ℚ → ℚ) where
  call : ℤ → Call
  next (size : ℤ) : (call size).Answer → Measurement → Except Text Measurement
  bytes : Measurement → ℤ
  otherBytes : Measurement → ℤ
  size? : Sigma Call.Answer → Option ℤ
  otherSize? : Sigma Call.Answer → Option ℤ
  size?_call (size : ℤ) (answer : (call size).Answer) : size? ⟨call size, answer⟩ = some size
  otherSize?_call (size : ℤ) (answer : (call size).Answer) : otherSize? ⟨call size, answer⟩ = none
  size?_context (answer : Option Text) : size? ⟨.contextError, answer⟩ = none
  otherSize?_context (answer : Option Text) : otherSize? ⟨.contextError, answer⟩ = none
  failed {size : ℤ} {answer : (call size).Answer} {m : Measurement} {message : Text}
    (h : next size answer m = .error message) : Failed ⟨call size, answer⟩
  counted {size : ℤ} {answer : (call size).Answer} {m m' : Measurement}
    (hsampled : Sampled round ⟨call size, answer⟩) (h : next size answer m = .ok m') :
    bytes m' = bytes m + size ∧ otherBytes m' = otherBytes m ∧
      m'.payloadCapBytes = m.payloadCapBytes

namespace Direction

/-- The loop over the sizes. -/
def transfers (d : Direction round) : List ℤ → Measurement → Adapting (Except Text Measurement)
  | [], m => pure (.ok m)
  | size :: rest, m => do
      match ← ask .contextError with
      | some message => pure (.error message)
      | none =>
          if m.payloadCapBytes / 2 < d.bytes m + size then pure (.ok m)
          else
            let answer ← ask (d.call size)
            match d.next size answer m with
            | .error message => pure (.error message)
            | .ok m => d.transfers rest m

theorem transfers_loop (d : Direction round) {sizes : List ℤ} {m : Measurement}
    {trace : List (Sigma Call.Answer)} {answer : Except Text Measurement}
    (hruns : (d.transfers sizes m).Runs trace answer) (hsampled : ∀ e ∈ trace, Sampled round e) :
    Loop m trace (trace.filterMap d.size?) (planned (m.payloadCapBytes / 2) (d.bytes m) sizes)
      answer d.bytes ∧ trace.filterMap d.otherSize? = [] ∧
        ∀ m', answer = .ok m' → d.otherBytes m' = d.otherBytes m := by
  induction sizes generalizing m trace with
  | nil =>
      obtain ⟨rfl, rfl⟩ := Program.Runs.done_iff.mp hruns
      exact ⟨loop_nil _ rfl, rfl, fun m' h ↦ by rw [Except.ok.inj h]⟩
  | cons size rest ih =>
      obtain ⟨cancelled, front, rfl, hbody⟩ := Program.Runs.perform_iff.mp hruns
      clear hruns
      rw [List.filterMap_cons_none (d.size?_context cancelled),
        List.filterMap_cons_none (d.otherSize?_context cancelled)]
      rcases cancelled with _ | message
      · change (ite _ _ _ : Adapting _).Runs _ _ at hbody
        split at hbody
        · rename_i hfull
          obtain ⟨rfl, rfl⟩ := Program.Runs.done_iff.mp hbody
          have hnil : planned (m.payloadCapBytes / 2) (d.bytes m) (size :: rest) = [] := by
            rw [planned, if_pos hfull]
          have hloop := loop_nil (m := m) d.bytes hnil
          exact ⟨⟨hloop.within, hloop.complete, fun _ ↦ ⟨m, rfl⟩⟩, rfl,
            fun m' h ↦ by rw [Except.ok.inj h]⟩
        · rename_i hfits
          have hplan : planned (m.payloadCapBytes / 2) (d.bytes m) (size :: rest) =
              size :: planned (m.payloadCapBytes / 2) (d.bytes m + size) rest := by
            rw [planned, if_neg hfits]
          obtain ⟨sample, back, rfl, hrest⟩ := Program.Runs.perform_iff.mp hbody
          clear hbody
          rw [hplan, List.filterMap_cons_some (d.size?_call size sample),
            List.filterMap_cons_none (d.otherSize?_call size sample)]
          cases hnext : d.next size sample m with
          | error message =>
              rw [hnext] at hrest
              obtain ⟨rfl, rfl⟩ := Program.Runs.done_iff.mp hrest
              refine ⟨loop_failed ((List.prefix_cons_inj size).mpr List.nil_prefix)
                ⟨⟨d.call size, sample⟩, by simp, d.failed hnext⟩, rfl, ?_⟩
              intro m' h
              cases h
          | ok next =>
              rw [hnext] at hrest
              obtain ⟨hbytes, hother, hcap⟩ := d.counted
                (hsampled ⟨d.call size, sample⟩ (by simp)) hnext
              obtain ⟨hloop, hnone, hkept⟩ := ih hrest fun e he ↦
                hsampled e (List.mem_cons_of_mem _ (List.mem_cons_of_mem _ he))
              rw [hbytes, hcap] at hloop
              exact ⟨hloop.cons hbytes hcap, hnone, fun m' h ↦ (hkept m' h).trans hother⟩
      · obtain ⟨rfl, rfl⟩ := Program.Runs.done_iff.mp hbody
        refine ⟨loop_failed List.nil_prefix ⟨_, List.mem_cons_self, Option.some_ne_none _⟩, rfl, ?_⟩
        intro m' h
        cases h

end Direction

def downward (round : ℚ → ℚ) : Direction round where
  call := .download
  next size answer m :=
    match answer with
    | .error message =>
        .error (utf8 ("cloudflare download sample (" ++ toString size ++ " bytes) failed: ") ++ message)
    | .ok (bps, count, observedColo) =>
        .ok (Measurement.observe { m with
          downloadBPS := if 0 < bps then m.downloadBPS ++ [bps] else m.downloadBPS
          downloadBytes := m.downloadBytes + count } observedColo)
  bytes := Measurement.downloadBytes
  otherBytes := Measurement.uploadBytes
  size?
    | ⟨.download size, _⟩ => some size
    | _ => none
  otherSize?
    | ⟨.upload size, _⟩ => some size
    | _ => none
  size?_call _ _ := rfl
  otherSize?_call _ _ := rfl
  size?_context _ := rfl
  otherSize?_context _ := rfl
  failed {_ answer _ _} h := by
    rcases answer with message | ⟨bps, count, observedColo⟩
    · exact ⟨message, rfl⟩
    · cases h
  counted {_ answer _ _} hsampled h := by
    rcases answer with message | ⟨bps, count, observedColo⟩
    · cases h
    · obtain ⟨x, hx⟩ := hsampled
      obtain rfl := count_of_download hx.symm
      obtain rfl := Except.ok.inj h
      exact ⟨rfl, rfl, rfl⟩

/-- An upload that succeeds counts as the size that was asked for, whatever the edge says. -/
def upward (round : ℚ → ℚ) : Direction round where
  call := .upload
  next size answer m :=
    match answer with
    | .error message =>
        .error (utf8 ("cloudflare upload sample (" ++ toString size ++ " bytes) failed: ") ++ message)
    | .ok (bps, observedColo) =>
        .ok (Measurement.observe { m with
          uploadBPS := if 0 < bps then m.uploadBPS ++ [bps] else m.uploadBPS
          uploadBytes := m.uploadBytes + size } observedColo)
  bytes := Measurement.uploadBytes
  otherBytes := Measurement.downloadBytes
  size?
    | ⟨.upload size, _⟩ => some size
    | _ => none
  otherSize?
    | ⟨.download size, _⟩ => some size
    | _ => none
  size?_call _ _ := rfl
  otherSize?_call _ _ := rfl
  size?_context _ := rfl
  otherSize?_context _ := rfl
  failed {_ answer _ _} h := by
    rcases answer with message | ⟨bps, observedColo⟩
    · exact ⟨message, rfl⟩
    · cases h
  counted {_ answer _ _} _ h := by
    rcases answer with message | ⟨bps, observedColo⟩
    · cases h
    · obtain rfl := Except.ok.inj h
      exact ⟨rfl, rfl, rfl⟩

theorem downloads_eq (round : ℚ → ℚ) (sizes : List ℤ) (m : Measurement) :
    downloads sizes m = (downward round).transfers sizes m := by
  induction sizes generalizing m with
  | nil => rfl
  | cons size rest ih =>
      refine congrArg (Program.call Call.contextError) (funext fun cancelled ↦ ?_)
      rcases cancelled with _ | message
      · refine ite_congr rfl (fun _ ↦ rfl) fun _ ↦ ?_
        refine congrArg (Program.call (Call.download size)) (funext fun sample ↦ ?_)
        rcases sample with message | ⟨bps, count, observedColo⟩
        · rfl
        · exact ih _
      · rfl

theorem uploads_eq (round : ℚ → ℚ) (sizes : List ℤ) (m : Measurement) :
    uploads sizes m = (upward round).transfers sizes m := by
  induction sizes generalizing m with
  | nil => rfl
  | cons size rest ih =>
      refine congrArg (Program.call Call.contextError) (funext fun cancelled ↦ ?_)
      rcases cancelled with _ | message
      · refine ite_congr rfl (fun _ ↦ rfl) fun _ ↦ ?_
        refine congrArg (Program.call (Call.upload size)) (funext fun sample ↦ ?_)
        rcases sample with message | ⟨bps, observedColo⟩
        · rfl
        · exact ih _
      · rfl

section

variable {sizes : List ℤ} {m : Measurement} {trace : List (Sigma Call.Answer)}
  {answer : Except Text Measurement}

theorem downloads_loop (hruns : (downloads sizes m).Runs trace answer)
    (hsampled : ∀ e ∈ trace, Sampled round e) :
    Loop m trace (downloadSizes trace) (planned (m.payloadCapBytes / 2) m.downloadBytes sizes)
      answer Measurement.downloadBytes ∧ uploadSizes trace = [] ∧
        ∀ m', answer = .ok m' → m'.uploadBytes = m.uploadBytes := by
  rw [downloads_eq round] at hruns
  exact (downward round).transfers_loop hruns hsampled

theorem uploads_loop (hruns : (uploads sizes m).Runs trace answer)
    (hsampled : ∀ e ∈ trace, Sampled round e) :
    Loop m trace (uploadSizes trace) (planned (m.payloadCapBytes / 2) m.uploadBytes sizes)
      answer Measurement.uploadBytes ∧ downloadSizes trace = [] ∧
        ∀ m', answer = .ok m' → m'.downloadBytes = m.downloadBytes := by
  rw [uploads_eq round] at hruns
  exact (upward round).transfers_loop hruns hsampled

end

/-! ## Runs -/

/-- The latency samples transfer nothing. -/
theorem latencies_loop {numbers : List ℕ} {m : Measurement} {trace : List (Sigma Call.Answer)}
    {answer : Except Text Measurement} (hruns : (latencies numbers m).Runs trace answer) :
    downloadSizes trace = [] ∧ uploadSizes trace = [] ∧
      (∀ m', answer = .ok m' → m'.downloadBytes = m.downloadBytes ∧
        m'.uploadBytes = m.uploadBytes ∧ m'.payloadCapBytes = m.payloadCapBytes) ∧
      ((∀ e ∈ trace, ¬Failed e) → ∃ m', answer = .ok m') := by
  induction numbers generalizing m trace with
  | nil =>
      obtain ⟨rfl, rfl⟩ := Program.Runs.done_iff.mp hruns
      refine ⟨rfl, rfl, fun m' h ↦ ?_, fun _ ↦ ⟨m, rfl⟩⟩
      obtain rfl := Except.ok.inj h
      exact ⟨rfl, rfl, rfl⟩
  | cons i rest ih =>
      obtain ⟨sample, back, rfl, hrest⟩ := Program.Runs.perform_iff.mp hruns
      clear hruns
      rcases sample with message | ⟨latency, observedColo⟩
      · obtain ⟨rfl, rfl⟩ := Program.Runs.done_iff.mp hrest
        refine ⟨rfl, rfl, (fun m' h ↦ by cases h), fun hcalm ↦ ?_⟩
        exact absurd ⟨message, rfl⟩ (hcalm _ List.mem_cons_self)
      · obtain ⟨hdownloads, huploads, hkept, hends⟩ := ih hrest
        exact ⟨hdownloads, huploads, hkept,
          fun hcalm ↦ hends fun e he ↦ hcalm e (List.mem_cons_of_mem _ he)⟩

theorem payloadCap_bounds (a : Adapter) (options : Option JsonObject) :
    4194304 ≤ payloadCap a options ∧ payloadCap a options ≤ 536870912 := by
  unfold payloadCap absolutePayloadCap
  dsimp only
  split_ifs <;> omega

/-- The first four sizes fit into the half of every cap. -/
theorem four_le_planned {half : ℤ} (h : 2097152 ≤ half) : 4 ≤ (planned half 0 ladders).length := by
  have h₁ : ¬half < 0 + 100000 := by omega
  have h₂ : ¬half < 0 + 100000 + 100000 := by omega
  have h₃ : ¬half < 0 + 100000 + 100000 + 100000 := by omega
  have h₄ : ¬half < 0 + 100000 + 100000 + 100000 + 1000000 := by omega
  rw [ladders, planned, if_neg h₁, planned, if_neg h₂, planned, if_neg h₃, planned, if_neg h₄]
  simp

theorem sum_of_prefix {half used : ℤ} (hused : used ≤ half) {sizes asked : List ℤ}
    (h : asked <+: planned half used sizes) : used + asked.sum ≤ half := by
  induction sizes generalizing used asked with
  | nil =>
      obtain rfl := List.prefix_nil.mp h
      simpa using hused
  | cons size rest ih =>
      rw [planned] at h
      split at h
      · obtain rfl := List.prefix_nil.mp h
        simpa using hused
      · rename_i hfits
        rcases List.prefix_cons_iff.mp h with rfl | ⟨asked, rfl, hrest⟩
        · simpa using hused
        · have hsum := ih (not_lt.mp hfits) hrest
          rw [List.sum_cons]
          omega

/-- What a run asks the edge for within a plan, and what it reports of it; `reached` says
that it has come to the edge. -/
structure Budget (plan : List ℤ) (reached : Prop) (trace : List (Sigma Call.Answer))
    (answer : RunAnswer) : Prop where
  downloads : downloadSizes trace <+: plan
  uploads : uploadSizes trace <+: plan
  complete : reached → (∀ e ∈ trace, ¬Failed e) →
    downloadSizes trace = plan ∧ uploadSizes trace = plan
  reported : answer.2 = none → downloadSizes trace = plan ∧ uploadSizes trace = plan ∧
    answer.1.downloadBytes = some plan.sum ∧ answer.1.uploadBytes = some plan.sum

section Budget

variable {plan : List ℤ} {reached : Prop} {trace : List (Sigma Call.Answer)} {message : Text}

theorem budget_nothing (h : ¬reached) : Budget plan reached [] (runFailed message) :=
  ⟨List.nil_prefix, List.nil_prefix, (fun hreached ↦ absurd hreached h), fun h ↦ by cases h⟩

/-- A run that stops where a call fails. -/
theorem budget_failed (hdownloads : downloadSizes trace <+: plan)
    (huploads : uploadSizes trace <+: plan) (hfailed : ¬∀ e ∈ trace, ¬Failed e) :
    Budget plan reached trace (runFailed message) :=
  ⟨hdownloads, huploads, (fun _ hcalm ↦ absurd hcalm hfailed), fun h ↦ by cases h⟩

theorem budget_summarize {a : Adapter} {m : Measurement} {duration : ℤ}
    (hdownloads : downloadSizes trace = plan) (huploads : uploadSizes trace = plan)
    (hdownloaded : m.downloadBytes = plan.sum) (huploaded : m.uploadBytes = plan.sum) :
    Budget plan reached trace (summarize a m duration) := by
  refine ⟨hdownloads ▸ List.prefix_refl _, huploads ▸ List.prefix_refl _,
    fun _ _ ↦ ⟨hdownloads, huploads⟩, fun h ↦ ⟨hdownloads, huploads, ?_⟩⟩
  unfold summarize at h ⊢
  split
  · rename_i hfew
    rw [if_pos hfew] at h
    cases h
  · exact ⟨congrArg some hdownloaded, congrArg some huploaded⟩

theorem downloadSizes_append (front back : List (Sigma Call.Answer)) :
    downloadSizes (front ++ back) = downloadSizes front ++ downloadSizes back :=
  List.filterMap_append

theorem uploadSizes_append (front back : List (Sigma Call.Answer)) :
    uploadSizes (front ++ back) = uploadSizes front ++ uploadSizes back :=
  List.filterMap_append

/-- The calls before the transfers change nothing of the budget. -/
theorem Budget.after {front : List (Sigma Call.Answer)} {answer : RunAnswer}
    (hdownloads : downloadSizes front = []) (huploads : uploadSizes front = [])
    (h : Budget plan True trace answer) : Budget plan reached (front ++ trace) answer := by
  have hdown : downloadSizes (front ++ trace) = downloadSizes trace := by
    rw [downloadSizes_append, hdownloads, List.nil_append]
  have hup : uploadSizes (front ++ trace) = uploadSizes trace := by
    rw [uploadSizes_append, huploads, List.nil_append]
  refine ⟨?_, ?_, ?_, ?_⟩
  · rw [hdown]
    exact h.downloads
  · rw [hup]
    exact h.uploads
  · intro _ hcalm
    rw [hdown, hup]
    exact h.complete trivial fun e he ↦ hcalm e (List.mem_append_right _ he)
  · rw [hdown, hup]
    exact h.reported

end Budget

theorem runs_boundClient {source : BitVec 128} {family : String}
    {trace : List (Sigma Call.Answer)} {answer : Except Text Unit}
    (hruns : (boundClient source family).Runs trace answer) :
    (trace = [] ∧ ∃ message, answer = .error message) ∨ trace = [⟨.newDialer source, answer⟩] := by
  have hclient : (∃ message, boundClient source family = .done (.error message)) ∨
      boundClient source family = ask (.newDialer source) := by
    unfold boundClient
    by_cases hipv4 : family = "ipv4" ∧ (!isIPv4 source) = true
    · exact Or.inl ⟨_, if_pos hipv4⟩
    rw [if_neg hipv4]
    by_cases hipv6 : family = "ipv6" ∧ isIPv4 source = true
    · exact Or.inl ⟨_, if_pos hipv6⟩
    · exact Or.inr (if_neg hipv6)
  rcases hclient with ⟨message, hclient⟩ | hclient
  · rw [hclient] at hruns
    obtain ⟨rfl, rfl⟩ := Program.Runs.done_iff.mp hruns
    exact Or.inl ⟨rfl, message, rfl⟩
  · rw [hclient] at hruns
    obtain ⟨dialed, back, rfl, hdone⟩ := Program.Runs.call_iff.mp hruns
    obtain ⟨rfl, rfl⟩ := Program.Runs.done_iff.mp hdone
    exact Or.inr rfl

theorem budget_run {a : Adapter} {request : RunRequest} {trace : List (Sigma Call.Answer)}
    {answer : RunAnswer} (hruns : (run a request).Runs trace answer)
    (hsampled : ∀ e ∈ trace, Sampled a.round e) :
    Budget (planned (payloadCap a request.options / 2) 0 ladders) (trace ≠ []) trace answer := by
  unfold run at hruns
  split at hruns
  · obtain ⟨rfl, rfl⟩ := Program.Runs.done_iff.mp hruns
    exact budget_nothing fun h ↦ h rfl
  split at hruns
  · obtain ⟨rfl, rfl⟩ := Program.Runs.done_iff.mp hruns
    exact budget_nothing fun h ↦ h rfl
  rename_i source _
  obtain ⟨front, dialed, back, rfl, hdial, hbody⟩ := Program.runs_bind.mp hruns
  clear hruns
  rcases dialed with message | ⟨⟩
  · obtain ⟨rfl, rfl⟩ := Program.Runs.done_iff.mp hbody
    rcases runs_boundClient hdial with ⟨rfl, -⟩ | rfl
    · exact budget_nothing fun h ↦ h rfl
    · exact budget_failed List.nil_prefix List.nil_prefix fun hcalm ↦
        hcalm ⟨.newDialer source, .error message⟩ (by simp) ⟨message, rfl⟩
  rcases runs_boundClient hdial with ⟨-, message, h⟩ | rfl
  · cases h
  clear hdial
  obtain ⟨started, back, rfl, htraced⟩ := Program.Runs.perform_iff.mp hbody
  clear hbody
  obtain ⟨traced, back, rfl, hmeasured⟩ := Program.Runs.perform_iff.mp htraced
  clear htraced
  have hsamples : ∀ e ∈ back, Sampled a.round e := fun e he ↦
    hsampled e (List.mem_append_right _ (List.mem_cons_of_mem _ (List.mem_cons_of_mem _ he)))
  change Budget _ _ ([⟨.newDialer source, .ok ()⟩, ⟨.now, started⟩, ⟨.trace, traced⟩] ++ back) answer
  rcases traced with message | ⟨publicIP, colo⟩
  · obtain ⟨rfl, rfl⟩ := Program.Runs.done_iff.mp hmeasured
    exact budget_failed List.nil_prefix List.nil_prefix fun hcalm ↦
      hcalm ⟨.trace, .error message⟩ (by simp) ⟨message, rfl⟩
  apply Budget.after rfl rfl
  obtain ⟨front, measured, back, rfl, hlatencies, hdownloaded⟩ := Program.runs_bind.mp hmeasured
  clear hmeasured
  obtain ⟨hdownloads, huploads, hkept, hends⟩ := latencies_loop hlatencies
  rcases measured with message | m
  · obtain ⟨rfl, rfl⟩ := Program.Runs.done_iff.mp hdownloaded
    rw [List.append_nil]
    refine budget_failed (hdownloads ▸ List.nil_prefix) (huploads ▸ List.nil_prefix) fun hcalm ↦ ?_
    obtain ⟨_, h⟩ := hends hcalm
    cases h
  obtain ⟨hnodown, hnoup, hcap⟩ := hkept m rfl
  apply Budget.after hdownloads huploads
  obtain ⟨down, loaded, back, rfl, hdown, huploaded⟩ := Program.runs_bind.mp hdownloaded
  clear hdownloaded
  obtain ⟨hdownloop, hnoupload, hupkept⟩ := downloads_loop hdown fun e he ↦
    hsamples e (List.mem_append_right _ (List.mem_append_left _ he))
  rw [hcap, hnodown] at hdownloop
  rcases loaded with message | m'
  · obtain ⟨rfl, rfl⟩ := Program.Runs.done_iff.mp huploaded
    rw [List.append_nil]
    refine budget_failed hdownloop.within (hnoupload ▸ List.nil_prefix) fun hcalm ↦ ?_
    obtain ⟨_, h⟩ := hdownloop.ends hcalm
    cases h
  obtain ⟨hasked, hsum, hcapkept⟩ := hdownloop.complete m' rfl
  obtain ⟨up, sent, back, rfl, hup, hsummary⟩ := Program.runs_bind.mp huploaded
  clear huploaded
  obtain ⟨huploop, hnodownload, hdownkept⟩ := uploads_loop hup fun e he ↦
    hsamples e (List.mem_append_right _ (List.mem_append_right _ (List.mem_append_left _ he)))
  rw [hcapkept, hcap, hupkept m' rfl, hnoup] at huploop
  have hdownsizes : downloadSizes (down ++ up) =
      planned (payloadCap a request.options / 2) 0 ladders := by
    rw [downloadSizes_append, hnodownload, List.append_nil, hasked]
  have hupsizes : uploadSizes (down ++ up) = uploadSizes up := by
    rw [uploadSizes_append, hnoupload, List.nil_append]
  rcases sent with message | m''
  · obtain ⟨rfl, rfl⟩ := Program.Runs.done_iff.mp hsummary
    rw [List.append_nil]
    refine budget_failed (hdownsizes ▸ List.prefix_refl _) (hupsizes ▸ huploop.within)
      fun hcalm ↦ ?_
    obtain ⟨_, h⟩ := huploop.ends fun e he ↦ hcalm e (List.mem_append_right _ he)
    cases h
  obtain ⟨hupasked, hupsum, -⟩ := huploop.complete m'' rfl
  obtain ⟨finished, back, rfl, hend⟩ := Program.Runs.perform_iff.mp hsummary
  clear hsummary
  obtain ⟨rfl, rfl⟩ := Program.Runs.done_iff.mp hend
  rw [← List.append_assoc]
  apply budget_summarize
  · rw [downloadSizes_append, hdownsizes]
    exact List.append_nil _
  · rw [uploadSizes_append, hupsizes, hupasked]
    exact List.append_nil _
  · rw [hdownkept m'' rfl, hsum, hnodown]
    exact Int.zero_add _
  · rw [hupsum, hupkept m' rfl, hnoup]
    exact Int.zero_add _

/-- The transfers in one direction that the options of a run allow. -/
def transferPlan (a : Adapter) (options : Option JsonObject) : List ℤ :=
  planned (payloadCap a options / 2) 0 ladders

/-- Whatever the edge answers, a run asks for the beginning of the plan that its options fix,
in each direction.  The plan fits into a half of the cap and is at least four transfers long.
A run that returns no error has made the whole plan and reports its bytes; so does every run
in which no call fails, and what it lacks then is not for the cap. -/
theorem run_budget {a : Adapter} {request : RunRequest} {trace : List (Sigma Call.Answer)}
    {answer : RunAnswer} (hruns : (run a request).Runs trace answer)
    (hsampled : ∀ e ∈ trace, Sampled a.round e) :
    transferPlan a request.options <+: ladders ∧ 4 ≤ (transferPlan a request.options).length ∧
      2 * (transferPlan a request.options).sum ≤ payloadCap a request.options ∧
      (downloadSizes trace).sum + (uploadSizes trace).sum ≤ payloadCap a request.options ∧
      payloadCap a request.options ≤ 536870912 ∧
      Budget (transferPlan a request.options) (trace ≠ []) trace answer := by
  obtain ⟨hmin, hmax⟩ := payloadCap_bounds a request.options
  have hbudget := budget_run hruns hsampled
  have hzero : 0 ≤ payloadCap a request.options / 2 := by omega
  have hplan := sum_of_prefix hzero (List.prefix_refl (planned _ 0 ladders))
  have hdown := sum_of_prefix hzero hbudget.downloads
  have hup := sum_of_prefix hzero hbudget.uploads
  change 0 + (transferPlan a request.options).sum ≤ _ at hplan
  exact ⟨planned_begins _ ladders 0, four_le_planned (by omega), by omega, by omega, hmax,
    hbudget⟩

/-- An edge that answers everything within a second. -/
def promptExchange (size : ℕ) : Exchange where
  error := none
  started := 0
  firstByte := some 500000000
  finished := 1000000000
  available := size
  readError := none
  closeError := none
  statusCode := 200
  serverDuration := 0
  colo := "AMS"

def promptEdge (round : ℚ → ℚ) : (c : Call) → c.Answer
  | .now => (0 : ℤ)
  | .contextError => (none : Option Text)
  | .newDialer _ => Except.ok ()
  | .trace => Except.ok ("198.51.100.7", "AMS")
  | .latency => latency round (promptExchange 0)
  | .download size => download round (promptExchange size.toNat) size
  | .upload size => upload round (promptExchange 0) size

theorem sampled_promptEdge (round : ℚ → ℚ) (c : Call) : Sampled round ⟨c, promptEdge round c⟩ := by
  cases c with
  | latency => exact ⟨promptExchange 0, rfl⟩
  | download size => exact ⟨promptExchange size.toNat, rfl⟩
  | upload size => exact ⟨promptExchange 0, rfl⟩
  | _ => trivial

def promptAdapter : Adapter where
  round := id
  toInt64 value := ⌊value⌋
  marshal _ := []

def promptRequest : RunRequest :=
  ⟨"eth0", "192.0.2.10", "auto", ⟨"automatic", "", "", none⟩, 120, none⟩

theorem sampled_of_mem_calls {α : Type} {p : Adapting α} {round : ℚ → ℚ}
    {e : Sigma Call.Answer} (he : e ∈ p.calls (promptEdge round)) : Sampled round e := by
  have hanswer := Program.answer_of_mem_calls he
  obtain ⟨c, answer⟩ := e
  obtain rfl : answer = promptEdge round c := hanswer
  exact sampled_promptEdge round c

theorem run_budget_prompt :
    transferPlan promptAdapter promptRequest.options <+: ladders ∧
      4 ≤ (transferPlan promptAdapter promptRequest.options).length ∧
      2 * (transferPlan promptAdapter promptRequest.options).sum ≤
        payloadCap promptAdapter promptRequest.options ∧
      (downloadSizes ((run promptAdapter promptRequest).calls (promptEdge id))).sum +
        (uploadSizes ((run promptAdapter promptRequest).calls (promptEdge id))).sum ≤
        payloadCap promptAdapter promptRequest.options ∧
      payloadCap promptAdapter promptRequest.options ≤ 536870912 ∧
      Budget (transferPlan promptAdapter promptRequest.options)
        ((run promptAdapter promptRequest).calls (promptEdge id) ≠ [])
        ((run promptAdapter promptRequest).calls (promptEdge id))
        ((run promptAdapter promptRequest).eval (promptEdge id)) :=
  run_budget (Program.runs_eval _ _) fun _ he ↦ sampled_of_mem_calls he

end MultiSpeed.Providers.Cloudflare
