import MultiSpeed.Api.Calls

/-!
# The reasons of the calls

Every call of a handler is justified where it is made.  The facts a handler has read
stay true up to the next call as far as only settled columns are concerned, since it
holds the mutex.
-/

namespace MultiSpeed.Configuring

open Api Concurrent Database Execution Network Program

variable {host : Host} {I : Memory → Prop} {α β : Type} {m : Memory}

/-- The program makes justified calls from `m` on and ends with `post`. -/
structure Sound (host : Host) (I : Memory → Prop) (post : α → Memory → Prop) (p : Handler α)
    (m : Memory) : Prop where
  safe : Safe (exec host) I (Justified host I) Quiet post p m

namespace Sound

variable {post : α → Memory → Prop}

theorem done {a : α} (h : post a m) : Sound host I post (.done a) m := ⟨h⟩

theorem ask {c : Call} {k : c.Answer → Handler α}
    (hc : ∀ t, Quiet m t → I t → Justified host I c t)
    (hk : ∀ t i, Quiet m t → I t →
      Sound host I post (k (exec host i c t).2) (exec host i c t).1) :
    Sound host I post (Configuring.ask c >>= k) m :=
  ⟨fun t hmt hI ↦ ⟨hc t hmt hI, fun i ↦ (hk t i hmt hI).safe⟩⟩

/-- A call that only reads. -/
theorem query {c : Call} {k : c.Answer → Handler α} (hc : c.reads = true)
    (hk : ∀ t i, Quiet m t → I t → Sound host I post (k (exec host i c t).2) t) :
    Sound host I post (Configuring.ask c >>= k) m := by
  refine ask (fun t _ _ ↦ justified_of_routine (by simp [Call.routine, hc]) t)
    fun t i hmt hI ↦ ?_
  rw [exec_reads i hc t]
  exact hk t i hmt hI

theorem bind {mid : β → Memory → Prop} {p : Handler β} {k : β → Handler α}
    (h : Sound host I mid p m) (hk : ∀ b t, mid b t → Sound host I post (k b) t) :
    Sound host I post (p >>= k) m := ⟨Safe.bind h.safe fun b t hb ↦ (hk b t hb).safe⟩

theorem routine {p : Handler α} (h : p.Only fun c ↦ c.routine = true) :
    Sound host I (fun _ _ ↦ True) p m :=
  ⟨h.safe (fun _ t hc ↦ justified_of_routine hc t) (fun _ _ ↦ trivial) m⟩

/-- A program that only reads leaves what is settled alone. -/
theorem reads {p : Handler α} (h : p.Only fun c ↦ c.reads = true) {m₀ : Memory}
    (hm : Quiet m₀ m) : Sound host I (fun _ t ↦ Quiet m₀ t) p m := by
  induction p generalizing m with
  | done a => exact .done hm
  | call c rest ih =>
      refine ⟨fun t hmt hI ↦ ⟨justified_of_routine (by simp [Call.routine, h.1]) t, fun i ↦ ?_⟩⟩
      rw [exec_reads i h.1 t]
      exact (ih _ (h.2 _) (hm.trans hmt)).safe

end Sound

/-! ## Programs of routine calls -/

theorem deleteTaskRow_routine (id : String) :
    (deleteTaskRow id).Only fun c ↦ c.routine = true := by
  refine .perform rfl fun answer ↦ ?_
  split
  · refine .perform rfl fun reason ↦ ?_
    split <;> trivial
  · trivial

theorem deleteRouteRow_routine (id : String) :
    (deleteRouteRow id).Only fun c ↦ c.routine = true := by
  refine .perform rfl fun answer ↦ ?_
  split
  · refine .perform rfl fun reason ↦ ?_
    split <;> trivial
  · trivial

theorem deleteTask_routine (id : String) : (deleteTask id).Only fun c ↦ c.routine = true := by
  refine .perform rfl fun answer ↦ ?_
  split
  · trivial
  · refine .perform rfl fun scheduled ↦ ?_
    split
    · trivial
    · refine (deleteTaskRow_routine id).bind fun deleted ↦ ?_
      split
      · exact .perform rfl fun _ ↦ trivial
      · trivial

theorem deleteRouteProfile_routine (id : String) :
    (deleteRouteProfile id).Only fun c ↦ c.routine = true := by
  refine (deleteRouteRow_routine id).bind fun deleted ↦ ?_
  split <;> trivial

theorem effectiveRouteProfile_reads (task : Task) :
    (effectiveRouteProfile host task).Only fun c ↦ c.reads = true := by
  unfold effectiveRouteProfile
  split
  · trivial
  · refine .perform rfl fun answer ↦ ?_
    split <;> trivial

theorem preflightTaskPath_reads (code : String) (task : Task) :
    (preflightTaskPath host code task).Only fun c ↦ c.reads = true := by
  refine .perform rfl fun answer ↦ ?_
  split
  · trivial
  · refine (effectiveRouteProfile_reads task).bind fun profile ↦ ?_
    split
    · trivial
    · exact .perform rfl fun _ ↦ trivial

theorem preflightIfEnabled_reads (task : Task) :
    (preflightIfEnabled host task).Only fun c ↦ c.reads = true := by
  unfold preflightIfEnabled
  split
  · refine (preflightTaskPath_reads _ task).bind fun answer ↦ ?_
    split
    · split <;> trivial
    · trivial
    · split <;> trivial
  · trivial

/-! ## Tasks -/

theorem exec_validateSource (i : Input) (interfaceName sourceIP : String) (m : Memory) :
    (exec host i (.validateSource interfaceName sourceIP) m).2 =
      validateSource host.execution m.interfaces interfaceName sourceIP := by
  rw [exec]

/-- What defaults have made of an input. -/
def Defaulted (task : Task) : Prop :=
  ∃ raw settings name, raw.name = utf8 name ∧ task = applyTaskDefaults raw settings

/-- A task that `validateTaskModel` returns is accepted. -/
theorem validateTaskModel_sound {task : Task}
    (htask : Defaulted task) :
    Sound host I (fun answer t ↦ Quiet m t ∧ ∀ checked, answer = .ok checked →
        Accepted host I t checked ∧ checked.id = task.id)
      (validateTaskModel host task) m := by
  obtain ⟨raw, settings, name, hname, rfl⟩ := htask
  unfold validateTaskModel
  split
  · exact .done ⟨Quiet.refl m, (fun _ h ↦ by cases h)⟩
  · rename_i ip checked hfields
    have hid : checked.id = (applyTaskDefaults raw settings).id := by
      rw [(validateTaskFields_ok hfields).2]
    refine Sound.query rfl fun t i hmt hI ↦ ?_
    split
    · exact .done ⟨hmt, (fun _ h ↦ by cases h)⟩
    · rename_i hsource
      rw [exec_validateSource] at hsource
      split
      · exact .done ⟨hmt, (fun _ h ↦ by cases h)⟩
      · rename_i htarget
        have hchecked : TaskChecked host checked := ⟨⟨raw, settings, ip, name, hname, hfields⟩,
          htarget⟩
        split
        · rename_i hnone
          refine .done ⟨hmt, ?_⟩
          rintro _ ⟨⟩
          refine ⟨⟨hchecked, ⟨t, hI, hsource⟩, fun id hmem ↦ ?_⟩, hid⟩
          rw [hnone] at hmem
          cases hmem
        · rename_i id hsome
          refine Sound.query rfl fun u j htu hIu ↦ ?_
          split
          · exact .done ⟨hmt.trans htu, (fun _ h ↦ by cases h)⟩
          · rename_i stored hstored
            split
            · exact .done ⟨hmt.trans htu, (fun _ h ↦ by cases h)⟩
            · rename_i hmatch
              obtain ⟨hinterface, haddress⟩ := not_or.mp hmatch
              have hattached : Attached host u checked := by
                intro id' hmem
                obtain rfl : id = id' := Option.some.inj (hsome.symm.trans hmem)
                obtain ⟨-, hread⟩ := serve_eq_ok_iff.mp hstored
                obtain ⟨profile, hprofile, rfl⟩ := Database.Except.map_ok hread
                exact ⟨profile, hprofile, agrees_of_checked host.lawful hfields
                  (not_not.mp hinterface) (not_not.mp haddress)⟩
              refine .done ⟨hmt.trans htu, ?_⟩
              rintro _ ⟨⟩
              exact ⟨⟨hchecked, ⟨t, hI, hsource⟩, hattached⟩, hid⟩

/-- The answer of a preflight leaves what is settled alone. -/
theorem preflightIfEnabled_sound {task : Task} {m₀ : Memory} (hm : Quiet m₀ m) :
    Sound host I (fun _ t ↦ Quiet m₀ t) (preflightIfEnabled host task) m :=
  .reads (preflightIfEnabled_reads task) hm

theorem Accepted.quiet {task : Task} {t : Memory} (h : Accepted host I m task)
    (hmt : Quiet m t) : Accepted host I t task :=
  ⟨h.checked, h.source, h.attached.sameRoutes hmt.routes⟩

theorem createTask_sound (body : Option TaskInput) :
    Sound host I (fun _ _ ↦ True) (createTask host body) m := by
  unfold createTask
  split
  · exact .done trivial
  · rename_i input
    refine Sound.query rfl fun t i hmt hI ↦ ?_
    split
    · exact .done trivial
    · rename_i settings hsettings
      refine Sound.bind (validateTaskModel_sound ⟨_, settings, input.name, rfl, rfl⟩)
        fun answer u hu ↦ ?_
      split
      · exact .done trivial
      · rename_i task
        obtain ⟨-, haccepted⟩ := hu
        obtain ⟨haccepted, hid⟩ := haccepted task rfl
        refine Sound.bind (preflightIfEnabled_sound (Quiet.refl u)) fun reply v huv ↦ ?_
        split
        · exact .done trivial
        · refine Sound.ask (fun w hvw _ ↦ .inl ⟨haccepted.quiet (huv.trans hvw), hid⟩)
            fun w j hvw hIw ↦ .routine ?_
          split
          · trivial
          · refine .perform rfl fun scheduled ↦ ?_
            split
            · exact (deleteTaskRow_routine _).bind fun _ ↦ trivial
            · exact .perform rfl fun _ ↦ trivial

/-- An update of a task leaves the profiles alone. -/
theorem sameRoutes_updateTask (i : Input) (task : Task) (m : Memory) :
    SameRoutes m (exec host i (.updateTask task) m).1 := by
  have heffect := exec_effect host i (.updateTask task) m
  generalize (exec host i (.updateTask task) m).1 = m' at heffect ⊢
  cases heffect with
  | none => exact rfl
  | updateTask hok =>
      obtain ⟨-, -, -, -, hsame⟩ := Store.updateTask_ok hok
      exact congrArg (fun routes : RouteTable ↦ routes.rows.map RouteProfile.settled) hsame.routes

theorem updateTask_sound (id : String) (body : Option TaskInput) :
    Sound host I (fun _ _ ↦ True) (updateTask host id body) m := by
  unfold updateTask
  refine Sound.query rfl fun t i hmt hI ↦ ?_
  split
  · exact .done trivial
  · rename_i existing hexisting
    obtain ⟨-, hread⟩ := serve_eq_ok_iff.mp hexisting
    obtain rfl := Store.getTask_id hread
    split
    · exact .done trivial
    · rename_i input
      refine Sound.query rfl fun u j htu hIu ↦ ?_
      split
      · exact .done trivial
      · rename_i settings hsettings
        refine Sound.bind (validateTaskModel_sound ⟨_, settings, input.name, rfl, rfl⟩)
          fun answer v hv ↦ ?_
        split
        · exact .done trivial
        · rename_i task
          obtain ⟨huv, haccepted⟩ := hv
          obtain ⟨haccepted, hid⟩ := haccepted task rfl
          refine Sound.bind (preflightIfEnabled_sound (Quiet.refl v)) fun reply w hvw ↦ ?_
          split
          · exact .done trivial
          · have htw : Quiet t w := (htu.trans huv).trans hvw
            refine Sound.ask (fun x hwx _ ↦ .inl (haccepted.quiet (hvw.trans hwx)))
              fun x k hwx hIx ↦ ?_
            split
            · exact .done trivial
            · rename_i hupdated
              have hroutes : SameRoutes t (exec host k (.updateTask task) x).1 :=
                (htw.routes.trans hwx.routes).trans (sameRoutes_updateTask k task x)
              refine Sound.query rfl fun y l hxy hIy ↦ ?_
              split
              · refine Sound.ask (fun z hyz _ ↦ .inr ⟨t, hI, hread, ?_⟩) fun z n hyz hIz ↦
                  .routine (.perform rfl fun _ ↦ trivial)
                exact (hroutes.trans hxy.routes).trans hyz.routes
              · exact .routine (.perform rfl fun _ ↦ trivial)

theorem duplicateTask_sound (id : String) :
    Sound host I (fun _ _ ↦ True) (duplicateTask id) m := by
  refine Sound.query rfl fun t i hmt hI ↦ ?_
  split
  · exact .done trivial
  · rename_i source hsource
    obtain ⟨-, hread⟩ := serve_eq_ok_iff.mp hsource
    refine Sound.ask (fun u htu _ ↦ ?_) fun u j htu hIu ↦ ?_
    · obtain ⟨row, hrow, hsettled⟩ := htu.getTask hread
      refine .inr ⟨id, row, hrow, ?_⟩
      have hcopy : copyOf row.settled = copyOf source.settled := by rw [hsettled]
      exact hcopy
    · split <;> exact .done trivial

/-! ## Route profiles -/

theorem validateRouteModel_sound (profile : RouteProfile) {m₀ : Memory} (hm : Quiet m₀ m) :
    Sound host I (fun answer t ↦ Quiet m₀ t ∧
        (answer = none → validateRouteFields host.net profile = none))
      (validateRouteModel host profile) m := by
  unfold validateRouteModel
  split
  · exact .done ⟨hm, (fun h ↦ by cases h)⟩
  · rename_i hfields
    refine Sound.query rfl fun t i hmt hI ↦ ?_
    split
    · exact .done ⟨hm.trans hmt, (fun h ↦ by cases h)⟩
    · exact .done ⟨hm.trans hmt, fun _ ↦ hfields⟩

theorem createRouteProfile_sound (body : Option RouteProfileInput) :
    Sound host I (fun _ _ ↦ True) (createRouteProfile host body) m := by
  unfold createRouteProfile
  split
  · exact .done trivial
  · rename_i input
    refine Sound.bind (validateRouteModel_sound (applyRouteDefaults host.net input.model)
      (Quiet.refl m)) fun answer t ht ↦ ?_
    split
    · exact .done trivial
    · refine Sound.ask (fun u _ _ ↦ ⟨input, rfl, ht.2 rfl⟩) fun u i _ _ ↦ ?_
      split <;> exact .done trivial

theorem updateRouteProfile_sound (id : String) (body : Option RouteProfileInput) :
    Sound host I (fun _ _ ↦ True) (updateRouteProfile host id body) m := by
  unfold updateRouteProfile
  refine Sound.query rfl fun t i hmt hI ↦ ?_
  split
  · exact .done trivial
  · rename_i existing hexisting
    obtain ⟨-, hread⟩ := serve_eq_ok_iff.mp hexisting
    split
    · exact .done trivial
    · rename_i input
      refine Sound.bind (validateRouteModel_sound
        (RouteProfileInput.over host input id existing.profile) (Quiet.refl t)) fun answer u hu ↦ ?_
      split
      · exact .done trivial
      · refine Sound.ask (fun v huv _ ↦ ?_) fun v j _ _ ↦ ?_
        · exact ⟨input, existing, ⟨t, hI, hread, (hu.1.trans huv).routes⟩, rfl, rfl, hu.2 rfl⟩
        · split <;> exact .done trivial

theorem validateRouteProfile_sound (id : String) :
    Sound host I (fun _ _ ↦ True) (validateRouteProfile host id) m := by
  refine Sound.query rfl fun t i hmt hI ↦ ?_
  split
  · exact .done trivial
  · rename_i stored hstored
    obtain ⟨-, hread⟩ := serve_eq_ok_iff.mp hstored
    have hid : stored.profile.id = id := by
      obtain ⟨profile, hprofile, rfl⟩ := Database.Except.map_ok hread
      exact Store.route?_id (Store.getRouteProfile_eq_ok_iff.mp hprofile).1
    refine Sound.query rfl fun u j htu hIu ↦ ?_
    refine Sound.ask (fun v huv _ ↦ ?_) fun v k _ _ ↦ ?_
    · exact ⟨stored, ⟨t, hI, hid ▸ hread, (htu.trans huv).routes⟩, rfl⟩
    · split <;> exact .done trivial

/-! ## Settings and documents -/

theorem updateSettings_sound (body : Option Settings) :
    Sound host I (fun _ _ ↦ True) (updateSettings host body) m := by
  unfold updateSettings
  split
  · exact .done trivial
  · split
    · exact .done trivial
    · rename_i hvalid
      refine Sound.ask (fun _ _ _ ↦ hvalid) fun t i _ _ ↦ .routine ?_
      split
      · trivial
      · refine .perform rfl fun answer ↦ ?_
        split <;> trivial

theorem importConfiguration_sound (interfaces : ℕ → List NetworkInterface)
    (body : Option DecodedDocument) :
    Sound host I (fun _ _ ↦ True) (importConfiguration host interfaces body) m := by
  unfold importConfiguration
  split
  · exact .done trivial
  · rename_i document
    split
    · exact .done trivial
    · rename_i settings routes tasks hdocument
      refine Sound.query rfl fun t i _ _ ↦ ?_
      split
      · exact .done trivial
      · refine Sound.query rfl fun u j _ _ ↦ ?_
        split
        · exact .done trivial
        · refine Sound.ask (fun _ _ _ ↦ ⟨interfaces, document, hdocument⟩) fun v k _ _ ↦
            .routine ?_
          split
          · exact .perform rfl fun _ ↦ trivial
          · refine .perform rfl fun scheduled ↦ ?_
            split <;> trivial

theorem handle_sound (request : Request) (m : Memory) :
    Sound host I (fun _ _ ↦ True) (handle host request) m := by
  cases request with
  | createTask body => exact createTask_sound body
  | updateTask id body => exact updateTask_sound id body
  | deleteTask id => exact .routine (deleteTask_routine id)
  | duplicateTask id => exact duplicateTask_sound id
  | createRouteProfile body => exact createRouteProfile_sound body
  | updateRouteProfile id body => exact updateRouteProfile_sound id body
  | deleteRouteProfile id => exact .routine (deleteRouteProfile_routine id)
  | validateRouteProfile id => exact validateRouteProfile_sound id
  | updateSettings body => exact updateSettings_sound body
  | importConfiguration interfaces body => exact importConfiguration_sound interfaces body

/-! ## The program without the mutex -/

theorem validateTaskModel_reads (task : Task) :
    (validateTaskModel host task).Only fun c ↦ c.reads = true := by
  unfold validateTaskModel
  split
  · trivial
  · refine .perform rfl fun answer ↦ ?_
    split
    · trivial
    · split
      · trivial
      · split
        · trivial
        · refine .perform rfl fun stored ↦ ?_
          split
          · trivial
          · split <;> trivial

theorem free_of_reads {c : Call} (h : c.reads = true) : c.free = true := by
  simp [Call.free, h]

theorem validateTask_free (id : String) :
    (validateTask host id).Only fun c ↦ c.free = true := by
  refine .perform rfl fun answer ↦ ?_
  split
  · trivial
  · refine ((validateTaskModel_reads _).mono fun _ ↦ free_of_reads).bind fun checked ↦ ?_
    split
    · trivial
    · refine ((preflightTaskPath_reads _ _).mono fun _ ↦ free_of_reads).bind fun validated ↦ ?_
      split
      · trivial
      · split
        · exact .perform rfl fun _ ↦ trivial
        · trivial

/-! ## The invariant rule -/

/-- A recorded validation is quiet. -/
theorem quiet_of_free (i : Input) {c : Call} (h : c.free = true) (m : Memory) :
    Quiet m (exec host i c m).1 := by
  have heffect := exec_effect host i c m
  generalize (exec host i c m).1 = m' at heffect ⊢
  cases heffect with
  | none => exact Quiet.refl m
  | updateRouteValidation hok =>
      obtain ⟨htasks, hroutes⟩ := quiet_updateRouteValidation hok
      exact ⟨congrArg (fun tasks : TaskTable ↦ tasks.rows.map Task.settled) htasks, hroutes⟩
  | createTask | updateTask | markTaskDeleted | createRouteProfile | updateRouteProfile
  | markRouteDeleted | updateSettings | replaceConfiguration => cases h

/-- An invariant that the justified and allowed calls keep, the recorded validations of
`validateTask` among them, and the changes beside the handlers, holds in every run. -/
theorem keeps_of {allowedSerial allowedFree : Input → Call → Memory → Prop}
    (hcall : ∀ c m i, I m → Justified host I c m → c.stored host i m = true →
      allowedSerial i c m → I (exec host i c m).1)
    (hvalidation : ∀ id checked m i, I m →
      Call.stored host i m (.updateRouteValidation id checked) = true →
      allowedFree i (.updateRouteValidation id checked) m →
        I (exec host i (.updateRouteValidation id checked) m).1)
    (hchange : ∀ change m m', I m → m.change change = some m' → I m') :
    (system host).Keeps I Quiet (Justified host I) (fun c _ ↦ c.free = true) allowedSerial
      allowedFree where
  serial request m := (handle_sound request m).safe
  free id m := (validateTask_free id).safe (fun _ _ hc ↦ hc) (fun _ _ ↦ trivial) m
  serialCall c m i hI hc hallowed := by
    cases hstored : c.stored host i m with
    | false => exact (exec_of_not_stored hstored).symm ▸ hI
    | true => exact hcall c m i hI hc hstored hallowed
  freeCall c m i hI hfree hallowed := by
    refine ⟨?_, quiet_of_free i hfree m⟩
    cases hstored : c.stored host i m with
    | false => exact (exec_of_not_stored hstored).symm ▸ hI
    | true =>
        -- the only call of a free program that writes
        cases c with
        | updateRouteValidation id checked => exact hvalidation id checked m i hI hstored hallowed
        | createTask | updateTask | markTaskDeleted | createRouteProfile | updateRouteProfile
        | markRouteDeleted | updateSettings | replaceConfiguration => cases hfree
        | _ => cases hstored
  outside change m m' hI h := ⟨hchange change m m' hI h, quiet_of_change h⟩
  refl := Quiet.refl
  trans _ _ _ h h' := h.trans h'

end MultiSpeed.Configuring
