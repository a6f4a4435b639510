import MultiSpeed.Api.Validation
import MultiSpeed.Providers.Sanitizing

/-!
# Normal forms of requests

What the defaults and checks of a request leave is left alone by them the next time.  The
name of a copied task is the one exception: its cut can leave a blank at the end.
-/

namespace MultiSpeed.Api

open Database Execution Network Providers Utf8

/-! ## Trimmed texts -/

theorem ofNat_comp_toNat : Char.ofNat ∘ Char.toNat = id := funext Char.ofNat_toNat

theorem toNat_injective : Function.Injective Char.toNat :=
  Function.LeftInverse.injective Char.ofNat_toNat

theorem trimSpace_trimSpace (runes : List ℕ) : trimSpace (trimSpace runes) = trimSpace runes :=
  trimSpace_eq_self (fun _ ↦ isSpace_of_head?_trimSpace) fun _ ↦ isSpace_of_getLast?_trimSpace

theorem trimSpace_concat {runes : List ℕ} {r : ℕ} (h : trimSpace runes = runes) (hne : runes ≠ [])
    (hr : isSpace r = true) : trimSpace (runes ++ [r]) = runes := by
  have hhead : ∀ rest, (runes ++ rest).dropWhile isSpace = runes ++ rest := by
    intro rest
    obtain ⟨a, l, rfl⟩ := List.exists_cons_of_ne_nil hne
    have ha : isSpace a = false := isSpace_of_head?_trimSpace (by rw [h]; rfl)
    rw [List.cons_append, List.dropWhile_cons_of_neg (by simp [ha])]
  have hdrop := hhead []
  rw [List.append_nil] at hdrop
  rw [trimSpace, hdrop] at h
  rw [trimSpace, hhead, List.reverse_append, List.reverse_singleton, List.singleton_append,
    List.dropWhile_cons_of_pos hr, h]

theorem runes_trimmed (value : String) :
    (trimmed value).toList.map Char.toNat = trimSpace (value.toList.map Char.toNat) := by
  obtain ⟨ds, -, hds⟩ := trimSpace_map value.toList
  rw [trimmed, hds, List.map_map, ofNat_comp_toNat, List.map_id, String.toList_ofList]

@[simp] theorem trimmed_trimmed (value : String) : trimmed (trimmed value) = trimmed value := by
  rw [trimmed, runes_trimmed, trimSpace_trimSpace]
  rfl

theorem toList_inj_of_runes {first second : String}
    (h : first.toList.map Char.toNat = second.toList.map Char.toNat) : first = second :=
  String.toList_inj.mp (toNat_injective.list_map h)

theorem trimmed_eq_self_iff {value : String} :
    trimmed value = value ↔
      trimSpace (value.toList.map Char.toNat) = value.toList.map Char.toNat := by
  constructor
  · intro h
    rw [← runes_trimmed, h]
  · intro h
    exact toList_inj_of_runes ((runes_trimmed value).trans h)

/-- A trimmed text goes on to be trimmed with something behind it that does not end in a
blank. -/
theorem trimmed_append {text suffix : String} (h : trimmed text = text) (htext : text ≠ "")
    (hsuffix : suffix ≠ "")
    (hlast : ∀ r ∈ (suffix.toList.map Char.toNat).getLast?, isSpace r = false) :
    trimmed (text ++ suffix) = text ++ suffix := by
  have hlist : text.toList ≠ [] := fun hnil ↦ htext (String.toList_inj.mp hnil)
  have hlist' : suffix.toList ≠ [] := fun hnil ↦ hsuffix (String.toList_inj.mp hnil)
  rw [trimmed_eq_self_iff, String.toList_append, List.map_append]
  apply trimSpace_eq_self
  · intro r hr
    rw [List.head?_append_of_ne_nil _ (by simpa using hlist)] at hr
    rw [← trimmed_eq_self_iff.mp h] at hr
    exact isSpace_of_head?_trimSpace hr
  · intro r hr
    rw [List.getLast?_append_of_ne_nil _ (by simpa using hlist')] at hr
    exact hlast r hr

/-! ## Trimmed bytes -/

theorem utf8_eq_encode (text : String) : utf8 text = encode text.toList := rfl

theorem utf8_append (first second : String) : utf8 (first ++ second) = utf8 first ++ utf8 second := by
  rw [utf8_eq_encode, String.toList_append, encode_append]
  rfl

theorem decoded_utf8 (text : String) : decoded (utf8 text) = text := by
  rw [decoded, utf8_eq_encode, decodeRunes_encode, List.map_map, ofNat_comp_toNat,
    List.map_id, String.ofList_toList]

theorem runeTexts_go_encode {cs : List Char} {fuel : ℕ} (h : (encode cs).length ≤ fuel) :
    runeTexts.go fuel (encode cs) = cs.map String.utf8EncodeChar := by
  induction cs generalizing fuel with
  | nil => cases fuel <;> rfl
  | cons c cs ih =>
      have hdecode := decodeRune_encodeChar c (encode cs)
      rw [encode_cons, List.length_append] at h
      rw [encode_cons, List.map_cons]
      obtain ⟨b, bytes, hbytes⟩ := List.exists_cons_of_ne_nil (encodeChar_ne_nil c)
      rw [hbytes, List.cons_append] at hdecode ⊢
      rw [hbytes, List.length_cons] at h
      cases fuel with
      | zero => omega
      | succ fuel =>
          rw [runeTexts.go, hdecode]
          dsimp only
          rw [List.length_cons, List.take_succ_cons, List.take_left, List.drop_succ_cons,
            List.drop_left, ih (by omega)]

theorem runeTexts_encode (cs : List Char) :
    runeTexts (encode cs) = cs.map String.utf8EncodeChar := runeTexts_go_encode le_rfl

theorem decodeRune_encodeChar_self (c : Char) :
    (decodeRune (String.utf8EncodeChar c)).1 = c.toNat := by
  have h := decodeRune_encodeChar c []
  rw [List.append_nil] at h
  rw [h]

/-- The two trimmings agree on texts that are valid. -/
theorem trimText_utf8 (text : String) : trimText (utf8 text) = utf8 (trimmed text) := by
  have hblank : (fun rune ↦ isSpace (decodeRune rune).1) ∘ String.utf8EncodeChar =
      isSpace ∘ Char.toNat := by
    funext c
    exact congrArg isSpace (decodeRune_encodeChar_self c)
  have hchars : (trimmed text).toList =
      ((text.toList.dropWhile (isSpace ∘ Char.toNat)).reverse.dropWhile
        (isSpace ∘ Char.toNat)).reverse := by
    apply toNat_injective.list_map
    rw [runes_trimmed, trimSpace, List.dropWhile_map, ← List.map_reverse, List.dropWhile_map,
      List.map_reverse]
  rw [trimText, utf8_eq_encode text, runeTexts_encode, utf8_eq_encode, hchars,
    List.dropWhile_map, hblank, ← List.map_reverse, List.dropWhile_map, hblank, ← List.map_reverse,
    encode, List.flatMap_def]

/-! ## Names -/

/-- The name that defaults and checks make of a text. -/
def NormalName (text : String) : Prop :=
  trimmed text = text ∧ 1 ≤ (utf8 text).length ∧ (utf8 text).length ≤ 120

/-- A name of a stored task: that of a copy ends in a blank where the rest of the suffix
has been cut off. -/
inductive StoredName : Text → Prop where
  | normal {text : String} (h : NormalName text) : StoredName (utf8 text)
  | cut {text : String} (h : NormalName text) (hlength : (utf8 text).length = 119) :
      StoredName (utf8 (text ++ " "))

theorem normalName_append {text suffix : String} (h : NormalName text) (hsuffix : suffix ≠ "")
    (hlast : ∀ r ∈ (suffix.toList.map Char.toNat).getLast?, isSpace r = false)
    (hlength : (utf8 text).length + (utf8 suffix).length ≤ 120) : NormalName (text ++ suffix) := by
  obtain ⟨htrimmed, hpos, -⟩ := h
  have htext : text ≠ "" := by
    rintro rfl
    exact absurd hpos (by decide)
  have hsum : (utf8 (text ++ suffix)).length = (utf8 text).length + (utf8 suffix).length := by
    rw [utf8_append, List.length_append]
  exact ⟨trimmed_append htrimmed htext hsuffix hlast, by omega, by omega⟩

/-- The cut of a copied name never falls into a character. -/
theorem StoredName.copy {name : Text} (h : StoredName name) :
    StoredName ((name ++ utf8 " copy").take 120) := by
  have hsuffix : (utf8 " copy").length = 5 := by decide
  cases h with
  | @normal text h =>
      obtain ⟨htrimmed, hpos, hle⟩ := h
      have hshort : ∀ k, 120 - (utf8 text).length = k →
          (utf8 text ++ utf8 " copy").take 120 = utf8 text ++ (utf8 " copy").take k := by
        rintro k rfl
        rw [List.take_append, List.take_of_length_le hle]
      have hbits : ∀ suffix : String, suffix ≠ "" →
          (∀ r ∈ (suffix.toList.map Char.toNat).getLast?, isSpace r = false) →
          (utf8 text).length + (utf8 suffix).length ≤ 120 →
          (utf8 text ++ utf8 " copy").take 120 = utf8 text ++ utf8 suffix →
          StoredName ((utf8 text ++ utf8 " copy").take 120) := by
        intro suffix hne hlast hfits heq
        rw [heq, ← utf8_append]
        exact .normal (normalName_append ⟨htrimmed, hpos, hle⟩ hne hlast hfits)
      rcases (show (utf8 text).length ≤ 115 ∨ (utf8 text).length = 116 ∨
        (utf8 text).length = 117 ∨ (utf8 text).length = 118 ∨ (utf8 text).length = 119 ∨
        (utf8 text).length = 120 by omega) with hn | hn | hn | hn | hn | hn
      · refine hbits " copy" (by decide) (by decide) (by omega) ?_
        rw [hshort _ rfl, List.take_of_length_le (by omega)]
      · exact hbits " cop" (by decide) (by decide) (by rw [hn]; decide) (hshort 4 (by omega))
      · exact hbits " co" (by decide) (by decide) (by rw [hn]; decide) (hshort 3 (by omega))
      · exact hbits " c" (by decide) (by decide) (by rw [hn]; decide) (hshort 2 (by omega))
      · rw [hshort 1 (by omega)]
        have hcut := StoredName.cut ⟨htrimmed, hpos, hle⟩ hn
        rwa [utf8_append] at hcut
      · rw [hshort 0 (by omega), List.take_zero, List.append_nil]
        exact .normal ⟨htrimmed, hpos, hle⟩
  | @cut text h hlength =>
      have hfull : (utf8 (text ++ " ")).length = 120 := by
        rw [utf8_append, List.length_append, hlength]
        rfl
      rw [List.take_left' hfull]
      exact .cut h hlength

/-- The name that an import makes of a stored one. -/
@[irreducible] def importedName (name : Text) : Text := trimText (utf8 (decoded name))

theorem importedName_normal {text : String} (h : NormalName text) :
    importedName (utf8 text) = utf8 text := by
  rw [importedName, decoded_utf8, trimText_utf8, h.1]

theorem importedName_cut {text : String} (h : NormalName text) :
    importedName (utf8 (text ++ " ")) = utf8 text := by
  have htrimmed : trimmed (text ++ " ") = text := by
    apply toList_inj_of_runes
    rw [runes_trimmed, String.toList_append, List.map_append]
    refine trimSpace_concat (trimmed_eq_self_iff.mp h.1) (fun hnil ↦ ?_) (by decide)
    have hempty : text = "" := String.toList_inj.mp (List.map_eq_nil_iff.mp hnil)
    subst hempty
    exact absurd h.2.1 (by decide)
  rw [importedName, decoded_utf8, trimText_utf8, htrimmed]

/-- An import accepts every stored name, and alters it only where a blank was left. -/
theorem StoredName.imported {name : Text} (h : StoredName name) :
    1 ≤ (importedName name).length ∧ (importedName name).length ≤ 120 ∧
      (importedName name = name ∨ name = importedName name ++ utf8 " ") := by
  cases h with
  | normal h =>
      rw [importedName_normal h]
      exact ⟨h.2.1, h.2.2, .inl rfl⟩
  | cut h hlength =>
      rw [importedName_cut h]
      exact ⟨h.2.1, h.2.2, .inr (utf8_append _ _)⟩

/-! ## Tasks -/

/-- The checks of `validateTaskFields` after the name. -/
structure FieldsChecked (net : Net) (task : Task) (ip : BitVec 128) : Prop where
  description : task.description.utf8ByteSize ≤ 4000
  interfaceName : validateInterfaceName task.interfaceName = none
  randomJitter : 0 ≤ task.randomJitterSeconds ∧ task.randomJitterSeconds ≤ 3600
  timeout : 5 ≤ task.timeoutSeconds ∧ task.timeoutSeconds ≤ 3600
  ipFamily : task.ipFamily = "auto" ∨ task.ipFamily = "ipv4" ∨ task.ipFamily = "ipv6"
  routeValidation : task.routeValidation = "required" ∨ task.routeValidation = "interface-only"
  sourceIP : net.parseIP task.sourceIP = some ip
  ipv4 : task.ipFamily = "ipv4" → isIPv4 ip = true
  ipv6 : task.ipFamily = "ipv6" → isIPv4 ip = false

theorem not_among_two {α : Type} {a x y : α} : ¬ (a ≠ x ∧ a ≠ y) ↔ a = x ∨ a = y := by
  rw [not_and_or, not_not, not_not]

theorem not_among_three {α : Type} {a x y z : α} :
    ¬ (a ≠ x ∧ a ≠ y ∧ a ≠ z) ↔ a = x ∨ a = y ∨ a = z := by
  rw [not_and_or, not_among_two, not_not]

theorem validateTaskFields_ok_iff {net : Net} {task checked : Task} {ip : BitVec 128} :
    validateTaskFields net task = .ok (ip, checked) ↔
      (1 ≤ task.name.length ∧ task.name.length ≤ 120) ∧ FieldsChecked net task ip ∧
        checked = { task with sourceIP := net.ipString ip } := by
  constructor
  · intro h
    obtain ⟨hparsed, hchecked⟩ := validateTaskFields_ok h
    unfold validateTaskFields at h
    split at h
    · cases h
    rename_i hname
    split at h
    · cases h
    rename_i hdescription
    split at h
    · cases h
    rename_i hinterface
    split at h
    · cases h
    rename_i hjitter
    split at h
    · cases h
    rename_i htimeout
    split at h
    · cases h
    rename_i hfamily
    split at h
    · cases h
    rename_i hvalidation
    rw [hparsed] at h
    dsimp only at h
    split at h
    · cases h
    rename_i hipv4
    split at h
    · cases h
    rename_i hipv6
    refine ⟨by omega, ⟨by omega, hinterface, by omega, by omega, not_among_three.mp hfamily,
      not_among_two.mp hvalidation, hparsed, fun hfour ↦ ?_, fun hsix ↦ ?_⟩, hchecked⟩
    · exact Bool.not_eq_false _ ▸ fun hfalse ↦ hipv4 ⟨hfour, hfalse⟩
    · exact Bool.not_eq_true _ ▸ fun htrue ↦ hipv6 ⟨hsix, htrue⟩
  · rintro ⟨hname, hfields, rfl⟩
    obtain ⟨hdescription, hinterface, hjitter, htimeout, hfamily, hvalidation, hparsed, hipv4,
      hipv6⟩ := hfields
    unfold validateTaskFields
    rw [if_neg (by omega), if_neg (by omega), hinterface]
    dsimp only
    rw [if_neg (by omega), if_neg (by omega), if_neg (not_among_three.mpr hfamily),
      if_neg (not_among_two.mpr hvalidation), hparsed]
    dsimp only
    rw [if_neg, if_neg]
    · rintro ⟨hsix, h⟩
      rw [hipv6 hsix] at h
      cases h
    · rintro ⟨hfour, h⟩
      rw [hipv4 hfour] at h
      cases h

/-- What checks have left of a task, but for its name and its identity. -/
structure NormalTask (host : Host) (item : ConfigurationTask) : Prop where
  timezone : item.timezone ≠ ""
  description : trimmed item.description = item.description
  interfaceName : trimmed item.interfaceName = item.interfaceName
  serverID : trimmed item.serverID = item.serverID
  serverURL : trimmed item.serverURL = item.serverURL
  cronExpression : item.cronExpression ≠ ""
  serverSelectionMode : item.serverSelectionMode ≠ ""
  customServerDefinition : ∃ fields, item.customServerDefinition = some fields
  providerOptions : ∃ fields, item.providerOptions = some fields
  address : ∃ ip, item.sourceIP = host.net.ipString ip ∧ FieldsChecked host.net item.model ip
  target : validateTaskTargetAndSchedule host item.model = none

theorem given_ne_empty {value fallback : String} (h : fallback ≠ "") :
    (if value = "" then fallback else value) ≠ "" := by
  split
  · exact h
  · assumption

theorem TaskChecked.normal {host : Host} {task : Task} (h : TaskChecked host task)
    (htimezone : task.timezone ≠ "") :
    NormalTask host (.from task) ∧ ∃ text, NormalName text ∧ task.name = utf8 text := by
  obtain ⟨⟨raw, settings, ip, name, hname, hfields⟩, htarget⟩ := h
  obtain ⟨hlength, hchecked, rfl⟩ := validateTaskFields_ok_iff.mp hfields
  have hnamed : trimText raw.name = utf8 (trimmed name) := by rw [hname, trimText_utf8]
  refine ⟨⟨htimezone, trimmed_trimmed _, trimmed_trimmed _, trimmed_trimmed _, trimmed_trimmed _,
    given_ne_empty (by decide), given_ne_empty (by decide), ⟨_, rfl⟩, ⟨_, rfl⟩,
    ⟨ip, rfl, ?_⟩, htarget⟩, trimmed name, ⟨trimmed_trimmed _, ?_⟩, hnamed⟩
  · exact ⟨hchecked.description, hchecked.interfaceName, hchecked.randomJitter, hchecked.timeout,
      hchecked.ipFamily, hchecked.routeValidation, host.lawful.parseIP_ipString ip, hchecked.ipv4,
      hchecked.ipv6⟩
  · rw [← hnamed]
    exact hlength

namespace NormalTask

variable {host : Host} {item : ConfigurationTask}

/-- The copy of a task has another identity and name, and is not enabled. -/
theorem renamed (h : NormalTask host item) (id : String) (name : Text) (enabled : Bool) :
    NormalTask host { item with id := id, name := name, enabled := enabled } := by
  obtain ⟨ip, hsource, hfields⟩ := h.address
  exact ⟨h.timezone, h.description, h.interfaceName, h.serverID, h.serverURL, h.cronExpression,
    h.serverSelectionMode, h.customServerDefinition, h.providerOptions,
    ⟨ip, hsource, hfields.description, hfields.interfaceName, hfields.randomJitter,
      hfields.timeout, hfields.ipFamily, hfields.routeValidation, hfields.sourceIP, hfields.ipv4,
      hfields.ipv6⟩, h.target⟩

theorem given (h : NormalTask host item) :
    item.ipFamily ≠ "" ∧ item.routeValidation ≠ "" ∧ item.timeoutSeconds ≠ 0 := by
  obtain ⟨ip, -, hfields⟩ := h.address
  refine ⟨fun hempty ↦ ?_, fun hempty ↦ ?_, fun hzero ↦ ?_⟩
  · have hfamily : item.ipFamily = _ ∨ item.ipFamily = _ ∨ item.ipFamily = _ := hfields.ipFamily
    rw [hempty] at hfamily
    exact absurd hfamily (by decide)
  · have hvalidation : item.routeValidation = _ ∨ item.routeValidation = _ :=
      hfields.routeValidation
    rw [hempty] at hvalidation
    exact absurd hvalidation (by decide)
  · have htimeout : 5 ≤ item.timeoutSeconds := hfields.timeout.1
    omega

/-- The defaults change nothing but the name. -/
theorem defaults (h : NormalTask host item) (settings : Settings) :
    applyTaskDefaults item.model settings = { item.model with name := trimText item.name } := by
  obtain ⟨hfamily, hvalidation, htimeout⟩ := h.given
  obtain ⟨ip, hsource, -⟩ := h.address
  obtain ⟨custom, hcustom⟩ := h.customServerDefinition
  obtain ⟨options, hoptions⟩ := h.providerOptions
  have htrimmed : trimmed item.sourceIP = item.sourceIP := by
    rw [hsource]
    exact host.lawful.trimmed_ipString ip
  simp only [applyTaskDefaults, ConfigurationTask.model, h.description, h.interfaceName, htrimmed,
    h.serverID, h.serverURL, h.cronExpression, h.timezone, h.serverSelectionMode, hfamily,
    htimeout, hvalidation, hcustom, hoptions, if_false, Option.getD_some]

/-- The checks of the fields leave the task as it is. -/
theorem fields (h : NormalTask host item) {name : Text}
    (hname : 1 ≤ name.length ∧ name.length ≤ 120) :
    ∃ ip, host.net.parseIP item.sourceIP = some ip ∧
      validateTaskFields host.net { item.model with name := name } =
        .ok (ip, { item.model with name := name }) := by
  obtain ⟨ip, hsource, hfields⟩ := h.address
  refine ⟨ip, hfields.sourceIP, validateTaskFields_ok_iff.mpr ⟨hname, ?_, ?_⟩⟩
  · exact ⟨hfields.description, hfields.interfaceName, hfields.randomJitter, hfields.timeout,
      hfields.ipFamily, hfields.routeValidation, hfields.sourceIP, hfields.ipv4, hfields.ipv6⟩
  · rw [← hsource]
    rfl

end NormalTask

/-! ## Route profiles -/

/-- What checks have left of a profile. -/
structure NormalRoute (net : Net) (item : ConfigurationRouteProfile) : Prop where
  name : trimmed item.name = item.name
  description : trimmed item.description = item.description
  interfaceName : trimmed item.interfaceName = item.interfaceName
  sourceIP : trimmed item.sourceIP = item.sourceIP
  expectedGateway : trimmed item.expectedGateway = item.expectedGateway
  expectedRoutingTable : trimmed item.expectedRoutingTable = item.expectedRoutingTable
  notes : trimmed item.notes = item.notes
  validationTarget : trimmed item.validationTarget = item.validationTarget
  target : item.validationTarget ≠ ""
  fields : validateRouteFields net item.model = none

theorem familyValidationTarget_normal (net : Net) (source : String) :
    trimmed (familyValidationTarget net source) = familyValidationTarget net source ∧
      familyValidationTarget net source ≠ "" := by
  have hfour : trimmed "1.1.1.1" = "1.1.1.1" ∧ "1.1.1.1" ≠ "" := by decide
  have hsix : trimmed "2606:4700:4700::1111" = "2606:4700:4700::1111" ∧
      "2606:4700:4700::1111" ≠ "" := by decide
  unfold familyValidationTarget
  split
  · split
    · exact hsix
    · exact hfour
  · exact hfour

/-- The checks depend on the exported columns only. -/
theorem validateRouteFields_model (net : Net) (profile : RouteProfile) :
    validateRouteFields net (ConfigurationRouteProfile.from profile).model =
      validateRouteFields net profile := rfl

theorem exported_validationTarget (profile : RouteProfile) :
    (ConfigurationRouteProfile.from profile).validationTarget = profile.validationTarget := rfl

theorem validationTarget_defaults (net : Net) (raw : RouteProfile) :
    trimmed (applyRouteDefaults net raw).validationTarget =
        (applyRouteDefaults net raw).validationTarget ∧
      (applyRouteDefaults net raw).validationTarget ≠ "" := by
  rw [applyRouteDefaults]
  dsimp only
  split
  · exact familyValidationTarget_normal net _
  · exact ⟨trimmed_trimmed _, by assumption⟩

theorem normalRoute_defaults {net : Net} {raw : RouteProfile}
    (h : validateRouteFields net (applyRouteDefaults net raw) = none) :
    NormalRoute net (.from (applyRouteDefaults net raw)) where
  name := trimmed_trimmed raw.name
  description := trimmed_trimmed raw.description
  interfaceName := trimmed_trimmed raw.interfaceName
  sourceIP := trimmed_trimmed raw.sourceIP
  expectedGateway := trimmed_trimmed raw.expectedGateway
  expectedRoutingTable := trimmed_trimmed raw.expectedRoutingTable
  notes := trimmed_trimmed raw.notes
  validationTarget := by
    rw [exported_validationTarget]
    exact (validationTarget_defaults net raw).1
  target := by
    rw [exported_validationTarget]
    exact (validationTarget_defaults net raw).2
  fields := by
    rw [validateRouteFields_model]
    exact h

/-- The defaults leave the profile as it is. -/
theorem NormalRoute.defaults {net : Net} {item : ConfigurationRouteProfile}
    (h : NormalRoute net item) : applyRouteDefaults net item.model = item.model := by
  simp only [applyRouteDefaults, ConfigurationRouteProfile.model, h.name, h.description,
    h.interfaceName, h.sourceIP, h.expectedGateway, h.expectedRoutingTable, h.validationTarget,
    h.target, h.notes, if_false, Option.getD_some]

end MultiSpeed.Api
