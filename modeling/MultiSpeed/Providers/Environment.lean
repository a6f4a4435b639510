import MultiSpeed.Providers.Requests
import MultiSpeed.Network.Route

/-!
# The environment of provider processes

`providerEnvironment` of `internal/providers/process`, and what a process reads of the
environment it is started with.
-/

namespace MultiSpeed.Providers

open Network

def maxArgumentLength : ℕ := 4096

def providerEnvironmentPrefix : String := "MULTISPEED_PROVIDER_"

def validProviderEnvironmentKey (key : String) : Bool :=
  providerEnvironmentPrefix.toList.isPrefixOf key.toList && (utf8 key).length ≤ 128 &&
    key.toList.all fun character ↦
      character = '_' || character.isUpper || character.isDigit

/-- The name of an entry of an environment, up to its first `=`. -/
def entryName (entry : List Char) : List Char := entry.takeWhile (· ≠ '=')

/-- The entry stays: it is not in the namespace of the provider values, and the home
directory is not given in its place. -/
def inherits (upper : Char → Char) (homeDirectory : String) (entry : List Char) : Bool :=
  let upperName := (entryName entry).map upper
  !providerEnvironmentPrefix.toList.isPrefixOf upperName &&
    (homeDirectory = "" ||
      upperName ≠ "HOME".toList && upperName ≠ "XDG_CONFIG_HOME".toList)

/-- `filepath.Join(homeDirectory, ".config")` of a cleaned directory. -/
def configHome (homeDirectory : String) : String :=
  if homeDirectory = "/" then "/.config" else homeDirectory ++ "/.config"

/-- `providerEnvironment`, where `environ` is the environment of the service and `upper`
is `unicode.ToUpper`. -/
def providerEnvironment (upper : Char → Char) (environ : List (List Char))
    (overrides : List (String × String)) (homeDirectory : String) :
    Except String (List (List Char)) :=
  if 16 < overrides.length then .error "too many provider environment values"
  else if overrides.any fun (key, value) ↦ !validProviderEnvironmentKey key ||
      maxArgumentLength < (utf8 value).length || containsAny value ['\x00', '\r', '\n'] then
    .error "provider environment value is invalid"
  else
    .ok (environ.filter (inherits upper homeDirectory) ++
      (if homeDirectory = "" then []
        else [("HOME=" ++ homeDirectory).toList,
          ("XDG_CONFIG_HOME=" ++ configHome homeDirectory).toList]) ++
      (overrides.mergeSort fun first second ↦ decide (first.1 ≤ second.1)).map
        fun (key, value) ↦ key.toList ++ '=' :: value.toList)

/-- `os.LookupEnv` in the started process: the value of the first entry with the name. -/
def lookupEnv (environment : List (List Char)) (key : String) : Option (List Char) :=
  (environment.find? fun entry ↦ '=' ∈ entry && entryName entry = key.toList).map
    fun entry ↦ (entry.dropWhile (· ≠ '=')).tail

/-! ## The namespace of the provider values -/

section

variable {upper : Char → Char}

/-- `unicode.ToUpper` keeps what is no lower case letter of ASCII. -/
def LawfulUpper (upper : Char → Char) : Prop :=
  ∀ c, c.toNat < 128 → upper c = c.toUpper

/-- The characters a name of the namespace is written with. -/
def keyCharacter (c : Char) : Prop := c = '_' ∨ c.isUpper ∨ c.isDigit

theorem keyCharacter_of_valid {key : String} (hkey : validProviderEnvironmentKey key) :
    ∀ c ∈ key.toList, keyCharacter c := by
  rw [validProviderEnvironmentKey, Bool.and_eq_true, List.all_eq_true] at hkey
  intro c hc
  simpa [keyCharacter, or_assoc] using hkey.2 c hc

theorem toNat_le_of_keyCharacter {c : Char} (h : keyCharacter c) : c.toNat ≤ 95 := by
  rcases h with rfl | h | h
  · decide
  · exact (of_decide_eq_true h).2.trans (by decide)
  · exact (Char.isDigit_iff_toNat.mp h).2.trans (by decide)

theorem map_upper_of_key (hupper : LawfulUpper upper) {key : List Char}
    (hkey : ∀ c ∈ key, keyCharacter c) : key.map upper = key := by
  have hsame : ∀ c ∈ key, upper c = id c := by
    intro c hc
    have hle := toNat_le_of_keyCharacter (hkey c hc)
    rw [hupper c (by omega)]
    refine dif_neg ?_
    rintro ⟨hge, -⟩
    rw [UInt32.le_iff_toNat_le] at hge
    exact absurd (le_trans hge hle) (by decide)
  rw [List.map_congr_left hsame, List.map_id]

/-- No entry with a name of the namespace is inherited. -/
theorem entryName_ne_of_inherits (hupper : LawfulUpper upper) {key : String}
    (hkey : validProviderEnvironmentKey key) {homeDirectory : String} {entry : List Char}
    (h : inherits upper homeDirectory entry) : entryName entry ≠ key.toList := by
  intro heq
  rw [inherits, heq, map_upper_of_key hupper (keyCharacter_of_valid hkey),
    Bool.and_eq_true] at h
  rw [validProviderEnvironmentKey, Bool.and_eq_true, Bool.and_eq_true] at hkey
  rw [hkey.1.1] at h
  cases h.1

theorem not_mem_key {key : String} (hkey : validProviderEnvironmentKey key) :
    '=' ∉ key.toList := by
  intro hmem
  rcases keyCharacter_of_valid hkey _ hmem with h | h | h <;> cases h

theorem entryName_append {name value : List Char} (hname : '=' ∉ name) :
    entryName (name ++ '=' :: value) = name := by
  have hother : ∀ c ∈ name, decide (c ≠ '=') = true := by
    intro c hc
    rw [decide_eq_true_eq]
    rintro rfl
    exact hname hc
  rw [entryName, List.takeWhile_append_of_pos hother]
  simp

theorem find?_inherited (hupper : LawfulUpper upper) (environ : List (List Char))
    {key : String} (hkey : validProviderEnvironmentKey key) (homeDirectory : String) :
    (environ.filter (inherits upper homeDirectory)).find?
      (fun entry ↦ '=' ∈ entry && entryName entry = key.toList) = none := by
  rw [List.find?_eq_none]
  intro entry hentry
  have hname := entryName_ne_of_inherits hupper hkey (List.mem_filter.mp hentry).2
  simp [hname]

/-- Without values of its own a request leaves no value of the namespace. -/
theorem providerEnvironment_nil (hupper : LawfulUpper upper) (environ : List (List Char))
    {key : String} (hkey : validProviderEnvironmentKey key) :
    ∃ environment, providerEnvironment upper environ [] "" = .ok environment ∧
      (∀ entry ∈ environment, entryName entry ≠ key.toList) ∧
      lookupEnv environment key = none := by
  refine ⟨environ.filter (inherits upper ""), ?_, ?_, ?_⟩
  · simp [providerEnvironment]
  · intro entry hentry
    exact entryName_ne_of_inherits hupper hkey (List.mem_filter.mp hentry).2
  · rw [lookupEnv, find?_inherited hupper environ hkey, Option.map_none]

/-- The value of a request is the only one of its name, whatever is inherited. -/
theorem providerEnvironment_single (hupper : LawfulUpper upper) (environ : List (List Char))
    {key value : String} (hkey : validProviderEnvironmentKey key)
    (hlength : (utf8 value).length ≤ maxArgumentLength)
    (hvalue : containsAny value ['\x00', '\r', '\n'] = false) :
    ∃ environment, providerEnvironment upper environ [(key, value)] "" = .ok environment ∧
      (environment.filter fun entry ↦ entryName entry = key.toList) =
        [key.toList ++ '=' :: value.toList] ∧
      lookupEnv environment key = some value.toList := by
  have hname : entryName (key.toList ++ '=' :: value.toList) = key.toList :=
    entryName_append (not_mem_key hkey)
  refine ⟨environ.filter (inherits upper "") ++ [key.toList ++ '=' :: value.toList], ?_, ?_, ?_⟩
  · have hvalid : ([(key, value)] : List (String × String)).any (fun (key, value) ↦
        !validProviderEnvironmentKey key || maxArgumentLength < (utf8 value).length ||
          containsAny value ['\x00', '\r', '\n']) = false := by
      simp [hkey, hlength, hvalue]
    rw [providerEnvironment, if_neg (by simp), hvalid]
    simp
  · have hinherited : (environ.filter (inherits upper "")).filter
        (fun entry ↦ entryName entry = key.toList) = [] := by
      rw [List.filter_eq_nil_iff]
      intro entry hentry
      have hne := entryName_ne_of_inherits hupper hkey (List.mem_filter.mp hentry).2
      simp [hne]
    rw [List.filter_append, hinherited, List.nil_append]
    simp [hname]
  · have hdrop : (key.toList ++ '=' :: value.toList).dropWhile (· ≠ '=') =
        '=' :: value.toList := by
      have hother : ∀ c ∈ key.toList, decide (c ≠ '=') = true := by
        intro c hc
        rw [decide_eq_true_eq]
        rintro rfl
        exact not_mem_key hkey hc
      rw [List.dropWhile_append_of_pos hother]
      simp
    rw [lookupEnv, List.find?_append, find?_inherited hupper environ hkey, Option.none_or,
      List.find?_cons_of_pos (by simp [hname]), Option.map_some, hdrop]
    rfl

end

end MultiSpeed.Providers
