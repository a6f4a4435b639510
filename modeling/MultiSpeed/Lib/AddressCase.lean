import MultiSpeed.Lib.Endpoints

/-!
# Letter case of address texts

A map of characters that keeps the value of every digit and the marks between them does
not change what a text is an address of.
-/

namespace AddressText

/-- The map keeps digits of both cases by their value, and the marks. -/
structure KeepsDigits (f : Char → Char) : Prop where
  digit : ∀ c, digit? (f c) = digit? c
  mark : ∀ c m, Address.mark m → (f c = m ↔ c = m)

section

variable {f : Char → Char}

theorem splitOn_map {m : Char} (hm : ∀ c, f c = m ↔ c = m) (s : List Char) :
    (s.map f).splitOn m = (s.splitOn m).map (List.map f) := by
  induction s with
  | nil => rfl
  | cons c s ih =>
      rw [List.map_cons, List.splitOn_cons_eq_if_modifyHead, List.splitOn_cons_eq_if_modifyHead]
      by_cases hc : c = m
      · rw [if_pos (beq_iff_eq.mpr ((hm c).mpr hc)), if_pos (beq_iff_eq.mpr hc), ih]
        rfl
      · have hfc : ¬f c = m := fun h ↦ hc ((hm c).mp h)
        rw [if_neg (by simpa using hfc), if_neg (by simpa using hc), ih]
        cases s.splitOn m with
        | nil => rfl
        | cons field fields => rfl

theorem takeWhile_map_ne {m : Char} (hm : ∀ c, f c = m ↔ c = m) (s : List Char) :
    (s.map f).takeWhile (· ≠ m) = (s.takeWhile (· ≠ m)).map f := by
  rw [List.takeWhile_map]
  congr 2
  ext c
  simp [hm c]

theorem dropWhile_map_ne {m : Char} (hm : ∀ c, f c = m ↔ c = m) (s : List Char) :
    (s.map f).dropWhile (· ≠ m) = (s.dropWhile (· ≠ m)).map f := by
  rw [List.dropWhile_map]
  congr 2
  ext c
  simp [hm c]

theorem mem_map_iff_of_eq_iff {m : Char} (hm : ∀ c, f c = m ↔ c = m) {s : List Char} :
    m ∈ s.map f ↔ m ∈ s := by
  rw [List.mem_map]
  constructor
  · rintro ⟨c, hc, heq⟩
    exact (hm c).mp heq ▸ hc
  · intro h
    exact ⟨m, h, (hm m).mpr rfl⟩

theorem cutLast_map {m : Char} (hm : ∀ c, f c = m ↔ c = m) (s : List Char) :
    cutLast m (s.map f) = (cutLast m s).map fun (before, after) ↦ (before.map f, after.map f) := by
  rw [cutLast, cutLast]
  by_cases hmem : m ∈ s
  · rw [if_pos ((mem_map_iff_of_eq_iff hm).mpr hmem), if_pos hmem, ← List.map_reverse,
      takeWhile_map_ne hm, dropWhile_map_ne hm]
    simp
  · rw [if_neg fun h ↦ hmem ((mem_map_iff_of_eq_iff hm).mp h), if_neg hmem]
    rfl

theorem cutFirst_map {m : Char} (hm : ∀ c, f c = m ↔ c = m) (s : List Char) :
    cutFirst m (s.map f) =
      (cutFirst m s).map fun (before, after) ↦ (before.map f, after.map f) := by
  rw [cutFirst, cutFirst]
  by_cases hmem : m ∈ s
  · rw [if_pos ((mem_map_iff_of_eq_iff hm).mpr hmem), if_pos hmem, takeWhile_map_ne hm,
      dropWhile_map_ne hm]
    simp
  · rw [if_neg fun h ↦ hmem ((mem_map_iff_of_eq_iff hm).mp h), if_neg hmem]
    rfl

theorem count_map_of_eq_iff {m : Char} (hm : ∀ c, f c = m ↔ c = m) (s : List Char) :
    (s.map f).count m = s.count m := by
  induction s with
  | nil => rfl
  | cons c s ih =>
      rw [List.map_cons, List.count_cons, List.count_cons, ih]
      simp only [beq_iff_eq, hm c]

theorem head?_map_iff {m : Char} (hm : ∀ c, f c = m ↔ c = m) (s : List Char) :
    (s.map f).head? = some m ↔ s.head? = some m := by
  cases s with
  | nil => rfl
  | cons c s => simp [hm c]

theorem mapM_map_congr {α β : Type*} {p q : α → Option β} {g : α → α} {l : List α}
    (h : ∀ a ∈ l, p (g a) = q a) : (l.map g).mapM p = l.mapM q := by
  induction l with
  | nil => rfl
  | cons a l ih =>
      rw [List.map_cons, List.mapM_cons, List.mapM_cons, h a List.mem_cons_self,
        ih fun b hb ↦ h b (List.mem_cons_of_mem a hb)]

variable (hf : KeepsDigits f)

include hf

theorem number?_map (b : ℕ) (s : List Char) : number? b (s.map f) = number? b s := by
  rw [number?, number?, mapM_map_congr fun c _ ↦ by rw [hf.digit]]

theorem head?_map_zero (s : List Char) : (s.map f).head? = some '0' ↔ s.head? = some '0' := by
  cases s with
  | nil => rfl
  | cons c s =>
      simp only [List.map_cons, List.head?_cons, Option.some.injEq]
      constructor
      · intro h
        exact digit?_eq_zero (by rw [← hf.digit, h]; rfl)
      · rintro rfl
        exact digit?_eq_zero (by rw [hf.digit]; rfl)

theorem octet?_map (s : List Char) : octet? (s.map f) = octet? s := by
  rw [octet?, octet?, number?_map hf]
  simp only [List.map_eq_nil_iff, head?_map_zero hf, List.length_map]

theorem group?_map (s : List Char) : group? (s.map f) = group? s := by
  rw [group?, group?, number?_map hf]
  simp only [List.map_eq_nil_iff, List.length_map]

theorem octets?_map (s : List Char) : octets? (s.map f) = octets? s := by
  rw [octets?, octets?, splitOn_map fun c ↦ hf.mark c '.' rfl, List.length_map,
    mapM_map_congr fun field _ ↦ octet?_map hf field]

theorem groups?_map (fields : List (List Char)) :
    groups? (fields.map (List.map f)) = groups? fields := by
  induction fields with
  | nil => rfl
  | cons field fields ih =>
      cases fields with
      | nil =>
          rw [List.map_singleton, groups?, groups?, octets?_map hf, group?_map hf]
          simp only [mem_map_iff_of_eq_iff fun c ↦ hf.mark c '.' rfl]
      | cons next fields =>
          rw [List.map_cons, groups?.eq_3 _ _ (by simp), groups?.eq_3 _ _ (by simp), ih,
            group?_map hf]

theorem cutEllipsis_map (s : List Char) :
    cutEllipsis (s.map f) = (cutEllipsis s).map fun (left, right) ↦ (left.map f, right.map f) := by
  induction s using cutEllipsis.induct with
  | case1 => rfl
  | case2 => rfl
  | case3 c c' rest h =>
      obtain ⟨rfl, rfl⟩ := h
      have hcolon : f ':' = ':' := (hf.mark ':' ':' rfl).mpr rfl
      simp [cutEllipsis, hcolon]
  | case4 c c' rest h ih =>
      have h' : ¬(f c = ':' ∧ f c' = ':') := by
        rwa [hf.mark c ':' rfl, hf.mark c' ':' rfl]
      rw [List.map_cons] at ih
      rw [List.map_cons, List.map_cons, cutEllipsis, cutEllipsis, if_neg h, if_neg h', ih,
        Option.map_map, Option.map_map]
      rfl

theorem fieldsOf_map (s : List Char) : fieldsOf (s.map f) = (fieldsOf s).map (List.map f) := by
  rw [fieldsOf, fieldsOf]
  by_cases hs : s = []
  · rw [hs]
    rfl
  · rw [if_neg hs, if_neg fun h ↦ hs (List.map_eq_nil_iff.mp h),
      splitOn_map fun c ↦ hf.mark c ':' rfl]

theorem sixGroups?_map (s : List Char) : sixGroups? (s.map f) = sixGroups? s := by
  rw [sixGroups?, sixGroups?, cutEllipsis_map hf]
  cases cutEllipsis s with
  | none =>
      simp only [Option.map_none]
      rw [fieldsOf_map hf, groups?_map hf]
  | some parts =>
      obtain ⟨left, right⟩ := parts
      simp only [Option.map_some]
      rw [fieldsOf_map hf, fieldsOf_map hf, groups?_map hf,
        mapM_map_congr fun field _ ↦ group?_map hf field]

namespace Address

/-- The address, whose zone is changed with its text. -/
def mapZone (f : Char → Char) : Address → Address
  | v4 bits => v4 bits
  | v6 bits zone => v6 bits (zone.map f)

theorem parseGroups_map (s : List Char) :
    parseGroups (s.map f) = (parseGroups s).map (mapZone f) := by
  have hpercent : ∀ c, f c = '%' ↔ c = '%' := fun c ↦ hf.mark c '%' rfl
  have hzone : (s.dropWhile (· ≠ '%')).map f = ['%'] ↔ s.dropWhile (· ≠ '%') = ['%'] := by
    cases s.dropWhile (· ≠ '%') with
    | nil => simp
    | cons c rest => simp [hpercent c]
  simp only [parseGroups, takeWhile_map_ne hpercent, dropWhile_map_ne hpercent, hzone,
    sixGroups?_map hf]
  split
  · rfl
  · rw [Option.map_map, ← List.map_drop]
    rfl

theorem find?_mark_map (s : List Char) : (s.map f).find? mark = s.find? mark := by
  induction s with
  | nil => rfl
  | cons c s ih =>
      by_cases hc : mark c
      · have hfc : f c = c := (hf.mark c c hc).mpr rfl
        rw [List.map_cons, hfc, List.find?_cons_of_pos hc, List.find?_cons_of_pos hc]
      · have hfc : ¬mark (f c) := fun h ↦ hc ((hf.mark c (f c) h).mp rfl ▸ h)
        rw [List.map_cons, List.find?_cons_of_neg hfc, List.find?_cons_of_neg hc, ih]

theorem parse_map (s : List Char) : parse (s.map f) = (parse s).map (mapZone f) := by
  rw [parse, parse, find?_mark_map hf, octets?_map hf, parseGroups_map hf]
  split
  · rw [Option.map_map]
    rfl
  · rfl
  · rfl

theorem parseIP_map (s : List Char) : parseIP (s.map f) = parseIP s := by
  rw [parseIP, parseIP, parse_map hf]
  cases parse s with
  | none => rfl
  | some a =>
      cases a with
      | v4 bits => rfl
      | v6 bits zone =>
          by_cases hzone : zone = []
          · simp [mapZone, Address.zone, toIP, hzone]
          · simp [mapZone, Address.zone, hzone]

end Address

end

end AddressText
