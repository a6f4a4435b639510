import MultiSpeed.Lib.AddressLength

/-!
# Addresses of sockets

An address of version 4 is also one of version 6, and a library that keeps both as one
number of 128 bits writes it as the former.  An endpoint is an address with a port.
-/

namespace AddressText

namespace Address

/-! ## One number for both versions -/

/-- The address as one of version 6. -/
def toIP : Address → BitVec 128
  | v4 bits => BitVec.ofNat 128 (0xFFFF * 2 ^ 32 + bits.toNat)
  | v6 bits _ => bits

def ofIP (ip : BitVec 128) : Address :=
  if mapped ip then v4 (BitVec.ofNat 32 ip.toNat) else v6 ip []

/-- The address of version 4 that one of version 6 stands for. -/
def unmap : Address → Address
  | v4 bits => v4 bits
  | v6 bits zone => if mapped bits then v4 (BitVec.ofNat 32 bits.toNat) else v6 bits zone

def isUnspecified : Address → Bool
  | v4 bits => bits.toNat = 0
  | v6 bits zone => bits.toNat = 0 && zone = []

def isMulticast (a : Address) : Bool :=
  match a.unmap with
  | v4 bits => bits.toNat / 2 ^ 28 = 0xE
  | v6 bits _ => bits.toNat / 2 ^ 120 = 0xFF

/-- `parse` for addresses without a zone. -/
def parseIP (s : List Char) : Option (BitVec 128) :=
  match parse s with
  | some a => if a.zone = [] then some a.toIP else none
  | none => none

def ipText (ip : BitVec 128) : List Char := (ofIP ip).text

theorem toIP_ofIP (ip : BitVec 128) : (ofIP ip).toIP = ip := by
  rw [ofIP]
  split
  · rename_i hmapped
    have hhigh : ip.toNat / 2 ^ 32 = 0xFFFF := of_decide_eq_true hmapped
    apply BitVec.eq_of_toNat_eq
    rw [toIP, BitVec.toNat_ofNat, BitVec.toNat_ofNat]
    omega
  · rfl

theorem zone_ofIP (ip : BitVec 128) : (ofIP ip).zone = [] := by
  rw [ofIP]
  split <;> rfl

theorem unmap_ofIP (ip : BitVec 128) : (ofIP ip).unmap = ofIP ip := by
  rw [ofIP]
  split
  · rfl
  · rename_i hmapped
    rw [unmap, if_neg hmapped]

theorem ofIP_injective : Function.Injective ofIP :=
  Function.LeftInverse.injective toIP_ofIP

theorem parse_ipText (ip : BitVec 128) : parse (ipText ip) = some (ofIP ip) := parse_text _

theorem parseIP_ipText (ip : BitVec 128) : parseIP (ipText ip) = some ip := by
  rw [parseIP, parse_ipText]
  simp only [zone_ofIP, if_true, toIP_ofIP]

theorem ipText_injective : Function.Injective ipText :=
  text_injective.comp ofIP_injective

theorem isUnspecified_ofIP (ip : BitVec 128) :
    (ofIP ip).isUnspecified = (ip.toNat = 0 || ip.toNat = 0xFFFF * 2 ^ 32 : Bool) := by
  rw [ofIP]
  split
  · rename_i hmapped
    have hhigh : ip.toNat / 2 ^ 32 = 0xFFFF := of_decide_eq_true hmapped
    rw [isUnspecified, BitVec.toNat_ofNat, Bool.eq_iff_iff, decide_eq_true_eq,
      Bool.or_eq_true, decide_eq_true_eq, decide_eq_true_eq]
    omega
  · rename_i hmapped
    have hhigh : ¬ip.toNat / 2 ^ 32 = 0xFFFF := fun h ↦ hmapped (decide_eq_true h)
    have hne : ip.toNat ≠ 0xFFFF * 2 ^ 32 := by omega
    rw [isUnspecified, decide_eq_false hne, Bool.or_false, decide_eq_true rfl, Bool.and_true]

theorem isMulticast_ofIP (ip : BitVec 128) :
    (ofIP ip).isMulticast =
      if mapped ip then decide (ip.toNat / 2 ^ 28 % 16 = 0xE)
      else decide (ip.toNat / 2 ^ 120 = 0xFF) := by
  rw [isMulticast, unmap_ofIP]
  by_cases hmapped : mapped ip
  · rw [ofIP, if_pos hmapped, if_pos hmapped]
    apply decide_eq_decide.mpr
    rw [BitVec.toNat_ofNat]
    omega
  · rw [ofIP, if_neg hmapped, if_neg hmapped]

end Address

/-! ## Endpoints -/

/-- An address with a port. -/
abbrev Endpoint := Address × ℕ

namespace Endpoint

/-- The text of an endpoint, with brackets around an address of version 6. -/
def text : Endpoint → List Char
  | (.v4 bits, port) => (Address.v4 bits).text ++ ':' :: Nat.toDigits 10 port
  | (.v6 bits zone, port) =>
      ['['] ++ (Address.v6 bits zone).text ++ [']'] ++ ':' :: Nat.toDigits 10 port

/-- A port is a decimal numeral of sixteen bits, which may have leading zeros. -/
def port? (s : List Char) : Option ℕ :=
  if s = [] then none else (number? 10 s).filter (· < 65536)

def parse (s : List Char) : Option Endpoint :=
  match cutLast ':' s with
  | none => none
  | some (host, port) =>
      if host = [] ∨ (host.head? = some '[' ∧ host.getLast? ≠ some ']') then none
      else
        let bracketed := host.head? = some '['
        match port? port, Address.parse (if bracketed then host.tail.dropLast else host) with
        | some port, some address =>
            if bracketed ↔ address.is6 then some (address, port) else none
        | _, _ => none

theorem port?_toDigits {n : ℕ} (hn : n < 65536) : port? (Nat.toDigits 10 n) = some n := by
  rw [port?, if_neg Nat.toDigits_ne_nil, number?_toDigits (by decide) (by decide)]
  simp [hn]

theorem parse_text {e : Endpoint} (hport : e.2 < 65536) : parse e.text = some e := by
  obtain ⟨a, port⟩ := e
  have hcolon : ':' ∉ Nat.toDigits 10 port :=
    not_mem_toDigits (by decide) (by decide) (by decide)
  cases a with
  | v4 bits =>
      have hne : (Address.v4 bits).text ≠ [] :=
        List.ne_nil_of_mem (Address.point_mem_octetsText (length_places 256 4 bits.toNat))
      have hhead : (Address.v4 bits).text.head? ≠ some '[' := by
        intro hhead
        rcases mem_octetsText (List.mem_of_mem_head? hhead) with h | h <;> cases h
      rw [text, parse, cutLast_append hcolon]
      simp [hne, hhead, port?_toDigits hport, Address.parse_text, Address.is6]
  | v6 bits zone =>
      have hlast : (['['] ++ (Address.v6 bits zone).text ++ [']']).getLast? = some ']' := by
        rw [List.getLast?_append]
        rfl
      rw [text, parse, cutLast_append hcolon]
      simp only [hlast]
      simp [port?_toDigits hport, Address.parse_text, Address.is6]

/-! ## Lengths -/

theorem length_port_le {port : ℕ} (hport : port < 65536) : (Nat.toDigits 10 port).length ≤ 5 :=
  (Nat.length_toDigits_le_iff (by decide) (by decide)).mpr (by omega)

theorem extent_toDigits_le {b k bound : ℕ} (hb : 1 < b) (hk : 0 < k) (hbound : bound ≤ b ^ k)
    {numbers : List ℕ} (h : ∀ n ∈ numbers, n < bound) :
    extent (numbers.map (Nat.toDigits b)) ≤ (k + 1) * numbers.length := by
  induction numbers with
  | nil => rfl
  | cons n numbers ih =>
      have hn : (Nat.toDigits b n).length ≤ k :=
        (Nat.length_toDigits_le_iff hb hk).mpr ((h n List.mem_cons_self).trans_le hbound)
      have hrest := ih fun m hm ↦ h m (List.mem_cons_of_mem n hm)
      rw [List.map_cons, extent_cons, List.length_cons, Nat.mul_add]
      omega

theorem length_octetsText_le (n : ℕ) : (octetsText (places 256 4 n)).length ≤ 15 := by
  have hextent := extent_toDigits_le (b := 10) (k := 3) (by decide) (by decide) (by decide)
    fun o (ho : o ∈ places 256 4 n) ↦ lt_of_mem_places (by decide) ho
  rw [length_places] at hextent
  rw [octetsText, length_intercalate]
  omega

theorem length_groupsText_le_39 (n : ℕ) : (groupsText (places 65536 8 n)).length ≤ 39 := by
  have hextent := extent_toDigits_le (b := 16) (k := 4) (by decide) (by decide) (by decide)
    fun g (hg : g ∈ places 65536 8 n) ↦ lt_of_mem_places (by decide) hg
  rw [length_places] at hextent
  have hweight : weight (places 65536 8 n) ≤ 40 := hextent
  rcases length_groupsText (places 65536 8 n) with ⟨hlength, -⟩ | ⟨hrun, hlength⟩
  · omega
  · have hsum := weight_take_drop_run hrun
    have := hrun.1
    omega

/-- An endpoint without a zone has at most 47 characters. -/
theorem length_text_le {e : Endpoint} (hzone : e.1.zone = []) (hport : e.2 < 65536) :
    e.text.length ≤ 47 := by
  obtain ⟨a, port⟩ := e
  have hdigits : (Nat.toDigits 10 port).length ≤ 5 := length_port_le hport
  cases a with
  | v4 bits =>
      have hoctets := length_octetsText_le bits.toNat
      rw [text, Address.text, List.length_append, List.length_cons]
      omega
  | v6 bits zone =>
      obtain rfl : zone = [] := hzone
      have htext : (Address.text6 bits).length ≤ 39 := by
        rw [Address.text6]
        split
        · have hoctets := length_octetsText_le bits.toNat
          rw [List.length_append]
          simp only [String.reduceToList, List.length_cons, List.length_nil]
          omega
        · exact length_groupsText_le_39 bits.toNat
      rw [text, Address.text, if_pos rfl, List.append_nil]
      simp only [List.length_append, List.length_cons, List.length_nil]
      omega

end Endpoint

end AddressText
