import MultiSpeed.Models

/-!
# Provider output

The text functions every stored message goes through.  A text is a sequence of
bytes; `decodeRunes` reads it the way Go ranges over a string, where a byte that
begins no valid encoding counts as the replacement character.
-/

namespace MultiSpeed.Providers

/-- The continuation bytes between two bounds. -/
def continues (low high b : UInt8) : Bool := decide (low ≤ b ∧ b ≤ high)

/-- The first rune of a text and the number of its bytes, as `utf8.DecodeRune`. -/
def decodeRune : Text → ℕ × ℕ
  | [] => (0xFFFD, 0)
  | b :: rest =>
      if b < 0x80 then (b.toNat, 1)
      else if 0xC2 ≤ b ∧ b ≤ 0xDF then
        match rest with
        | c :: _ =>
            if continues 0x80 0xBF c then ((b.toNat % 32) * 64 + c.toNat % 64, 2)
            else (0xFFFD, 1)
        | [] => (0xFFFD, 1)
      else if 0xE0 ≤ b ∧ b ≤ 0xEF then
        match rest with
        | c :: d :: _ =>
            if continues (if b = 0xE0 then 0xA0 else 0x80) (if b = 0xED then 0x9F else 0xBF) c
                && continues 0x80 0xBF d then
              ((b.toNat % 16) * 4096 + (c.toNat % 64) * 64 + d.toNat % 64, 3)
            else (0xFFFD, 1)
        | _ => (0xFFFD, 1)
      else if 0xF0 ≤ b ∧ b ≤ 0xF4 then
        match rest with
        | c :: d :: e :: _ =>
            if continues (if b = 0xF0 then 0x90 else 0x80) (if b = 0xF4 then 0x8F else 0xBF) c
                && continues 0x80 0xBF d && continues 0x80 0xBF e then
              ((b.toNat % 8) * 262144 + (c.toNat % 64) * 4096 + (d.toNat % 64) * 64 +
                e.toNat % 64, 4)
            else (0xFFFD, 1)
        | _ => (0xFFFD, 1)
      else (0xFFFD, 1)

/-- The runes of a text. -/
def decodeRunes (text : Text) : List ℕ := go text.length text
where
  go : ℕ → Text → List ℕ
    | 0, _ => []
    | _ + 1, [] => []
    | fuel + 1, b :: rest =>
        let (rune, width) := decodeRune (b :: rest)
        rune :: go fuel ((b :: rest).drop width)

def encodeRunes (runes : List ℕ) : Text :=
  runes.flatMap fun rune ↦ String.utf8EncodeChar (Char.ofNat rune)

/-- A text as a decoded string, invalid bytes replaced. -/
def decoded (text : Text) : String := String.ofList ((decodeRunes text).map Char.ofNat)

/-- `unicode.IsSpace`. -/
def isSpace (rune : ℕ) : Bool :=
  decide (9 ≤ rune ∧ rune ≤ 13) || decide (0x2000 ≤ rune ∧ rune ≤ 0x200A) ||
    decide (rune ∈ [0x20, 0x85, 0xA0, 0x1680, 0x2028, 0x2029, 0x202F, 0x205F, 0x3000])

/-- `strings.TrimSpace` of the runes. -/
def trimSpace (runes : List ℕ) : List ℕ :=
  ((runes.dropWhile isSpace).reverse.dropWhile isSpace).reverse

def maxStoredOutput : ℕ := 262144

/-- `SanitizeOutput`: control characters are dropped, white space at both ends is
trimmed, and what exceeds the limit is cut off at a byte. -/
def sanitizeOutput (value : Text) (limit : ℤ) : Text :=
  let limit := if limit < 1 ∨ maxStoredOutput < limit then maxStoredOutput else limit.toNat
  let kept := (decodeRunes value).filter fun rune ↦
    !(decide (rune < 32) && !decide (rune = 10 ∨ rune = 13 ∨ rune = 9))
  let value := encodeRunes (trimSpace kept)
  if limit < value.length then value.take limit ++ utf8 "…[truncated]" else value

end MultiSpeed.Providers
