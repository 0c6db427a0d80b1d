/-!
# Texts as bytes

* `encodeUtf8`: the bytes of a text.
* `decodeUtf8`: the text of bytes. Each longest beginning of a broken sequence is read as one
  replacement character.
-/

namespace LiquidTemplate.Text

/-- **Bytes** of a text. -/
def encodeUtf8 (cs : List Char) : List UInt8 :=
  cs.flatMap String.utf8EncodeChar

/-- **Rest of a sequence.** The character with the bits `code` so far, whose other bytes have to lie
in the given ranges; `none` where one does not. -/
def followBytes (code : Nat) : List (UInt8 × UInt8) → List UInt8 → Option Char × List UInt8
  | [], bs => (some (Char.ofNat code), bs)
  | _ :: _, [] => (none, [])
  | (lo, hi) :: ranges, b :: bs =>
    if lo ≤ b ∧ b ≤ hi then followBytes (code * 64 + b.toNat % 64) ranges bs else (none, b :: bs)

/-- The range of the bytes that continue a sequence. -/
def anyContinuation : UInt8 × UInt8 :=
  (0x80, 0xBF)

/-- **One character** that begins with the byte `b`, and the bytes behind it. The ranges of the
second byte exclude longer spellings than needed, surrogates, and what lies beyond the last code
point. -/
def decodeChar (b : UInt8) (bs : List UInt8) : Option Char × List UInt8 :=
  let n := b.toNat
  if n < 0x80 then (some (Char.ofNat n), bs)
  else if n < 0xC2 then (none, bs)
  else if n < 0xE0 then followBytes (n % 32) [anyContinuation] bs
  else if n < 0xF0 then
    let second := if n = 0xE0 then (0xA0, 0xBF) else if n = 0xED then (0x80, 0x9F) else (0x80, 0xBF)
    followBytes (n % 16) [second, anyContinuation] bs
  else if n < 0xF5 then
    let second := if n = 0xF0 then (0x90, 0xBF) else if n = 0xF4 then (0x80, 0x8F) else (0x80, 0xBF)
    followBytes (n % 8) [second, anyContinuation, anyContinuation] bs
  else (none, bs)

theorem length_followBytes_le (code : Nat) (ranges : List (UInt8 × UInt8)) (bs : List UInt8) :
    (followBytes code ranges bs).2.length ≤ bs.length := by
  fun_induction followBytes code ranges bs with
  | case1 => exact Nat.le_refl _
  | case2 => exact Nat.le_refl _
  | case3 code lo hi ranges b bs h ih =>
    rw [List.length_cons]
    omega
  | case4 => exact Nat.le_refl _

theorem length_decodeChar_le (b : UInt8) (bs : List UInt8) :
    (decodeChar b bs).2.length ≤ bs.length := by
  unfold decodeChar
  dsimp only
  split
  · exact Nat.le_refl _
  · split
    · exact Nat.le_refl _
    · split
      · exact length_followBytes_le _ _ _
      · split
        · exact length_followBytes_le _ _ _
        · split
          · exact length_followBytes_le _ _ _
          · exact Nat.le_refl _

/-- The character for bytes that are no text. -/
def replacementChar : Char :=
  '\ufffd'

/-- **Text of bytes.** -/
def decodeUtf8 : List UInt8 → List Char
  | [] => []
  | b :: bs =>
    match _h : decodeChar b bs with
    | (c, rest) => c.getD replacementChar :: decodeUtf8 rest
termination_by bs => bs.length
decreasing_by
  have hl := length_decodeChar_le b bs
  rw [_h] at hl
  exact Nat.lt_succ_of_le hl

end LiquidTemplate.Text
