import Mathlib.Data.List.Basic
import LiquidTemplate.Filter
import LiquidTemplate.Proofs.Filters.Replacing

/-!
# Texts in addresses

What is encoded for an address is decoded to the text that it was. Decoding goes by way of a form with
a single name, and nothing is cut off there: the separators of forms are written as percent forms
first, and these are read back along with the others.

* `Text.decodeUtf8_encodeUtf8`: reading the bytes of a text gives the text.
* `Url.decode_eq`: decoding goes byte by byte.
* `Url.decode_encode`: it undoes encoding.
* `url_round_trip`: the filters `url_encode` and `url_decode`.
-/

namespace LiquidTemplate

namespace Text

variable {c : Char} {cs : List Char}

/-! ### Bytes of characters -/

theorem toNat_byte {n : Nat} (h : n < 256) : (UInt8.ofNat n).toNat = n :=
  UInt8.toNat_ofNat_of_lt' h

theorem utf8EncodeChar_eq (c : Char) :
    String.utf8EncodeChar c =
      if c.toNat ≤ 0x7F then [UInt8.ofNat c.toNat]
      else if c.toNat ≤ 0x7FF then
        [UInt8.ofNat (c.toNat / 64 % 32 + 0xC0), UInt8.ofNat (c.toNat % 64 + 0x80)]
      else if c.toNat ≤ 0xFFFF then
        [UInt8.ofNat (c.toNat / 4096 % 16 + 0xE0), UInt8.ofNat (c.toNat / 64 % 64 + 0x80),
          UInt8.ofNat (c.toNat % 64 + 0x80)]
      else
        [UInt8.ofNat (c.toNat / 262144 % 8 + 0xF0), UInt8.ofNat (c.toNat / 4096 % 64 + 0x80),
          UInt8.ofNat (c.toNat / 64 % 64 + 0x80), UInt8.ofNat (c.toNat % 64 + 0x80)] :=
  rfl

/-- **A continuation byte** gives six more bits. -/
theorem followBytes_continuation {range : UInt8 × UInt8} {k : Nat} (hk : k < 64)
    (hrange : range.1.toNat ≤ k + 128 ∧ k + 128 ≤ range.2.toNat) (code : Nat)
    (ranges : List (UInt8 × UInt8)) (bs : List UInt8) :
    followBytes code (range :: ranges) (UInt8.ofNat (k + 128) :: bs) =
      followBytes (code * 64 + k) ranges bs := by
  have hb : (UInt8.ofNat (k + 128)).toNat = k + 128 := toNat_byte (by omega)
  have hbits : (k + 128) % 64 = k := by omega
  rw [followBytes, if_pos, hb, hbits]
  rwa [UInt8.le_iff_toNat_le, UInt8.le_iff_toNat_le, hb]

theorem followBytes_any {k : Nat} (hk : k < 64) (code : Nat) (ranges : List (UInt8 × UInt8))
    (bs : List UInt8) :
    followBytes code (anyContinuation :: ranges) (UInt8.ofNat (k + 128) :: bs) =
      followBytes (code * 64 + k) ranges bs := by
  refine followBytes_continuation hk ?_ code ranges bs
  show 0x80 ≤ k + 128 ∧ k + 128 ≤ 0xBF
  omega

/-- A character of one byte. -/
theorem decodeChar_one {n : Nat} (h : n < 0x80) (bs : List UInt8) :
    decodeChar (UInt8.ofNat n) bs = (some (Char.ofNat n), bs) := by
  unfold decodeChar
  dsimp only
  rw [toNat_byte (by omega), if_pos h]

/-- A character of two bytes. -/
theorem decodeChar_two {n : Nat} (hlo : 0x80 ≤ n) (hhi : n < 0x800) (bs : List UInt8) :
    decodeChar (UInt8.ofNat (n / 64 % 32 + 0xC0)) (UInt8.ofNat (n % 64 + 0x80) :: bs) =
      (some (Char.ofNat n), bs) := by
  have hcode : (n / 64 % 32 + 0xC0) % 32 * 64 + n % 64 = n := by omega
  unfold decodeChar
  dsimp only
  rw [toNat_byte (by omega), if_neg (by omega), if_neg (by omega), if_pos (by omega),
    followBytes_any (by omega), hcode, followBytes]

/-- A character of three bytes. Where the first byte leaves a choice between long spellings,
surrogates and others, the range of the second one is narrower. -/
theorem decodeChar_three {n : Nat} (hlo : 0x800 ≤ n) (hhi : n < 0x10000)
    (hvalid : n < 0xD800 ∨ 0xDFFF < n) (bs : List UInt8) :
    decodeChar (UInt8.ofNat (n / 4096 % 16 + 0xE0))
        (UInt8.ofNat (n / 64 % 64 + 0x80) :: UInt8.ofNat (n % 64 + 0x80) :: bs) =
      (some (Char.ofNat n), bs) := by
  have hcode : ((n / 4096 % 16 + 0xE0) % 16 * 64 + n / 64 % 64) * 64 + n % 64 = n := by omega
  unfold decodeChar
  dsimp only
  rw [toNat_byte (by omega), if_neg (by omega), if_neg (by omega), if_neg (by omega),
    if_pos (by omega), followBytes_continuation (by omega), followBytes_any (by omega), hcode,
    followBytes]
  split
  · show 0xA0 ≤ _ ∧ _ ≤ 0xBF
    omega
  split
  · show 0x80 ≤ _ ∧ _ ≤ 0x9F
    omega
  · show 0x80 ≤ _ ∧ _ ≤ 0xBF
    omega

/-- A character of four bytes. -/
theorem decodeChar_four {n : Nat} (hlo : 0x10000 ≤ n) (hhi : n < 0x110000) (bs : List UInt8) :
    decodeChar (UInt8.ofNat (n / 262144 % 8 + 0xF0))
        (UInt8.ofNat (n / 4096 % 64 + 0x80) :: UInt8.ofNat (n / 64 % 64 + 0x80) ::
          UInt8.ofNat (n % 64 + 0x80) :: bs) =
      (some (Char.ofNat n), bs) := by
  have hcode : (((n / 262144 % 8 + 0xF0) % 8 * 64 + n / 4096 % 64) * 64 + n / 64 % 64) * 64 +
      n % 64 = n := by omega
  unfold decodeChar
  dsimp only
  rw [toNat_byte (by omega), if_neg (by omega), if_neg (by omega), if_neg (by omega),
    if_neg (by omega), if_pos (by omega), followBytes_continuation (by omega),
    followBytes_any (by omega), followBytes_any (by omega), hcode, followBytes]
  split
  · show 0x90 ≤ _ ∧ _ ≤ 0xBF
    omega
  split
  · show 0x80 ≤ _ ∧ _ ≤ 0x8F
    omega
  · show 0x80 ≤ _ ∧ _ ≤ 0xBF
    omega

theorem decodeUtf8_cons {b : UInt8} {bs rest : List UInt8} (h : decodeChar b bs = (some c, rest)) :
    decodeUtf8 (b :: bs) = c :: decodeUtf8 rest := by
  rw [decodeUtf8, h]
  rfl

/-- **The bytes of a character** are read as that character. -/
theorem decodeUtf8_char (c : Char) (bs : List UInt8) :
    decodeUtf8 (String.utf8EncodeChar c ++ bs) = c :: decodeUtf8 bs := by
  have hvalid : c.toNat < 0xD800 ∨ 0xDFFF < c.toNat ∧ c.toNat < 0x110000 := c.valid
  have hread {b : UInt8} {more : List UInt8}
      (h : decodeChar b (more ++ bs) = (some (Char.ofNat c.toNat), bs)) :
      decodeUtf8 (b :: more ++ bs) = c :: decodeUtf8 bs :=
    decodeUtf8_cons (h.trans (by rw [Char.ofNat_toNat]))
  rw [utf8EncodeChar_eq]
  split
  · exact hread (decodeChar_one (by omega) bs)
  split
  · exact hread (decodeChar_two (by omega) (by omega) bs)
  split
  · exact hread (decodeChar_three (by omega) (by omega) (by omega) bs)
  · exact hread (decodeChar_four (by omega) (by omega) bs)

/-- **Reading the bytes of a text** gives the text. -/
theorem decodeUtf8_encodeUtf8 (cs : List Char) : decodeUtf8 (encodeUtf8 cs) = cs := by
  induction cs with
  | nil => rw [encodeUtf8, List.flatMap_nil, decodeUtf8]
  | cons c cs ih =>
    rw [encodeUtf8, List.flatMap_cons, decodeUtf8_char]
    exact congrArg (c :: ·) ih

/-- **The bytes of a character**: one byte below 128, or several from there on. -/
theorem utf8EncodeChar_cases (c : Char) :
    (c.toNat < 0x80 ∧ String.utf8EncodeChar c = [UInt8.ofNat c.toNat]) ∨
      0x80 ≤ c.toNat ∧ ∀ b ∈ String.utf8EncodeChar c, 0x80 ≤ b.toNat := by
  have hhigh {n : Nat} (hlo : 0x80 ≤ n) (hhi : n < 256) : 0x80 ≤ (UInt8.ofNat n).toNat :=
    (toNat_byte hhi).symm ▸ hlo
  rw [utf8EncodeChar_eq]
  split
  · exact .inl ⟨by omega, rfl⟩
  refine .inr ⟨by omega, ?_⟩
  split
  · simp only [List.mem_cons, List.not_mem_nil, or_false]
    rintro b (rfl | rfl) <;> exact hhigh (by omega) (by omega)
  split
  · simp only [List.mem_cons, List.not_mem_nil, or_false]
    rintro b (rfl | rfl | rfl) <;> exact hhigh (by omega) (by omega)
  · simp only [List.mem_cons, List.not_mem_nil, or_false]
    rintro b (rfl | rfl | rfl | rfl) <;> exact hhigh (by omega) (by omega)

theorem encodeUtf8_append (cs ds : List Char) :
    encodeUtf8 (cs ++ ds) = encodeUtf8 cs ++ encodeUtf8 ds :=
  List.flatMap_append

theorem encodeUtf8_flatMap {α : Type} (f : α → List Char) (xs : List α) :
    encodeUtf8 (xs.flatMap f) = xs.flatMap fun x => encodeUtf8 (f x) :=
  List.flatMap_assoc

theorem encodeUtf8_singleton (h : c.toNat < 0x80) : encodeUtf8 [c] = [UInt8.ofNat c.toNat] := by
  rcases utf8EncodeChar_cases c with ⟨-, hc⟩ | ⟨hc, -⟩
  · rw [encodeUtf8, List.flatMap_singleton, hc]
  · omega

/-- **A byte below 128** is a character of its own. -/
theorem mem_of_mem_encodeUtf8 {b : UInt8} (hb : b.toNat < 0x80) (h : b ∈ encodeUtf8 cs) :
    Char.ofNat b.toNat ∈ cs := by
  obtain ⟨c, hc, hmem⟩ := List.mem_flatMap.1 h
  rcases utf8EncodeChar_cases c with ⟨hlow, hone⟩ | ⟨-, hhigh⟩
  · rw [hone, List.mem_singleton] at hmem
    rwa [hmem, toNat_byte (by omega), Char.ofNat_toNat]
  · have := hhigh b hmem
    omega

end Text

namespace Url

open Text

variable {b h l : UInt8} {bs rest : List UInt8} {cs : List Char}

/-! ### Percent forms -/

/-- **A byte that is no percent sign** stays. -/
theorem decodePercent_of_ne (hb : b ≠ 0x25) (bs : List UInt8) :
    decodePercent (b :: bs) = b :: decodePercent bs := by
  match bs with
  | [] => rfl
  | [_] => rfl
  | h :: l :: bs => rw [decodePercent, if_neg hb]

/-- **A percent form** is a byte. -/
theorem decodePercent_form {high low : Nat} (hhigh : hexValue? h = some high)
    (hlow : hexValue? l = some low) (bs : List UInt8) :
    decodePercent (0x25 :: h :: l :: bs) = UInt8.ofNat (high * 16 + low) :: decodePercent bs := by
  rw [decodePercent, if_pos rfl, hhigh, hlow]

/-- Bytes that begin with two digits. -/
def HexPair (bs : List UInt8) : Prop :=
  ∃ h l rest, bs = h :: l :: rest ∧ (hexValue? h).isSome ∧ (hexValue? l).isSome

/-- **A percent sign without two digits** stays. -/
theorem decodePercent_stray (hbs : ¬ HexPair bs) :
    decodePercent (0x25 :: bs) = 0x25 :: decodePercent bs := by
  match bs with
  | [] => rfl
  | [_] => rfl
  | h :: l :: bs =>
    rw [decodePercent, if_pos rfl]
    split
    · next hhigh hlow => exact absurd ⟨h, l, bs, rfl, by rw [hhigh]; rfl, by rw [hlow]; rfl⟩ hbs
    · rfl

/-! ### Forms of bytes -/

/-- **A digit** is a byte with the value of the digit, and no plus sign. -/
theorem hexValue?_hexDigit : ∀ n < 16, (hexDigit n).toNat < 0x80 ∧
    hexValue? (UInt8.ofNat (hexDigit n).toNat) = some n ∧
    plusToSpace (UInt8.ofNat (hexDigit n).toNat) = UInt8.ofNat (hexDigit n).toNat := by
  decide

theorem toNat_charOfByte (hb : b.toNat < 0x80) : (Char.ofNat b.toNat).toNat = b.toNat := by
  have hvalid : b.toNat.isValidChar := .inl (by omega)
  rw [Char.ofNat, dif_pos hvalid]
  rfl

/-- **The form of a byte** is read as the byte. -/
theorem decodePercent_encodeByte (b : UInt8) (rest : List UInt8) :
    decodePercent ((encodeUtf8 (encodeByte b)).map plusToSpace ++ rest) =
      b :: decodePercent rest := by
  unfold encodeByte
  split
  · next hplain =>
    have hlow : b.toNat < 0x80 := by
      rw [isPlain, Bool.and_eq_true, decide_eq_true_eq, UInt8.lt_iff_toNat_lt] at hplain
      exact hplain.1
    have hplus : b ≠ 0x2B := by rintro rfl; exact absurd hplain (by decide)
    have hpercent : b ≠ 0x25 := by rintro rfl; exact absurd hplain (by decide)
    have hchar := toNat_charOfByte hlow
    rw [encodeUtf8_singleton (hchar.symm ▸ hlow), hchar, UInt8.ofNat_toNat, List.map_singleton,
      plusToSpace, if_neg hplus]
    exact decodePercent_of_ne hpercent rest
  split
  · next hspace => exact hspace ▸ decodePercent_of_ne (by decide) rest
  · have hb : b.toNat < 256 := b.toNat_lt
    obtain ⟨hhigh, hhighValue, hhighPlus⟩ := hexValue?_hexDigit (b.toNat / 16) (by omega)
    obtain ⟨hlow, hlowValue, hlowPlus⟩ := hexValue?_hexDigit (b.toNat % 16) (by omega)
    have hvalue : b.toNat / 16 * 16 + b.toNat % 16 = b.toNat := by omega
    have hbytes (c d : Char) : encodeUtf8 ['%', c, d] = 0x25 :: (encodeUtf8 [c] ++ encodeUtf8 [d]) := by
      rw [← encodeUtf8_append]
      rfl
    rw [hbytes, encodeUtf8_singleton hhigh, encodeUtf8_singleton hlow]
    simp only [List.cons_append, List.nil_append, List.map_cons, List.map_nil, hhighPlus, hlowPlus]
    rw [plusToSpace, if_neg (by decide), decodePercent_form hhighValue hlowValue, hvalue,
      UInt8.ofNat_toNat]

/-- **Forms of bytes in a row.** -/
theorem decodePercent_encode (bs : List UInt8) :
    decodePercent ((encodeUtf8 (bs.flatMap encodeByte)).map plusToSpace) = bs := by
  induction bs with
  | nil => rfl
  | cons b bs ih =>
    rw [List.flatMap_cons, encodeUtf8_append, List.map_append, decodePercent_encodeByte, ih]

theorem decodePart_encode (cs : List Char) : decodePart (encode cs) = cs := by
  rw [decodePart, encode, decodePercent_encode, decodeUtf8_encodeUtf8]

/-! ### Separators -/

/-- The form of a byte if it is a separator. -/
def guardByte (b : UInt8) : List UInt8 :=
  if b = 0x3D then [0x25, 0x33, 0x44] else if b = 0x26 then [0x25, 0x32, 0x36] else [b]

theorem guardByte_of_hex (hb : (hexValue? b).isSome) : guardByte b = [b] := by
  have hequals : b ≠ 0x3D := by rintro rfl; exact absurd hb (by decide)
  have hampersand : b ≠ 0x26 := by rintro rfl; exact absurd hb (by decide)
  rw [guardByte, if_neg hequals, if_neg hampersand]

/-- A digit in front comes from a digit in front. -/
theorem eq_cons_of_flatMap_guardByte (h : bs.flatMap guardByte = b :: rest)
    (hb : (hexValue? b).isSome) : ∃ rest', bs = b :: rest' ∧ rest = rest'.flatMap guardByte := by
  cases bs with
  | nil => cases h
  | cons a bs =>
    rw [List.flatMap_cons, guardByte] at h
    split at h
    · obtain ⟨rfl, -⟩ := List.cons.inj h
      exact absurd hb (by decide)
    split at h
    · obtain ⟨rfl, -⟩ := List.cons.inj h
      exact absurd hb (by decide)
    · obtain ⟨rfl, rfl⟩ := List.cons.inj h
      exact ⟨bs, rfl, rfl⟩

theorem hexPair_flatMap_guardByte : HexPair (bs.flatMap guardByte) ↔ HexPair bs := by
  constructor
  · rintro ⟨h, l, rest, heq, hh, hl⟩
    obtain ⟨more, rfl, hmore⟩ := eq_cons_of_flatMap_guardByte heq hh
    obtain ⟨rest', rfl, -⟩ := eq_cons_of_flatMap_guardByte hmore.symm hl
    exact ⟨h, l, rest', rfl, hh, hl⟩
  · rintro ⟨h, l, rest, rfl, hh, hl⟩
    refine ⟨h, l, rest.flatMap guardByte, ?_, hh, hl⟩
    rw [List.flatMap_cons, List.flatMap_cons, guardByte_of_hex hh, guardByte_of_hex hl]
    rfl

/-- **Separators in percent forms** are read back, and nothing else is changed by them: no separator is
a digit, so that a percent sign is followed by digits before as after. -/
theorem decodePercent_flatMap_guardByte (bs : List UInt8) :
    decodePercent (bs.flatMap guardByte) = decodePercent bs := by
  match bs with
  | [] => rfl
  | b :: bs =>
    rw [List.flatMap_cons]
    by_cases hb : b = 0x25
    · subst hb
      by_cases hpair : HexPair bs
      · obtain ⟨h, l, rest, rfl, hh, hl⟩ := hpair
        obtain ⟨high, hhigh⟩ := Option.isSome_iff_exists.1 hh
        obtain ⟨low, hlow⟩ := Option.isSome_iff_exists.1 hl
        rw [List.flatMap_cons, List.flatMap_cons, guardByte_of_hex hh, guardByte_of_hex hl,
          decodePercent_form hhigh hlow, ← decodePercent_flatMap_guardByte rest]
        exact decodePercent_form hhigh hlow (rest.flatMap guardByte)
      · rw [decodePercent_stray hpair, ← decodePercent_flatMap_guardByte bs]
        exact decodePercent_stray (mt hexPair_flatMap_guardByte.1 hpair)
    · rw [decodePercent_of_ne hb, ← decodePercent_flatMap_guardByte bs, guardByte]
      split
      · next hequals =>
        have hhigh : hexValue? 0x33 = some 3 := rfl
        have hlow : hexValue? 0x44 = some 13 := rfl
        exact hequals ▸ decodePercent_form hhigh hlow (bs.flatMap guardByte)
      split
      · next hampersand =>
        have hhigh : hexValue? 0x32 = some 2 := rfl
        have hlow : hexValue? 0x36 = some 6 := rfl
        exact hampersand ▸ decodePercent_form hhigh hlow (bs.flatMap guardByte)
      · exact decodePercent_of_ne hb (bs.flatMap guardByte)
termination_by bs.length

/-- The form of a character if it is a separator. -/
def guardChar (c : Char) : List Char :=
  if c = '=' then "%3D".toList else if c = '&' then "%26".toList else [c]

theorem withoutSeparators_eq (cs : List Char) : withoutSeparators cs = cs.flatMap guardChar := by
  rw [withoutSeparators, replace_char, replace_char, List.flatMap_assoc]
  refine List.flatMap_congr fun c _ => ?_
  rw [guardChar]
  split
  · rfl
  · rw [List.flatMap_singleton]

theorem not_mem_withoutSeparators {s : Char} (hs : s = '=' ∨ s = '&') (cs : List Char) :
    s ∉ withoutSeparators cs := by
  rw [withoutSeparators_eq]
  intro hmem
  obtain ⟨c, -, hc⟩ := List.mem_flatMap.1 hmem
  rw [guardChar] at hc
  split at hc
  · rcases hs with rfl | rfl <;> exact absurd hc (by decide)
  split at hc
  · rcases hs with rfl | rfl <;> exact absurd hc (by decide)
  · obtain rfl := List.mem_singleton.1 hc
    rcases hs with hs | hs
    · next hequals _ => exact hequals hs
    · next hampersand => exact hampersand hs

theorem encodeUtf8_guardChar (c : Char) :
    encodeUtf8 (guardChar c) = (String.utf8EncodeChar c).flatMap guardByte := by
  rw [guardChar]
  split
  · next hequals => exact hequals ▸ rfl
  split
  · next hampersand => exact hampersand ▸ rfl
  · next hequals hampersand =>
    have hbyte {b : UInt8} (hb : b ∈ String.utf8EncodeChar c) : guardByte b = [b] := by
      have hmem : b ∈ encodeUtf8 [c] := List.mem_flatMap.2 ⟨c, List.mem_singleton_self c, hb⟩
      have hne : b ≠ 0x3D := by
        rintro rfl
        exact hequals (List.mem_singleton.1 (mem_of_mem_encodeUtf8 (by decide) hmem)).symm
      have hne' : b ≠ 0x26 := by
        rintro rfl
        exact hampersand (List.mem_singleton.1 (mem_of_mem_encodeUtf8 (by decide) hmem)).symm
      rw [guardByte, if_neg hne, if_neg hne']
    rw [List.flatMap_congr fun b hb => hbyte hb, List.flatMap_singleton', encodeUtf8,
      List.flatMap_singleton]

/-- The bytes of a text whose separators are in percent forms. -/
theorem encodeUtf8_withoutSeparators (cs : List Char) :
    encodeUtf8 (withoutSeparators cs) = (encodeUtf8 cs).flatMap guardByte := by
  rw [withoutSeparators_eq, encodeUtf8_flatMap, encodeUtf8, List.flatMap_assoc]
  exact List.flatMap_congr fun c _ => encodeUtf8_guardChar c

theorem map_plusToSpace_guardByte (bs : List UInt8) :
    (bs.flatMap guardByte).map plusToSpace = (bs.map plusToSpace).flatMap guardByte := by
  rw [List.map_flatMap, List.flatMap_map]
  refine List.flatMap_congr fun b _ => ?_
  by_cases hplus : b = 0x2B
  · exact hplus ▸ rfl
  · rw [plusToSpace, if_neg hplus, guardByte]
    split
    · rfl
    split
    · rfl
    · rw [List.map_singleton, plusToSpace, if_neg hplus]

/-- **Decoding** goes byte by byte, separators included: nothing is cut off. -/
theorem decode_eq (cs : List Char) : decode cs = decodePart cs := by
  have hampersand := not_mem_withoutSeparators (.inr rfl) cs
  have hequals := not_mem_withoutSeparators (.inl rfl) cs
  have hpart : decodePart (withoutSeparators cs) = decodePart cs := by
    rw [decodePart, decodePart, encodeUtf8_withoutSeparators, map_plusToSpace_guardByte,
      decodePercent_flatMap_guardByte]
  rw [decode, entries, split_of_none (cut?_of_not_mem hampersand), ← hpart]
  cases hcs : withoutSeparators cs with
  | nil => exact (decodeUtf8_encodeUtf8 []).symm
  | cons c rest =>
    rw [hcs] at hequals
    simp only [List.filter_cons, List.isEmpty_cons, Bool.not_false, if_true, List.filter_nil,
      List.map_cons, List.map_nil, cut?_of_not_mem hequals]

theorem decode_encode (cs : List Char) : decode (encode cs) = cs := by
  rw [decode_eq, decodePart_encode]

theorem decodePercent_of_not_mem (h : (0x25 : UInt8) ∉ bs) : decodePercent bs = bs := by
  induction bs with
  | nil => rfl
  | cons b bs ih =>
    obtain ⟨hb, hbs⟩ := not_or.1 (mt List.mem_cons.2 h)
    rw [decodePercent_of_ne (Ne.symm hb), ih hbs]

theorem map_plusToSpace_of_not_mem (h : (0x2B : UInt8) ∉ bs) : bs.map plusToSpace = bs := by
  induction bs with
  | nil => rfl
  | cons b bs ih =>
    obtain ⟨hb, hbs⟩ := not_or.1 (mt List.mem_cons.2 h)
    rw [List.map_cons, ih hbs, plusToSpace, if_neg (Ne.symm hb)]

/-- **A text without percent and plus signs** is its own form. -/
theorem decode_of_not_mem (hpercent : '%' ∉ cs) (hplus : '+' ∉ cs) : decode cs = cs := by
  have hpercent : (0x25 : UInt8) ∉ encodeUtf8 cs := mt (mem_of_mem_encodeUtf8 (by decide)) hpercent
  have hplus : (0x2B : UInt8) ∉ encodeUtf8 cs := mt (mem_of_mem_encodeUtf8 (by decide)) hplus
  rw [decode_eq, decodePart, map_plusToSpace_of_not_mem hplus, decodePercent_of_not_mem hpercent,
    decodeUtf8_encodeUtf8]

end Url

/-! ### The filters -/

namespace Filter

variable {host : Host} {history : History} {args : FilterArguments} {s : String}

theorem apply_urlEncode : urlEncode.apply host history (.str s) args =
    .ok (.ofChars (Url.encode s.toList), history) := by
  rw [apply_of_ne_map (by decide)]
  rfl

theorem apply_urlDecode : urlDecode.apply host history (.str s) args =
    .ok (.ofChars (Url.decode s.toList), history) := by
  rw [apply_of_ne_map (by decide)]
  rfl

end Filter

/-- **Coding for addresses.** Decoding undoes encoding, and changes nothing in a text without percent
and plus signs, whatever separators are in it. -/
theorem url_round_trip (host : Host) (history : History) (args more : FilterArguments) (s : String) :
    (∃ form : String,
      Filter.urlEncode.apply host history (.str s) args = .ok (.str form, history) ∧
      Filter.urlDecode.apply host history (.str form) more = .ok (.str s, history)) ∧
    ('%' ∉ s.toList → '+' ∉ s.toList →
      Filter.urlDecode.apply host history (.str s) more = .ok (.str s, history)) := by
  refine ⟨⟨String.ofList (Url.encode s.toList), Filter.apply_urlEncode, ?_⟩,
    fun hpercent hplus => ?_⟩
  · rw [Filter.apply_urlDecode, String.toList_ofList, Url.decode_encode, Value.ofChars,
      String.ofList_toList]
  · rw [Filter.apply_urlDecode, Url.decode_of_not_mem hpercent hplus, Value.ofChars,
      String.ofList_toList]

/-- A text with separators of forms, one of which follows a character of two bytes. -/
theorem url_round_trip_separators :
    let host : Host := fun _ => ⟨fun _ _ => none, fun _ _ => none, fun _ => ""⟩
    let s := "a=1&ü=2&&"
    '%' ∉ s.toList ∧ '+' ∉ s.toList ∧
      Filter.urlDecode.apply host [] (.str s) {} = .ok (.str s, []) := by
  intro host s
  have hpercent : '%' ∉ s.toList := by decide
  have hplus : '+' ∉ s.toList := by decide
  exact ⟨hpercent, hplus, (url_round_trip host [] {} {} s).2 hpercent hplus⟩

end LiquidTemplate
