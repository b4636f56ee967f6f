import JobApplyAgent.Library.SelfDelimiting
import JobApplyAgent.Library.Text

/-!
# Texts as bytes

The bytes of a text, and the strict reading that undoes them.
-/

namespace JobApplyAgent.Library

/-- `text.encode("utf-8")`. -/
def utf8 (text : List Char) : List UInt8 :=
  text.flatMap String.utf8EncodeChar

/-- Read on; every step reads a byte. -/
def decodeStrict : ℕ → List UInt8 → Option (List Char)
  | _, [] => some []
  | 0, _ :: _ => none
  | fuel + 1, byte :: bytes =>
    (ByteArray.utf8DecodeChar? (byte :: bytes).toByteArray 0).bind fun character =>
      (decodeStrict fuel ((byte :: bytes).drop character.utf8Size)).map (character :: ·)

/-- `data.decode("utf-8")`; `none` where it raises. -/
def decodeUtf8 (bytes : List UInt8) : Option (List Char) :=
  decodeStrict bytes.length bytes

theorem utf8EncodeChar_ne_nil (char : Char) : String.utf8EncodeChar char ≠ [] := by
  intro hnil
  have hlength := congrArg List.length hnil
  rw [String.length_utf8EncodeChar, List.length_nil] at hlength
  exact char.utf8Size_pos.ne' hlength

theorem utf8EncodeChar_selfDelimiting : SelfDelimiting String.utf8EncodeChar := by
  let read := fun bytes : List UInt8 =>
    (ByteArray.utf8DecodeChar? bytes.toByteArray 0).map fun char =>
      (char, bytes.drop char.utf8Size)
  refine @SelfDelimiting.of_reader _ _ _ read fun char rest => ?_
  dsimp only [read]
  rw [List.toByteArray_append, ByteArray.utf8DecodeChar?_utf8EncodeChar_append, Option.map_some,
    List.drop_left' (String.length_utf8EncodeChar char)]

theorem utf8_injective : Function.Injective utf8 :=
  utf8EncodeChar_selfDelimiting.flatMap_injective utf8EncodeChar_ne_nil

theorem decodeStrict_utf8 (hfuel : (utf8 text).length ≤ fuel) :
    decodeStrict fuel (utf8 text) = some text := by
  induction text generalizing fuel with
  | nil => cases fuel <;> rfl
  | cons char text ih =>
    have hsize := char.utf8Size_pos
    rw [utf8, List.flatMap_cons, List.length_append, String.length_utf8EncodeChar] at hfuel
    obtain ⟨fuel, rfl⟩ := Nat.exists_eq_add_one_of_ne_zero (show fuel ≠ 0 by omega)
    obtain ⟨byte, bytes, hbytes⟩ :=
      List.exists_cons_of_ne_nil (utf8EncodeChar_ne_nil char)
    have hcons : utf8 (char :: text) = byte :: (bytes ++ utf8 text) := by
      rw [utf8, List.flatMap_cons, hbytes]
      rfl
    have hwhole : byte :: (bytes ++ utf8 text) = String.utf8EncodeChar char ++ utf8 text := by
      rw [hbytes]
      rfl
    rw [hcons, decodeStrict, hwhole, List.toByteArray_append,
      ByteArray.utf8DecodeChar?_utf8EncodeChar_append, Option.bind_some,
      List.drop_left' (String.length_utf8EncodeChar char), ih (by
        change (text.flatMap String.utf8EncodeChar).length ≤ fuel
        omega)]
    rfl

/-- What was encoded is read back. -/
theorem decodeUtf8_utf8 (text : List Char) : decodeUtf8 (utf8 text) = some text :=
  decodeStrict_utf8 (Nat.le_refl _)

/-! ## Numbers -/

/-- `str(value).encode("ascii")`. -/
def decimalBytes (value : ℕ) : List UInt8 :=
  utf8 (Nat.toDigits 10 value)

theorem toDigits_injective : Function.Injective (Nat.toDigits 10) := by
  intro first second heq
  have hread : Nat.ofDigitChars 10 (Nat.toDigits 10 first) 0 =
      Nat.ofDigitChars 10 (Nat.toDigits 10 second) 0 := by
    rw [heq]
  rwa [Nat.ofDigitChars_toDigits (by decide) (by decide),
    Nat.ofDigitChars_toDigits (by decide) (by decide)] at hread

theorem decimalBytes_injective : Function.Injective decimalBytes :=
  utf8_injective.comp toDigits_injective

def colon : UInt8 := 58

theorem colon_notMem_decimalBytes (value : ℕ) : colon ∉ decimalBytes value := by
  intro hmem
  obtain ⟨digit, hdigit, hbyte⟩ := List.mem_flatMap.mp hmem
  have hspelled := Nat.isDigit_of_mem_toDigits (by decide) (by decide) hdigit
  rw [Char.isDigit, Bool.and_eq_true, decide_eq_true_eq, decide_eq_true_eq] at hspelled
  have hlow : 48 ≤ digit.toNat := hspelled.1
  have hhigh : digit.toNat ≤ 57 := hspelled.2
  have hall : ∀ code < 58, 48 ≤ code → colon ∉ String.utf8EncodeChar (Char.ofNat code) := by
    decide
  refine hall digit.toNat (by omega) hlow ?_
  rwa [Char.ofNat_toNat]

end JobApplyAgent.Library

namespace JobApplyAgent.Library.Base64

def alphabet : List Char :=
  "ABCDEFGHIJKLMNOPQRSTUVWXYZabcdefghijklmnopqrstuvwxyz0123456789+/".toList

def letter (bits : ℕ) : Char :=
  alphabet.getD bits '='

/-- `base64.b64encode(data)`. -/
def encode : List UInt8 → List Char
  | first :: second :: third :: rest =>
    letter (first.toNat / 4) :: letter (first.toNat % 4 * 16 + second.toNat / 16)
      :: letter (second.toNat % 16 * 4 + third.toNat / 64) :: letter (third.toNat % 64)
      :: encode rest
  | [first, second] =>
    [letter (first.toNat / 4), letter (first.toNat % 4 * 16 + second.toNat / 16),
      letter (second.toNat % 16 * 4), '=']
  | [first] => [letter (first.toNat / 4), letter (first.toNat % 4 * 16), '=', '=']
  | [] => []

/-- The six bits of a letter. -/
def bits (character : Char) : ℕ :=
  alphabet.idxOf character

/-- The bytes of letters, where they are those of bytes. -/
def decode : List Char → List UInt8
  | first :: second :: third :: fourth :: rest =>
    UInt8.ofNat (bits first * 4 + bits second / 16) ::
      if third = '=' then []
      else UInt8.ofNat (bits second % 16 * 16 + bits third / 4) ::
        if fourth = '=' then []
        else UInt8.ofNat (bits third % 4 * 64 + bits fourth) :: decode rest
  | _ => []

theorem bits_letter (hvalue : value < 64) : bits (letter value) = value := by
  have hall : ∀ value < 64, bits (letter value) = value := by
    decide +kernel
  exact hall value hvalue

theorem letter_ne_mark (hvalue : value < 64) : letter value ≠ '=' := by
  have hall : ∀ value < 64, letter value ≠ '=' := by
    decide +kernel
  exact hall value hvalue

/-- The first byte of a group, from two letters. -/
theorem bits_first (hfirst : first < 256) (hnext : next < 16) :
    bits (letter (first / 4)) * 4 + bits (letter (first % 4 * 16 + next)) / 16 = first := by
  rw [bits_letter (by omega), bits_letter (by omega)]
  omega

theorem bits_second (hbefore : before < 4) (hsecond : second < 256)
    (hnext : next < 4) :
    bits (letter (before * 16 + second / 16)) % 16 * 16
      + bits (letter (second % 16 * 4 + next)) / 4 = second := by
  rw [bits_letter (by omega), bits_letter (by omega)]
  omega

theorem bits_third (hbefore : before < 16) (hthird : third < 256) :
    bits (letter (before * 4 + third / 64)) % 4 * 64 + bits (letter (third % 64)) = third := by
  rw [bits_letter (by omega), bits_letter (by omega)]
  omega

theorem decode_encode (bytes : List UInt8) : decode (encode bytes) = bytes := by
  induction bytes using encode.induct with
  | case1 first second third rest ih =>
    have hfirst := first.toNat_lt
    have hsecond := second.toNat_lt
    have hthird := third.toNat_lt
    rw [encode, decode, if_neg (letter_ne_mark (by omega)), if_neg (letter_ne_mark (by omega)),
      ih, bits_first hfirst (by omega), bits_second (by omega) hsecond (by omega),
      bits_third (by omega) hthird, UInt8.ofNat_toNat, UInt8.ofNat_toNat, UInt8.ofNat_toNat]
  | case2 first second =>
    have hfirst := first.toNat_lt
    have hsecond := second.toNat_lt
    have htwo := @bits_second (first.toNat % 4) _ 0 (by omega) hsecond (by omega)
    rw [Nat.add_zero] at htwo
    rw [encode, decode, if_neg (letter_ne_mark (by omega)), if_pos rfl,
      bits_first hfirst (by omega), htwo, UInt8.ofNat_toNat, UInt8.ofNat_toNat]
  | case3 first =>
    have hfirst := first.toNat_lt
    have hone := @bits_first _ 0 hfirst (by omega)
    rw [Nat.add_zero] at hone
    rw [encode, decode, if_pos rfl, hone, UInt8.ofNat_toNat]
  | case4 => rfl

theorem encode_injective : Function.Injective encode :=
  Function.LeftInverse.injective decode_encode

end JobApplyAgent.Library.Base64
