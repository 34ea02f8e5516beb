import GoogleCalendar.Library.Radix64
import GoogleCalendar.ServiceAccountAuth

/-!
# Base64url texts in tokens

The encoder takes its digits from bytes by masks and shifts and looks each up in
the alphabet. The masks and shifts are the quotients and remainders of the
digits of a byte string, so no lookup leaves the alphabet and what is encoded is
decoded again. A token joins three such texts by dots.
-/

namespace GoogleCalendar.TokenEncoding

open Library Radix64

/-- The indices of the first two characters of a group. -/
def headIndices (b0 b1 : UInt8) : List UInt8 :=
  [(b0 &&& 0xFC) >>> 2, ((b0 &&& 0x03) <<< 4) ||| ((b1 &&& 0xF0) >>> 4)]

/-- The index of the third. -/
def thirdIndex (b1 b2 : UInt8) : UInt8 := ((b1 &&& 0x0F) <<< 2) ||| ((b2 &&& 0xC0) >>> 6)

/-- The places in the alphabet that the encoder looks up, in order. -/
def alphabetIndices : List UInt8 → List UInt8
  | [] => []
  | [b0] => headIndices b0 0
  | [b0, b1] => headIndices b0 b1 ++ [thirdIndex b1 0]
  | b0 :: b1 :: b2 :: rest =>
      headIndices b0 b1 ++ thirdIndex b1 b2 :: (b2 &&& 0x3F) :: alphabetIndices rest

/-- The encoder looks these places up and does nothing else. -/
theorem encode_looks_up (bytes : List UInt8) :
    base64UrlEncode bytes = (alphabetIndices bytes).map base64UrlChar := by
  induction bytes using base64UrlEncode.induct with
  | case1 => rfl
  | case2 b0 => simp [base64UrlEncode, alphabetIndices, base64UrlHead, headIndices]
  | case3 b0 b1 =>
    simp [base64UrlEncode, alphabetIndices, base64UrlHead, headIndices, base64UrlThird, thirdIndex]
  | case4 b0 b1 b2 rest ih =>
    simp [base64UrlEncode, alphabetIndices, base64UrlHead, headIndices, base64UrlThird, thirdIndex,
      ih]

/-- A mask of the upper bits and the shift behind it are a quotient. -/
theorem upper_bits (number mask shift width : Nat) (masks : mask >>> shift = 2 ^ width - 1)
    (fits : number / 2 ^ shift < 2 ^ width) :
    (number &&& mask) >>> shift = number / 2 ^ shift := by
  rw [Nat.shiftRight_and_distrib, masks, Nat.and_two_pow_sub_one_eq_mod, Nat.shiftRight_eq_div_pow,
    Nat.mod_eq_of_lt fits]

/-- Bits shifted up in a byte and bits that fit below them add up. -/
theorem joined_bits (upper lower shift : Nat) (fits : upper * 2 ^ shift < 256)
    (below : lower < 2 ^ shift) :
    upper <<< shift % 256 ||| lower = upper * 2 ^ shift + lower := by
  have whole : upper <<< shift % 256 = upper <<< shift := by
    rw [Nat.shiftLeft_eq]
    exact Nat.mod_eq_of_lt fits
  rw [whole, ← Nat.shiftLeft_add_eq_or_of_lt below, Nat.shiftLeft_eq]

/-- They are the first twelve bits, by sixes. -/
theorem head_indices (b0 b1 : UInt8) :
    (headIndices b0 b1).map UInt8.toNat =
      [b0.toNat / 4, b0.toNat % 4 * 16 + b1.toNat / 16] := by
  have byte := b0.toNat_lt
  have next := b1.toNat_lt
  have first := upper_bits b0.toNat 252 2 6 rfl (by omega)
  have upper := Nat.and_two_pow_sub_one_eq_mod b0.toNat 2
  have lower := upper_bits b1.toNat 240 4 4 rfl (by omega)
  have joined := joined_bits (b0.toNat % 2 ^ 2) (b1.toNat / 2 ^ 4) 4 (by omega) (by omega)
  rw [← upper, ← lower] at joined
  simpa [headIndices, first, upper, lower] using joined

/-- It is the six bits around the second and the third byte. -/
theorem third_index (b1 b2 : UInt8) :
    (thirdIndex b1 b2).toNat = b1.toNat % 16 * 4 + b2.toNat / 64 := by
  have last := b2.toNat_lt
  have upper := Nat.and_two_pow_sub_one_eq_mod b1.toNat 4
  have lower := upper_bits b2.toNat 192 6 2 rfl (by omega)
  have joined := joined_bits (b1.toNat % 2 ^ 4) (b2.toNat / 2 ^ 6) 2 (by omega) (by omega)
  rw [← upper, ← lower] at joined
  simpa [thirdIndex, upper, lower] using joined

/-- The places looked up are the digits of the bytes. -/
theorem indices_are_sextets (bytes : List UInt8) :
    (alphabetIndices bytes).map UInt8.toNat = sextets bytes := by
  induction bytes using alphabetIndices.induct with
  | case1 => rfl
  | case2 b0 => simp [alphabetIndices, sextets, head_indices]
  | case3 b0 b1 => simp [alphabetIndices, sextets, head_indices, third_index]
  | case4 b0 b1 b2 rest ih =>
    have last := Nat.and_two_pow_sub_one_eq_mod b2.toNat 6
    simpa [alphabetIndices, sextets, head_indices, third_index, ih] using last

/-- The alphabet has sixty-four characters, none twice. -/
theorem alphabet_whole : base64UrlAlphabet.Nodup ∧ base64UrlAlphabet.length = 64 := by
  constructor <;> decide

/-- The encoder writes the digits of the bytes in its alphabet. -/
theorem encode_is_sextets (bytes : List UInt8) :
    base64UrlEncode bytes =
      (sextets bytes).map (base64UrlAlphabet.getD · (Char.ofNat 0)) := by
  rw [encode_looks_up, ← indices_are_sextets, List.map_map]
  rfl

/-- No place looked up lies behind the alphabet. -/
theorem indices_inside (bytes : List UInt8) :
    ∀ index ∈ alphabetIndices bytes, index.toNat < base64UrlAlphabet.length := by
  intro index member
  rw [alphabet_whole.2]
  apply sextets_small bytes
  rw [← indices_are_sextets]
  exact List.mem_map_of_mem member

/-- An encoding is written in the alphabet. -/
theorem encoded_in_alphabet (bytes : List UInt8) :
    ∀ char ∈ base64UrlEncode bytes, char ∈ base64UrlAlphabet := by
  intro char member
  rw [encode_looks_up] at member
  obtain ⟨index, used, rfl⟩ := List.mem_map.mp member
  have inside := indices_inside bytes index used
  rw [base64UrlChar, List.getD_eq_getElem?_getD, List.getElem?_eq_getElem inside, Option.getD_some]
  exact List.getElem_mem inside

/-- A form leaves the alphabet's characters and dots as they are, and the alphabet
has no dot. -/
theorem alphabet_plain : (∀ char ∈ '.' :: base64UrlAlphabet, urlEncodeByte char = [char]) ∧
    '.' ∉ base64UrlAlphabet := by
  constructor
  · have all : ('.' :: base64UrlAlphabet).all (fun char => urlEncodeByte char = [char]) = true := by
      decide +kernel
    intro char member
    simpa using List.all_eq_true.mp all char member
  · decide

/-- So it has no dot. -/
theorem encoded_dot_free (bytes : List UInt8) : (base64UrlEncode bytes).count '.' = 0 :=
  List.count_eq_zero.mpr fun member =>
    alphabet_plain.2 (encoded_in_alphabet bytes '.' member)

/-- A text of such characters is its own form text. -/
theorem plain_text_kept (text : String)
    (plain : ∀ char ∈ text.toList, char ∈ '.' :: base64UrlAlphabet) : urlEncode text = text := by
  have kept : text.toList.flatMap urlEncodeByte = text.toList.flatMap (fun char => [char]) := by
    apply List.flatMap_congr
    intro char member
    exact alphabet_plain.1 char (plain char member)
  rw [urlEncode, kept, List.flatMap_singleton', String.ofList_toList]

/-- A token is three encoded texts joined by dots. -/
theorem jwt_parts (library : TokenLibrary) (auth : ServiceAccountAuth) (now : Int) (jwt : String)
    (created : auth.createJwt library now = .ok jwt) :
    ∃ header claims signature, jwt.toList =
      base64UrlEncode header ++ '.' :: (base64UrlEncode claims ++ '.' ::
        base64UrlEncode signature) := by
  simp only [ServiceAccountAuth.createJwt, bind, Except.bind] at created
  split at created
  · simp at created
  · rename_i signature signed
    obtain rfl := Except.ok.inj created
    refine ⟨ServiceAccountAuth.jwtHeader.toList.map (fun char => char.toNat.toUInt8),
      (auth.claimSet now).dump.toList.map (fun char => char.toNat.toUInt8), signature, ?_⟩
    simp [base64UrlText]

/-- The encoder writes characters of its alphabet only, four for three bytes rounded
up, looks up no place behind the alphabet, and is undone by decoding. A token
made of its texts has two dots and needs no escape in a form. -/
theorem base64_url_correct :
    (∀ bytes : List UInt8,
      (∀ char ∈ base64UrlEncode bytes, char ∈ base64UrlAlphabet) ∧
      (base64UrlEncode bytes).length = (4 * bytes.length + 2) / 3 ∧
      base64UrlEncode bytes = (alphabetIndices bytes).map base64UrlChar ∧
      (∀ index ∈ alphabetIndices bytes, index.toNat < base64UrlAlphabet.length) ∧
      decode base64UrlAlphabet (base64UrlEncode bytes) = some bytes) ∧
    ∀ (library : TokenLibrary) (auth : ServiceAccountAuth) (now : Int) (jwt : String),
      auth.createJwt library now = .ok jwt → jwt.toList.count '.' = 2 ∧ urlEncode jwt = jwt := by
  constructor
  · intro bytes
    refine ⟨encoded_in_alphabet bytes, ?_, encode_looks_up bytes, indices_inside bytes, ?_⟩
    · rw [encode_is_sextets, List.length_map, sextets_length]
    · rw [encode_is_sextets]
      exact decode_sextets base64UrlAlphabet alphabet_whole.1 (Char.ofNat 0) alphabet_whole.2 bytes
  · intro library auth now jwt created
    obtain ⟨header, claims, signature, parts⟩ := jwt_parts library auth now jwt created
    constructor
    · simp [parts, encoded_dot_free]
    · apply plain_text_kept
      intro char member
      rw [parts] at member
      simp only [List.mem_append, List.mem_cons] at member
      rcases member with first | rfl | second | rfl | third
      · exact List.mem_cons_of_mem _ (encoded_in_alphabet header char first)
      · exact List.mem_cons_self ..
      · exact List.mem_cons_of_mem _ (encoded_in_alphabet claims char second)
      · exact List.mem_cons_self ..
      · exact List.mem_cons_of_mem _ (encoded_in_alphabet signature char third)

/-- A library that signs with two bytes. -/
def shortSigner : TokenLibrary := ⟨fun _ _ => .ok [0xFB, 0xFF], fun _ => 0⟩

/-- Two bytes take three characters, and a token signed with them has two dots. -/
theorem two_bytes_encoded :
    decode base64UrlAlphabet (base64UrlEncode [0xFB, 0xFF]) = some [0xFB, 0xFF] ∧
    ∃ jwt, (ServiceAccountAuth.mk "a" "k" "" 0).createJwt shortSigner 0 = .ok jwt ∧
      jwt.toList.count '.' = 2 ∧ urlEncode jwt = jwt :=
  ⟨(base64_url_correct.1 [0xFB, 0xFF]).2.2.2.2,
    _, rfl, base64_url_correct.2 shortSigner ⟨"a", "k", "", 0⟩ 0 _ rfl⟩

end GoogleCalendar.TokenEncoding
