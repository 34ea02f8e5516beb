import Mathlib.Data.List.Basic
import Mathlib.Data.List.Nodup

/-!
# Bytes as digits of an alphabet of 64 characters

Three bytes are 24 bits and so four digits of six bits. A last group of one or
two bytes is filled with zero bits up to the next digit, and no padding character
stands for the digits that are missing. Reading turns characters into digits by
their places in the alphabet and digits into bytes group by group. It refuses a
single digit left over and fill bits that are not zero, so each byte string has
one text.
-/

namespace GoogleCalendar.Library.Radix64

/-- The digits of a byte string. -/
def sextets : List UInt8 → List Nat
  | [] => []
  | [first] => [first.toNat / 4, first.toNat % 4 * 16]
  | [first, second] =>
      [first.toNat / 4, first.toNat % 4 * 16 + second.toNat / 16, second.toNat % 16 * 4]
  | first :: second :: third :: rest =>
      first.toNat / 4 :: (first.toNat % 4 * 16 + second.toNat / 16) ::
        (second.toNat % 16 * 4 + third.toNat / 64) :: third.toNat % 64 :: sextets rest

/-- The bytes of a list of digits. -/
def ofSextets : List Nat → Option (List UInt8)
  | [] => some []
  | [_] => none
  | [first, second] =>
      if second % 16 = 0 then some [UInt8.ofNat (first * 4 + second / 16)] else none
  | [first, second, third] =>
      if third % 4 = 0 then
        some [UInt8.ofNat (first * 4 + second / 16),
          UInt8.ofNat (second % 16 * 16 + third / 4)]
      else none
  | first :: second :: third :: fourth :: rest =>
      (ofSextets rest).map (fun bytes =>
        UInt8.ofNat (first * 4 + second / 16) :: UInt8.ofNat (second % 16 * 16 + third / 4) ::
          UInt8.ofNat (third % 4 * 64 + fourth) :: bytes)

/-- Reading a text over an alphabet. -/
def decode (alphabet text : List Char) : Option (List UInt8) :=
  (text.mapM (fun char => alphabet.idxOf? char)).bind ofSextets

/-- A byte is what its number is cut to. -/
theorem byte_of (byte : UInt8) (number : Nat) (same : number = byte.toNat) :
    UInt8.ofNat number = byte := by
  rw [same, UInt8.ofNat_toNat]

/-- Digits have six bits. -/
theorem sextets_small (bytes : List UInt8) : ∀ digit ∈ sextets bytes, digit < 64 := by
  induction bytes using sextets.induct with
  | case1 => simp [sextets]
  | case2 first =>
    have byte := first.toNat_lt
    simp only [sextets, List.forall_mem_cons, List.not_mem_nil, false_implies, implies_true,
      and_true]
    omega
  | case3 first second =>
    have byte := first.toNat_lt
    have next := second.toNat_lt
    simp only [sextets, List.forall_mem_cons, List.not_mem_nil, false_implies, implies_true,
      and_true]
    omega
  | case4 first second third rest ih =>
    have byte := first.toNat_lt
    have next := second.toNat_lt
    have last := third.toNat_lt
    simp only [sextets, List.forall_mem_cons]
    exact ⟨by omega, by omega, by omega, by omega, ih⟩

/-- There are four digits for three bytes, rounded up. -/
theorem sextets_length (bytes : List UInt8) :
    (sextets bytes).length = (4 * bytes.length + 2) / 3 := by
  induction bytes using sextets.induct with
  | case1 => rfl
  | case2 first => simp [sextets]
  | case3 first second => simp [sextets]
  | case4 first second third rest ih =>
    simp only [sextets, List.length_cons, ih]
    omega

/-- The digits of a byte string are read back as it. -/
theorem of_sextets (bytes : List UInt8) : ofSextets (sextets bytes) = some bytes := by
  induction bytes using sextets.induct with
  | case1 => rfl
  | case2 first =>
    have byte := first.toNat_lt
    have filled : first.toNat % 4 * 16 % 16 = 0 := by omega
    rw [sextets, ofSextets, if_pos filled, byte_of first _ (by omega)]
  | case3 first second =>
    have byte := first.toNat_lt
    have next := second.toNat_lt
    have filled : second.toNat % 16 * 4 % 4 = 0 := by omega
    rw [sextets, ofSextets, if_pos filled, byte_of first _ (by omega),
      byte_of second _ (by omega)]
  | case4 first second third rest ih =>
    have byte := first.toNat_lt
    have next := second.toNat_lt
    have last := third.toNat_lt
    rw [sextets, ofSextets, ih, Option.map_some, byte_of first _ (by omega),
      byte_of second _ (by omega), byte_of third _ (by omega)]

/-- The characters of digits are read as the digits. -/
theorem digits_read (alphabet : List Char) (distinct : alphabet.Nodup) (digits : List Nat)
    (fallback : Char) (known : ∀ digit ∈ digits, digit < alphabet.length) :
    (digits.map (alphabet.getD · fallback)).mapM (fun char => alphabet.idxOf? char) =
      some digits := by
  induction digits with
  | nil => rfl
  | cons digit rest ih =>
    have inside := known digit (List.mem_cons_self ..)
    have found : alphabet.idxOf? (alphabet.getD digit fallback) = some digit := by
      rw [List.getD_eq_getElem?_getD, List.getElem?_eq_getElem inside, Option.getD_some,
        List.idxOf?_eq_some_iff]
      refine ⟨inside, rfl, ?_⟩
      intro earlier before same
      exact absurd ((distinct.getElem_inj_iff).mp same) (by omega)
    rw [List.map_cons, List.mapM_cons, found,
      ih (fun other member => known other (List.mem_cons_of_mem _ member))]
    rfl

/-- Over 64 distinct characters every byte string is read back from its digits. -/
theorem decode_sextets (alphabet : List Char) (distinct : alphabet.Nodup) (fallback : Char)
    (whole : alphabet.length = 64) (bytes : List UInt8) :
    decode alphabet ((sextets bytes).map (alphabet.getD · fallback)) = some bytes := by
  have known : ∀ digit ∈ sextets bytes, digit < alphabet.length := by
    intro digit member
    rw [whole]
    exact sextets_small bytes digit member
  rw [decode, digits_read alphabet distinct _ fallback known, Option.bind_some, of_sextets]

end GoogleCalendar.Library.Radix64
