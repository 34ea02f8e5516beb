import Mathlib.Data.List.Basic

/-!
# Encodings of the service account's token request

The parts of a JWT are bytes in base64url without padding, three bytes to four
characters. A private key may come with its line breaks escaped.
-/

namespace GoogleCalendar

/-- `BASE64URL_ALPHABET`. -/
def base64UrlAlphabet : List Char :=
  "ABCDEFGHIJKLMNOPQRSTUVWXYZabcdefghijklmnopqrstuvwxyz0123456789-_".toList

/-- The character of six bits. What lies behind the alphabet is its terminator. -/
def base64UrlChar (sixBits : UInt8) : Char := base64UrlAlphabet.getD sixBits.toNat (Char.ofNat 0)

/-- The first two characters of up to three bytes, the missing ones being zero. -/
def base64UrlHead (b0 b1 : UInt8) : List Char :=
  [base64UrlChar ((b0 &&& 0xFC) >>> 2),
    base64UrlChar (((b0 &&& 0x03) <<< 4) ||| ((b1 &&& 0xF0) >>> 4))]

/-- The third character of a group. -/
def base64UrlThird (b1 b2 : UInt8) : Char :=
  base64UrlChar (((b1 &&& 0x0F) <<< 2) ||| ((b2 &&& 0xC0) >>> 6))

/-- `Base64UrlEncode`. -/
def base64UrlEncode : List UInt8 → List Char
  | [] => []
  | [b0] => base64UrlHead b0 0
  | [b0, b1] => base64UrlHead b0 b1 ++ [base64UrlThird b1 0]
  | b0 :: b1 :: b2 :: rest =>
      base64UrlHead b0 b1 ++
        base64UrlThird b1 b2 :: base64UrlChar (b2 &&& 0x3F) :: base64UrlEncode rest

/-- `Base64UrlEncode` of a string, one byte for each character. -/
def base64UrlText (input : String) : String :=
  String.ofList (base64UrlEncode (input.toList.map (fun char => char.toNat.toUInt8)))

/-- Escaped line breaks become line breaks, from left to right. -/
def unescapeLines : List Char → List Char
  | '\\' :: 'n' :: rest => '\n' :: unescapeLines rest
  | char :: rest => char :: unescapeLines rest
  | [] => []

/-- `NormalizePemKey`. -/
def normalizePemKey (key : String) : String := String.ofList (unescapeLines key.toList)

end GoogleCalendar
