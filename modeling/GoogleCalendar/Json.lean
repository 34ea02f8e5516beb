import GoogleCalendar.Library.SortedEntries
import GoogleCalendar.Library.PercentText
import GoogleCalendar.Library.Utf8

/-!
# JSON values as the vendored library holds them

The extension handles event bodies as `nlohmann::json` values and relies on how
that library treats a value of the wrong kind: reading a member of a value that
is no object finds nothing, assigning one turns null into an object and throws
on every other kind, and erasing throws on everything but an object. An object
is a `std::map`, so its members stand in key order without repetition.

A `std::string` is a sequence of bytes. It is modelled by a `String` with one
character for one byte, so lengths, cuts and comparisons are those of the C++.
Floating-point numbers are kept as the text they are dumped to; no modelled
function computes with one.

Serialising checks every text: `dump()` throws when one is not UTF-8. A parsed value
has no such text, for the parser refuses it, but a text that was cut can be one.
-/

namespace GoogleCalendar

open Library

/-- A parsed JSON value. Integers cover both the signed and the unsigned kind. -/
inductive Json where
  | null
  | boolean (value : Bool)
  | integer (value : Int)
  | float (text : String)
  | string (value : String)
  | array (elements : List Json)
  | object (members : List (String × Json))
  deriving Inhabited

/-- What `nlohmann::json::exception` carries: its number and its text. -/
structure JsonError where
  id : Nat
  message : String
  deriving DecidableEq, Repr

namespace JsonError

/-- The class of an exception, which its number tells. -/
def name (error : JsonError) : String :=
  if error.id < 200 then "parse_error"
  else if error.id < 300 then "invalid_iterator"
  else if error.id < 400 then "type_error"
  else if error.id < 500 then "out_of_range"
  else "other_error"

/-- `what()`. -/
def what (error : JsonError) : String :=
  "[json.exception." ++ error.name ++ "." ++ toString error.id ++ "] " ++ error.message

end JsonError

namespace Json

/-- The kind named in the library's error texts. -/
def typeName : Json → String
  | null => "null"
  | boolean _ => "boolean"
  | integer _ => "number"
  | float _ => "number"
  | string _ => "string"
  | array _ => "array"
  | object _ => "object"

/-- One character of a dumped string. Quotes, backslashes and control characters
are escaped, every other byte is copied. -/
def escapeChar (char : Char) : String :=
  if char.toNat = 34 then "\\\""
  else if char.toNat = 92 then "\\\\"
  else if char.toNat = 8 then "\\b"
  else if char.toNat = 9 then "\\t"
  else if char.toNat = 10 then "\\n"
  else if char.toNat = 12 then "\\f"
  else if char.toNat = 13 then "\\r"
  else if char.toNat < 32 then
    "\\u00" ++ String.ofList [Nat.digitChar (char.toNat / 16), Nat.digitChar (char.toNat % 16)]
  else char.toString

/-- A text between quotes, with its escapes. -/
def dumpString (text : String) : String :=
  "\"" ++ String.join (text.toList.map escapeChar) ++ "\""

mutual

/-- The text that `dump()` writes, without indentation. -/
def dump : Json → String
  | null => "null"
  | boolean value => if value then "true" else "false"
  | integer value => toString value
  | float text => text
  | string text => dumpString text
  | array elements => "[" ++ dumpElements elements ++ "]"
  | object members => "\x7b" ++ dumpMembers members ++ "\x7d"

/-- The elements, with commas between them. -/
def dumpElements : List Json → String
  | [] => ""
  | [element] => dump element
  | element :: rest => dump element ++ "," ++ dumpElements rest

/-- The members, with commas between them. -/
def dumpMembers : List (String × Json) → String
  | [] => ""
  | [(key, value)] => dumpString key ++ ":" ++ dump value
  | (key, value) :: rest => dumpString key ++ ":" ++ dump value ++ "," ++ dumpMembers rest

end

/-- A byte in an error text. -/
def hexBytes (byte : Char) : String :=
  String.ofList [PercentText.upperHex (byte.toNat / 16), PercentText.upperHex (byte.toNat % 16)]

/-- `dump_escaped` throws on a text that is not UTF-8. -/
def checkText (text : String) : Except JsonError Unit :=
  match Utf8.check text.toList with
  | .wellFormed => .ok ()
  | .invalid index byte => .error
      ⟨316, "invalid UTF-8 byte at index " ++ toString index ++ ": 0x" ++ hexBytes byte⟩
  | .incomplete last => .error ⟨316, "incomplete UTF-8 string; last byte: 0x" ++ hexBytes last⟩

mutual

/-- The texts of a value, checked in the order in which they are dumped. -/
def checkTexts : Json → Except JsonError Unit
  | null | boolean _ | integer _ | float _ => .ok ()
  | string text => checkText text
  | array elements => checkElements elements
  | object members => checkMembers members

/-- The first text among the elements that is not UTF-8. -/
def checkElements : List Json → Except JsonError Unit
  | [] => .ok ()
  | element :: rest => (checkTexts element).bind (fun _ => checkElements rest)

/-- The first text among the members that is not UTF-8, keys before values. -/
def checkMembers : List (String × Json) → Except JsonError Unit
  | [] => .ok ()
  | (key, value) :: rest =>
    (checkText key).bind (fun _ => (checkTexts value).bind (fun _ => checkMembers rest))

end

/-- What `dump()` returns or throws. -/
def dumped (json : Json) : Except JsonError String := json.checkTexts.map (fun _ => json.dump)

/-- A value that is serialised without an exception. -/
def Dumps (json : Json) : Prop := json.checkTexts = .ok ()

instance (json : Json) : Decidable json.Dumps := inferInstanceAs (Decidable (_ = _))

mutual

/-- Equality of two values as a test. -/
def same : Json → Json → Bool
  | null, null => true
  | boolean left, boolean right => left = right
  | integer left, integer right => left = right
  | float left, float right => left = right
  | string left, string right => left = right
  | array left, array right => sameElements left right
  | object left, object right => sameMembers left right
  | _, _ => false

/-- Whether elements are the same, one by one. -/
def sameElements : List Json → List Json → Bool
  | [], [] => true
  | left :: lefts, right :: rights => same left right && sameElements lefts rights
  | _, _ => false

/-- Whether members are the same, one by one and in order. -/
def sameMembers : List (String × Json) → List (String × Json) → Bool
  | [], [] => true
  | (key, left) :: lefts, (other, right) :: rights =>
      decide (key = other) && same left right && sameMembers lefts rights
  | _, _ => false

end

mutual

/-- `same` is equality. -/
theorem same_iff (left right : Json) : same left right = true ↔ left = right := by
  cases left with
  | array lefts =>
    cases right with
    | array rights => simp [same, same_elements_iff lefts rights]
    | _ => simp [same]
  | object lefts =>
    cases right with
    | object rights => simp [same, same_members_iff lefts rights]
    | _ => simp [same]
  | _ => cases right <;> simp [same]

/-- So it is on elements. -/
theorem same_elements_iff (lefts rights : List Json) :
    sameElements lefts rights = true ↔ lefts = rights := by
  cases lefts with
  | nil => cases rights <;> simp [sameElements]
  | cons left lefts =>
    cases rights with
    | nil => simp [sameElements]
    | cons right rights => simp [sameElements, same_iff left right, same_elements_iff lefts rights]

/-- And on members. -/
theorem same_members_iff (lefts rights : List (String × Json)) :
    sameMembers lefts rights = true ↔ lefts = rights := by
  cases lefts with
  | nil => cases rights <;> simp [sameMembers]
  | cons left lefts =>
    obtain ⟨key, left⟩ := left
    cases rights with
    | nil => simp [sameMembers]
    | cons right rights =>
      obtain ⟨other, right⟩ := right
      simp [sameMembers, same_iff left right, same_members_iff lefts rights]

end

instance : DecidableEq Json := fun left right => decidable_of_iff _ (same_iff left right)

/-- An object from an ordered map of members. -/
def ofMembers (members : OrderedMap String Json) : Json := object members.entries

/-- The member with the key; a value that is no object has none. Covers both
`contains` and the reads of `operator[]` that follow it in the source. -/
def find (json : Json) (key : String) : Option Json :=
  match json with
  | object members => SortedEntries.find key members
  | _ => none

/-- `json::contains`. -/
def contains (json : Json) (key : String) : Bool := (json.find key).isSome

/-- `json::is_object`. -/
def isObject : Json → Bool
  | object _ => true
  | _ => false

/-- `json::is_null`. -/
def isNull : Json → Bool
  | null => true
  | _ => false

/-- `operator[](key) = value`. -/
def assign (json : Json) (key : String) (value : Json) : Except JsonError Json :=
  match json with
  | null => .ok (object [(key, value)])
  | object members => .ok (object (SortedEntries.insert key value members))
  | other => .error
      ⟨305, "cannot use operator[] with a string argument with " ++ other.typeName⟩

/-- `erase(key)`. -/
def erase (json : Json) (key : String) : Except JsonError Json :=
  match json with
  | object members => .ok (object (SortedEntries.erase key members))
  | other => .error ⟨307, "cannot use erase() with " ++ other.typeName⟩

/-- `get<std::string>()`. -/
def getString : Json → Except JsonError String
  | string text => .ok text
  | other => .error ⟨302, "type must be string, but is " ++ other.typeName⟩

/-- `get<bool>()`. -/
def getBool : Json → Except JsonError Bool
  | boolean value => .ok value
  | other => .error ⟨302, "type must be boolean, but is " ++ other.typeName⟩

/-- `value(key, default)`: the default stands in for a missing member only, not
for a member of another type. -/
def valueOr {α : Type} (json : Json) (key : String) (default : α)
    (get : Json → Except JsonError α) : Except JsonError α :=
  match json with
  | object members =>
    match SortedEntries.find key members with
    | some member => get member
    | none => .ok default
  | other => .error ⟨306, "cannot use value() with " ++ other.typeName⟩

/-- A text passes the check when it is UTF-8. -/
theorem check_text_iff (text : String) :
    checkText text = .ok () ↔ Utf8.WellFormed text.toList := by
  rw [← Utf8.check_iff, checkText]
  split
  · rename_i found
    simp [found]
  · rename_i found
    simp [found]
  · rename_i found
    simp [found]

/-- A check behind another one passes when both do. -/
theorem check_then_iff (first second : Except JsonError Unit) :
    (first.bind fun _ => second) = .ok () ↔ first = .ok () ∧ second = .ok () := by
  cases first with
  | error error => simp [Except.bind]
  | ok done => simp [Except.bind]

/-- A string is dumped when it is UTF-8. -/
theorem dumps_string (text : String) : (string text).Dumps ↔ Utf8.WellFormed text.toList :=
  check_text_iff text

/-- An array is dumped when its elements are. -/
theorem dumps_array (elements : List Json) :
    (array elements).Dumps ↔ ∀ element ∈ elements, element.Dumps := by
  rw [Dumps, checkTexts]
  induction elements with
  | nil => simp [checkElements]
  | cons element rest ih =>
    rw [checkElements, check_then_iff, ih, List.forall_mem_cons]
    exact Iff.rfl

/-- An object is serialised when its keys and its members are. -/
theorem dumps_object (members : List (String × Json)) : (object members).Dumps ↔
    ∀ member ∈ members, Utf8.WellFormed member.1.toList ∧ member.2.Dumps := by
  rw [Dumps, checkTexts]
  induction members with
  | nil => simp [checkMembers]
  | cons member rest ih =>
    obtain ⟨key, value⟩ := member
    rw [checkMembers, check_then_iff, check_then_iff, ih, List.forall_mem_cons, check_text_iff,
      and_assoc]
    exact Iff.rfl

/-- A member that is found in a serialisable value is serialisable, and so is its key. -/
theorem found_dumps (json value : Json) (key : String) (dumps : json.Dumps)
    (found : json.find key = some value) : Utf8.WellFormed key.toList ∧ value.Dumps := by
  cases json with
  | object members =>
    exact (dumps_object members).mp dumps (key, value)
      (SortedEntries.find_mem key value members found)
  | _ => exact absurd found (by simp [find])

/-- An object with ordered members is serialised when all that is found in it is. -/
theorem members_dump (members : OrderedMap String Json)
    (each : ∀ key value, members.find key = some value →
      Utf8.WellFormed key.toList ∧ value.Dumps) : (ofMembers members).Dumps := by
  apply (dumps_object members.entries).mpr
  intro member listed
  exact each member.1 member.2
    (SortedEntries.find_of_mem member members.entries members.sorted listed)

/-- What dumps is dumped. -/
theorem dumped_ok (json : Json) (dumps : json.Dumps) : json.dumped = .ok json.dump := by
  rw [dumped, dumps]
  rfl

/-- What was serialised was serialisable. -/
theorem dumps_of_dumped (json : Json) (text : String) (done : json.dumped = .ok text) :
    json.Dumps ∧ text = json.dump := by
  rw [dumped] at done
  cases checked : json.checkTexts with
  | error error => simp [checked, Except.map] at done
  | ok passed =>
    simp only [checked, Except.map, Except.ok.injEq] at done
    exact ⟨checked, done.symm⟩

/-- A member of an object is found among its members. -/
@[simp] theorem find_of_members (members : OrderedMap String Json) (key : String) :
    (ofMembers members).find key = members.find key := rfl

/-- A member is assigned among the members. -/
@[simp] theorem assign_of_members (members : OrderedMap String Json) (key : String)
    (value : Json) : (ofMembers members).assign key value =
      .ok (ofMembers (members.insert key value)) := rfl

/-- A member is erased among the members. -/
@[simp] theorem erase_of_members (members : OrderedMap String Json) (key : String) :
    (ofMembers members).erase key = .ok (ofMembers (members.erase key)) := rfl

end Json

end GoogleCalendar
