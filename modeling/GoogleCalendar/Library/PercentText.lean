import Mathlib.Data.List.Basic

/-!
# Percent-encoded texts and their separators

An encoder keeps some characters and writes every other byte as a percent sign
and two hexadecimal digits. Decoding undoes it, whatever characters are kept, as
long as the percent sign is not one of them. A separator that is not kept does
not occur in an encoded text, so pieces that are joined by it are cut apart again
before they are decoded.

A target is a path and a list of parameters. It is written with its pieces encoded,
and read by cutting at the separators first and decoding the pieces then. What is
written is read back, so different targets are written differently.

A character stands for one byte.
-/

namespace GoogleCalendar.Library.PercentText

/-- The hexadecimal digits that an encoder writes. -/
def upperHex (value : Nat) : Char := "0123456789ABCDEF".toList.getD value '0'

/-- The value of a hexadecimal digit in either case. -/
def hexValue (char : Char) : Option Nat :=
  if '0' ≤ char ∧ char ≤ '9' then some (char.toNat - 48)
  else if 'A' ≤ char ∧ char ≤ 'F' then some (char.toNat - 55)
  else if 'a' ≤ char ∧ char ≤ 'f' then some (char.toNat - 87)
  else none

/-- The byte that two hexadecimal digits stand for. -/
def hexByte (first second : Char) : Option Char :=
  match hexValue first, hexValue second with
  | some upper, some lower => some (Char.ofNat (16 * upper + lower))
  | _, _ => none

/-- Percent-decoding. A percent sign without two digits behind it stands for itself. -/
def decode : List Char → List Char
  | '%' :: first :: second :: rest =>
    match hexByte first second with
    | some byte => byte :: decode rest
    | none => '%' :: decode (first :: second :: rest)
  | char :: rest => char :: decode rest
  | [] => []

/-- The encoding of one byte. -/
def escape (kept : Char → Bool) (char : Char) : List Char :=
  if kept char then [char]
  else ['%', upperHex (char.toNat / 16 % 16), upperHex (char.toNat % 16)]

/-- A text whose characters stand for bytes. -/
def IsBytes (chars : List Char) : Prop := ∀ char ∈ chars, char.toNat < 256

instance (chars : List Char) : Decidable (IsBytes chars) :=
  decidable_of_iff (chars.all (fun char => char.toNat < 256) = true) (by simp [IsBytes])

/-- A hexadecimal digit is read back. -/
theorem hex_read (value : Nat) (small : value < 16) : hexValue (upperHex value) = some value := by
  have all : ∀ digit < 16, hexValue (upperHex digit) = some digit := by decide
  exact all value small

/-- A character that is no percent sign stands for itself. -/
theorem decode_other (char : Char) (rest : List Char) (other : char ≠ '%') :
    decode (char :: rest) = char :: decode rest := by
  rw [decode]
  rintro first second others percent
  exact absurd percent other

/-- One encoded byte is decoded before what follows it. -/
theorem decode_escape (kept : Char → Bool) (mark : kept '%' = false) (char : Char)
    (byte : char.toNat < 256) (rest : List Char) :
    decode (escape kept char ++ rest) = char :: decode rest := by
  simp only [escape]
  split
  · rename_i keeps
    apply decode_other
    rintro rfl
    simp [mark] at keeps
  · have whole : 16 * (char.toNat / 16 % 16) + char.toNat % 16 = char.toNat := by omega
    have digits : hexByte (upperHex (char.toNat / 16 % 16)) (upperHex (char.toNat % 16)) =
        some char := by
      simp only [hexByte, hex_read _ (Nat.mod_lt (char.toNat / 16) (by decide : 0 < 16)),
        hex_read _ (Nat.mod_lt char.toNat (by decide : 0 < 16)), whole, Char.ofNat_toNat]
    simp only [List.cons_append, List.nil_append, decode, digits]

/-- Decoding undoes encoding. -/
theorem decode_encoded (kept : Char → Bool) (mark : kept '%' = false) (chars : List Char)
    (bytes : IsBytes chars) : decode (chars.flatMap (escape kept)) = chars := by
  induction chars with
  | nil => rfl
  | cons char rest ih =>
    rw [List.flatMap_cons, decode_escape kept mark char (bytes char (List.mem_cons_self ..)),
      ih (fun other member => bytes other (List.mem_cons_of_mem _ member))]

/-- A separator that is not kept does not occur in an encoded text. -/
theorem separator_absent (kept : Char → Bool) (separator : Char) (dropped : kept separator = false)
    (other : separator ≠ '%') (noDigit : hexValue separator = none) (chars : List Char) :
    separator ∉ chars.flatMap (escape kept) := by
  intro member
  obtain ⟨char, -, inside⟩ := List.mem_flatMap.mp member
  simp only [escape] at inside
  split at inside
  · rename_i keeps
    obtain rfl := List.mem_singleton.mp inside
    simp [dropped] at keeps
  · simp only [List.mem_cons, List.not_mem_nil, or_false] at inside
    rcases inside with percent | upper | lower
    · exact other percent
    · rw [upper, hex_read _ (Nat.mod_lt _ (by decide))] at noDigit
      simp at noDigit
    · rw [lower, hex_read _ (Nat.mod_lt _ (by decide))] at noDigit
      simp at noDigit

/-- What stands before the first mark, and what stands behind it when there is one. -/
def cutAt (mark : Char) : List Char → List Char × Option (List Char)
  | [] => ([], none)
  | char :: rest =>
    if char = mark then ([], some rest)
    else (char :: (cutAt mark rest).1, (cutAt mark rest).2)

/-- A text without the mark is not cut. -/
theorem cut_absent (mark : Char) (chars : List Char) (absent : mark ∉ chars) :
    cutAt mark chars = (chars, none) := by
  induction chars with
  | nil => rfl
  | cons char rest ih =>
    obtain ⟨here, later⟩ := not_or.mp (fun split => absent (List.mem_cons.mpr split))
    rw [cutAt, if_neg (Ne.symm here), ih later]

/-- A text is cut at its first mark. -/
theorem cut_mark (mark : Char) (before after : List Char) (absent : mark ∉ before) :
    cutAt mark (before ++ mark :: after) = (before, some after) := by
  induction before with
  | nil => rw [List.nil_append, cutAt, if_pos rfl]
  | cons char rest ih =>
    obtain ⟨here, later⟩ := not_or.mp (fun split => absent (List.mem_cons.mpr split))
    rw [List.cons_append, cutAt, if_neg (Ne.symm here), ih later]

/-- The segments of a path and the parameters of a query, as bytes. -/
structure Target where
  segments : List (List Char)
  params : List (List Char × List Char)
  deriving DecidableEq, Repr

/-- A parameter is cut at its first equals sign. -/
def readParam (piece : List Char) : List Char × List Char :=
  let cut := cutAt '=' piece
  (decode cut.1, decode (cut.2.getD []))

/-- Cut at the question mark, the slashes and the ampersands, and decode the pieces. -/
def readTarget (text : List Char) : Target :=
  let cut := cutAt '?' text
  ⟨(cut.1.splitOn '/').map decode,
    match cut.2 with
    | none => []
    | some query => (query.splitOn '&').map readParam⟩

/-- A parameter, its name and value escaped. -/
def writeParam (kept : Char → Bool) (param : List Char × List Char) : List Char :=
  param.1.flatMap (escape kept) ++ '=' :: param.2.flatMap (escape kept)

/-- A query, with its mark. -/
def writeQuery (kept : Char → Bool) (params : List (List Char × List Char)) : List Char :=
  if params = [] then []
  else '?' :: ['&'].intercalate (params.map (writeParam kept))

/-- A path, its segments escaped. -/
def writePath (kept : Char → Bool) (segments : List (List Char)) : List Char :=
  ['/'].intercalate (segments.map (fun segment => segment.flatMap (escape kept)))

/-- The characters with a meaning in a target. -/
def marks : List Char := ['%', '/', '?', '#', '&', '=']

/-- An encoder that keeps no character with a meaning. -/
def Reserves (kept : Char → Bool) : Prop := ∀ mark ∈ marks, kept mark = false

/-- The pieces of a target are bytes. -/
def Target.IsBytes (target : Target) : Prop :=
  (∀ segment ∈ target.segments, PercentText.IsBytes segment) ∧
    ∀ param ∈ target.params, PercentText.IsBytes param.1 ∧ PercentText.IsBytes param.2

instance (target : Target) : Decidable target.IsBytes :=
  inferInstanceAs (Decidable ((∀ segment ∈ target.segments, PercentText.IsBytes segment) ∧
    ∀ param ∈ target.params, PercentText.IsBytes param.1 ∧ PercentText.IsBytes param.2))

/-- What joined pieces contain stands in a piece or is the separator. -/
theorem mem_joined (separator mark : Char) (pieces : List (List Char))
    (member : mark ∈ [separator].intercalate pieces) :
    mark = separator ∨ ∃ piece ∈ pieces, mark ∈ piece := by
  induction pieces with
  | nil => simp at member
  | cons piece rest ih =>
    cases rest with
    | nil =>
      rw [List.intercalate_singleton] at member
      exact Or.inr ⟨piece, List.mem_cons_self .., member⟩
    | cons next others =>
      rw [List.intercalate_cons_cons, List.mem_append, List.mem_append] at member
      rcases member with (here | between) | later
      · exact Or.inr ⟨piece, List.mem_cons_self .., here⟩
      · exact Or.inl (List.mem_singleton.mp between)
      · rcases ih later with same | ⟨other, among, inside⟩
        · exact Or.inl same
        · exact Or.inr ⟨other, List.mem_cons_of_mem _ among, inside⟩

/-- Joining behind an empty piece puts the separator in front of every other piece. -/
theorem joined_rooted (separator : Char) (pieces : List (List Char)) (some : pieces ≠ []) :
    [separator].intercalate ([] :: pieces) = pieces.flatMap (fun piece => separator :: piece) := by
  induction pieces with
  | nil => exact absurd rfl some
  | cons piece rest ih =>
    cases rest with
    | nil => simp
    | cons next others =>
      have later := ih (by simp)
      rw [List.intercalate_cons_cons, List.nil_append] at later
      rw [List.intercalate_cons_cons, List.nil_append, List.intercalate_cons_cons,
        List.flatMap_cons, ← later]
      simp only [List.append_assoc, List.cons_append, List.nil_append]

/-- A path whose first segment is empty starts with a slash. -/
theorem path_rooted (kept : Char → Bool) (segments : List (List Char)) (some : segments ≠ []) :
    writePath kept ([] :: segments) =
      segments.flatMap (fun segment => '/' :: segment.flatMap (escape kept)) := by
  rw [writePath, List.map_cons, List.flatMap_nil, joined_rooted '/' _ (by simpa using some),
    List.flatMap_map]

section Target

variable {kept : Char → Bool}

/-- No separator occurs in an encoded piece. -/
theorem mark_absent (reserves : Reserves kept) (mark : Char) (known : mark ∈ marks.tail)
    (chars : List Char) : mark ∉ chars.flatMap (escape kept) := by
  have plain : marks.tail.all (fun other => other ≠ '%' && hexValue other = none) = true := by
    decide
  have here := List.all_eq_true.mp plain mark known
  simp only [Bool.and_eq_true, decide_eq_true_eq] at here
  obtain ⟨noPercent, noDigit⟩ := here
  exact separator_absent kept mark (reserves mark (List.mem_of_mem_tail known)) noPercent noDigit
    chars

/-- A segment is read back. -/
theorem segment_read (reserves : Reserves kept) (segment : List Char)
    (bytes : IsBytes segment) : decode (segment.flatMap (escape kept)) = segment :=
  decode_encoded kept (reserves '%' (by decide)) segment bytes

/-- A parameter is read back. -/
theorem param_read (reserves : Reserves kept) (param : List Char × List Char)
    (key : IsBytes param.1) (value : IsBytes param.2) :
    readParam (writeParam kept param) = param := by
  have cut := cut_mark '=' (param.1.flatMap (escape kept)) (param.2.flatMap (escape kept))
    (mark_absent reserves '=' (by decide) param.1)
  simp only [readParam, writeParam, cut, Option.getD_some]
  rw [segment_read reserves _ key, segment_read reserves _ value]

/-- The only separator in a path is the slash. -/
theorem path_free (reserves : Reserves kept) (mark : Char) (known : mark ∈ marks.tail)
    (other : mark ≠ '/') (segments : List (List Char)) : mark ∉ writePath kept segments := by
  intro member
  rcases mem_joined '/' mark _ member with same | ⟨piece, among, inside⟩
  · exact other same
  · obtain ⟨segment, -, rfl⟩ := List.mem_map.mp among
    exact mark_absent reserves mark known segment inside

/-- The only marks in a query are its question mark, ampersands and equals signs. -/
theorem query_free (reserves : Reserves kept) (mark : Char) (known : mark ∈ marks.tail)
    (other : mark ∉ ['?', '&', '=']) (params : List (List Char × List Char)) :
    mark ∉ writeQuery kept params := by
  simp only [List.mem_cons, List.not_mem_nil, or_false, not_or] at other
  obtain ⟨noQuestion, noAmpersand, noEquals⟩ := other
  rw [writeQuery]
  split
  · exact List.not_mem_nil
  · refine List.not_mem_cons_of_ne_of_not_mem noQuestion (fun member => ?_)
    rcases mem_joined '&' mark _ member with same | ⟨piece, among, inside⟩
    · exact noAmpersand same
    · obtain ⟨param, -, rfl⟩ := List.mem_map.mp among
      have key := mark_absent reserves mark known param.1
      have value := mark_absent reserves mark known param.2
      rcases List.mem_append.mp inside with left | right
      · exact key left
      · exact List.not_mem_cons_of_ne_of_not_mem noEquals value right

/-- So are the segments of a path. -/
theorem segments_read (reserves : Reserves kept) (segments : List (List Char))
    (some : segments ≠ [])
    (bytes : ∀ segment ∈ segments, IsBytes segment) :
    ((writePath kept segments).splitOn '/').map decode = segments := by
  have apart : (writePath kept segments).splitOn '/' =
      segments.map (fun segment => segment.flatMap (escape kept)) := by
    refine List.splitOn_intercalate '/' ?_ (by simpa using some)
    intro piece among
    obtain ⟨segment, -, rfl⟩ := List.mem_map.mp among
    exact mark_absent reserves '/' (by decide) segment
  rw [apart, List.map_map]
  calc segments.map (decode ∘ fun segment => segment.flatMap (escape kept))
      = segments.map id :=
        List.map_congr_left (fun segment member => segment_read reserves _ (bytes segment member))
    _ = segments := List.map_id segments

/-- So are the parameters of a query. -/
theorem params_read (reserves : Reserves kept) (params : List (List Char × List Char))
    (some : params ≠ [])
    (bytes : ∀ param ∈ params, IsBytes param.1 ∧ IsBytes param.2) :
    ((['&'].intercalate (params.map (writeParam kept))).splitOn '&').map readParam = params := by
  have apart : (['&'].intercalate (params.map (writeParam kept))).splitOn '&' =
      params.map (writeParam kept) := by
    refine List.splitOn_intercalate '&' ?_ (by simpa using some)
    intro piece among
    obtain ⟨param, -, rfl⟩ := List.mem_map.mp among
    have key := mark_absent reserves '&' (by decide) param.1
    have value := mark_absent reserves '&' (by decide) param.2
    simp [writeParam, key, value]
  rw [apart, List.map_map]
  calc params.map (readParam ∘ writeParam kept)
      = params.map id :=
        List.map_congr_left (fun param member =>
          param_read reserves param (bytes param member).1 (bytes param member).2)
    _ = params := List.map_id params

/-- A target that is written is read back. -/
theorem target_read (reserves : Reserves kept) (target : Target)
    (some : target.segments ≠ []) (bytes : target.IsBytes) :
    readTarget (writePath kept target.segments ++ writeQuery kept target.params) = target := by
  have free := path_free reserves '?' (by decide) (by decide) target.segments
  have segments := segments_read reserves target.segments some bytes.1
  by_cases none : target.params = []
  · simp only [readTarget, writeQuery, none, if_true, List.append_nil, cut_absent '?' _ free,
      segments]
    rw [← none]
  · simp only [readTarget, writeQuery, none, if_false, cut_mark '?' _ _ free, segments,
      params_read reserves target.params none bytes.2]

end Target

end GoogleCalendar.Library.PercentText
