import GoogleCalendar.ProxyConfig
import GoogleCalendar.Library.PercentText

/-!
# The grammar of the proxy setting

A proxy is written `[http:// | https://] host [: port]` with any number of slashes
at the end, where the host has no colon and the port is a number of 16 bits in
decimal digits. All slashes at the end belong to the tail.

The parser reads more than that. Its splitter drops empty pieces, so a colon may
stand anywhere beside the host, and the number is read by a function that skips
white space, takes a sign and stops at the first character that is no digit.
-/

namespace GoogleCalendar.ProxyGrammar

open Library PercentText HttpProxyConfig

/-- The schemes and their ports, the one that is not written first. -/
def schemes : List (List Char × Nat) :=
  [([], 80), ("http://".toList, 80), ("https://".toList, 443)]

/-- A proxy text with the host and the port that it names. -/
inductive ProxySyntax : List Char → List Char → Nat → Prop where
  | host (scheme host : List Char) (port slashes : Nat) (known : (scheme, port) ∈ schemes)
      (named : host ≠ []) (free : ':' ∉ host) (ended : host.getLast? ≠ some '/') :
      ProxySyntax (scheme ++ (host ++ List.replicate slashes '/')) host port
  | hostAndPort (scheme host digits : List Char) (port slashes : Nat)
      (known : (scheme, port) ∈ schemes) (named : host ≠ []) (free : ':' ∉ host)
      (written : digits ≠ []) (decimal : digits.all Char.isDigit = true)
      (fits : Nat.ofDigitChars 10 digits 0 ≤ 65535) :
      ProxySyntax (scheme ++ (host ++ ':' :: digits ++ List.replicate slashes '/')) host
        (Nat.ofDigitChars 10 digits 0)

/-- The pieces between the colons, without the empty ones. -/
def nonEmptyPieces (text : List Char) : List (List Char) :=
  (text.splitOn ':').filter (fun piece => !piece.isEmpty)

/-- The engine's splitter drops empty pieces. Of a text with no other pieces it
gives nothing or the text. -/
structure SplitsAtColons (split : List Char → List (List Char)) : Prop where
  pieces : ∀ text, nonEmptyPieces text ≠ [] → split text = nonEmptyPieces text
  nothing : ∀ text, nonEmptyPieces text = [] → split text = [] ∨ split text = [text]

/-- What a text without its scheme and its last slashes says. -/
def Names (body : List Char) (defaultPort : Nat) (host : List Char) (port : Nat) : Prop :=
  host ≠ [] ∧ ':' ∉ host ∧
    ((body = host ∧ port = defaultPort) ∨
      ∃ digits, body = host ++ ':' :: digits ∧ digits ≠ [] ∧ digits.all Char.isDigit = true ∧
        Nat.ofDigitChars 10 digits 0 ≤ 65535 ∧ port = Nat.ofDigitChars 10 digits 0)

/-- Slashes at the end are taken off, and no other character. -/
theorem slashes_dropped (body : List Char) (slashes : Nat) (ended : body.getLast? ≠ some '/') :
    (body ++ List.replicate slashes '/').rdropWhile (· = '/') = body := by
  induction slashes with
  | zero =>
    rw [List.replicate_zero, List.append_nil, List.rdropWhile_eq_self_iff]
    intro some last
    exact ended (by rw [List.getLast?_eq_some_getLast some, of_decide_eq_true last])
  | succ slashes ih =>
    rw [List.replicate_succ', ← List.append_assoc, List.rdropWhile_concat_pos _ _ _ (by simp), ih]

/-- What is left has no slash at its end. -/
theorem slashes_kept (text : List Char) :
    ∃ slashes, text = text.rdropWhile (· = '/') ++ List.replicate slashes '/' ∧
      (text.rdropWhile (· = '/')).getLast? ≠ some '/' := by
  refine ⟨(text.rtakeWhile (· = '/')).length, ?_, ?_⟩
  · have slashes : text.rtakeWhile (· = '/') =
        List.replicate (text.rtakeWhile (· = '/')).length '/' := by
      apply List.eq_replicate_of_mem
      intro char member
      simpa using List.mem_rtakeWhile_imp member
    rw [← slashes, List.rdropWhile_append_rtakeWhile]
  · intro last
    obtain ⟨before, split⟩ := List.getLast?_eq_some_iff.mp last
    have some : text.rdropWhile (· = '/') ≠ [] := by simp [split]
    have other := List.rdropWhile_last_not _ _ some
    simp [split] at other

/-- A text has one first colon. -/
theorem first_colon (before after left right : List Char) (beforeFree : ':' ∉ before)
    (leftFree : ':' ∉ left) (same : before ++ ':' :: after = left ++ ':' :: right) :
    before = left ∧ after = right := by
  have cut := cut_mark ':' before after beforeFree
  rw [same, cut_mark ':' left right leftFree] at cut
  obtain ⟨first, second⟩ := Prod.mk.inj cut
  exact ⟨first.symm, (Option.some.inj second).symm⟩

/-- Digits have no colon. -/
theorem digits_free (digits : List Char) (decimal : digits.all Char.isDigit = true) :
    ':' ∉ digits := by
  intro member
  have digit := List.all_eq_true.mp decimal ':' member
  simp at digit

/-- The two schemes, character by character. -/
theorem scheme_chars : "http://".toList = ['h', 't', 't', 'p', ':', '/', '/'] ∧
    "https://".toList = ['h', 't', 't', 'p', 's', ':', '/', '/'] := by
  decide

/-- A scheme that is written is taken off. A text that is not one is left alone. -/
theorem scheme_stripped (scheme raw : List Char) (port : Nat) (known : (scheme, port) ∈ schemes)
    (unwritten : scheme = [] → "http://".toList.isPrefixOf raw = false ∧
      "https://".toList.isPrefixOf raw = false) :
    withoutScheme (scheme ++ raw) = (raw, port) := by
  simp only [schemes, List.mem_cons, Prod.mk.injEq, List.not_mem_nil, or_false] at known
  obtain ⟨http, https⟩ := scheme_chars
  rcases known with ⟨rfl, rfl⟩ | ⟨rfl, rfl⟩ | ⟨rfl, rfl⟩
  · obtain ⟨noHttp, noHttps⟩ := unwritten rfl
    simp only [withoutScheme, List.nil_append, noHttp, noHttps, Bool.false_eq_true, if_false]
  · simp [withoutScheme, http]
  · simp [withoutScheme, http, https]

/-- Every text is a scheme, which may be the one that is not written, and a rest. -/
theorem scheme_of (value : List Char) :
    ∃ scheme, (scheme, (withoutScheme value).2) ∈ schemes ∧
      value = scheme ++ (withoutScheme value).1 := by
  obtain ⟨http, https⟩ := scheme_chars
  by_cases isHttp : "http://".toList.isPrefixOf value = true
  · obtain ⟨rest, rfl⟩ := List.isPrefixOf_iff_prefix.mp isHttp
    exact ⟨"http://".toList, by simp [withoutScheme, schemes, http],
      by simp [withoutScheme, http]⟩
  · by_cases isHttps : "https://".toList.isPrefixOf value = true
    · obtain ⟨rest, rfl⟩ := List.isPrefixOf_iff_prefix.mp isHttps
      exact ⟨"https://".toList, by simp [withoutScheme, schemes, http, https],
        by simp [withoutScheme, http, https]⟩
    · refine ⟨[], ?_, ?_⟩
      · simp only [withoutScheme, isHttp, isHttps, Bool.false_eq_true, if_false, schemes]
        exact List.mem_cons_self ..
      · simp only [withoutScheme, isHttp, isHttps, Bool.false_eq_true, if_false, List.nil_append]

/-- A text whose first colon has no slashes behind it begins with no scheme. -/
theorem colon_without_slashes (name host rest : List Char) (nameFree : ':' ∉ name)
    (free : ':' ∉ host) (plain : rest.head? ≠ some '/') :
    (name ++ "://".toList).isPrefixOf (host ++ ':' :: rest) = false := by
  rw [Bool.eq_false_iff]
  intro begins
  obtain ⟨tail, whole⟩ := List.isPrefixOf_iff_prefix.mp begins
  have split : name ++ ':' :: ('/' :: '/' :: tail) = host ++ ':' :: rest := by
    simpa using whole
  obtain ⟨-, rfl⟩ := first_colon name _ host _ nameFree free split
  exact plain rfl

/-- A text without a colon starts with no scheme. -/
theorem no_colon_no_scheme (name text : List Char) (free : ':' ∉ text) :
    (name ++ "://".toList).isPrefixOf text = false := by
  rw [Bool.eq_false_iff]
  intro begins
  obtain ⟨tail, rfl⟩ := List.isPrefixOf_iff_prefix.mp begins
  simp at free

/-- Behind a scheme a host is what the code leaves of it. -/
theorem host_sanitized (scheme host : List Char) (port slashes : Nat)
    (known : (scheme, port) ∈ schemes) (free : ':' ∉ host) (ended : host.getLast? ≠ some '/') :
    sanitize (scheme ++ (host ++ List.replicate slashes '/')) = (host, port) := by
  have plain : ':' ∉ host ++ List.replicate slashes '/' := by
    simp [free]
  have stripped := scheme_stripped scheme (host ++ List.replicate slashes '/') port known
    (fun _ => ⟨no_colon_no_scheme "http".toList _ plain, no_colon_no_scheme "https".toList _ plain⟩)
  simp only [sanitize, stripped, slashes_dropped host slashes ended]

/-- A digit is no slash. -/
theorem digits_ended (host digits : List Char) (written : digits ≠ [])
    (decimal : digits.all Char.isDigit = true) : (host ++ ':' :: digits).getLast? ≠ some '/' := by
  intro last
  rw [List.getLast?_append_cons, List.getLast?_cons_of_ne_nil written] at last
  have digit := List.all_eq_true.mp decimal '/' (List.mem_of_getLast? last)
  simp at digit

/-- A number does not start with a slash. -/
theorem digits_head (digits : List Char) (slashes : Nat) (written : digits ≠ [])
    (decimal : digits.all Char.isDigit = true) :
    (digits ++ List.replicate slashes '/').head? ≠ some '/' := by
  cases digits with
  | nil => exact absurd rfl written
  | cons digit rest =>
    intro head
    obtain rfl := Option.some.inj head
    simp at decimal

/-- The same for a host and its port. -/
theorem pair_sanitized (scheme host digits : List Char) (port slashes : Nat)
    (known : (scheme, port) ∈ schemes) (free : ':' ∉ host) (written : digits ≠ [])
    (decimal : digits.all Char.isDigit = true) :
    sanitize (scheme ++ (host ++ ':' :: digits ++ List.replicate slashes '/')) =
      (host ++ ':' :: digits, port) := by
  have behind := digits_head digits slashes written decimal
  have stripped := scheme_stripped scheme (host ++ ':' :: digits ++ List.replicate slashes '/')
    port known
    (fun _ => by
      rw [List.append_assoc, List.cons_append]
      exact ⟨colon_without_slashes "http".toList host _ (by decide) free behind,
        colon_without_slashes "https".toList host _ (by decide) free behind⟩)
  simp only [sanitize, stripped,
    slashes_dropped _ slashes (digits_ended host digits written decimal)]

/-- The grammar is about what is left without the scheme and the last slashes. -/
theorem syntax_iff (value host : List Char) (port : Nat) :
    ProxySyntax value host port ↔ Names (sanitize value).1 (sanitize value).2 host port := by
  constructor
  · intro written
    cases written with
    | host scheme _ _ slashes known named free ended =>
      rw [host_sanitized scheme host port slashes known free ended]
      exact ⟨named, free, Or.inl ⟨rfl, rfl⟩⟩
    | hostAndPort scheme _ digits defaultPort slashes known named free written decimal fits =>
      rw [pair_sanitized scheme host digits defaultPort slashes known free written decimal]
      exact ⟨named, free, Or.inr ⟨digits, rfl, written, decimal, fits, rfl⟩⟩
  · rintro ⟨named, free, body⟩
    obtain ⟨slashes, raw, ended⟩ := slashes_kept (withoutScheme value).1
    obtain ⟨scheme, known, whole⟩ := scheme_of value
    rw [whole, raw]
    simp only [sanitize] at body
    rcases body with ⟨rfl, rfl⟩ | ⟨digits, split, written, decimal, fits, rfl⟩
    · exact .host scheme _ _ slashes known named free ended
    · rw [split]
      exact .hostAndPort scheme host digits _ slashes known named free written decimal fits

/-! The pieces of what the grammar accepts. -/

/-- A text without colons is one piece. -/
theorem pieces_alone (text : List Char) (named : text ≠ []) (free : ':' ∉ text) :
    nonEmptyPieces text = [text] := by
  simp [nonEmptyPieces, List.splitOn_eq_singleton free, named]

/-- Two texts around a colon are two pieces. -/
theorem pieces_pair (host portText : List Char) (named : host ≠ []) (free : ':' ∉ host)
    (written : portText ≠ []) (portFree : ':' ∉ portText) :
    nonEmptyPieces (host ++ ':' :: portText) = [host, portText] := by
  simp [nonEmptyPieces, List.splitOn_append_cons_self_of_not_mem free,
    List.splitOn_eq_singleton portFree, named, written]

/-- A named host is the first of one or two pieces. -/
theorem names_pieces (body host : List Char) (defaultPort port : Nat)
    (names : Names body defaultPort host port) :
    (nonEmptyPieces body = [host] ∧ ':' ∉ body ∧ port = defaultPort) ∨
      ∃ digits, nonEmptyPieces body = [host, digits] ∧ body = host ++ ':' :: digits ∧
        digits.all Char.isDigit = true ∧ Nat.ofDigitChars 10 digits 0 ≤ 65535 ∧
        port = Nat.ofDigitChars 10 digits 0 := by
  obtain ⟨named, free, ⟨rfl, rfl⟩ | ⟨digits, rfl, written, decimal, fits, rfl⟩⟩ := names
  · exact Or.inl ⟨pieces_alone body named free, free, rfl⟩
  · exact Or.inr ⟨digits, pieces_pair host digits named free written (digits_free digits decimal),
      rfl, decimal, fits, rfl⟩

/-- A proxy text names one host and one port. -/
theorem syntax_unique (value host other : List Char) (port number : Nat)
    (first : ProxySyntax value host port) (second : ProxySyntax value other number) :
    host = other ∧ port = number := by
  rcases names_pieces _ _ _ _ ((syntax_iff value host port).mp first) with
    ⟨alone, -, rfl⟩ | ⟨digits, pair, -, -, -, rfl⟩
  · rcases names_pieces _ _ _ _ ((syntax_iff value other number).mp second) with
      ⟨again, -, rfl⟩ | ⟨_, again, -⟩
    · exact ⟨by simpa [alone] using again, rfl⟩
    · simp [alone] at again
  · rcases names_pieces _ _ _ _ ((syntax_iff value other number).mp second) with
      ⟨again, -⟩ | ⟨others, again, -, -, -, rfl⟩
    · simp [pair] at again
    · obtain ⟨rfl, rfl⟩ : host = other ∧ digits = others := by simpa [pair] using again
      exact ⟨rfl, rfl⟩

/-- The code of a digit. -/
theorem digit_bounds (digit : Char) (decimal : digit.isDigit = true) :
    48 ≤ digit.toNat ∧ digit.toNat ≤ 57 := by
  simp only [Char.isDigit, Bool.and_eq_true, decide_eq_true_eq] at decimal
  exact ⟨UInt32.le_iff_toNat_le.mp decimal.1, UInt32.le_iff_toNat_le.mp decimal.2⟩

/-- A digit is neither white space nor a sign. -/
theorem digit_starts (digit : Char) (rest : List Char) (decimal : digit.isDigit = true) :
    isSpace digit = false ∧ readSign (digit :: rest) = (false, digit :: rest) := by
  have bounds := digit_bounds digit decimal
  constructor
  · have blank : digit ≠ ' ' := by
      rintro rfl
      simp at decimal
    simp only [isSpace, blank, decide_false, Bool.false_or, Bool.and_eq_false_imp,
      decide_eq_true_eq, decide_eq_false_iff_not]
    omega
  · rw [readSign]
    · rintro following signed
      obtain rfl := (List.cons.inj signed).1
      simp at decimal
    · rintro following signed
      obtain rfl := (List.cons.inj signed).1
      simp at decimal

/-- Decimal digits are read as their value, as long as it has 64 bits. -/
theorem stoul_digits (digits : List Char) (written : digits ≠ [])
    (decimal : digits.all Char.isDigit = true) :
    stoul digits = if 2 ^ 64 ≤ Nat.ofDigitChars 10 digits 0 then .error .outOfRange
      else .ok (Nat.ofDigitChars 10 digits 0) := by
  have all := List.all_eq_true.mp decimal
  cases digits with
  | nil => exact absurd rfl written
  | cons digit rest =>
    obtain ⟨noSpace, noSign⟩ := digit_starts digit rest (all digit (List.mem_cons_self ..))
    have taken : (digit :: rest).takeWhile Char.isDigit = digit :: rest :=
      List.takeWhile_eq_self_iff.mpr all
    simp only [stoul, List.dropWhile_cons, noSpace, Bool.false_eq_true, if_false, noSign, taken]
    simp

/-! What the parser does with one, two and other numbers of pieces. -/

/-- No piece contains a colon. -/
theorem piece_free (text piece : List Char) (member : piece ∈ text.splitOn ':') : ':' ∉ piece := by
  induction text generalizing piece with
  | nil => simp_all
  | cons char rest ih =>
    rw [List.splitOn_cons_eq_if_modifyHead] at member
    split at member
    · rcases List.mem_cons.mp member with rfl | later
      · exact List.not_mem_nil
      · exact ih piece later
    · rename_i other
      obtain ⟨first, others, pieces⟩ := List.exists_cons_of_ne_nil (List.splitOn_ne_nil ':' rest)
      rw [pieces, List.modifyHead_cons] at member
      rw [pieces] at ih
      rcases List.mem_cons.mp member with rfl | later
      · have free := ih first (List.mem_cons_self ..)
        have unequal : ':' ≠ char := by
          rintro rfl
          simp at other
        exact List.not_mem_cons_of_ne_of_not_mem unequal free
      · exact ih piece (List.mem_cons_of_mem _ later)

/-- A piece is a text without colons. -/
theorem piece_named (text piece : List Char) (member : piece ∈ nonEmptyPieces text) :
    piece ≠ [] ∧ ':' ∉ piece := by
  obtain ⟨inside, some⟩ := List.mem_filter.mp member
  exact ⟨by simpa using some, piece_free text piece inside⟩

/-- A port text that is no number or a number of more than 16 bits. -/
def Refused (portText : List Char) : Prop :=
  ∀ val, stoul portText = .ok val → 65535 < val

/-- A text is accepted exactly when it is in the grammar, with the host and the
port that it names. Else the error is an invalid input and the outputs stay as
they were. -/
def ParsesExactly (split : List Char → List (List Char)) (value : String) : Prop :=
  ∀ hostnameOut portOut,
    match parseHttpProxyHost split value hostnameOut portOut with
    | (.ok (), host, port) => ProxySyntax value.toList host.toList port
    | (.error error, host, port) =>
      (∃ message, error = .invalidInput message) ∧ host = hostnameOut ∧ port = portOut ∧
        ∀ named number, ¬ ProxySyntax value.toList named number

/-- The texts on which the parser keeps to the grammar: the splitter makes nothing
of what has no piece, a single piece has no colon beside it, and of two pieces
either the second is refused as a number or they stand around one colon and the
second has digits only. -/
def Tame (split : List Char → List (List Char)) (value : String) : Prop :=
  let body := (sanitize value.toList).1
  match nonEmptyPieces body with
  | [] => split body = []
  | [_] => ':' ∉ body
  | [host, portText] =>
    (body = host ++ ':' :: portText ∧ portText.all Char.isDigit = true) ∨ Refused portText
  | _ => True

variable {split : List Char → List (List Char)} {value : String}

/-- No text without pieces, and none with more than two, is in the grammar. -/
theorem pieces_unwritten (value : String)
    (count : (nonEmptyPieces (sanitize value.toList).1).length = 0 ∨
      2 < (nonEmptyPieces (sanitize value.toList).1).length) (host : List Char) (port : Nat) :
    ¬ ProxySyntax value.toList host port := by
  intro written
  rcases names_pieces _ _ _ _ ((syntax_iff _ _ _).mp written) with
    ⟨pieces, -⟩ | ⟨digits, pieces, -⟩
  · simp [pieces] at count
  · simp [pieces] at count

/-- A single piece is in the grammar when nothing stands beside it. -/
theorem single_written (piece : List Char)
    (single : nonEmptyPieces (sanitize value.toList).1 = [piece]) :
    ProxySyntax value.toList piece (sanitize value.toList).2 ↔
      ':' ∉ (sanitize value.toList).1 := by
  rw [syntax_iff]
  constructor
  · intro names
    rcases names_pieces _ _ _ _ names with ⟨-, free, -⟩ | ⟨digits, pieces, -⟩
    · exact free
    · simp [single] at pieces
  · intro free
    have some : (sanitize value.toList).1 ≠ [] := by
      intro none
      simp [none, nonEmptyPieces] at single
    rw [pieces_alone _ some free] at single
    obtain rfl := (List.cons.inj single).1
    exact ⟨some, free, Or.inl ⟨rfl, rfl⟩⟩

/-- Two pieces are in the grammar when they stand around one colon and the second
is a port in digits. -/
theorem pair_written (host portText : List Char) (port : Nat)
    (pair : nonEmptyPieces (sanitize value.toList).1 = [host, portText]) :
    ProxySyntax value.toList host port ↔
      (sanitize value.toList).1 = host ++ ':' :: portText ∧
        portText.all Char.isDigit = true ∧ port = Nat.ofDigitChars 10 portText 0 ∧
        port ≤ 65535 := by
  rw [syntax_iff]
  constructor
  · intro names
    rcases names_pieces _ _ _ _ names with ⟨pieces, -⟩ | ⟨digits, pieces, body, decimal, fits, rfl⟩
    · simp [pair] at pieces
    · obtain rfl : portText = digits := by simpa [pair] using pieces
      exact ⟨body, decimal, rfl, fits⟩
  · rintro ⟨body, decimal, rfl, fits⟩
    obtain ⟨named, free⟩ := piece_named _ host (by rw [pair]; simp)
    obtain ⟨written, -⟩ := piece_named _ portText (by rw [pair]; simp)
    exact ⟨named, free, Or.inr ⟨portText, body, written, decimal, fits, rfl⟩⟩

/-- An error is right for a text that is not in the grammar. -/
theorem refusal_exact (error : Exception) (invalid : ∃ message, error = .invalidInput message)
    (unwritten : ∀ named number, ¬ ProxySyntax value.toList named number)
    (outcome : ∀ hostnameOut portOut, parseHttpProxyHost split value hostnameOut portOut =
      (.error error, hostnameOut, portOut)) :
    ParsesExactly split value := by
  intro hostnameOut portOut
  rw [outcome]
  exact ⟨invalid, rfl, rfl, unwritten⟩

/-- The parser with no piece at all, which the splitter may hand out as one. -/
theorem none_exact (splits : SplitsAtColons split)
    (none : nonEmptyPieces (sanitize value.toList).1 = []) :
    ParsesExactly split value ↔ split (sanitize value.toList).1 = [] := by
  have unwritten := pieces_unwritten value (Or.inl (by simp [none]))
  constructor
  · intro exact
    rcases splits.nothing _ none with nothing | whole
    · exact nothing
    · have accepted := exact "" 0
      simp only [parseHttpProxyHost, whole] at accepted
      exact absurd accepted (unwritten _ _)
  · intro nothing
    refine refusal_exact (hostAndPortError value) ⟨_, rfl⟩ unwritten
      (fun hostnameOut portOut => ?_)
    simp only [parseHttpProxyHost, nothing]

/-- A value of one piece is parsed exactly when no colon was dropped. -/
theorem single_exact (splits : SplitsAtColons split) (piece : List Char)
    (single : nonEmptyPieces (sanitize value.toList).1 = [piece]) :
    ParsesExactly split value ↔ ':' ∉ (sanitize value.toList).1 := by
  have pieces := splits.pieces _ (by rw [single]; simp)
  rw [← single_written piece single]
  simp only [ParsesExactly, parseHttpProxyHost, pieces, single, String.toList_ofList,
    forall_const]

/-- A second piece that is refused is none of the grammar's ports: those are read as
their value, which is no larger. -/
theorem refused_unwritten (host portText : List Char)
    (pair : nonEmptyPieces (sanitize value.toList).1 = [host, portText])
    (refused : Refused portText) (named : List Char) (number : Nat) :
    ¬ ProxySyntax value.toList named number := by
  intro inGrammar
  rcases names_pieces _ _ _ _ ((syntax_iff _ _ _).mp inGrammar) with
    ⟨again, -⟩ | ⟨digits, again, -, decimal, fits, -⟩
  · simp [pair] at again
  · obtain ⟨-, rfl⟩ : host = named ∧ portText = digits := by simpa [pair] using again
    have written := (piece_named _ portText (by rw [pair]; simp)).1
    have small : ¬ 2 ^ 64 ≤ Nat.ofDigitChars 10 portText 0 := by omega
    have read := stoul_digits portText written decimal
    rw [if_neg small] at read
    have large := refused _ read
    omega

/-- So is one of two pieces, with a number behind the colon, or a refusal of it. -/
theorem pair_exact (splits : SplitsAtColons split) (host portText : List Char)
    (pair : nonEmptyPieces (sanitize value.toList).1 = [host, portText]) :
    ParsesExactly split value ↔
      ((sanitize value.toList).1 = host ++ ':' :: portText ∧
        portText.all Char.isDigit = true) ∨ Refused portText := by
  have pieces := splits.pieces _ (by rw [pair]; simp)
  by_cases refused : Refused portText
  · refine iff_of_true ?_ (Or.inr refused)
    refine refusal_exact (portError value) ⟨_, rfl⟩ (refused_unwritten host portText pair refused)
      (fun hostnameOut portOut => ?_)
    simp only [parseHttpProxyHost, pieces, pair]
    cases read : stoul portText with
    | error error => rfl
    | ok val => simp only [refused val read, if_true]
  · -- A number of 16 bits was read, whatever stood around its digits.
    obtain ⟨val, read, fits⟩ : ∃ val, stoul portText = .ok val ∧ val ≤ 65535 := by
      simpa [Refused] using refused
    have small : ¬ 65535 < val := by omega
    simp only [ParsesExactly, parseHttpProxyHost, pieces, pair, read, small, if_false,
      String.toList_ofList, forall_const, refused, or_false, pair_written host portText val pair]
    constructor
    · rintro ⟨body, decimal, -, -⟩
      exact ⟨body, decimal⟩
    · rintro ⟨body, decimal⟩
      have written := (piece_named _ portText (by rw [pair]; simp)).1
      have digits := stoul_digits portText written decimal
      rw [read] at digits
      split at digits
      · simp at digits
      · exact ⟨body, decimal, Except.ok.inj digits, fits⟩

/-- The parser keeps to the grammar on the tame texts and on no other. -/
theorem parses_exactly_iff (splits : SplitsAtColons split) (value : String) :
    ParsesExactly split value ↔ Tame split value := by
  match pieces : nonEmptyPieces (sanitize value.toList).1 with
  | [] =>
    simp only [Tame, pieces]
    exact none_exact splits pieces
  | [piece] =>
    simp only [Tame, pieces]
    exact single_exact splits piece pieces
  | [host, portText] =>
    simp only [Tame, pieces]
    exact pair_exact splits host portText pieces
  | first :: second :: third :: others =>
    simp only [Tame, pieces, iff_true]
    refine refusal_exact (hostAndPortError value) ⟨_, rfl⟩ (pieces_unwritten value (Or.inr ?_))
      (fun hostnameOut portOut => ?_)
    · simp [pieces]
    · have handed := splits.pieces _ (by rw [pieces]; simp)
      simp only [parseHttpProxyHost, handed, pieces]

/-- To drop the empty pieces is to split as documented. -/
theorem dropping_splits : SplitsAtColons nonEmptyPieces :=
  ⟨fun _ _ => rfl, fun _ none => Or.inl none⟩

/-- The pieces of a plain proxy. -/
theorem plain_pieces : nonEmptyPieces (sanitize "http://proxy:8080/".toList).1 =
    ["proxy".toList, "8080".toList] := by
  decide +kernel

/-- It is tame. -/
theorem plain_tame : Tame nonEmptyPieces "http://proxy:8080/" := by
  rw [Tame]
  simp only [plain_pieces]
  exact Or.inl (by decide +kernel)

/-- It is parsed exactly. -/
theorem plain_proxy_parsed :
    SplitsAtColons nonEmptyPieces ∧ Tame nonEmptyPieces "http://proxy:8080/" ∧
      ParsesExactly nonEmptyPieces "http://proxy:8080/" :=
  ⟨dropping_splits, plain_tame,
    (parses_exactly_iff dropping_splits "http://proxy:8080/").mpr plain_tame⟩

/-- A port is read up to its first letter, so a text outside the grammar is accepted. -/
theorem trailing_letters_accepted :
    SplitsAtColons nonEmptyPieces ∧
      parseHttpProxyHost nonEmptyPieces "proxy:80abc" "" 0 = (.ok (), "proxy", 80) ∧
      ¬ ParsesExactly nonEmptyPieces "proxy:80abc" := by
  have accepted : parseHttpProxyHost nonEmptyPieces "proxy:80abc" "" 0 =
      (.ok (), "proxy", 80) := by
    decide +kernel
  refine ⟨dropping_splits, accepted, fun exact => ?_⟩
  have written := exact "" 0
  rw [accepted] at written
  have pieces : nonEmptyPieces (sanitize "proxy:80abc".toList).1 =
      ["proxy".toList, "80abc".toList] := by
    decide +kernel
  have digits := ((pair_written _ _ _ pieces).mp written).2.1
  exact absurd digits (by decide +kernel)

/-- A proxy text that is not empty configures what it names, with the user name and
the password beside it. -/
theorem config_exact (proxyValue username password : String) (some : proxyValue ≠ "")
    (exact : ParsesExactly split proxyValue) :
    match ofProxyValue split proxyValue username password with
    | .ok config => ProxySyntax proxyValue.toList config.host.toList config.port ∧
        config.username = username ∧ config.password = password
    | .error error => (∃ message, error = .invalidInput message) ∧
        ∀ named number, ¬ ProxySyntax proxyValue.toList named number := by
  have outcome := exact "" 0
  simp only [ofProxyValue, some, if_false]
  revert outcome
  cases parseHttpProxyHost split proxyValue "" 0 with
  | mk result outputs =>
    cases result with
    | error error => exact fun outcome => ⟨outcome.1, outcome.2.2.2⟩
    | ok => exact fun outcome => ⟨outcome, rfl, rfl⟩

end GoogleCalendar.ProxyGrammar
