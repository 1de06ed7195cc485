import Synergy.Http.Request

/-!
# Multipart form data

`CHTTPProtocol::parseFormData` splits a `multipart/form-data` body into named parts.  It finds
the boundary in the `Content-Type` header and the first delimiter `--boundary` in the body;
then, part by part, the next delimiter `CRLF--boundary`, the end of the part's headers, its
`Content-Disposition` header and the `name=` in it, and it stores the bytes between the
headers and the next delimiter under that name.

* `findFrom`, `searchCaseless`, `findFirstOf`, `substr`, `sizeSub` — the library calls the
  parser makes, on byte strings and `size_type` positions;
* `CFormParts` — the mapping the parts go into, which allows duplicate names;
* `formStep` — one pass of the part loop, with the positions it computes, and `extractName`
  for its name block; `parseFormDataLoop` and `parseFormData` — the loop and the whole
  function;
* `formStep_eq_part` and `formStep_of_searches` — what a pass that inserts has found, and
  conversely the searches that make a pass insert; the search lemmas are stated for a body
  `pre ++ X`, at the index `pre.length`, so that they serve every part;
* `parseFormData_formDataRequest` — a form post's header gives the boundary as written;
* `formStep_value_wraps` — **PROVED**: at every pass that reaches `parts.insert`,
  `endOfHeaders + 2 > nextPart` happens exactly when the blank line after the part's headers
  is followed at once by the next delimiter; the value's length then wraps and the rest of the
  body is stored.
-/

namespace Synergy.Http

/-! ### The library calls -/

/-- `s.find(pattern, pos)`: the first index at or after `pos` at which `pattern` starts. -/
def findFrom (pattern s : List Char) (pos : Nat) : Option Nat :=
  if pos ≤ s.length then (find pattern (s.drop pos)).map (· + pos) else none

/-- `std::search(s.begin() + first, s.begin() + last, pattern, CaselessCmp::cmpEqual)` as an
index: the first place in `s[first, last)` where `pattern` matches after `tolower`, or
`last`. -/
def searchCaseless (s : List Char) (first last : Nat) (pattern : List Char) : Nat :=
  match find (pattern.map Char.toLower) (((s.take last).drop first).map Char.toLower) with
  | some k => first + k
  | none => last

/-- `npos`, the largest `size_type`. -/
def npos : Nat := 2 ^ 64 - 1

/-- `s.find_first_of(set)`: the first index of a character of `set`, or `npos`. -/
def findFirstOf (set s : List Char) : Nat := (s.findIdx? (· ∈ set)).getD npos

/-- `s.substr(pos, n)`: at most `n` characters from `pos`.  (A `pos` past the end throws;
`parseFormData` passes none.) -/
def substr (s : List Char) (pos n : Nat) : List Char := (s.drop pos).take n

/-- `a - b` on `size_type`, which wraps modulo `2^64`. -/
def sizeSub (a b : Nat) : Nat := if b ≤ a then a - b else 2 ^ 64 - (b - a)

/-- `std::string::operator[]`: the character at `i`, and NUL at the size itself. -/
def charAt (s : List Char) (i : Nat) : Char := s.getD i (Char.ofNat 0)

/-! ### The parts -/

/-- Modelled from the spec: `CHTTPProtocol::CFormParts`, whose typedef is not in the source,
is a mapping from part names to values allowing duplicate names (several values per name).
It is modelled as a `std::multimap` under `std::less<CString>`: a list ordered by name, in
which entries of one name keep the order they were inserted in. -/
abbrev CFormParts := List (List Char × List Char)

/-- `std::less<CString>`, the order of the multimap: `std::lexicographical_compare` of the
bytes. -/
def stringLess : List Char → List Char → Bool
  | _, [] => false
  | [], _ :: _ => true
  | a :: as, b :: bs => if a < b then true else if b < a then false else stringLess as bs

/-- `CFormParts::insert`: after every entry whose name is not greater. -/
def CFormParts.insert (part : List Char × List Char) : CFormParts → CFormParts
  | [] => [part]
  | p :: ps => if stringLess part.1 p.1 then part :: p :: ps else p :: CFormParts.insert part ps

/-! ### The part loop -/

/-- How one pass of the part loop ends. -/
inductive FormStep where
  /-- `--` follows the delimiter: the last part was read, `return true`. -/
  | last
  /-- A malformed part, or no delimiter after it: `return false`. -/
  | bad
  /-- A part: `parts.insert(name, value)`, then on after the next delimiter. -/
  | part (name value : List Char) (endOfHeaders nextPart : Nat)
deriving DecidableEq, Repr

/-- The name block of `parseFormData`, from just after `name=` at `index`: a quoted name up
to its closing quote before `endOfHeader` (`none` when there is none), or a bare one, whose
length is the index of the first white space or line end in the whole body. -/
def extractName (body : List Char) (index endOfHeader : Nat) : Option (List Char) :=
  if charAt body index = '"' then
    let namePos := index + 1
    let index := searchCaseless body namePos endOfHeader ['"']
    if index = endOfHeader then none else some (substr body namePos (index - namePos))
  else some (substr body index (findFirstOf " \t\r\n".toList body))

/-- One pass of the part loop of `parseFormData` from `partIndex`; `delimiter` is already
`CRLF--boundary`.  `endOfHeaders` is given as the loop holds it at the insert, after
`endOfHeaders += 2`. -/
def formStep (body delimiter : List Char) (partIndex : Nat) : FormStep :=
  -- is it the last part?
  if partIndex + 2 ≤ body.length ∧ charAt body partIndex = '-' ∧
      charAt body (partIndex + 1) = '-' then .last
  else
    match findFrom delimiter body partIndex with
    | none => .bad
    | some nextPart =>
      match findFrom "\r\n\r\n".toList body partIndex with
      | none => .bad
      | some endOfHeaders =>
        if nextPart < endOfHeaders then .bad
        else
          let endOfHeaders := endOfHeaders + 2
          -- `index == contentType.begin() + endOfHeaders` compares iterators into two
          -- different strings, so it never holds
          let index := searchCaseless body partIndex endOfHeaders "Content-Disposition:".toList
          match findFrom crlf body index with
          | none => .bad
          | some endOfHeader =>
            if endOfHeaders ≤ endOfHeader then .bad
            else
              let index := searchCaseless body index endOfHeader "name=".toList
              if index = endOfHeader then .bad
              else
                match extractName body (index + 5) endOfHeader with
                | none => .bad
                | some name =>
                  .part name (substr body (endOfHeaders + 2) (sizeSub nextPart (endOfHeaders + 2)))
                    endOfHeaders nextPart

/-- The part loop of `parseFormData`, with at most `fuel` passes (`parseFormData_isSome`:
the passes `parseFormData` gives it are enough). -/
def parseFormDataLoop (body delimiter : List Char) :
    Nat → Nat → CFormParts → Option (Bool × CFormParts)
  | 0, _, _ => none
  | fuel + 1, partIndex, parts =>
    match formStep body delimiter partIndex with
    | .last => some (true, parts)
    | .bad => some (false, parts)
    | .part name value _ nextPart =>
      parseFormDataLoop body delimiter fuel (nextPart + delimiter.length)
        (parts.insert (name, value))

/-- `CHTTPProtocol::parseFormData`: whether the body parsed, and `parts` with the inserts it
made. -/
def parseFormData (request : CHTTPRequest) (parts : CFormParts) : Option (Bool × CFormParts) :=
  match request.m_headerIndexByName.find "Content-Type".toList with
  | none => some (false, parts)
  | some contentTypeIndex =>
    let contentType := request.m_headers.getD contentTypeIndex []
    let index := searchCaseless contentType 0 contentType.length "multipart/form-data".toList
    if index = contentType.length then some (false, parts)
    else
      let index := searchCaseless contentType (index + 19) contentType.length "boundary=".toList
      if index = contentType.length then some (false, parts)
      else
        -- `contentType.c_str() + ...` ends at the first NUL
        let delimiter := cString (contentType.drop (index + 9))
        let body := request.m_body
        match find delimiter body with
        | none => some (false, parts)
        | some partIndex =>
          parseFormDataLoop body ("\r\n--".toList ++ delimiter) (body.length + 2)
            (partIndex + delimiter.length) parts

/-- The request `parseFormData` is given in a form post: `Content-Type` is
`multipart/form-data; boundary=` and the boundary, and `body` is the body. -/
def formDataRequest (boundary body : List Char) : CHTTPRequest where
  m_headers := ["multipart/form-data; boundary=".toList ++ boundary]
  m_headerIndexByName := [("Content-Type".toList, 0)]
  m_body := body

/-! ### The searches -/

/-- A match `findFrom` reports lies at or after where the search started, and the pattern
stands there. -/
theorem findFrom_some {pattern s : List Char} {pos k : Nat} (h : findFrom pattern s pos = some k) :
    pos ≤ k ∧ pattern <+: s.drop k := by
  unfold findFrom at h
  split_ifs at h
  obtain ⟨j, hj, rfl⟩ := Option.map_eq_some'.mp h
  refine ⟨Nat.le_add_left _ _, ?_⟩
  have := prefix_of_find hj
  rwa [List.drop_drop, Nat.add_comm] at this

/-- The character at `k + j` of a string in which `pattern` stands at `k`. -/
theorem charAt_of_prefix_drop {pattern s : List Char} {k j : Nat} (h : pattern <+: s.drop k)
    (hj : j < pattern.length) : charAt s (k + j) = pattern[j] := by
  obtain ⟨t, ht⟩ := h
  have := congrArg (·[j]?) ht
  simp only [List.getElem?_append_left hj, List.getElem?_drop] at this
  simp [charAt, List.getD_eq_getElem?_getD, ← this, List.getElem?_eq_getElem hj]

@[simp] theorem charAt_append_length (pre X : List Char) (k : Nat) :
    charAt (pre ++ X) (pre.length + k) = charAt X k := by
  simp [charAt, List.getD_eq_getElem?_getD, List.getElem?_append_right]

/-- `findFrom` from the end of `pre` is a `find` in what follows it. -/
theorem findFrom_of_find {pattern body X : List Char} (pre : List Char) {pos k r : Nat}
    (hbody : body = pre ++ X) (hpos : pos = pre.length) (h : find pattern X = some k)
    (hr : pos + k = r) : findFrom pattern body pos = some r := by
  subst hbody hpos hr
  simp [findFrom, h, Nat.add_comm]

/-- `searchCaseless` over the window `W` between `pre` and `Y` is a `find` in `W`, after
`tolower`. -/
theorem searchCaseless_of_find {pattern body : List Char} (pre W Y : List Char)
    {first last k r : Nat} (hbody : body = pre ++ W ++ Y) (hfirst : first = pre.length)
    (hlast : last = pre.length + W.length)
    (h : find (pattern.map Char.toLower) (W.map Char.toLower) = some k) (hr : first + k = r) :
    searchCaseless body first last pattern = r := by
  subst hbody hfirst hlast hr
  rw [searchCaseless, ← List.length_append, List.take_left, List.drop_left, h]

/-- A pattern that differs from a text at some place of the pattern does not start it. -/
theorem not_prefix_of_getElem? {p s : List Char} {i : Nat} (h : p[i]? ≠ s[i]?)
    (hi : i < p.length) : ¬ p <+: s := fun ⟨t, ht⟩ =>
  h (by rw [← ht, List.getElem?_append_left hi])

/-! ### One pass -/

/-- What a pass that reaches `parts.insert` computed: the next delimiter at `nextPart`, the
first blank line at `endOfHeaders - 2`, not after it, and the value between them. -/
theorem formStep_eq_part {body delimiter : List Char} {partIndex : Nat} {name value : List Char}
    {endOfHeaders nextPart : Nat}
    (h : formStep body delimiter partIndex = .part name value endOfHeaders nextPart) :
    findFrom delimiter body partIndex = some nextPart ∧
    findFrom "\r\n\r\n".toList body partIndex = some (endOfHeaders - 2) ∧
    2 ≤ endOfHeaders ∧ endOfHeaders - 2 ≤ nextPart ∧
    value = substr body (endOfHeaders + 2) (sizeSub nextPart (endOfHeaders + 2)) := by
  unfold formStep at h
  split_ifs at h
  split at h
  · cases h
  · next nextPart' hnext =>
    split at h
    · cases h
    · next eoh heoh =>
      split_ifs at h with hlt
      dsimp only at h
      split at h
      · cases h
      · split_ifs at h
        split at h
        · cases h
        · cases h
          exact ⟨hnext, by simpa using heoh, by omega, by omega, rfl⟩

/-- The searches of one pass, in the order the source makes them, fix what it inserts. -/
theorem formStep_of_searches {body delimiter name : List Char}
    {partIndex nextPart eoh endOfHeader index : Nat}
    (hlast : ¬ (partIndex + 2 ≤ body.length ∧ charAt body partIndex = '-' ∧
      charAt body (partIndex + 1) = '-'))
    (hnext : findFrom delimiter body partIndex = some nextPart)
    (heoh : findFrom "\r\n\r\n".toList body partIndex = some eoh) (hle : eoh ≤ nextPart)
    (hline : findFrom crlf body
      (searchCaseless body partIndex (eoh + 2) "Content-Disposition:".toList) = some endOfHeader)
    (hlt : endOfHeader < eoh + 2)
    (hindex : searchCaseless body (searchCaseless body partIndex (eoh + 2)
      "Content-Disposition:".toList) endOfHeader "name=".toList = index)
    (hne : index ≠ endOfHeader) (hname : extractName body (index + 5) endOfHeader = some name) :
    formStep body delimiter partIndex =
      .part name (substr body (eoh + 2 + 2) (sizeSub nextPart (eoh + 2 + 2))) (eoh + 2) nextPart := by
  rw [formStep, if_neg hlast, hnext, heoh]
  simp only [if_neg (Nat.not_lt.mpr hle), hline, if_neg (Nat.not_le.mpr hlt), hindex, if_neg hne,
    hname]

/-- `--` after a delimiter ends the loop. -/
theorem formStep_terminator (X rest delimiter : List Char) :
    formStep (X ++ ("--".toList ++ rest)) delimiter X.length = .last := by
  rw [formStep, if_pos]
  refine ⟨by simp, ?_, ?_⟩
  · simpa using charAt_append_length X ("--".toList ++ rest) 0
  · exact charAt_append_length X ("--".toList ++ rest) 1

/-- Text that starts neither with `--` nor holds a delimiter fails the loop. -/
theorem formStep_unterminated {tail delimiter : List Char} (X : List Char)
    (htail : ¬ "--".toList <+: tail) (hdelim : ¬ delimiter <:+: tail) :
    formStep (X ++ tail) delimiter X.length = .bad := by
  rw [formStep, if_neg, findFrom, if_pos (by simp), List.drop_left,
    (find_eq_none_iff _ _).mpr hdelim]
  · rfl
  rintro ⟨hlen, h0, h1⟩
  match tail, hlen, h0, h1 with
  | [], hlen, _, _ => rw [List.append_nil] at hlen; omega
  | [_], hlen, _, _ => rw [List.length_append, List.length_singleton] at hlen; omega
  | a :: b :: t, _, h0, h1 =>
    have ha : a = '-' := by simpa using (charAt_append_length X (a :: b :: t) 0).symm.trans h0
    have hb : b = '-' := (charAt_append_length X (a :: b :: t) 1).symm.trans h1
    exact htail ⟨t, by rw [ha, hb]; rfl⟩

/-- The loop ends where `--` follows the last delimiter. -/
theorem parseFormDataLoop_terminator (X rest delimiter : List Char) (fuel : Nat) (ps : CFormParts) :
    parseFormDataLoop (X ++ ("--".toList ++ rest)) delimiter (fuel + 1) X.length ps =
      some (true, ps) := by
  rw [parseFormDataLoop, formStep_terminator]

/-! ### A form post -/

/-- `parseFormData` on a form post: the header yields the boundary as written, and the part
loop starts after its first `find` in the body. -/
theorem parseFormData_formDataRequest {boundary body : List Char} {partIndex : Nat}
    (hnul : Char.ofNat 0 ∉ boundary) (hfind : find boundary body = some partIndex) (ps : CFormParts) :
    parseFormData (formDataRequest boundary body) ps =
      parseFormDataLoop body ("\r\n--".toList ++ boundary) (body.length + 2)
        (partIndex + boundary.length) ps := by
  have htype : searchCaseless ("multipart/form-data; boundary=".toList ++ boundary) 0
      ("multipart/form-data; boundary=".toList ++ boundary).length "multipart/form-data".toList = 0 :=
    searchCaseless_of_find [] ("multipart/form-data; boundary=".toList ++ boundary) [] (by simp) rfl
      (by simp) (by rw [List.map_append]; exact find_append_of_some (k := 0) _ (by decide)) rfl
  have hboundary : searchCaseless ("multipart/form-data; boundary=".toList ++ boundary) (0 + 19)
      ("multipart/form-data; boundary=".toList ++ boundary).length "boundary=".toList = 21 :=
    searchCaseless_of_find "multipart/form-data".toList ("; boundary=".toList ++ boundary) []
      (by simp only [List.append_nil, ← List.append_assoc]; rfl) rfl (by simp; omega)
      (by rw [List.map_append]; exact find_append_of_some (k := 2) _ (by decide)) rfl
  have hdelim : cString (("multipart/form-data; boundary=".toList ++ boundary).drop (21 + 9)) =
      boundary := by
    rw [List.drop_left' (show ("multipart/form-data; boundary=".toList).length = 21 + 9 from rfl),
      cString, List.takeWhile_eq_self_iff]
    intro c hc
    simpa using fun h : c = Char.ofNat 0 => hnul (h ▸ hc)
  have hct : CHeaderMap.find [("Content-Type".toList, 0)] "Content-Type".toList = some 0 := by
    decide
  have hlen : ("multipart/form-data; boundary=".toList ++ boundary).length = boundary.length + 30 := by
    simp
  simp only [parseFormData, formDataRequest, hct, List.getD_cons_zero, htype]
  rw [if_neg (by omega), hboundary, if_neg (by omega), hdelim, hfind]

/-! ### The value of a part -/

/-- Where the first blank line after `partIndex` stands at `eoh` and a delimiter `CRLF--B` at
`nextPart`, with `eoh ≤ nextPart < eoh + 4`, the delimiter starts right after the blank
line's first CRLF. -/
theorem delimiter_after_blank_line {body boundary : List Char} {eoh nextPart : Nat}
    (hblank : "\r\n\r\n".toList <+: body.drop eoh)
    (hdelim : "\r\n--".toList ++ boundary <+: body.drop nextPart)
    (hle : eoh ≤ nextPart) (hlt : nextPart < eoh + 4) : nextPart = eoh + 2 := by
  have hb (j : Nat) (hj : j < 4) := charAt_of_prefix_drop hblank hj
  have hd (j : Nat) (hj : j < 4) := charAt_of_prefix_drop (j := j) hdelim (by simp; omega)
  obtain ⟨d, rfl⟩ := Nat.exists_eq_add_of_le hle
  rcases (show d = 0 ∨ d = 1 ∨ d = 2 ∨ d = 3 by omega) with rfl | rfl | rfl | rfl
  · have := (hb 2 (by decide)).symm.trans (hd 2 (by decide)); simp at this
  · have := (hb 1 (by decide)).symm.trans (hd 0 (by decide)); simp at this
  · rfl
  · have := (hb 3 (by decide)).symm.trans (hd 0 (by decide)); simp at this

/-- At a pass that reaches `parts.insert`, `endOfHeaders + 2 > nextPart` exactly when the
next delimiter starts at `endOfHeaders`, that is, right after the blank line's first CRLF;
then `nextPart - (endOfHeaders + 2)` wraps to `2^64 - 2` and the value is the whole rest of
the body. -/
theorem formStep_value_wraps {body boundary name value : List Char}
    {partIndex endOfHeaders nextPart : Nat}
    (h : formStep body ("\r\n--".toList ++ boundary) partIndex =
      .part name value endOfHeaders nextPart)
    (hsize : body.length < 2 ^ 64) :
    (nextPart < endOfHeaders + 2 ↔ nextPart = endOfHeaders) ∧
    (nextPart = endOfHeaders →
      sizeSub nextPart (endOfHeaders + 2) = 2 ^ 64 - 2 ∧ value = body.drop (endOfHeaders + 2)) := by
  obtain ⟨hnext, heoh, h2, hle, rfl⟩ := formStep_eq_part h
  have hat := fun hlt => delimiter_after_blank_line (findFrom_some heoh).2
    (findFrom_some hnext).2 hle hlt
  refine ⟨⟨fun hlt => by have := hat (by omega); omega, fun h => by omega⟩, fun h => ?_⟩
  subst nextPart
  have hwrap : sizeSub endOfHeaders (endOfHeaders + 2) = 2 ^ 64 - 2 := by
    simp [sizeSub]
  refine ⟨hwrap, ?_⟩
  rw [substr, hwrap, List.take_of_length_le (by rw [List.length_drop]; omega)]

/-- A part whose blank line is followed at once by the closing delimiter: the value is stored
as the rest of the body. -/
theorem formStep_value_wraps_blankThenDelimiter :
    formStep "--b\r\nContent-Disposition: form-data; name=\"a\"\r\n\r\n--b--\r\n".toList
        ("\r\n--".toList ++ "b".toList) 3 = .part "a".toList "--b--\r\n".toList 47 47 ∧
      ((47 < 47 + 2 ↔ 47 = 47) ∧
        (47 = 47 → sizeSub 47 (47 + 2) = 2 ^ 64 - 2 ∧ "--b--\r\n".toList =
          ("--b\r\nContent-Disposition: form-data; name=\"a\"\r\n\r\n--b--\r\n".toList).drop
            (47 + 2))) ∧
      parseFormData (formDataRequest "b".toList
        "--b\r\nContent-Disposition: form-data; name=\"a\"\r\n\r\n--b--\r\n".toList) [] =
        some (true, [("a".toList, "--b--\r\n".toList)]) :=
  have h : formStep "--b\r\nContent-Disposition: form-data; name=\"a\"\r\n\r\n--b--\r\n".toList
      ("\r\n--".toList ++ "b".toList) 3 = .part "a".toList "--b--\r\n".toList 47 47 := by decide
  ⟨h, formStep_value_wraps h (by decide), by decide⟩

end Synergy.Http
