import Mathlib.Data.List.Infix
import Synergy.Http.FormData

/-!
# Reading a whole form

A form post written as the parser's comment describes it: `--boundary` CRLF, then for each
part `Content-Disposition: form-data; name=` with the name quoted or bare, CRLF CRLF, the
value, CRLF `--boundary`; then `--` CRLF.  `formDataBody` writes it from a list of
(name, value, quoted) triples, and `storedParts` says what `parseFormData` makes of each.

* `formStep_partText` — one pass over a part, at any place of the body: every search of the
  pass is located from the part's text alone;
* `parseFormDataLoop_encodeParts` — by induction over the parts, the loop reads them all and
  stops at what follows them;
* `parseFormData_formDataBody` — **PROVED**: on a form whose boundary has no white space, NUL
  or only dashes, whose names hold no CR or quote, and whose values do not hold a delimiter
  after the CRLF before them, `parseFormData` returns true and inserts each value under its
  name, except that a **bare name** is stored as the `boundary.length + 2` characters from
  where it starts: the source passes `body.find_first_of(" \t\r\n")`, an index into the
  whole body, as the name's length;
* `parseFormData_quotedNames` — **PROVED**: with every name quoted, the parts come back as
  written;
* `parseFormData_unterminated` — **PROVED**: when the parts are followed by text that neither
  starts with `--` nor holds a delimiter, `parseFormData` returns false **after** inserting
  every part.
-/

namespace Synergy.Http

/-! ### Encoding a form -/

/-- The name as the `Content-Disposition` header writes it, in quotes or bare. -/
def writtenName (name : List Char) (quoted : Bool) : List Char :=
  if quoted then '"' :: name ++ ['"'] else name

/-- One part and the delimiter after it: `Content-Disposition: form-data; name=` and the
name, CRLF CRLF, the value, then CRLF `--boundary`. -/
def partText (boundary name value : List Char) (quoted : Bool) : List Char :=
  "Content-Disposition: form-data; name=".toList ++ writtenName name quoted ++ crlf ++ crlf ++
    value ++ ("\r\n--".toList ++ boundary)

/-- The parts, each as `partText`, then `tail`. -/
def encodeParts (boundary tail : List Char) : List (List Char × List Char × Bool) → List Char
  | [] => tail
  | (name, value, quoted) :: parts =>
    partText boundary name value quoted ++ encodeParts boundary tail parts

/-- A form body: `--boundary` CRLF, the parts, then `tail` (`--` CRLF ends a whole form). -/
def formDataBody (boundary tail : List Char) (parts : List (List Char × List Char × Bool)) :
    List Char :=
  "--".toList ++ boundary ++ crlf ++ encodeParts boundary tail parts

/-- The entries `parseFormData` makes of the parts of a form body: a quoted name as written,
a bare one as the `boundary.length + 2` characters from where it starts. -/
def storedParts (boundary tail : List Char) : List (List Char × List Char × Bool) → CFormParts
  | [] => []
  | (name, value, quoted) :: parts =>
    (if quoted then name
      else (name ++ crlf ++ crlf ++ value ++ ("\r\n--".toList ++ boundary) ++
        encodeParts boundary tail parts).take (boundary.length + 2), value) ::
      storedParts boundary tail parts

/-- `parts.insert` of each entry in turn. -/
def CFormParts.insertAll (parts entries : CFormParts) : CFormParts :=
  entries.foldl (fun ps e => ps.insert e) parts

/-- The boundaries the form loop can find: no white space, line end or NUL, and not all
dashes. -/
def BoundaryOK (boundary : List Char) : Prop :=
  (∀ c ∈ boundary, c ∉ " \t\r\n".toList ∧ c ≠ Char.ofNat 0) ∧ ∃ c ∈ boundary, c ≠ '-'

/-- The parts of a form whose names and values the loop can delimit. -/
def PartsOK (boundary : List Char) (parts : List (List Char × List Char × Bool)) : Prop :=
  ∀ p ∈ parts, '\r' ∉ p.1 ∧ '"' ∉ p.1 ∧ ¬ ("\r\n--".toList ++ boundary) <:+: crlf ++ p.2.1

instance : DecidablePred BoundaryOK := fun boundary =>
  inferInstanceAs (Decidable ((∀ c ∈ boundary, c ∉ " \t\r\n".toList ∧ c ≠ Char.ofNat 0) ∧
    ∃ c ∈ boundary, c ≠ '-'))

instance (boundary : List Char) : DecidablePred (PartsOK boundary) := fun parts =>
  inferInstanceAs (Decidable (∀ p ∈ parts, '\r' ∉ p.1 ∧ '"' ∉ p.1 ∧
    ¬ ("\r\n--".toList ++ boundary) <:+: crlf ++ p.2.1))

/-! ### Characters -/

theorem toNat_ofNat_of_lt {n : Nat} (h : n < 0xd800) : (Char.ofNat n).toNat = n := by
  rw [Char.ofNat, dif_pos (Or.inl h)]
  rfl

/-- `tolower` gives a character that is not a lower-case letter only from itself. -/
theorem eq_of_toLower_eq {c d : Char} (h : c.toLower = d) (hd : ¬ (97 ≤ d.toNat ∧ d.toNat ≤ 122)) :
    c = d := by
  unfold Char.toLower at h
  dsimp only at h
  split_ifs at h with hc
  · subst h
    rw [toNat_ofNat_of_lt (by omega)] at hd
    omega
  · exact h

/-! ### The searches over one part -/

section PartText

variable {pre lead post boundary name value : List Char} {quoted : Bool}

theorem dispositionPrefix_length :
    ("Content-Disposition: form-data; name=".toList).length = 37 := rfl

theorem mem_writtenName {c : Char} (h : c ∈ writtenName name quoted) : c ∈ name ∨ c = '"' := by
  unfold writtenName at h
  split_ifs at h
  · simp only [List.cons_append, List.mem_cons, List.mem_append, List.mem_singleton] at h
    tauto
  · exact .inl h

/-- A CRLF is passed over by a search for a pattern that starts with CR and whose third
character is not the one after the CRLF. -/
theorem find_crlf_append_of_ne {p Y : List Char} {c : Char} (hp : p.head? = some '\r')
    (hY : Y.head? = some c) (h2 : p[2]? ≠ some c) (hlen : 2 < p.length) :
    find p (crlf ++ Y) = (find p Y).map (· + 2) := by
  rw [show crlf ++ Y = '\r' :: (['\n'] ++ Y) from rfl, find, if_neg,
    find_append_of_not_head p ['\n'] Y '\r' hp (by decide)]
  · simp [Option.map_map, Function.comp_def]
  · cases Y with
    | nil => cases hY
    | cons y Y =>
      cases hY
      exact not_prefix_of_getElem? (i := 2) (by simpa using h2) hlen

/-- What a part starts with, nothing or the CRLF of the first delimiter, is passed over in
the same way. -/
theorem find_lead_append (hlead : lead = [] ∨ lead = crlf) {p Y : List Char} {c : Char}
    (hp : p.head? = some '\r') (hY : Y.head? = some c) (h2 : p[2]? ≠ some c)
    (hlen : 2 < p.length) :
    find p (lead ++ Y) = (find p Y).map (· + lead.length) := by
  rcases hlead with rfl | rfl
  · simp
  · exact find_crlf_append_of_ne hp hY h2 hlen

/-- The `Content-Disposition` line up to the end of the name holds no CR. -/
theorem ne_cr_of_mem_header (hname : '\r' ∉ name) :
    ∀ x ∈ "Content-Disposition: form-data; name=".toList ++ writtenName name quoted, x ≠ '\r' := by
  intro x hx hr
  subst hr
  rcases List.mem_append.mp hx with h | h
  · exact absurd h (by decide)
  · rcases mem_writtenName h with h | h
    · exact hname h
    · exact absurd h (by decide)

/-- The first blank line after the start of a part ends its `Content-Disposition` line. -/
theorem find_blankLine_partText (hlead : lead = [] ∨ lead = crlf) (hname : '\r' ∉ name)
    (rest : List Char) :
    find "\r\n\r\n".toList (lead ++ ("Content-Disposition: form-data; name=".toList ++
      (writtenName name quoted ++ ("\r\n\r\n".toList ++ rest)))) =
      some (lead.length + 37 + (writtenName name quoted).length) := by
  have hX : ∀ x ∈ "Content-Disposition: form-data; name=".toList ++ writtenName name quoted,
      x ≠ '\r' := ne_cr_of_mem_header hname
  rw [find_lead_append hlead (p := "\r\n\r\n".toList) (c := 'C') rfl ?_ (by decide) (by decide),
    ← List.append_assoc,
    find_append_of_not_head "\r\n\r\n".toList _ _ '\r' rfl hX, find_append_self]
  · simp only [Option.map_some', List.length_append, dispositionPrefix_length, Option.some.injEq]
    omega
  · rfl

/-- The next delimiter after the start of a part is the one the part ends with, when the
value, after the CRLF before it, does not hold one. -/
theorem find_delimiter_partText (hlead : lead = [] ∨ lead = crlf) (hB : '\r' ∉ boundary)
    (hname : '\r' ∉ name) (hvalue : ¬ ("\r\n--".toList ++ boundary) <:+: crlf ++ value)
    (post : List Char) :
    find ("\r\n--".toList ++ boundary) (lead ++ (partText boundary name value quoted ++ post)) =
      some (lead.length + 37 + (writtenName name quoted).length + 4 + value.length) := by
  have hX : ∀ x ∈ "Content-Disposition: form-data; name=".toList ++ writtenName name quoted,
      x ≠ '\r' := ne_cr_of_mem_header hname
  have hc : '\r' ∉ "\n--".toList ++ boundary := by simpa using hB
  have h2 : ('\r' :: ("\n--".toList ++ boundary))[2]? = some '-' := rfl
  rw [partText]
  rw [show "\r\n--".toList ++ boundary = '\r' :: ("\n--".toList ++ boundary) from rfl] at hvalue ⊢
  rw [show ("Content-Disposition: form-data; name=".toList ++ writtenName name quoted ++
      crlf ++ crlf ++ value ++ ('\r' :: ("\n--".toList ++ boundary))) ++ post =
      ("Content-Disposition: form-data; name=".toList ++ writtenName name quoted) ++
        (crlf ++ (((crlf ++ value) ++ ('\r' :: ("\n--".toList ++ boundary))) ++ post)) by
      simp only [List.append_assoc],
    find_lead_append hlead (p := '\r' :: ("\n--".toList ++ boundary)) (c := 'C') rfl ?_
      (by rw [h2]; decide) (by simp),
    find_append_of_not_head ('\r' :: ("\n--".toList ++ boundary)) _ _ '\r' rfl hX,
    find_crlf_append_of_ne (p := '\r' :: ("\n--".toList ++ boundary)) (c := '\r') rfl ?_
      (by rw [h2]; decide) (by simp),
    find_append_pattern '\r' _ _ _ hc hvalue]
  · simp only [Option.map_some', List.length_append, dispositionPrefix_length, Option.some.injEq, crlf,
      List.length_cons, List.length_nil]
    omega
  all_goals rfl

/-- The `Content-Disposition` header of a part is found where the part's text starts. -/
theorem find_disposition_partText (hlead : lead = [] ∨ lead = crlf) :
    find ("Content-Disposition:".toList.map Char.toLower)
      ((lead ++ ("Content-Disposition: form-data; name=".toList ++ writtenName name quoted ++
        crlf)).map Char.toLower) = some lead.length := by
  rw [← List.append_assoc, ← List.append_assoc, List.map_append, List.map_append]
  refine find_append_of_some _ (find_append_of_some _ ?_)
  rcases hlead with rfl | rfl <;> decide

/-- The end of the `Content-Disposition` line, searched for from where the header starts. -/
theorem find_lineEnd_partText (hname : '\r' ∉ name) (rest : List Char) :
    find crlf ("Content-Disposition: form-data; name=".toList ++ writtenName name quoted ++
      (crlf ++ rest)) = some (37 + (writtenName name quoted).length) := by
  rw [find_append_of_not_head crlf _ _ '\r' rfl (ne_cr_of_mem_header hname), find_append_self,
    Option.map_some', List.length_append, dispositionPrefix_length, Nat.zero_add]

/-- `name=` is found at its place in the `Content-Disposition` line. -/
theorem find_name_partText :
    find ("name=".toList.map Char.toLower)
      (("Content-Disposition: form-data; name=".toList ++ writtenName name quoted).map
        Char.toLower) = some 32 := by
  rw [List.map_append]
  exact find_append_of_some _ (by decide)

/-- The name block reads a quoted name up to its closing quote, and for a bare one the
`findFirstOf` length from where it starts. -/
theorem extractName_writtenName (hname : '"' ∉ name) (rest : List Char) :
    extractName (pre ++ writtenName name quoted ++ (crlf ++ rest)) pre.length
      (pre.length + (writtenName name quoted).length) =
      some (if quoted then name else (name ++ (crlf ++ rest)).take
        (findFirstOf " \t\r\n".toList (pre ++ writtenName name quoted ++ (crlf ++ rest)))) := by
  cases quoted with
  | true =>
    have hlow : ∀ x ∈ name.map Char.toLower, x ≠ '"' := by
      simp only [List.mem_map]
      rintro _ ⟨c, hc, hcx⟩ rfl
      exact hname (eq_of_toLower_eq hcx (by decide) ▸ hc)
    have hfind : find (['"'].map Char.toLower) ((name ++ ['"']).map Char.toLower) =
        some name.length := by
      rw [List.map_append, show ['"'].map Char.toLower = ['"'] from rfl,
        find_append_of_not_head ['"'] _ _ '"' rfl hlow]
      simp [find]
    have hbody : pre ++ writtenName name true ++ (crlf ++ rest) =
        (pre ++ ['"']) ++ (name ++ ['"']) ++ (crlf ++ rest) := by
      simp [writtenName]
    have hat : charAt (pre ++ writtenName name true ++ (crlf ++ rest)) pre.length = '"' := by
      simpa [writtenName] using charAt_append_length pre ('"' :: (name ++ ['"'] ++ (crlf ++ rest))) 0
    have hlen : (writtenName name true).length = name.length + 2 := by simp [writtenName]
    have hsearch : searchCaseless (pre ++ writtenName name true ++ (crlf ++ rest)) (pre.length + 1)
        (pre.length + (writtenName name true).length) ['"'] = pre.length + 1 + name.length :=
      searchCaseless_of_find _ _ _ hbody (by simp) (by simp [hlen]; omega) hfind rfl
    rw [extractName, if_pos hat]
    dsimp only
    rw [hsearch, hlen, if_neg (by omega), Nat.add_sub_cancel_left, hbody, substr,
      List.append_assoc (pre ++ ['"']), List.drop_left' (by simp), List.append_assoc,
      List.take_left' rfl, if_pos rfl]
  | false =>
    have hat : charAt (pre ++ writtenName name false ++ (crlf ++ rest)) pre.length ≠ '"' := by
      have := charAt_append_length pre (name ++ (crlf ++ rest)) 0
      rw [Nat.add_zero, ← List.append_assoc] at this
      rw [writtenName, if_neg Bool.false_ne_true, this]
      cases name with
      | nil => simp [charAt, crlf]
      | cons c cs => exact fun h => hname (h ▸ List.mem_cons_self c cs)
    rw [extractName, if_neg hat, writtenName, if_neg Bool.false_ne_true, substr, List.append_assoc,
      List.drop_left]
    rfl

/-- One pass over a part written as `partText`, which starts at `pre.length` after `lead`
(the CRLF of the first delimiter, or nothing after a later one): it inserts the value as
written and the name as the name block reads it, and moves on after the part's delimiter. -/
theorem formStep_partText (hlead : lead = [] ∨ lead = crlf) (hB : '\r' ∉ boundary)
    (hname : '\r' ∉ name) (hquote : '"' ∉ name)
    (hvalue : ¬ ("\r\n--".toList ++ boundary) <:+: crlf ++ value) :
    formStep (pre ++ lead ++ partText boundary name value quoted ++ post)
        ("\r\n--".toList ++ boundary) pre.length =
      .part (if quoted then name else (name ++ (crlf ++ (crlf ++ (value ++
          ("\r\n--".toList ++ boundary ++ post))))).take
          (findFirstOf " \t\r\n".toList (pre ++ lead ++ partText boundary name value quoted ++ post)))
        value (pre.length + lead.length + 37 + (writtenName name quoted).length + 2)
        (pre.length + lead.length + 37 + (writtenName name quoted).length + 4 + value.length) := by
  set body := pre ++ lead ++ partText boundary name value quoted ++ post with hbody
  have hD := dispositionPrefix_length
  have hlast : charAt body pre.length ≠ '-' := by
    rw [hbody, List.append_assoc, List.append_assoc, ← Nat.add_zero pre.length,
      charAt_append_length]
    rcases hlead with rfl | rfl
    · exact fun h => absurd (h.symm.trans rfl : '-' = 'C') (by decide)
    · exact fun h => absurd (h.symm.trans rfl : '-' = '\r') (by decide)
  have hnext : findFrom ("\r\n--".toList ++ boundary) body pre.length =
      some (pre.length + lead.length + 37 + (writtenName name quoted).length + 4 + value.length) :=
    findFrom_of_find pre (by simp only [hbody, List.append_assoc]; rfl) rfl
      (find_delimiter_partText hlead hB hname hvalue post) (by omega)
  have heoh : findFrom "\r\n\r\n".toList body pre.length =
      some (pre.length + lead.length + 37 + (writtenName name quoted).length) :=
    findFrom_of_find pre (by simp only [hbody, partText, List.append_assoc]; rfl) rfl
      (find_blankLine_partText hlead hname (value ++ ("\r\n--".toList ++ boundary ++ post)))
      (by omega)
  have hdisp : searchCaseless body pre.length
      (pre.length + lead.length + 37 + (writtenName name quoted).length + 2)
      "Content-Disposition:".toList = pre.length + lead.length :=
    searchCaseless_of_find pre _ (crlf ++ (value ++ ("\r\n--".toList ++ boundary ++ post)))
      (by simp only [hbody, partText, List.append_assoc]; rfl) rfl (by simp [crlf]; omega)
      (find_disposition_partText hlead) rfl
  have hline : findFrom crlf body (pre.length + lead.length) =
      some (pre.length + lead.length + 37 + (writtenName name quoted).length) :=
    findFrom_of_find (pre ++ lead) (by simp only [hbody, partText, List.append_assoc]; rfl)
      (by simp)
      (find_lineEnd_partText hname (crlf ++ (value ++ ("\r\n--".toList ++ boundary ++ post))))
      (by omega)
  have hindex : searchCaseless body (pre.length + lead.length)
      (pre.length + lead.length + 37 + (writtenName name quoted).length) "name=".toList =
      pre.length + lead.length + 32 :=
    searchCaseless_of_find (pre ++ lead) _
      (crlf ++ (crlf ++ (value ++ ("\r\n--".toList ++ boundary ++ post))))
      (by simp only [hbody, partText, List.append_assoc]; rfl) (by simp) (by simp; omega)
      find_name_partText rfl
  have hextract : extractName body (pre.length + lead.length + 32 + 5)
      (pre.length + lead.length + 37 + (writtenName name quoted).length) =
      some (if quoted then name else (name ++ (crlf ++ (crlf ++ (value ++
        ("\r\n--".toList ++ boundary ++ post))))).take (findFirstOf " \t\r\n".toList body)) := by
    have hshape : body = (pre ++ lead ++ "Content-Disposition: form-data; name=".toList) ++
        writtenName name quoted ++ (crlf ++ (crlf ++ (value ++ ("\r\n--".toList ++ boundary ++ post)))) := by
      simp only [hbody, partText, List.append_assoc]
    rw [show pre.length + lead.length + 37 + (writtenName name quoted).length =
        (pre ++ lead ++ "Content-Disposition: form-data; name=".toList).length +
          (writtenName name quoted).length by simp; omega,
      show pre.length + lead.length + 32 + 5 =
        (pre ++ lead ++ "Content-Disposition: form-data; name=".toList).length by simp; omega, hshape]
    exact extractName_writtenName hquote _
  have hval : substr body (pre.length + lead.length + 37 + (writtenName name quoted).length + 2 + 2)
      (sizeSub (pre.length + lead.length + 37 + (writtenName name quoted).length + 4 + value.length)
        (pre.length + lead.length + 37 + (writtenName name quoted).length + 2 + 2)) = value := by
    have hshape : body = (pre ++ lead ++ "Content-Disposition: form-data; name=".toList ++
        writtenName name quoted ++ crlf ++ crlf) ++ (value ++ ("\r\n--".toList ++ boundary ++ post)) := by
      simp only [hbody, partText, List.append_assoc]
    rw [sizeSub, if_pos (by omega), hshape, substr, List.drop_left' (by simp [crlf]; omega),
      show pre.length + lead.length + 37 + (writtenName name quoted).length + 4 + value.length -
        (pre.length + lead.length + 37 + (writtenName name quoted).length + 2 + 2) = value.length
        by omega, List.take_left]
  rw [formStep_of_searches (fun h => hlast h.2.1) hnext heoh (by omega) (by rw [hdisp]; exact hline)
    (by omega) (by rw [hdisp]; exact hindex) (by omega) hextract, hval]

end PartText

/-! ### The part loop over a form body -/

theorem length_partText_pos (boundary name value : List Char) (quoted : Bool) :
    0 < (partText boundary name value quoted).length := by
  simp [partText]

/-- A form body has at least one character for each part. -/
theorem length_le_encodeParts (boundary tail : List Char) (parts : List (List Char × List Char × Bool)) :
    parts.length ≤ (encodeParts boundary tail parts).length := by
  induction parts with
  | nil => simp
  | cons p parts ih =>
    obtain ⟨name, value, quoted⟩ := p
    have := length_partText_pos boundary name value quoted
    simp only [encodeParts, List.length_append, List.length_cons]
    omega

/-- The part loop, started where a form's parts begin (after the first delimiter's CRLF
`lead`, or after a later delimiter), reads every part in turn and stops at the tail. -/
theorem parseFormDataLoop_encodeParts {body boundary tail : List Char}
    {parts : List (List Char × List Char × Bool)} (hB : '\r' ∉ boundary)
    (hfirst : findFirstOf " \t\r\n".toList body = boundary.length + 2)
    (hparts : PartsOK boundary parts) (pre lead : List Char)
    (hlead : lead = [] ∨ lead = crlf ∧ parts ≠ []) (fuel : Nat) (ps : CFormParts)
    (hbody : body = pre ++ lead ++ encodeParts boundary tail parts) (hfuel : parts.length ≤ fuel) :
    parseFormDataLoop body ("\r\n--".toList ++ boundary) fuel pre.length ps =
      parseFormDataLoop body ("\r\n--".toList ++ boundary) (fuel - parts.length)
        (body.length - tail.length) (ps.insertAll (storedParts boundary tail parts)) := by
  induction parts generalizing pre lead fuel ps with
  | nil =>
    obtain rfl : lead = [] := by simpa using hlead
    subst hbody
    simp [encodeParts, CFormParts.insertAll, storedParts]
  | cons p parts ih =>
    obtain ⟨name, value, quoted⟩ := p
    obtain ⟨hname, hquote, hvalue⟩ := hparts _ (List.mem_cons_self _ _)
    obtain ⟨fuel, rfl⟩ : ∃ f, fuel = f + 1 := ⟨fuel - 1, by simp at hfuel; omega⟩
    have hb : body = pre ++ lead ++ partText boundary name value quoted ++
        encodeParts boundary tail parts := by
      rw [hbody, encodeParts]; simp only [List.append_assoc]
    have hnext : (pre ++ lead ++ partText boundary name value quoted).length =
        pre.length + lead.length + 37 + (writtenName name quoted).length + 4 + value.length +
          ("\r\n--".toList ++ boundary).length := by
      simp [partText, crlf]; omega
    have hstep : formStep body ("\r\n--".toList ++ boundary) pre.length =
        .part (storedParts boundary tail ((name, value, quoted) :: parts)).head!.1 value
          (pre.length + lead.length + 37 + (writtenName name quoted).length + 2)
          (pre.length + lead.length + 37 + (writtenName name quoted).length + 4 + value.length) := by
      rw [hb, formStep_partText (hlead.imp_right And.left) hB hname hquote hvalue, ← hb, hfirst]
      simp only [storedParts, List.head!_cons, List.append_assoc]
    rw [parseFormDataLoop, hstep]
    dsimp only
    rw [← hnext, ih (fun p hp => hparts p (List.mem_cons_of_mem _ hp)) _ [] (.inl rfl) _ _
      (by rw [hb, List.append_nil]) (by simp at hfuel; omega)]
    simp only [List.length_cons, Nat.add_sub_add_right]
    rfl

/-! ### The boundary -/

/-- A text that starts its own copy after `k > 0` dashes is all dashes. -/
theorem eq_dash_of_prefix_self {boundary R : List Char} {k : Nat} (hk : 0 < k)
    (h : boundary <+: List.replicate k '-' ++ boundary ++ R) : ∀ c ∈ boundary, c = '-' := by
  obtain ⟨t, ht⟩ := h
  have hat : ∀ i, (hi : i < boundary.length) → boundary[i] = '-' := by
    intro i
    induction i using Nat.strong_induction_on with
    | _ i ih =>
      intro hi
      have := congrArg (·[i]?) ht
      simp only [List.getElem?_append_left hi] at this
      by_cases hik : i < k
      · rw [List.append_assoc, List.getElem?_append_left (by simpa using hik),
          List.getElem?_replicate_of_lt hik, List.getElem?_eq_getElem hi] at this
        exact Option.some.inj this
      · rw [List.append_assoc, List.getElem?_append_right (by simp; omega), List.length_replicate,
          List.getElem?_append_left (by omega), List.getElem?_eq_getElem hi,
          List.getElem?_eq_getElem (by omega)] at this
        exact (Option.some.inj this).trans (ih _ (by omega) _)
  intro c hc
  obtain ⟨i, hi, rfl⟩ := List.getElem_of_mem hc
  exact hat i hi

/-- The first `find` of the boundary in a form body is the one after the leading `--`,
unless the boundary is all dashes. -/
theorem find_boundary {boundary : List Char} (hdash : ∃ c ∈ boundary, c ≠ '-') (R : List Char) :
    find boundary ("--".toList ++ boundary ++ R) = some 2 := by
  obtain ⟨c, hc, hcd⟩ := hdash
  rw [show "--".toList ++ boundary ++ R = '-' :: '-' :: (boundary ++ R) from rfl, find, if_neg, find,
    if_neg, find_append_self]
  · rfl
  · exact fun h => hcd (eq_dash_of_prefix_self (k := 1) (R := R) (by decide) h c hc)
  · exact fun h => hcd (eq_dash_of_prefix_self (k := 2) (R := R) (by decide) h c hc)

/-- The first white space or line end of a form body is the CR after the boundary. -/
theorem findFirstOf_formDataBody {boundary : List Char}
    (hB : ∀ c ∈ boundary, c ∉ " \t\r\n".toList) (tail : List Char)
    (parts : List (List Char × List Char × Bool)) :
    findFirstOf " \t\r\n".toList (formDataBody boundary tail parts) = boundary.length + 2 := by
  have hnone : ("--".toList ++ boundary).findIdx? (· ∈ " \t\r\n".toList) = none := by
    rw [List.findIdx?_eq_none_iff]
    intro c hc
    rcases List.mem_append.mp hc with h | h
    · have hdash : ∀ c ∈ "--".toList, c ∉ " \t\r\n".toList := by decide
      simpa using hdash c h
    · simpa using hB c h
  rw [findFirstOf, formDataBody, List.append_assoc, List.findIdx?_append, hnone]
  simp [crlf]

/-! ### A whole form -/

/-- The tail of a form body comes after all its parts. -/
theorem encodeParts_tail (boundary tail : List Char) (parts : List (List Char × List Char × Bool)) :
    encodeParts boundary tail parts = encodeParts boundary [] parts ++ tail := by
  induction parts with
  | nil => rfl
  | cons p parts ih => simp [encodeParts, ih]

/-- A form body is its parts, then its tail. -/
theorem formDataBody_tail (boundary tail : List Char) (parts : List (List Char × List Char × Bool)) :
    formDataBody boundary tail parts = formDataBody boundary [] parts ++ tail := by
  simp only [formDataBody, encodeParts_tail boundary tail, List.append_assoc]

/-- The passes `parseFormData` gives the loop outlast the parts of a form body. -/
theorem formDataBody_fuel (boundary tail : List Char) (parts : List (List Char × List Char × Bool)) :
    ∃ fuel, (formDataBody boundary tail parts).length + 2 - parts.length = fuel + 1 := by
  have := length_le_encodeParts boundary tail parts
  exact ⟨_, (Nat.succ_pred_eq_of_pos (by rw [formDataBody, List.length_append]; omega)).symm⟩

/-- `parseFormData` on a form post reads every part and reaches the tail with them
inserted. -/
theorem parseFormData_formDataBody_loop {boundary : List Char}
    {parts : List (List Char × List Char × Bool)} (hB : BoundaryOK boundary)
    (hparts : PartsOK boundary parts) (hne : parts ≠ []) (tail : List Char) (ps : CFormParts) :
    parseFormData (formDataRequest boundary (formDataBody boundary tail parts)) ps =
      parseFormDataLoop (formDataBody boundary tail parts) ("\r\n--".toList ++ boundary)
        ((formDataBody boundary tail parts).length + 2 - parts.length)
        ((formDataBody boundary tail parts).length - tail.length)
        (ps.insertAll (storedParts boundary tail parts)) := by
  obtain ⟨hspace, hdash⟩ := hB
  have hcr : '\r' ∉ boundary := fun h => (hspace _ h).1 (by decide)
  have hnul : Char.ofNat 0 ∉ boundary := fun h => (hspace _ h).2 rfl
  have hfirst := findFirstOf_formDataBody (fun c hc => (hspace c hc).1) tail parts
  have hfind : find boundary (formDataBody boundary tail parts) = some 2 := by
    rw [formDataBody, List.append_assoc, List.append_assoc]
    exact find_boundary hdash _
  have hfuel := length_le_encodeParts boundary tail parts
  rw [parseFormData_formDataRequest hnul hfind,
    show 2 + boundary.length = ("--".toList ++ boundary).length by simp; omega,
    parseFormDataLoop_encodeParts hcr hfirst hparts _ crlf (.inr ⟨rfl, hne⟩) _ _ rfl
      (by rw [formDataBody, List.length_append]; omega)]

/-- `parseFormData` on a whole form: it returns true and inserts one entry per part, the
value as written, a quoted name as written, and a bare name as the `boundary.length + 2`
characters from where it starts. -/
theorem parseFormData_formDataBody {boundary : List Char}
    {parts : List (List Char × List Char × Bool)} (hB : BoundaryOK boundary)
    (hparts : PartsOK boundary parts) (hne : parts ≠ []) (ps : CFormParts) :
    parseFormData (formDataRequest boundary (formDataBody boundary "--\r\n".toList parts)) ps =
      some (true, ps.insertAll (storedParts boundary "--\r\n".toList parts)) := by
  obtain ⟨fuel, hfuel⟩ := formDataBody_fuel boundary "--\r\n".toList parts
  rw [parseFormData_formDataBody_loop hB hparts hne, hfuel, formDataBody_tail,
    List.length_append, Nat.add_sub_cancel]
  exact parseFormDataLoop_terminator _ "\r\n".toList _ _ _

/-- A one-part form with a bare name: the name is stored with the line end after it. -/
theorem parseFormData_formDataBody_bareName :
    parseFormData (formDataRequest "b".toList
        (formDataBody "b".toList "--\r\n".toList [("x".toList, "v".toList, false)])) [] =
      some (true, [("x\r\n".toList, "v".toList)]) :=
  (parseFormData_formDataBody (by decide) (by decide) (List.cons_ne_nil _ _) []).trans rfl

/-- The entries of quoted parts are the parts' names and values. -/
theorem storedParts_of_quoted {boundary tail : List Char} {parts : List (List Char × List Char × Bool)}
    (hquoted : ∀ p ∈ parts, p.2.2 = true) :
    storedParts boundary tail parts = parts.map fun p => (p.1, p.2.1) := by
  induction parts with
  | nil => rfl
  | cons p parts ih =>
    obtain ⟨name, value, quoted⟩ := p
    have hq : quoted = true := hquoted _ (List.mem_cons_self _ _)
    subst hq
    rw [storedParts, if_pos rfl, ih fun p hp => hquoted p (List.mem_cons_of_mem _ hp), List.map_cons]

/-- With every name quoted, `parseFormData` inserts exactly the parts' names and values. -/
theorem parseFormData_quotedNames {boundary : List Char}
    {parts : List (List Char × List Char × Bool)} (hB : BoundaryOK boundary)
    (hparts : PartsOK boundary parts) (hne : parts ≠ []) (hquoted : ∀ p ∈ parts, p.2.2 = true)
    (ps : CFormParts) :
    parseFormData (formDataRequest boundary (formDataBody boundary "--\r\n".toList parts)) ps =
      some (true, ps.insertAll (parts.map fun p => (p.1, p.2.1))) := by
  obtain ⟨fuel, hfuel⟩ := formDataBody_fuel boundary "--\r\n".toList parts
  have hstored : storedParts boundary "--\r\n".toList parts = parts.map fun p => (p.1, p.2.1) :=
    storedParts_of_quoted hquoted
  rw [← hstored, parseFormData_formDataBody_loop hB hparts hne, hfuel, formDataBody_tail,
    List.length_append, Nat.add_sub_cancel]
  exact parseFormDataLoop_terminator _ "\r\n".toList _ _ _

/-- Two quoted parts come back as written. -/
theorem parseFormData_quotedNames_two :
    parseFormData (formDataRequest "b".toList (formDataBody "b".toList "--\r\n".toList
        [("a".toList, "1\r\n2".toList, true), ("c".toList, "".toList, true)])) [] =
      some (true, [("a".toList, "1\r\n2".toList), ("c".toList, [])]) :=
  (parseFormData_quotedNames (by decide) (by decide) (List.cons_ne_nil _ _) (by decide) []).trans rfl

/-! ### A form without its terminator -/

@[simp] theorem CFormParts.length_insert (e : List Char × List Char) (ps : CFormParts) :
    (ps.insert e).length = ps.length + 1 := by
  induction ps with
  | nil => rfl
  | cons p ps ih => unfold CFormParts.insert; split <;> simp [ih]

theorem CFormParts.length_insertAll (ps es : CFormParts) :
    (ps.insertAll es).length = ps.length + es.length := by
  induction es generalizing ps with
  | nil => rfl
  | cons e es ih => rw [CFormParts.insertAll, List.foldl_cons, ← CFormParts.insertAll, ih]; simp; omega

theorem length_storedParts (boundary tail : List Char) (parts : List (List Char × List Char × Bool)) :
    (storedParts boundary tail parts).length = parts.length := by
  induction parts with
  | nil => rfl
  | cons p parts ih => simp [storedParts, ih]

/-- A form whose parts are followed by text that neither starts with `--` nor holds a
delimiter: `parseFormData` returns false, with every part already inserted. -/
theorem parseFormData_unterminated {boundary tail : List Char}
    {parts : List (List Char × List Char × Bool)} (hB : BoundaryOK boundary)
    (hparts : PartsOK boundary parts) (hne : parts ≠ []) (htail : ¬ "--".toList <+: tail)
    (hdelim : ¬ ("\r\n--".toList ++ boundary) <:+: tail) (ps : CFormParts) :
    parseFormData (formDataRequest boundary (formDataBody boundary tail parts)) ps =
        some (false, ps.insertAll (storedParts boundary tail parts)) ∧
      ps.insertAll (storedParts boundary tail parts) ≠ ps := by
  obtain ⟨fuel, hfuel⟩ := formDataBody_fuel boundary tail parts
  refine ⟨?_, fun h => ?_⟩
  · rw [parseFormData_formDataBody_loop hB hparts hne, hfuel, formDataBody_tail,
      List.length_append, Nat.add_sub_cancel, parseFormDataLoop,
      formStep_unterminated _ htail hdelim]
  · have := congrArg List.length h
    rw [CFormParts.length_insertAll, length_storedParts] at this
    exact hne (List.length_eq_zero.mp (by omega))

/-- A one-part form that ends right after the part's delimiter. -/
theorem parseFormData_unterminated_afterPart :
    parseFormData (formDataRequest "b".toList
        (formDataBody "b".toList [] [("a".toList, "v".toList, true)])) [] =
        some (false, [("a".toList, "v".toList)]) ∧
      CFormParts.insertAll [] [("a".toList, "v".toList)] ≠ [] :=
  parseFormData_unterminated (by decide) (by decide) (List.cons_ne_nil _ _) (by decide) (by decide) []

end Synergy.Http
