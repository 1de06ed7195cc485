import Synergy.Http.Headers

/-!
# Header fields and the header table

The lines of a header block that `readHeaders` reads as fields, `name:value`, and what the
two tables it fills say about them.  A name is looked up caselessly (`CHeaderMap.find`);
a name seen again gets `,value` on its stored value.

* `IsField` — a field line the loop body reads as such: no blank first, no CRLF, a token
  for a name, no colon in it, no line feed in the value;
* `readHeaderLines_fields` — **PROVED**: fields with caselessly distinct names fill the
  tables in order, each name with the index of its value (`fieldIndex`);
* `Represents` / `readHeaders_headerValue` — **PROVED**: for every header block of fields,
  repeated names in any spelling included, split across reads in any way, the table
  `readHeaders` leaves looks every name up as the values of the fields so named, in order,
  joined by commas (`joinedValue`), and finds nothing for a name no field has; footers read
  into the same table by a second call extend the same lookups.
-/

namespace Synergy.Http

open Outcome

/-! ### Caseless names -/

namespace CaselessCmp

theorem equal_comm (a b : List Char) : equal a b = equal b a := by
  rw [Bool.eq_iff_iff, equal_iff, equal_iff, eq_comm]

theorem equal_trans {a b c : List Char} (h₁ : equal a b = true) (h₂ : equal b c = true) :
    equal a c = true :=
  (equal_iff a c).mpr (((equal_iff a b).mp h₁).trans ((equal_iff b c).mp h₂))

end CaselessCmp

/-- A lookup sees a name only up to caseless equality. -/
theorem CHeaderMap.find_of_equal (m : CHeaderMap) {a b : List Char}
    (h : CaselessCmp.equal a b = true) : m.find a = m.find b :=
  m.find_congr ((CaselessCmp.equal_iff a b).mp h)

/-- A lookup that succeeds found an entry caselessly named so. -/
theorem CHeaderMap.find_eq_some {m : CHeaderMap} {name : List Char} {k : Nat}
    (h : m.find name = some k) : ∃ e ∈ m, CaselessCmp.equal e.1 name = true ∧ e.2 = k := by
  unfold CHeaderMap.find at h
  obtain ⟨e, he, rfl⟩ := Option.map_eq_some'.mp h
  exact ⟨e, List.mem_of_find?_eq_some he, by simpa using List.find?_some he, rfl⟩

/-- In a well-formed table, caselessly different names found have different indices. -/
theorem HeaderTableWF.index_ne_of_find {r : CHTTPRequest} (hwf : HeaderTableWF r)
    {a b : List Char} {i j : Nat} (ha : r.m_headerIndexByName.find a = some i)
    (hb : r.m_headerIndexByName.find b = some j) (h : CaselessCmp.equal a b = false) : i ≠ j := by
  rintro rfl
  obtain ⟨e₁, he₁, hn₁, rfl⟩ := CHeaderMap.find_eq_some ha
  obtain ⟨e₂, he₂, hn₂, hi⟩ := CHeaderMap.find_eq_some hb
  rw [hwf.index_injective he₂ he₁ hi] at hn₂
  rw [CaselessCmp.equal_trans (by rwa [CaselessCmp.equal_comm]) hn₂] at h
  cases h

/-! ### Fields -/

/-- A header line `name:value`. -/
def fieldLine (field : List Char × List Char) : List Char := field.1 ++ ':' :: field.2

/-- A field `readHeaders` reads as one new header: the line does not start with a blank and
holds no CRLF, the name is a token without a colon, the value holds no line feed. -/
structure IsField (field : List Char × List Char) : Prop where
  not_continuation : ¬ IsContinuation (fieldLine field)
  no_crlf : ¬ crlf <:+: fieldLine field
  colon : ':' ∉ field.1
  token : isValidToken field.1 = true
  newline : '\n' ∉ field.2

instance (field : List Char × List Char) : Decidable (IsField field) :=
  decidable_of_iff (¬ IsContinuation (fieldLine field) ∧ ¬ crlf <:+: fieldLine field ∧
      ':' ∉ field.1 ∧ isValidToken field.1 = true ∧ '\n' ∉ field.2)
    ⟨fun h => ⟨h.1, h.2.1, h.2.2.1, h.2.2.2.1, h.2.2.2.2⟩,
      fun h => ⟨h.not_continuation, h.no_crlf, h.colon, h.token, h.newline⟩⟩

/-- The lines of fields are header lines. -/
theorem fieldLines_isHeaderLine {fields : List (List Char × List Char)}
    (h : ∀ f ∈ fields, IsField f) : ∀ line ∈ fields.map fieldLine, IsHeaderLine line := by
  intro line hl
  obtain ⟨f, hf, rfl⟩ := List.mem_map.mp hl
  exact ⟨by simp [fieldLine], (h f hf).no_crlf⟩

/-- The header index of fields with distinct names: each name with its position, from `k`
on. -/
def fieldIndex : Nat → List (List Char × List Char) → CHeaderMap
  | _, [] => []
  | k, f :: fields => (f.1, k) :: fieldIndex (k + 1) fields

theorem CHeaderMap.find_cons (e : List Char × Nat) (m : CHeaderMap) (name : List Char) :
    CHeaderMap.find (e :: m) name =
      if CaselessCmp.equal e.1 name then some e.2 else m.find name := by
  unfold CHeaderMap.find
  rw [List.find?_cons]
  split <;> simp_all

/-- A name added at the end of the index changes no lookup of a name it is caselessly
unequal to. -/
theorem CHeaderMap.find_append_of_equal_false (m : CHeaderMap) {name key : List Char}
    (index : Nat) (hname : CaselessCmp.equal name key = false) :
    (m ++ [(name, index)]).find key = m.find key := by
  unfold CHeaderMap.find
  rw [List.find?_append]
  cases m.find? (fun e => CaselessCmp.equal e.1 key) <;> simp [hname]

theorem fieldIndex_append_singleton (k : Nat) (fields : List (List Char × List Char))
    (f : List Char × List Char) :
    fieldIndex k (fields ++ [f]) = fieldIndex k fields ++ [(f.1, k + fields.length)] := by
  induction fields generalizing k with
  | nil => rfl
  | cons g fields ih => simp [fieldIndex, ih, Nat.add_assoc, Nat.add_comm 1]

theorem find_fieldIndex_eq_none {name : List Char} : ∀ (k : Nat) (fields : List (List Char × List Char)),
    (∀ f ∈ fields, CaselessCmp.equal f.1 name = false) → (fieldIndex k fields).find name = none
  | _, [], _ => rfl
  | k, f :: fields, h => by
    rw [fieldIndex, CHeaderMap.find_cons, if_neg (by simp [h f (List.mem_cons_self _ _)])]
    exact find_fieldIndex_eq_none (k + 1) fields fun g hg => h g (List.mem_cons_of_mem _ hg)

theorem find_fieldIndex_isSome {name : List Char} : ∀ (k : Nat) (fields : List (List Char × List Char)),
    (∃ f ∈ fields, CaselessCmp.equal f.1 name = true) → ((fieldIndex k fields).find name).isSome
  | _, [], ⟨_, hf, _⟩ => absurd hf (List.not_mem_nil _)
  | k, f :: fields, ⟨g, hg, hname⟩ => by
    rw [fieldIndex, CHeaderMap.find_cons]
    split
    · rfl
    · next hf =>
      rcases List.mem_cons.mp hg with rfl | hg
      · exact absurd hname hf
      · exact find_fieldIndex_isSome (k + 1) fields ⟨g, hg, hname⟩

/-- **Header fields fill the tables in order.**  Fields with caselessly distinct names, none
of them in the index yet, are read one by one: their values go to the end of `m_headers`,
and each name to the end of `m_headerIndexByName` with the index of its value. -/
theorem readHeaderLines_fields : ∀ (fields : List (List Char × List Char)) (r : CHTTPRequest),
    (∀ f ∈ fields, IsField f) → fields.Pairwise (fun a b => CaselessCmp.equal a.1 b.1 = false) →
    (∀ f ∈ fields, r.m_headerIndexByName.find f.1 = none) →
    readHeaderLines r (fields.map fieldLine) =
      done { r with
        m_headers := r.m_headers ++ fields.map Prod.snd
        m_headerIndexByName := r.m_headerIndexByName ++ fieldIndex r.m_headers.length fields }
  | [], r, _, _, _ => by simp [readHeaderLines, fieldIndex]
  | f :: fields, r, hf, hd, hnew => by
    have hfield := hf f (List.mem_cons_self _ _)
    obtain ⟨hfirst, hd⟩ := List.pairwise_cons.mp hd
    rw [List.map_cons, readHeaderLines, fieldLine,
      readHeaderLine_field r f.1 f.2 hfield.not_continuation hfield.colon hfield.token
        hfield.newline, hnew f (List.mem_cons_self _ _), pure_eq, done_bind,
      readHeaderLines_fields fields _ (fun g hg => hf g (List.mem_cons_of_mem _ hg)) hd
        fun g hg => (CHeaderMap.find_append_of_equal_false _ _ (hfirst g hg)).trans
          (hnew g (List.mem_cons_of_mem _ hg))]
    simp [fieldIndex]

/-! ### What the header loop leaves alone -/

/-- The request without its header tables: the request line and the body. -/
def CHTTPRequest.withoutTables (r : CHTTPRequest) : CHTTPRequest :=
  { r with m_headers := [], m_headerIndexByName := [] }

/-- A header line changes the header tables only. -/
theorem readHeaderLine_withoutTables {r r' : CHTTPRequest} {line : List Char}
    (h : readHeaderLine r line = done r') : r'.withoutTables = r.withoutTables := by
  rcases readHeaderLine_cases h with ⟨_, -, rfl⟩ | ⟨_, _, -, rfl⟩ | ⟨_, _, _, -, rfl⟩ <;> rfl

theorem readHeaderLines_withoutTables : ∀ (lines : List (List Char)) {r r' : CHTTPRequest},
    readHeaderLines r lines = done r' → r'.withoutTables = r.withoutTables
  | [], _, _, h => by cases h; rfl
  | _ :: lines, _, _, h => by
    obtain ⟨r₁, h₁, h⟩ := bind_eq_done.mp h
    exact (readHeaderLines_withoutTables lines h).trans (readHeaderLine_withoutTables h₁)

/-! ### The table as a caseless multimap -/

theorem intercalate_append_singleton {α : Type} (sep : List α) : ∀ (xs : List (List α)) (v : List α),
    xs ≠ [] → sep.intercalate (xs ++ [v]) = sep.intercalate xs ++ sep ++ v
  | [], _, h => absurd rfl h
  | [x], v, _ => by simp [List.intercalate]
  | x :: y :: xs, v, _ => by
    have ih := intercalate_append_singleton sep (y :: xs) v (by simp)
    simp only [List.cons_append, List.intercalate, List.intersperse_cons_cons,
      List.flatten_cons] at ih ⊢
    simp [ih]

/-- The values of the fields caselessly named `name`, in order. -/
def fieldValues (fields : List (List Char × List Char)) (name : List Char) : List (List Char) :=
  (fields.filter fun f => CaselessCmp.equal f.1 name).map Prod.snd

/-- What reading `fields` should store under `name`: the values of the fields so named joined
by commas, nothing when there is none. -/
def joinedValue (fields : List (List Char × List Char)) (name : List Char) : Option (List Char) :=
  if fieldValues fields name = [] then none else some ([','].intercalate (fieldValues fields name))

theorem fieldValues_append_of_equal_false {fields : List (List Char × List Char)}
    {f : List Char × List Char} {name : List Char} (he : CaselessCmp.equal f.1 name = false) :
    fieldValues (fields ++ [f]) name = fieldValues fields name := by
  simp [fieldValues, List.filter_append, he]

theorem fieldValues_append_of_equal {fields : List (List Char × List Char)}
    {f : List Char × List Char} {name : List Char} (he : CaselessCmp.equal f.1 name = true) :
    fieldValues (fields ++ [f]) name = fieldValues fields name ++ [f.2] := by
  simp [fieldValues, List.filter_append, he]

theorem fieldValues_eq_nil_iff {fields : List (List Char × List Char)} {name : List Char} :
    fieldValues fields name = [] ↔ ∀ f ∈ fields, CaselessCmp.equal f.1 name = false := by
  simp [fieldValues, List.filter_eq_nil_iff]

/-- Repeated names join in order, whatever their case. -/
example : joinedValue [("Accept".toList, " a".toList), ("Host".toList, " h".toList),
    ("ACCEPT".toList, " b".toList)] "accept".toList = some " a, b".toList := by decide

/-- The header tables stand for the fields read so far: in bijection, and every lookup is
`joinedValue`. -/
structure Represents (r : CHTTPRequest) (fields : List (List Char × List Char)) : Prop where
  wf : HeaderTableWF r
  lookup : ∀ name, r.headerValue name = joinedValue fields name

theorem represents_empty : Represents {} [] :=
  ⟨⟨rfl, List.Pairwise.nil⟩, fun _ => rfl⟩

namespace Represents

variable {r : CHTTPRequest} {fields : List (List Char × List Char)} (hr : Represents r fields)
include hr

/-- A name the index does not find has no field yet. -/
theorem fieldValues_eq_nil {name : List Char} (h : r.m_headerIndexByName.find name = none) :
    fieldValues fields name = [] := by
  have hv := hr.lookup name
  rw [CHTTPRequest.headerValue, h, Option.map_none', joinedValue] at hv
  by_contra hne
  rw [if_neg hne] at hv
  cases hv

/-- The value stored under a name the index finds is its fields' values joined. -/
theorem fieldValues_of_find {name : List Char} {k : Nat}
    (h : r.m_headerIndexByName.find name = some k) :
    fieldValues fields name ≠ [] ∧
      [','].intercalate (fieldValues fields name) = r.m_headers.getD k [] := by
  have hv := hr.lookup name
  rw [CHTTPRequest.headerValue, h, Option.map_some', joinedValue] at hv
  by_cases hne : fieldValues fields name = []
  · rw [if_pos hne] at hv
    cases hv
  · rw [if_neg hne] at hv
    exact ⟨hne, (Option.some.inj hv).symm⟩

/-- An index the lookup gives is that of a value. -/
theorem lt_of_find {name : List Char} {k : Nat} (h : r.m_headerIndexByName.find name = some k) :
    k < r.m_headers.length := by
  obtain ⟨e, he, -, rfl⟩ := CHeaderMap.find_eq_some h
  exact hr.wf.mem_indices.mp ⟨e, he, rfl⟩

/-- The table has a name exactly when a field is caselessly so named. -/
theorem hasHeader_iff {name : List Char} :
    r.hasHeader name = true ↔ ∃ f ∈ fields, CaselessCmp.equal f.1 name = true := by
  have hsome : r.hasHeader name = (r.headerValue name).isSome := by
    simp [CHTTPRequest.hasHeader, CHTTPRequest.headerValue]
  rw [hsome, hr.lookup, joinedValue]
  by_cases hnil : fieldValues fields name = []
  · rw [if_pos hnil]
    simpa using fieldValues_eq_nil_iff.mp hnil
  · rw [if_neg hnil]
    simpa [fieldValues_eq_nil_iff] using hnil

/-- **One field.**  Reading a field line into tables that stand for `fields` gives tables that
stand for `fields ++ [f]`: a new name gets the field's value, a name seen before gets
`,value` on its stored value, and every other lookup is as before. -/
theorem readHeaderLine {f : List Char × List Char} (hf : IsField f) :
    ∃ r', readHeaderLine r (fieldLine f) = done r' ∧ Represents r' (fields ++ [f]) := by
  have hstep := readHeaderLine_field r f.1 f.2 hf.not_continuation hf.colon hf.token hf.newline
  cases hfind : r.m_headerIndexByName.find f.1 with
  | none =>
    rw [hfind] at hstep
    refine ⟨_, hstep, (readHeaderLine_keepsHeaderTable hstep hr.wf).1, fun name => ?_⟩
    cases he : CaselessCmp.equal f.1 name
    · -- another name: the entry added does not match it
      rw [joinedValue, fieldValues_append_of_equal_false he, ← joinedValue, ← hr.lookup name]
      simp only [CHTTPRequest.headerValue, CHeaderMap.find_append_of_equal_false _ _ he]
      cases hk : r.m_headerIndexByName.find name with
      | none => rfl
      | some k => simp [List.getD_eq_getElem?_getD, List.getElem?_append_left (hr.lt_of_find hk)]
    · -- the new name: found at the new index, with no field before it
      have hnone : r.m_headerIndexByName.find name = none := by
        rw [← CHeaderMap.find_of_equal _ he]
        exact hfind
      rw [CHTTPRequest.headerValue, CHeaderMap.find_append_new _ hnone he, joinedValue,
        fieldValues_append_of_equal he, hr.fieldValues_eq_nil hnone]
      simp [List.intercalate]
  | some index =>
    rw [hfind] at hstep
    have hlt := hr.lt_of_find hfind
    refine ⟨_, hstep, (readHeaderLine_keepsHeaderTable hstep hr.wf).1, fun name => ?_⟩
    cases he : CaselessCmp.equal f.1 name
    · -- another name: its entry, if any, has another index
      rw [joinedValue, fieldValues_append_of_equal_false he, ← joinedValue, ← hr.lookup name]
      simp only [CHTTPRequest.headerValue]
      cases hk : r.m_headerIndexByName.find name with
      | none => rfl
      | some k =>
        simp [List.getD_eq_getElem?_getD,
          List.getElem?_set_ne (hr.wf.index_ne_of_find hfind hk he)]
    · -- the same name: its stored value gets the new one after a comma
      have hsame : r.m_headerIndexByName.find name = some index := by
        rw [← CHeaderMap.find_of_equal _ he]
        exact hfind
      obtain ⟨hne, hjoin⟩ := hr.fieldValues_of_find hsame
      rw [joinedValue, fieldValues_append_of_equal he, if_neg (by simp),
        intercalate_append_singleton _ _ _ hne, hjoin, CHTTPRequest.headerValue, hsame]
      simp [List.getD_eq_getElem?_getD, hlt]

end Represents

/-- Field lines one after the other keep the tables standing for the fields read. -/
theorem readHeaderLines_represents : ∀ (more : List (List Char × List Char))
    {r : CHTTPRequest} {fields : List (List Char × List Char)}, Represents r fields →
    (∀ f ∈ more, IsField f) →
    ∃ r', readHeaderLines r (more.map fieldLine) = done r' ∧ Represents r' (fields ++ more)
  | [], r, fields, hr, _ => ⟨r, rfl, by simpa using hr⟩
  | f :: more, _, fields, hr, hf => by
    obtain ⟨r₁, h₁, hr₁⟩ := hr.readHeaderLine (hf f (List.mem_cons_self _ _))
    obtain ⟨r₂, h₂, hr₂⟩ := readHeaderLines_represents more hr₁
      fun g hg => hf g (List.mem_cons_of_mem _ hg)
    refine ⟨r₂, ?_, by simpa using hr₂⟩
    rw [List.map_cons, readHeaderLines, h₁, done_bind, h₂]

/-- **The header table is a caseless multimap.**  Whatever tables stand for the fields read
before, a header block of field lines, split across reads and buffered in any way, is read by
`readHeaders` into tables that stand for those fields and then the block's: every name, in
any spelling, looks up the values of all the fields caselessly so named, in order, joined by
commas, and a name no field has looks up nothing.  Bytes after the block are left unread. -/
theorem readHeaders_headerValue (fields more : List (List Char × List Char))
    (hmore : ∀ f ∈ more, IsField f) (r : CHTTPRequest) (hr : Represents r fields)
    (rest : List Char) (stream : InputStream) (tmpBuffer : List Char) (hwf : stream.WellFormed)
    (h : tmpBuffer ++ stream.content = headerBlock (more.map fieldLine) ++ rest) (fuel : Nat)
    (hfuel : more.length < fuel) (isFooter : Bool) :
    ∃ r' stream' tmpBuffer', readHeaders fuel stream r isFooter tmpBuffer =
        done (r', stream', tmpBuffer') ∧ tmpBuffer' ++ stream'.content = rest ∧
      ∀ name, r'.headerValue name = joinedValue (fields ++ more) name := by
  obtain ⟨s', t', hr', -, hrun⟩ := readHeaders_headerBlock rest (more.map fieldLine)
    (fieldLines_isHeaderLine hmore) stream tmpBuffer hwf h
  obtain ⟨r', hlines, hrep⟩ := readHeaderLines_represents more hr hmore
  refine ⟨r', s', t', ?_, hr', hrep.lookup⟩
  rw [hrun fuel r isFooter (by simpa using hfuel), hlines]
  rfl

/-- Two fields named alike in different case, a field between them, the block cut mid-name. -/
theorem readHeaders_acceptTwice :
    ∃ r' stream' tmpBuffer', readHeaders 4 ⟨["Accept: a\r\nHo".toList,
        "st: h\r\nACCEPT: b\r\n\r\n".toList]⟩ {} false [] = done (r', stream', tmpBuffer') ∧
      tmpBuffer' ++ stream'.content = [] ∧
      ∀ name, r'.headerValue name = joinedValue ([] ++ [("Accept".toList, " a".toList),
        ("Host".toList, " h".toList), ("ACCEPT".toList, " b".toList)]) name :=
  readHeaders_headerValue [] _ (by decide) {} represents_empty [] _ [] (by decide) (by decide) 4
    (by decide) false

end Synergy.Http
