import Synergy.Http.RequestRoundTrip
import Synergy.Http.FormDataRoundTrip

/-!
# A form post, from the stream to its parts

A multipart form as a client posts it: a `WireRequest` whose `Content-Type` field is
`multipart/form-data; boundary=` and the boundary, after any blanks (`formDataType`), and
whose body is a form (`formDataBody`).  `readRequest` reads the request from the stream and
`parseFormData` reads the parts from the request.

* `parseFormData_eq_formDataRequest` — `parseFormData` reads a request through its
  `Content-Type` value and its body only, so it parses every request whose value is a form's,
  after any blanks, as it parses `formDataRequest` with the same boundary and body;
* `WireRequest.headerValue_parsed` — the request `readRequest` reads back looks every field
  up as written;
* `readRequest_parseFormData` — **PROVED**: however the bytes of a post with quoted part
  names are split across reads, `readRequest` returns a request from which `parseFormData`
  reads every part, each value under its name.
-/

namespace Synergy.Http

open Outcome

/-- The `Content-Type` value of a form post: blanks, `multipart/form-data; boundary=` and
the boundary. -/
def formDataType (ows boundary : List Char) : List Char :=
  ows ++ "multipart/form-data; boundary=".toList ++ boundary

/-- The searches `parseFormData` makes in a form's `Content-Type` value: the type after the
blanks, `boundary=` after it, and the boundary as written from there on. -/
theorem formDataType_searches {ows boundary : List Char} (hows : ∀ c ∈ ows, c = ' ' ∨ c = '\t')
    (hnul : Char.ofNat 0 ∉ boundary) :
    (formDataType ows boundary).length = ows.length + 30 + boundary.length ∧
    searchCaseless (formDataType ows boundary) 0 (formDataType ows boundary).length
      "multipart/form-data".toList = ows.length ∧
    searchCaseless (formDataType ows boundary) (ows.length + 19)
      (formDataType ows boundary).length "boundary=".toList = ows.length + 21 ∧
    cString ((formDataType ows boundary).drop (ows.length + 21 + 9)) = boundary := by
  have hlen : (formDataType ows boundary).length = ows.length + 30 + boundary.length := by
    simp [formDataType]
    omega
  -- the blanks lower to blanks, none of which starts the type
  have hblank : ∀ c ∈ ows.map Char.toLower, c ≠ 'm' := by
    intro c hc
    obtain ⟨d, hd, rfl⟩ := List.mem_map.mp hc
    rcases hows d hd with rfl | rfl <;> decide
  refine ⟨hlen, ?_, ?_, ?_⟩
  · refine searchCaseless_of_find (k := ows.length) [] (formDataType ows boundary) [] (by simp) rfl
      (by simp) ?_ (by simp)
    rw [formDataType, List.map_append, List.map_append, List.append_assoc,
      find_append_of_not_head ("multipart/form-data".toList.map Char.toLower) _ _ 'm' (by decide)
        hblank,
      find_append_of_some (k := 0) _ (by decide)]
    simp
  · exact searchCaseless_of_find (ows ++ "multipart/form-data".toList)
      ("; boundary=".toList ++ boundary) [] (by simp [formDataType]) (by simp) (by simp [hlen]; omega)
      (by rw [List.map_append]; exact find_append_of_some (k := 2) _ (by decide)) (by omega)
  · rw [show ows.length + 21 + 9 = ows.length + 30 by omega, formDataType, List.append_assoc,
      List.drop_append,
      List.drop_left' (show "multipart/form-data; boundary=".toList.length = 30 from rfl), cString,
      List.takeWhile_eq_self_iff]
    intro c hc
    simpa using fun h : c = Char.ofNat 0 => hnul (h ▸ hc)

theorem formDataRequest_eq (boundary body : List Char) :
    formDataRequest boundary body =
      { m_headers := [formDataType [] boundary], m_headerIndexByName := [("Content-Type".toList, 0)],
        m_body := body } := rfl

/-- **What `parseFormData` reads of a request.**  On a request whose `Content-Type` value is
a form's, after any blanks, the header yields the boundary as written, so the request is
parsed as `formDataRequest` with the same boundary and body. -/
theorem parseFormData_eq_formDataRequest {r : CHTTPRequest} {ows boundary : List Char}
    (hows : ∀ c ∈ ows, c = ' ' ∨ c = '\t') (hnul : Char.ofNat 0 ∉ boundary)
    (hct : r.headerValue "Content-Type".toList = some (formDataType ows boundary))
    (ps : CFormParts) :
    parseFormData r ps = parseFormData (formDataRequest boundary r.m_body) ps := by
  obtain ⟨i, hfind, hvalue⟩ := Option.map_eq_some'.mp hct
  have hvalue : r.m_headers.getD i [] = formDataType ows boundary := hvalue
  obtain ⟨hlen, htype, hboundary, hdelim⟩ := formDataType_searches hows hnul
  obtain ⟨hlen₀, htype₀, hboundary₀, hdelim₀⟩ := @formDataType_searches [] boundary (by simp) hnul
  have hfind₀ : CHeaderMap.find [("Content-Type".toList, 0)] "Content-Type".toList = some 0 := by
    decide
  -- both searches succeed, on either request
  have h₁ : ¬ ows.length = (formDataType ows boundary).length := by omega
  have h₂ : ¬ ows.length + 21 = (formDataType ows boundary).length := by omega
  have h₁₀ : ¬ ([] : List Char).length = (formDataType [] boundary).length := by
    rw [hlen₀]; omega
  have h₂₀ : ¬ ([] : List Char).length + 21 = (formDataType [] boundary).length := by
    rw [hlen₀]; omega
  simp only [parseFormData, formDataRequest_eq, hfind, hfind₀, hvalue, List.getD_cons_zero, htype,
    htype₀, if_neg h₁, if_neg h₁₀, hboundary, hboundary₀, if_neg h₂, if_neg h₂₀, hdelim, hdelim₀]

/-- In fields with caselessly distinct names, a field's name looks up its value alone. -/
theorem fieldValues_of_distinct {f : List Char × List Char} :
    ∀ {fields : List (List Char × List Char)},
      fields.Pairwise (fun a b => CaselessCmp.equal a.1 b.1 = false) → f ∈ fields →
      fieldValues fields f.1 = [f.2]
  | g :: fields, hd, hf => by
    obtain ⟨hfirst, hd⟩ := List.pairwise_cons.mp hd
    rcases List.mem_cons.mp hf with rfl | hf
    · have hrest : fieldValues fields f.1 = [] :=
        fieldValues_eq_nil_iff.mpr fun g hg => by rw [CaselessCmp.equal_comm]; exact hfirst g hg
      have hself : CaselessCmp.equal f.1 f.1 = true := (CaselessCmp.equal_iff _ _).mpr rfl
      simpa [fieldValues, hself] using hrest
    · have hg : CaselessCmp.equal g.1 f.1 = false := hfirst f hf
      simpa [fieldValues, hg] using fieldValues_of_distinct hd hf

namespace WireRequest

variable (q : WireRequest)

/-- The request read back looks every field up as written. -/
theorem headerValue_parsed {f : List Char × List Char} (hf : f ∈ q.fields) :
    q.parsed.headerValue f.1 = some f.2 := by
  obtain ⟨r, hr, hrep⟩ := readHeaderLines_represents (framedFields q.fields q.body)
    (show Represents
      { m_method := q.method, m_uri := q.uri, m_majorVersion := q.major, m_minorVersion := q.minor }
      [] from ⟨⟨rfl, List.Pairwise.nil⟩, fun _ => rfl⟩)
    q.framed_isField
  rw [readHeaderLines_fields _
    { m_method := q.method, m_uri := q.uri, m_majorVersion := q.major, m_minorVersion := q.minor }
    q.framed_isField q.framed_pairwise fun _ _ => rfl] at hr
  have hhead : r = q.head := (done.inj hr).symm
  subst hhead
  have hv := hrep.lookup f.1
  rw [List.nil_append, joinedValue,
    fieldValues_of_distinct q.framed_pairwise (q.mem_framedFields hf),
    if_neg (List.cons_ne_nil _ _)] at hv
  simpa [List.intercalate] using hv

end WireRequest

/-- **A form post from the stream to its parts.**  A request whose `Content-Type` field is a
form's, with any blanks after the colon, and whose body is a form with quoted part names,
however its bytes are split across reads and whatever follows them: `readRequest` returns a
request from which `parseFormData` reads exactly the parts, each value under its name. -/
theorem readRequest_parseFormData (q : WireRequest) {boundary : List Char}
    {parts : List (List Char × List Char × Bool)} (hB : BoundaryOK boundary)
    (hparts : PartsOK boundary parts) (hne : parts ≠ []) (hquoted : ∀ p ∈ parts, p.2.2 = true)
    {ows : List Char} (hows : ∀ c ∈ ows, c = ' ' ∨ c = '\t')
    (hct : ("Content-Type".toList, formDataType ows boundary) ∈ q.fields)
    (hbody : q.body = formDataBody boundary "--\r\n".toList parts) (rest : List Char)
    (stream : InputStream) (hwf : stream.WellFormed) (hs : stream.content = q.text ++ rest)
    (fuel : Nat) (hfuel : q.fields.length + 1 < fuel) (ps : CFormParts) :
    ∃ r, readRequest fuel stream = done r ∧
      parseFormData r ps = some (true, ps.insertAll (parts.map fun p => (p.1, p.2.1))) := by
  refine ⟨q.parsed, ?_, ?_⟩
  · obtain ⟨s, t, hhead, hr, hw⟩ := q.readRequestHead_text rest stream hwf hs fuel hfuel
    rw [readRequest_eq_head, hhead, done_bind]
    exact q.readBody_head s t rest hw hr fuel
  · have hnul : Char.ofNat 0 ∉ boundary := fun h => (hB.1 _ h).2 rfl
    obtain ⟨n, hn⟩ := formDataBody_fuel boundary "--\r\n".toList parts
    rw [parseFormData_eq_formDataRequest hows hnul (q.headerValue_parsed hct),
      show q.parsed.m_body = formDataBody boundary "--\r\n".toList parts from hbody,
      parseFormData_formDataBody_loop hB hparts hne, hn, formDataBody_tail, List.length_append,
      Nat.add_sub_cancel, storedParts_of_quoted hquoted]
    exact parseFormDataLoop_terminator _ "\r\n".toList _ _ _

/-- `POST /f HTTP/1.1 ` with a `Host` field and a form of one part `x` as its body. -/
def postForm : WireRequest where
  method := "POST".toList
  uri := "/f".toList
  major := 1
  minor := 1
  fields := [("Host".toList, " h".toList), ("Content-Type".toList, formDataType [' '] "b".toList)]
  body := formDataBody "b".toList "--\r\n".toList [("x".toList, "1".toList, true)]
  method_isWord := ⟨by decide, by decide⟩
  method_token := by decide
  uri_isWord := ⟨by decide, by decide⟩
  major_range := by decide
  minor_range := by decide
  fields_isField := by decide
  names_distinct := by decide
  no_framing := by decide
  host := by decide
  body_iff := by decide
  body_length := by decide

/-- `postForm` in three reads that cut its `Content-Type` field and its part. -/
theorem readRequest_postForm_split :
    ∃ r, readRequest 4 ⟨["POST /f HTTP/1.1 \r\nHost: h\r\nContent-Type: multipart/form-".toList,
        "data; boundary=b\r\nContent-Length: 59\r\n\r\n--b\r\nContent-Disposition: form-data; na".toList,
        "me=\"x\"\r\n\r\n1\r\n--b--\r\n".toList]⟩ = done r ∧
      parseFormData r [] = some (true, CFormParts.insertAll [] [("x".toList, "1".toList)]) :=
  @readRequest_parseFormData postForm "b".toList [("x".toList, "1".toList, true)] (by decide)
    (by decide) (List.cons_ne_nil _ _) (by decide) [' '] (by decide) (by decide) rfl [] _
    (by decide) (by rfl) 4 (by decide) []

end Synergy.Http
