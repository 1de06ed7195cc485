import Synergy.Http.Headers

/-!
# What `readRequest` accepts

The round trips say which requests `readRequest` reads back; this file says what every
request it returns is made of, on every stream, whatever it was sent (`RequestWF`): the
method and the URI are single words, the method passes `isValidToken`, the version is at
least 1.0, a request of HTTP/1.1 or later has a `Host` field, the header tables are in
bijection, every name in them passed `isValidToken`, and no value holds a line feed.

The leaves come first: a formatted extraction that leaves the stream good took a word, and
`getline` stops before its delimiter.  The stages follow: the request line, then the header
loop and the body, which keep the request line and the text of the tables
(`KeepsRequest`), one pass of the loop body at a time, carried through the body by
`readBody_rel`.

* `readRequest_requestWF` — **PROVED**: every request `readRequest` returns satisfies
  `RequestWF`.  The `Host` check runs before the footers of a chunked body, which only add
  fields; the value of a field stops at the first line feed of its line, since `getline`
  reads the value up to one, and the commas the loop adds are not line feeds.  Names are
  only as clean as `isValidToken` makes them: it stops at the first NUL of its separator
  list, so a name may still hold a line feed or a tab.
-/

namespace Synergy.Http

open Outcome

/-! ### The leaves -/

namespace IStringStream

/-- A formatted extraction that leaves the stream good started from a good stream and took
a word: not empty, no white space. -/
theorem extractString_isWord {s s' : IStringStream} {str word : List Char}
    (h : s.extractString str = (word, s')) (hfail : s'.fail = false) :
    s.fail = false ∧ IsWord word := by
  cases hf : s.eof || s.fail
  · cases hd : s.buf.dropWhile isSpace with
    | nil =>
      simp [extractString, sentry, hf, hd] at h
      simp [← h.2] at hfail
    | cons c cs =>
      -- the word starts at a character that is not white space
      have hc : isSpace c = false := by
        simpa [hd] using List.head_dropWhile_not isSpace s.buf (by simp [hd])
      refine ⟨by simp_all, ?_⟩
      simp only [extractString, sentry, hf, hd, Bool.false_eq_true, if_false,
        List.takeWhile_cons, hc, Bool.not_false, if_true, Prod.mk.injEq] at h
      rw [← h.1]
      exact ⟨List.cons_ne_nil _ _, fun x hx => by
        rcases List.mem_cons.mp hx with rfl | hx
        · exact hc
        · simpa using List.mem_takeWhile_imp hx⟩
  · simp [extractString, sentry, hf] at h
    simp [← h.2] at hfail

/-- `getline` never returns its delimiter, unless the string it keeps on a failed sentry
held one. -/
theorem getline_not_mem (s : IStringStream) {str : List Char} {delim : Char} (h : delim ∉ str) :
    delim ∉ (s.getline str delim).1 := by
  unfold getline
  split
  · exact h
  · dsimp only
    split <;> exact fun hd => by simpa using List.mem_takeWhile_imp hd

end IStringStream

/-- The request line leaves a method and a URI that are single words. -/
theorem parseRequestLine_isWord {r r' : CHTTPRequest} {line : List Char}
    (h : parseRequestLine r line = done r') : IsWord r'.m_method ∧ IsWord r'.m_uri := by
  unfold parseRequestLine at h
  dsimp only at h
  generalize hm : (IStringStream.ofString line).extractString r.m_method = m at h
  obtain ⟨method, s₁⟩ := m
  generalize hu : s₁.extractString r.m_uri = u at h
  obtain ⟨uri, s₂⟩ := u
  generalize hv : s₂.extractString [] = v at h
  obtain ⟨version, s₃⟩ := v
  obtain ⟨_, hcheck, h⟩ := bind_eq_done.mp h
  obtain ⟨_, -, h⟩ := bind_eq_done.mp h
  cases h
  simp only [throwIf_eq_done, not_or, Bool.not_eq_true] at hcheck
  -- each good stream came from a good one, after a word
  obtain ⟨h₂, -⟩ := IStringStream.extractString_isWord hv hcheck.1
  obtain ⟨h₁, huri⟩ := IStringStream.extractString_isWord hu h₂
  exact ⟨(IStringStream.extractString_isWord hm h₁).2, huri⟩

/-! ### The text of the header tables -/

/-- The text of the header tables: every name passed `isValidToken`, and no value holds a
line feed. -/
structure HeaderTextWF (r : CHTTPRequest) : Prop where
  names_token : ∀ e ∈ r.m_headerIndexByName, isValidToken e.1 = true
  values_noLF : ∀ v ∈ r.m_headers, '\n' ∉ v

instance (r : CHTTPRequest) : Decidable (HeaderTextWF r) :=
  decidable_of_iff ((∀ e ∈ r.m_headerIndexByName, isValidToken e.1 = true) ∧
      ∀ v ∈ r.m_headers, '\n' ∉ v)
    ⟨fun h => ⟨h.1, h.2⟩, fun h => ⟨h.1, h.2⟩⟩

theorem HeaderTextWF.getD_noLF {r : CHTTPRequest} (hwf : HeaderTextWF r) (i : Nat) :
    '\n' ∉ r.m_headers.getD i [] := by
  rw [List.getD_eq_getElem?_getD]
  cases hi : r.m_headers[i]? with
  | none => simp
  | some v => exact hwf.values_noLF v (List.getElem?_mem hi)

/-- Each pass of the loop body keeps the text of the tables: a continuation adds a comma,
and a field line passed `isValidToken` on its name and gives a value read by `getline` up to
a line feed. -/
theorem readHeaderLine_headerTextWF {r r' : CHTTPRequest} {line : List Char}
    (h : readHeaderLine r line = done r') (hwf : HeaderTextWF r) : HeaderTextWF r' := by
  unfold readHeaderLine at h
  split at h
  · split at h
    · cases h
    · next last hlast =>
      cases h
      refine ⟨hwf.names_token, fun v hv => ?_⟩
      rcases List.mem_append.mp hv with hv | hv
      · exact hwf.values_noLF v (List.dropLast_subset _ hv)
      · rw [List.mem_singleton.mp hv]
        simpa using hwf.values_noLF last (List.mem_of_getLast?_eq_some hlast)
  · dsimp only at h
    generalize (IStringStream.ofString line).getline [] ':' = g at h
    obtain ⟨name, s⟩ := g
    dsimp only at h
    split at h
    · cases h
    · next hname =>
      have htoken : isValidToken name = true := by simpa using (not_or.mp hname).2
      have hvalue : '\n' ∉ (s.getline [] '\n').1 := s.getline_not_mem (List.not_mem_nil _)
      generalize s.getline [] '\n' = g at h hvalue
      obtain ⟨value, _⟩ := g
      dsimp only at h hvalue
      split at h
      · -- a new name, with its value
        cases h
        refine ⟨fun e he => ?_, fun v hv => ?_⟩
        · rcases List.mem_append.mp he with he | he
          · exact hwf.names_token e he
          · rw [List.mem_singleton.mp he]
            exact htoken
        · rcases List.mem_append.mp hv with hv | hv
          · exact hwf.values_noLF v hv
          · rw [List.mem_singleton.mp hv]
            exact hvalue
      · -- a name seen before: its value gets a comma and the new value
        cases h
        refine ⟨hwf.names_token, fun v hv => ?_⟩
        rcases List.mem_or_eq_of_mem_set hv with hv | rfl
        · exact hwf.values_noLF v hv
        · simpa [hvalue] using hwf.getD_noLF _

/-! ### What the header loop and the body keep -/

/-- The request line as a request keeps it: method, URI and version. -/
def CHTTPRequest.startLine (r : CHTTPRequest) : List Char × List Char × Int × Int :=
  (r.m_method, r.m_uri, r.m_majorVersion, r.m_minorVersion)

/-- What the header loop and the body keep of a request: its request line, every field it
has, and the text and the bijection of its tables. -/
structure KeepsRequest (r r' : CHTTPRequest) : Prop where
  startLine : r'.startLine = r.startLine
  extend : HeadersExtend r r'
  text : HeaderTextWF r → HeaderTextWF r'
  tables : KeepsHeaderTable r r'

theorem KeepsRequest.refl (r : CHTTPRequest) : KeepsRequest r r :=
  ⟨rfl, HeadersExtend.refl r, id, KeepsHeaderTable.refl r⟩

theorem KeepsRequest.trans {r₁ r₂ r₃ : CHTTPRequest} (h₁ : KeepsRequest r₁ r₂)
    (h₂ : KeepsRequest r₂ r₃) : KeepsRequest r₁ r₃ :=
  ⟨h₂.startLine.trans h₁.startLine, h₁.extend.trans h₂.extend, h₂.text ∘ h₁.text,
    h₁.tables.trans h₂.tables⟩

/-- The loop body leaves the request line alone. -/
theorem readHeaderLine_startLine {r r' : CHTTPRequest} {line : List Char}
    (h : readHeaderLine r line = done r') : r'.startLine = r.startLine := by
  rcases readHeaderLine_cases h with ⟨_, -, rfl⟩ | ⟨_, _, -, rfl⟩ | ⟨_, _, _, -, rfl⟩ <;> rfl

theorem readHeaderLine_keepsRequest {r r' : CHTTPRequest} {line : List Char}
    (h : readHeaderLine r line = done r') : KeepsRequest r r' :=
  ⟨readHeaderLine_startLine h, readHeaderLine_extend h, readHeaderLine_headerTextWF h,
    readHeaderLine_keepsHeaderTable h⟩

/-- Setting the body keeps the rest of the request. -/
theorem KeepsRequest.body (r : CHTTPRequest) (body : List Char) :
    KeepsRequest r { r with m_body := body } :=
  ⟨rfl, ⟨rfl, fun _ h => h⟩, fun h => ⟨h.1, h.2⟩,
    fun h => ⟨⟨h.1, h.2⟩, List.prefix_refl _⟩⟩

/-! ### Every request `readRequest` returns -/

/-- What every request `readRequest` returns is made of: a method that is one word and passes
`isValidToken`, a URI that is one word, a version from 1.0 up, a `Host` field from HTTP/1.1
on, header tables in bijection, token names, and no line feed in any value. -/
structure RequestWF (r : CHTTPRequest) : Prop where
  method_isWord : IsWord r.m_method
  method_token : isValidToken r.m_method = true
  uri_isWord : IsWord r.m_uri
  version : 1 ≤ r.m_majorVersion ∧ 0 ≤ r.m_minorVersion
  host : 1 < r.m_majorVersion ∨ r.m_majorVersion = 1 ∧ 1 ≤ r.m_minorVersion →
    r.hasHeader "Host".toList = true
  tables : HeaderTableWF r
  text : HeaderTextWF r

/-- **Every request `readRequest` returns is well formed**, on every stream and with any
fuel: `RequestWF`, after the header block and, for a chunked body, after the footers. -/
theorem readRequest_requestWF (fuel : Nat) (stream : InputStream) (R : CHTTPRequest)
    (h : readRequest fuel stream = done R) : RequestWF R := by
  obtain ⟨_, -, h⟩ := bind_eq_done.mp h
  obtain ⟨r₀, h₀, h⟩ := bind_eq_done.mp h
  obtain ⟨_, htoken, h⟩ := bind_eq_done.mp h
  obtain ⟨_, hversion, h⟩ := bind_eq_done.mp h
  obtain ⟨⟨r, _⟩, hr, h⟩ := bind_eq_done.mp h
  obtain ⟨_, hhost, h⟩ := bind_eq_done.mp h
  obtain ⟨_, -, h⟩ := bind_eq_done.mp h
  -- the header block, then the body
  have hhead : KeepsRequest r₀ r := readHeadersLoop_rel KeepsRequest KeepsRequest.refl
    KeepsRequest.trans readHeaderLine_keepsRequest fuel _ _ _ _ _ _ _ hr
  have hbody : KeepsRequest r R := readBody_rel KeepsRequest KeepsRequest.refl
    KeepsRequest.trans readHeaderLine_keepsRequest KeepsRequest.body h
  obtain ⟨hm, hu⟩ := parseRequestLine_isWord h₀
  obtain ⟨hh, hi⟩ := parseRequestLine_tables h₀
  have hline := (hhead.trans hbody).startLine
  have hline' := hbody.startLine
  simp only [CHTTPRequest.startLine, Prod.mk.injEq] at hline hline'
  simp only [throwIf_eq_done, not_or, not_and, Bool.not_eq_false] at htoken hversion hhost
  obtain ⟨hmethod, huri, hmajor, hminor⟩ := hline
  -- the tables of the request line are empty
  refine ⟨hmethod ▸ hm, hmethod ▸ htoken, huri ▸ hu, by omega, fun hv => ?_,
    ((hhead.trans hbody).tables ⟨by simp [hh, hi], by simp [hi]⟩).1,
    (hhead.trans hbody).text ⟨by simp [hi], by simp [hh]⟩⟩
  -- the `Host` check ran on the headers, before any footer
  rw [hline'.2.2.1, hline'.2.2.2] at hv
  exact hbody.extend.header _ (hhost hv)

/-- A request whose `X` line holds a bare line feed. -/
def bareLFRequest : List Char :=
  "POST / HTTP/1.0 \r\nContent-Length: 3\r\nX: a\nb\r\n\r\nabc".toList

/-- What `readRequest` makes of `bareLFRequest`: the value of `X` stops before the line feed. -/
def bareLFParsed : CHTTPRequest :=
  { m_method := "POST".toList, m_uri := "/".toList, m_majorVersion := 1, m_minorVersion := 0,
    m_headers := [" 3".toList, " a".toList],
    m_headerIndexByName := [("Content-Length".toList, 0), ("X".toList, 1)],
    m_body := "abc".toList }

theorem readRequest_requestWF_bareLF :
    readRequest 3 ⟨[bareLFRequest]⟩ = done bareLFParsed ∧ RequestWF bareLFParsed :=
  ⟨by decide, readRequest_requestWF 3 ⟨[bareLFRequest]⟩ _ (by decide)⟩

end Synergy.Http
