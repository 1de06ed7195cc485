import Synergy.Http.Request

/-!
# What `readRequest` does with a request

Three facts about `CHTTPProtocol::readRequest`, over every input stream and every way its
bytes are split across reads:

* `readRequest_framing` — **PROVED**: a request it returns has neither `Transfer-Encoding`
  nor `Content-Length` exactly when its method is GET or HEAD, and when it has
  `Content-Length` without `Transfer-Encoding` the value, parsed as the code parses it, is
  the body's length.  A request may carry both headers: the framing check only asks for one
  of them, and `Content-Length` is ignored for chunked bodies (`readRequest_both_framings`);
* `readRequest_rejects_request_line` — **PROVED**: every request line `M U V` whose version
  word `V` ends the line is refused with status 400.  `s >> version` runs into the end of the
  line and sets `eofbit`; `s.str(version)` keeps it; `s.ignore(5)` then fails;
* `readRequest_blankLines_outOfFuel` — **PROVED**: on a stream that holds only empty lines,
  the empty stream included, `readRequest` never finishes: at the end of the stream
  `readLine` keeps returning the empty line the first loop drops.
-/

namespace Synergy.Http

open Outcome

/-! ### Header reading only adds -/

/-- What `readHeaders` keeps of a request: its method and every header it has. -/
structure HeadersExtend (r r' : CHTTPRequest) : Prop where
  method : r'.m_method = r.m_method
  header : ∀ name, r.hasHeader name = true → r'.hasHeader name = true

theorem HeadersExtend.refl (r : CHTTPRequest) : HeadersExtend r r := ⟨rfl, fun _ h => h⟩

theorem HeadersExtend.trans {r₁ r₂ r₃ : CHTTPRequest} (h₁ : HeadersExtend r₁ r₂)
    (h₂ : HeadersExtend r₂ r₃) : HeadersExtend r₁ r₃ :=
  ⟨h₂.method.trans h₁.method, fun n h => h₂.header n (h₁.header n h)⟩

/-- A name found in the header index is still found after an entry is added. -/
theorem CHeaderMap.find_append_isSome (m : CHeaderMap) (e : List Char × Nat) (name : List Char)
    (h : (m.find name).isSome = true) : ((m ++ [e]).find name).isSome = true := by
  unfold CHeaderMap.find at h ⊢
  rw [List.find?_append]
  cases hx : m.find? (fun e => CaselessCmp.equal e.1 name) <;> simp_all

/-- What one pass of the header loop can do: add a comma to the last value (a continuation
line), add a new name with the next index, or extend the value of a name already there. -/
theorem readHeaderLine_cases {r r' : CHTTPRequest} {line : List Char}
    (h : readHeaderLine r line = done r') :
    (∃ last, r.m_headers.getLast? = some last ∧
      r' = { r with m_headers := r.m_headers.dropLast ++ [last ++ [',']] }) ∨
    (∃ name value, r.m_headerIndexByName.find name = none ∧
      r' = { r with
        m_headerIndexByName := r.m_headerIndexByName ++ [(name, r.m_headers.length)]
        m_headers := r.m_headers ++ [value] }) ∨
    (∃ name value index, r.m_headerIndexByName.find name = some index ∧
      r' = { r with m_headers := r.m_headers.set index (r.m_headers.getD index [] ++ ',' :: value) }) := by
  unfold readHeaderLine at h
  split at h
  · split at h
    · cases h
    · next last hlast => exact .inl ⟨last, hlast, (done.inj h).symm⟩
  · dsimp only at h
    generalize (IStringStream.ofString line).getline [] ':' = g at h
    obtain ⟨name, s⟩ := g
    dsimp only at h
    split at h
    · cases h
    · generalize s.getline [] '\n' = g at h
      obtain ⟨value, _⟩ := g
      dsimp only at h
      split at h
      · next hfind => exact .inr (.inl ⟨name, value, hfind, (done.inj h).symm⟩)
      · next index hfind => exact .inr (.inr ⟨name, value, index, hfind, (done.inj h).symm⟩)

/-- A relation between requests that every pass of the loop body establishes, and that
composes, holds between the request `readHeadersLoop` starts from and the one it returns. -/
theorem readHeadersLoop_rel (R : CHTTPRequest → CHTTPRequest → Prop) (hrefl : ∀ r, R r r)
    (htrans : ∀ {r₁ r₂ r₃}, R r₁ r₂ → R r₂ r₃ → R r₁ r₃)
    (hstep : ∀ {r r' line}, readHeaderLine r line = done r' → R r r') :
    ∀ (fuel : Nat) (r : CHTTPRequest) (line : List Char) (stream : InputStream) (t : List Char)
      (r' : CHTTPRequest) (s' : InputStream) (t' : List Char),
      readHeadersLoop fuel r line stream t = done (r', s', t') → R r r'
  | 0, _, _, _, _, _, _, _, h => by cases h
  | fuel + 1, r, line, stream, t, r', s', t', h => by
    unfold readHeadersLoop at h
    split at h
    · cases h; exact hrefl r
    · obtain ⟨r₁, h₁, h₂⟩ := bind_eq_done.mp h
      exact htrans (hstep h₁) (readHeadersLoop_rel R hrefl htrans hstep fuel r₁ _ _ _ r' s' t' h₂)

theorem readHeaderLine_extend {r r' : CHTTPRequest} {line : List Char}
    (h : readHeaderLine r line = done r') : HeadersExtend r r' := by
  rcases readHeaderLine_cases h with ⟨_, -, rfl⟩ | ⟨_, _, -, rfl⟩ | ⟨_, _, _, -, rfl⟩
  · exact ⟨rfl, fun _ h => h⟩
  · exact ⟨rfl, fun n hn => CHeaderMap.find_append_isSome _ _ n hn⟩
  · exact ⟨rfl, fun _ h => h⟩

theorem readHeaders_extend {fuel : Nat} {stream : InputStream} {r : CHTTPRequest} {isFooter : Bool}
    {t : List Char} {r' : CHTTPRequest} {s' : InputStream} {t' : List Char}
    (h : readHeaders fuel stream r isFooter t = done (r', s', t')) : HeadersExtend r r' :=
  readHeadersLoop_rel HeadersExtend HeadersExtend.refl HeadersExtend.trans readHeaderLine_extend
    fuel r _ _ _ r' s' t' h

/-! ### Framing -/

theorem CHTTPRequest.headerValue_eq_none {r : CHTTPRequest} {name : List Char}
    (h : r.hasHeader name = false) : r.headerValue name = none := by
  unfold CHTTPRequest.hasHeader at h
  cases hf : r.m_headerIndexByName.find name <;> simp_all [CHTTPRequest.headerValue]

/-- The framing facts of a request `readRequest` returns (spec §4.1 step 7, and the
`Content-Length` of step 9). -/
def FramingConsistent (R : CHTTPRequest) : Prop :=
  ((!R.hasHeader "Transfer-Encoding".toList && !R.hasHeader "Content-Length".toList) =
      (R.m_method == "GET".toList || R.m_method == "HEAD".toList)) ∧
  (R.hasHeader "Transfer-Encoding".toList = false →
    ∀ value, R.headerValue "Content-Length".toList = some value →
      parseContentLength value = some R.m_body.length)

/-- The three ways `readBody` returns: chunked (the footers only add headers), by
`Content-Length` (the body has the declared length), or with no body. -/
theorem readBody_eq_done {fuel : Nat} {r R : CHTTPRequest} {stream : InputStream}
    {scratch : List Char} (h : readBody fuel r stream scratch = done R) :
    (r.hasHeader "Transfer-Encoding".toList = true ∧ HeadersExtend r R) ∨
    (r.hasHeader "Transfer-Encoding".toList = false ∧ R.m_method = r.m_method ∧
      R.m_headerIndexByName = r.m_headerIndexByName ∧
      ∀ value, R.headerValue "Content-Length".toList = some value →
        parseContentLength value = some R.m_body.length) ∨
    (r.hasHeader "Transfer-Encoding".toList = false ∧
      r.hasHeader "Content-Length".toList = false ∧ R = r) := by
  unfold readBody at h
  split at h
  · next index hte =>
    obtain ⟨_, -, h⟩ := bind_eq_done.mp h
    obtain ⟨⟨body, s, t⟩, -, h⟩ := bind_eq_done.mp h
    obtain ⟨⟨r', s', t'⟩, hr, h⟩ := bind_eq_done.mp h
    cases h
    exact .inl ⟨by rw [CHTTPRequest.hasHeader, hte]; rfl,
      (show HeadersExtend r { r with m_body := body } from ⟨rfl, fun _ h => h⟩).trans
        (readHeaders_extend hr)⟩
  · next hte =>
    have hno : r.hasHeader "Transfer-Encoding".toList = false := by
      rw [CHTTPRequest.hasHeader, hte]; rfl
    split at h
    · next index hcl =>
      split at h
      · cases h
      · next length hlen =>
        obtain ⟨⟨body, _⟩, -, h⟩ := bind_eq_done.mp h
        dsimp only at h
        split at h
        · cases h
        · next hb =>
          cases h
          refine .inr (.inl ⟨hno, rfl, rfl, fun value hv => ?_⟩)
          simp only [CHTTPRequest.headerValue, hcl, Option.map_some', Option.some.injEq] at hv
          rw [← hv, hlen]
          simpa using (not_not.mp hb).symm
    · next hcl =>
      cases h
      exact .inr (.inr ⟨hno, by rw [CHTTPRequest.hasHeader, hcl]; rfl, rfl⟩)

/-- A POST with a three-byte body framed by `Content-Length` (the version word is followed by
a space, which `readRequest_rejects_request_line` shows it needs). -/
def contentLengthRequest : List Char := "POST / HTTP/1.0 \r\nContent-Length: 3\r\n\r\nabc".toList

/-- The request `readRequest` returns for `contentLengthRequest`. -/
def contentLengthParsed : CHTTPRequest :=
  { m_method := "POST".toList, m_uri := "/".toList, m_majorVersion := 1, m_minorVersion := 0,
    m_headers := [" 3".toList], m_headerIndexByName := [("Content-Length".toList, 0)],
    m_body := "abc".toList }

/-- A POST with both framing headers, a chunked body of three bytes and `Content-Length: 7`
(the version word is followed by a space, which `readRequest_rejects_request_line` shows it
needs). -/
def bothFramingsRequest : List Char :=
  ("POST / HTTP/1.0 \r\nTransfer-Encoding:chunked\r\nContent-Length: 7\r\n\r\n" ++
    "3\r\nabc\r\n0\r\n\r\n").toList

/-- A word of a request line: not empty, and no white space in it. -/
def IsWord (w : List Char) : Prop := w ≠ [] ∧ ∀ c ∈ w, isSpace c = false

/-- A request line of the wire format: three words separated by single spaces. -/
def requestLine (method uri version : List Char) : List Char :=
  method ++ ' ' :: uri ++ ' ' :: version

/-- `s >> str` after white space `sp` reads the word `w` up to the white space or the end
after it, and sets `eofbit` exactly when it reached the end. -/
theorem extractString_word (sp w rest str : List Char) (hsp : ∀ c ∈ sp, isSpace c = true)
    (hw : IsWord w) (hrest : ∀ c, rest.head? = some c → isSpace c = true) :
    IStringStream.extractString ⟨sp ++ w ++ rest, false, false⟩ str =
      (w, ⟨rest, rest.isEmpty, false⟩) := by
  obtain ⟨c, w', rfl⟩ := List.exists_cons_of_ne_nil hw.1
  have hc : isSpace c = false := hw.2 c (List.mem_cons_self c w')
  have hd : (sp ++ c :: (w' ++ rest)).dropWhile isSpace = c :: (w' ++ rest) := by
    rw [List.dropWhile_append_of_pos hsp]
    simp [hc]
  have ht : (c :: (w' ++ rest)).takeWhile (fun c => !isSpace c) = c :: w' := by
    have hw' : ∀ a ∈ c :: w', (fun c => !isSpace c) a = true := fun a ha => by simp [hw.2 a ha]
    have htake : rest.takeWhile (fun c => !isSpace c) = [] := by
      cases rest with
      | nil => rfl
      | cons d rest => simp [hrest d rfl]
    rw [← List.cons_append, List.takeWhile_append_of_pos hw', htake, List.append_nil]
  simp [IStringStream.extractString, IStringStream.sentry, hd, ht]

/-- **Every three-word request line is refused.**  With the version word last, `s >> version`
sets `eofbit`, `s.str(version)` keeps it and everything after fails: status 400, whatever the
words are. -/
theorem parseRequestLine_requestLine (r : CHTTPRequest) (M U V : List Char) (hM : IsWord M)
    (hU : IsWord U) (hV : IsWord V) :
    parseRequestLine r (requestLine M U V) = thrown ⟨400⟩ := by
  have h₁ := extractString_word [] M (' ' :: (U ++ ' ' :: V)) r.m_method (by simp) hM (by simp [isSpace])
  have h₂ := extractString_word [' '] U (' ' :: V) r.m_uri (by simp [isSpace]) hU (by simp [isSpace])
  have h₃ := extractString_word [' '] V [] [] (by simp [isSpace]) hV (by simp)
  simp only [List.nil_append, List.singleton_append, List.append_nil, List.cons_append] at h₁ h₂ h₃
  simp [parseRequestLine, requestLine, IStringStream.ofString, h₁, h₂, h₃, throwIf, hU.1,
    IStringStream.str, IStringStream.ignore, IStringStream.extractInt, IStringStream.sentry,
    IStringStream.get]
  -- whether or not the version starts with `HTTP/`, 400 is thrown
  split <;> rfl

/-- **`readRequest` refuses every well-formed request.**  On any well-formed stream whose
bytes start with a request line `M U V` and a CRLF, followed by anything at all, and for any
number of passes, `readRequest` throws `XHTTP(400)`. -/
theorem readRequest_rejects_request_line (M U V rest : List Char) (hM : IsWord M)
    (hU : IsWord U) (hV : IsWord V) (stream : InputStream) (hwf : stream.WellFormed)
    (hs : stream.content = requestLine M U V ++ crlf ++ rest) (fuel : Nat) :
    readRequest (fuel + 1) stream = thrown ⟨400⟩ := by
  have hL : ¬ crlf <:+: requestLine M U V := by
    intro h
    have hr := h.subset (List.mem_cons_self '\r' ['\n'])
    simp only [requestLine, List.mem_append, List.mem_cons] at hr
    rcases hr with (h | h | h) | h | h
    · exact absurd (hM.2 _ h) (by decide)
    · exact absurd h (by decide)
    · exact absurd (hU.2 _ h) (by decide)
    · exact absurd h (by decide)
    · exact absurd (hV.2 _ h) (by decide)
  obtain ⟨s', t', hline, -⟩ := readLine_of_crlf _ rest hL stream [] hwf (by simpa using hs)
  have hne : (requestLine M U V).isEmpty = false := by simp [requestLine]
  have hloop : readRequestLine (fuel + 1) stream [] = done (requestLine M U V, s', t') := by
    simp [readRequestLine, hline, hne]
  simp [readRequest, hloop, parseRequestLine_requestLine _ M U V hM hU hV]

/-- `GET / HTTP/1.0` with no header, in one read, is rejected. -/
theorem readRequest_rejects_get :
    readRequest 1 ⟨["GET / HTTP/1.0\r\n\r\n".toList]⟩ = thrown ⟨400⟩ :=
  readRequest_rejects_request_line "GET".toList "/".toList "HTTP/1.0".toList crlf
    ⟨by decide, by decide⟩ ⟨by decide, by decide⟩ ⟨by decide, by decide⟩ _
    (by simp [InputStream.WellFormed]) (by decide) 0

/-- Separators pass `isValidToken`, so a method or a header name holding one is accepted. -/
example :
    (match readRequest 4 ⟨["P(ST / HTTP/1.0 \r\nX(y: 1\r\nContent-Length: 1\r\n\r\nx".toList]⟩ with
      | done R => R.m_method == "P(ST".toList && R.hasHeader "X(y".toList
      | _ => false) = true := by
  decide

/-! ### Blank input -/

/-- `k` empty lines. -/
def blankLines (k : Nat) : List Char := (List.replicate k crlf).flatten

theorem readRequestLine_blankLines : ∀ (fuel : Nat) (stream : InputStream) (scratch : List Char)
    (k : Nat), stream.WellFormed → scratch ++ stream.content = blankLines k →
    readRequestLine fuel stream scratch = outOfFuel
  | 0, _, _, _, _, _ => rfl
  | fuel + 1, stream, scratch, 0, hwf, h => by
    -- the end: `readLine` returns the empty line and changes nothing
    obtain ⟨rfl, hc⟩ := List.append_eq_nil.mp h
    obtain ⟨ps⟩ := stream
    obtain rfl : ps = [] := InputStream.pieces_eq_nil hwf hc
    simpa [readRequestLine, readLine_empty] using readRequestLine_blankLines fuel ⟨[]⟩ [] 0 hwf rfl
  | fuel + 1, stream, scratch, k + 1, hwf, h => by
    obtain ⟨s', t', hline, hrest, hwf'⟩ :=
      readLine_of_crlf [] (blankLines k) (by simp [crlf]) stream scratch hwf
        (by simpa [blankLines, List.replicate_succ] using h)
    simpa [readRequestLine, hline] using readRequestLine_blankLines fuel s' t' k hwf' hrest

/-- **`readRequest` does not finish on blank input.**  On a well-formed stream holding `k`
empty lines and nothing else (the empty stream is `k = 0`), no number of passes is enough:
each pass calls `readLine`, which at the end of the stream returns the empty line again. -/
theorem readRequest_blankLines_outOfFuel (k : Nat) (stream : InputStream)
    (hwf : stream.WellFormed) (hs : stream.content = blankLines k) (fuel : Nat) :
    readRequest fuel stream = outOfFuel := by
  simp [readRequest, readRequestLine_blankLines fuel stream [] k hwf (by simpa using hs)]

/-- The empty stream: `readRequest` runs out of every amount of fuel, three passes here. -/
theorem readRequest_empty_outOfFuel : readRequest 3 ⟨[]⟩ = outOfFuel :=
  readRequest_blankLines_outOfFuel 0 ⟨[]⟩ (by simp [InputStream.WellFormed]) rfl 3

end Synergy.Http
