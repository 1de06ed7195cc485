import Synergy.Http.Chunked
import Synergy.Http.HeaderFields

/-!
# Reading back a request

An encoder of the request format, and `readRequest` set against it.  `WireRequest` is a
request as a client writes it, with the conditions `readRequest` checks or relies on as its
fields, so that no other can be built; `WireRequest.text` writes it (the request line, the
header block, the body framed by `Content-Length`), and `WireRequest.parsed` is the
`CHTTPRequest` it stands for.

* `scanInt_toDigits` / `extractInt_toDigits` — `s >> n` reads back a number written in
  decimal, up to the first character that is no digit;
* `parseRequestLine_versionText` — the request-line block reads method, URI and both
  version numbers from `M U HTTP/a.b ` (the space after the version word keeps `eofbit`
  clear: without it the line is refused, `parseRequestLine_requestLine`);
* `readHeaderLines_fields` (in `HeaderFields`) — fields with caselessly distinct names fill
  the tables in order: the values in `m_headers`, each name with its position in
  `m_headerIndexByName`;
* `readRequestHead_headerBlock` — the head of `readRequest` on a request line and any
  header block whose fields pass the `Host` and framing checks (`host_check`,
  `framing_check` for each encoder);
* `readRequest_wireRequest` — **PROVED**: however the bytes of a `WireRequest` are split
  across reads, and whatever follows them, `readRequest` returns exactly the request they
  encode;
* `readHeaders_eof` / `readRequest_eof` — **PROVED**: the end of the stream reads as empty
  lines, so a `GET` or `HEAD` request cut off before the blank line that ends its header
  block, or also before its last CRLF, is read as the whole request;
* `readRequest_chunkedRequest` — **PROVED**: the same for a `ChunkedRequest`, a body sent
  in chunks with footer fields after it: the chunks' bytes are the body, and the header
  tables stand for all the fields, footers included (`Represents`), so a name repeated in
  any spelling looks up its values joined by commas.

A request other than `GET` or `HEAD` with an empty body cannot be written with
`Content-Length: 0`: with nothing buffered after the header block, it stops at
`readBlock`'s assertion (`readRequest_aborted_iff`).  Chunked, it is read back.
-/

namespace Synergy.Http

open Outcome

/-! ### Decimal numbers -/

theorem digitValue_digitChar_ten : ∀ d < 10, IStringStream.digitValue false (Nat.digitChar d) = some d := by
  decide

theorem isSpace_digitChar : ∀ d < 10, isSpace (Nat.digitChar d) = false := by decide

/-- `Nat.toDigits 10 n`: the decimal digits of `n`, most significant first, with a leading
0 only for 0 itself. -/
theorem toDigits_ten (n : Nat) : ∃ d L, Nat.toDigits 10 n = (d :: L).map Nat.digitChar ∧
    (∀ x ∈ d :: L, x < 10) ∧ (d = 0 → n = 0 ∧ L = []) ∧
    IStringStream.digitsValue 10 (d :: L) = n := by
  rcases Nat.eq_zero_or_pos n with rfl | hpos
  · exact ⟨0, [], rfl, by simp, fun _ => ⟨rfl, rfl⟩, rfl⟩
  · obtain ⟨d, L, heq, hd0, hd, hL, hv⟩ :=
      @IStringStream.toDigitsCore_digits 10 (by decide) (n + 1) n [] hpos (Nat.lt_succ_self n)
    exact ⟨d, L, by rw [Nat.toDigits, heq, List.append_nil], List.forall_mem_cons.mpr ⟨hd, hL⟩,
      fun h => absurd h hd0.ne', hv⟩

theorem isSpace_toDigits_ten (n : Nat) : ∀ c ∈ Nat.toDigits 10 n, isSpace c = false := by
  obtain ⟨d, L, heq, hdig, -, -⟩ := toDigits_ten n
  rw [heq]
  intro c hc
  obtain ⟨x, hx, rfl⟩ := List.mem_map.mp hc
  exact isSpace_digitChar x (hdig x hx)

/-- The sentry skips the white space before a decimal number and stops at its first digit. -/
theorem sentry_toDigits (n : Nat) (pre rest : List Char) (hpre : ∀ c ∈ pre, isSpace c = true) :
    IStringStream.sentry ⟨pre ++ Nat.toDigits 10 n ++ rest, false, false⟩ =
      .ok (Nat.toDigits 10 n ++ rest) := by
  obtain ⟨d, L, heq, hdig, -, -⟩ := toDigits_ten n
  have hd : isSpace (Nat.digitChar d) = false := isSpace_digitChar d (hdig d (List.mem_cons_self d L))
  rw [heq, IStringStream.sentry, List.append_assoc, List.dropWhile_append_of_pos hpre]
  simp [hd]

/-- `_M_extract_int` in decimal reads back a number written by `Nat.toDigits 10`, up to a
character that is no digit. -/
theorem scanInt_toDigits (n : Nat) (rest : List Char)
    (hrest : ∀ c, rest.head? = some c → IStringStream.digitValue false c = none) :
    IStringStream.scanInt false (Nat.toDigits 10 n ++ rest) = ⟨false, true, n, rest⟩ := by
  obtain ⟨d, L, heq, hdig, hzero, hv⟩ := toDigits_ten n
  rw [heq]
  by_cases hd : d = 0
  · obtain ⟨rfl, rfl⟩ := hzero hd
    subst hd
    have hnext : rest.takeWhile (· = '0') = [] := by
      cases rest with
      | nil => rfl
      | cons c cs =>
        have hc : c ≠ '0' := fun h => by simp [h, IStringStream.digitValue] at hrest
        simp [List.takeWhile, hc]
    have hnone := IStringStream.scanDigits_digitChars [] (by simp) rest hrest
    simp only [List.map_nil, List.nil_append] at hnone
    simp [IStringStream.scanInt, IStringStream.scanSign, IStringStream.scanPrefix, List.takeWhile,
      show Nat.digitChar 0 = '0' from rfl, hnext, hnone, IStringStream.digitsValue]
  · obtain ⟨-, hminus, hplus, hzero'⟩ := digitChar_leading d (by have := hdig d (List.mem_cons_self d L); omega)
      (Nat.pos_of_ne_zero hd)
    have hdigits := IStringStream.scanDigits_digitChars (d :: L)
      (fun x hx => digitValue_digitChar_ten x (hdig x hx)) rest hrest
    simp only [List.map_cons, List.cons_append] at hdigits ⊢
    simp [IStringStream.scanInt, IStringStream.scanSign_of_ne _ _ hminus hplus,
      IStringStream.scanPrefix, List.takeWhile, hzero', hdigits, hv]

/-- `s >> n` into an `int` reads back a decimal number below `2^31`, up to a character that
is no digit, and sets `eofbit` exactly when nothing follows. -/
theorem extractInt_toDigits (n : Nat) (hn : n < 2 ^ 31) (rest : List Char)
    (hrest : ∀ c, rest.head? = some c → IStringStream.digitValue false c = none) (v : Int) :
    IStringStream.extractInt ⟨Nat.toDigits 10 n ++ rest, false, false⟩ v =
      ((n : Int), ⟨rest, rest.isEmpty, false⟩) := by
  have hs := sentry_toDigits n [] rest (by simp)
  rw [List.nil_append] at hs
  have h63 : ¬ 9223372036854775807 < n := by omega
  have h31 : ¬ 2147483647 < (n : Int) := by omega
  have h31' : ¬ (n : Int) < -2147483648 := by omega
  simp [IStringStream.extractInt, hs, scanInt_toDigits n rest hrest, h63, h31, h31']

/-- The `Content-Length` block reads back a length below `2^32` written in decimal after a
space. -/
theorem parseContentLength_toDigits (n : Nat) (hn : n < 2 ^ 32) :
    parseContentLength (' ' :: Nat.toDigits 10 n) = some n := by
  have hs := sentry_toDigits n [' '] [] (by simp [isSpace])
  have hscan := scanInt_toDigits n [] (by simp)
  simp only [List.singleton_append, List.append_nil] at hs hscan
  have hlt : ¬ 4294967296 ≤ n := by omega
  simp [parseContentLength, IStringStream.ofString, IStringStream.extractUInt32, hs, hscan, hlt]

/-! ### The request line -/

/-- The version word `HTTP/major.minor`, the numbers in decimal. -/
def versionText (major minor : Nat) : List Char :=
  "HTTP/".toList ++ Nat.toDigits 10 major ++ '.' :: Nat.toDigits 10 minor

theorem versionText_isWord (major minor : Nat) : IsWord (versionText major minor) := by
  refine ⟨by simp [versionText], fun c hc => ?_⟩
  simp only [versionText, List.mem_append, List.mem_cons] at hc
  rcases hc with (hc | hc) | hc | hc
  · simp only [String.toList, List.mem_cons, List.not_mem_nil, or_false] at hc
    rcases hc with rfl | rfl | rfl | rfl | rfl <;> rfl
  · exact isSpace_toDigits_ten major c hc
  · rw [hc]
    rfl
  · exact isSpace_toDigits_ten minor c hc

/-- **The request-line block on `M U HTTP/a.b `.**  With a space after the version word,
the block reads the method, the URI and both version numbers, each below `2^31`. -/
theorem parseRequestLine_versionText (M U : List Char) (hM : IsWord M) (hU : IsWord U)
    (major minor : Nat) (hmajor : major < 2 ^ 31) (hminor : minor < 2 ^ 31) :
    parseRequestLine {} (requestLine M U (versionText major minor) ++ [' ']) =
      done { m_method := M, m_uri := U, m_majorVersion := major, m_minorVersion := minor } := by
  have hV := versionText_isWord major minor
  have h₁ := extractString_word [] M (' ' :: (U ++ ' ' :: (versionText major minor ++ [' ']))) []
    (by simp) hM (by simp [isSpace])
  have h₂ := extractString_word [' '] U (' ' :: (versionText major minor ++ [' '])) []
    (by simp [isSpace]) hU (by simp [isSpace])
  have h₃ := extractString_word [' '] (versionText major minor) [' '] [] (by simp [isSpace]) hV
    (by simp [isSpace])
  simp only [List.nil_append, List.singleton_append, List.cons_append] at h₁ h₂ h₃
  have hfind : find "HTTP/".toList (versionText major minor) = some 0 := by
    rw [versionText, List.append_assoc]
    exact find_append_self _ _
  simp only [String.toList] at hfind
  have hlen : ¬ (versionText major minor).length ≤ 5 := by
    simp only [versionText, List.length_append, List.length_cons,
      show "HTTP/".toList.length = 5 from rfl]
    omega
  have hdrop : (versionText major minor).drop 5 = Nat.toDigits 10 major ++ '.' :: Nat.toDigits 10 minor := by
    simp [versionText]
  have hmaj := extractInt_toDigits major hmajor ('.' :: Nat.toDigits 10 minor)
    (fun c hc => by cases hc; decide) 0
  have hmin := extractInt_toDigits minor hminor [] (by simp) 0
  rw [List.append_nil] at hmin
  simp [parseRequestLine, requestLine, IStringStream.ofString, h₁, h₂, h₃, throwIf, hU.1, hfind,
    IStringStream.str, IStringStream.ignore, hlen, hdrop, hmaj, IStringStream.get, hmin]

/-- The request line, with the space after it, holds no CRLF. -/
theorem requestLine_no_crlf {M U : List Char} (hM : IsWord M) (hU : IsWord U) (major minor : Nat) :
    ¬ crlf <:+: requestLine M U (versionText major minor) ++ [' '] := by
  intro h
  have hr := h.subset (List.mem_cons_self '\r' ['\n'])
  have hM' : '\r' ∉ M := fun h => absurd (hM.2 _ h) (by decide)
  have hU' : '\r' ∉ U := fun h => absurd (hU.2 _ h) (by decide)
  have hV : '\r' ∉ versionText major minor :=
    fun h => absurd ((versionText_isWord major minor).2 _ h) (by decide)
  simp [requestLine, hM', hU', hV] at hr

/-- **`readRequest` up to the body, from its two reads.**  When the first line read is a
request line `M U HTTP/a.b ` and the header loop after it gives a request that passes the
`Host` and framing checks, the head of `readRequest` returns that request with the stream
and buffer the header loop left. -/
theorem readRequestHead_of_readHeaders {method uri : List Char} {major minor : Nat}
    (hM : IsWord method) (htoken : isValidToken method = true) (hU : IsWord uri)
    (hmajor : 1 ≤ major ∧ major < 2 ^ 31) (hminor : minor < 2 ^ 31)
    {stream s₁ s₂ : InputStream} {t₁ t₂ : List Char} {fuel : Nat} {r : CHTTPRequest}
    (hl : readLine stream [] = (requestLine method uri (versionText major minor) ++ [' '], s₁, t₁))
    (hh : readHeaders (fuel + 1) s₁
      { m_method := method, m_uri := uri, m_majorVersion := major, m_minorVersion := minor }
      false t₁ = done (r, s₂, t₂))
    (hhost : ¬ ((1 < r.m_majorVersion ∨ r.m_majorVersion = 1 ∧ 1 ≤ r.m_minorVersion) ∧
      r.hasHeader "Host".toList = false))
    (hframing : ¬ (((!r.hasHeader "Transfer-Encoding".toList &&
      !r.hasHeader "Content-Length".toList) !=
      (r.m_method == "GET".toList || r.m_method == "HEAD".toList)) = true)) :
    readRequestHead (fuel + 1) stream = done (r, s₂, t₂) := by
  have hline : readRequestLine (fuel + 1) stream [] =
      done (requestLine method uri (versionText major minor) ++ [' '], s₁, t₁) := by
    simp [readRequestLine, hl]
  have hversion : ¬ ((major : Int) < 1 ∨ (minor : Int) < 0) := by omega
  simp only [readRequestHead, hline, parseRequestLine_versionText method uri hM hU major minor
      hmajor.2 hminor, hh, done_bind, pure_eq, throwIf,
    if_neg (show ¬ (isValidToken method = false) by simp [htoken]), if_neg hversion,
    if_neg hhost, if_neg hframing]

/-- **`readRequest` up to the body.**  However the bytes of a request line `M U HTTP/a.b `
and a header block are split across reads, the head of `readRequest` reads the header lines
into what the request line stands for; when the `Host` and framing checks pass on the
request this gives, it returns it, and leaves what follows the block to be read. -/
theorem readRequestHead_headerBlock {method uri : List Char} {major minor : Nat}
    (hM : IsWord method) (htoken : isValidToken method = true) (hU : IsWord uri)
    (hmajor : 1 ≤ major ∧ major < 2 ^ 31) (hminor : minor < 2 ^ 31) {lines : List (List Char)}
    (hlines : ∀ line ∈ lines, IsHeaderLine line) {r : CHTTPRequest}
    (hr : readHeaderLines
      { m_method := method, m_uri := uri, m_majorVersion := major, m_minorVersion := minor }
      lines = done r)
    (hhost : ¬ ((1 < r.m_majorVersion ∨ r.m_majorVersion = 1 ∧ 1 ≤ r.m_minorVersion) ∧
      r.hasHeader "Host".toList = false))
    (hframing : ¬ (((!r.hasHeader "Transfer-Encoding".toList &&
      !r.hasHeader "Content-Length".toList) !=
      (r.m_method == "GET".toList || r.m_method == "HEAD".toList)) = true))
    (more : List Char) (stream : InputStream) (hwf : stream.WellFormed)
    (hs : stream.content =
      requestLine method uri (versionText major minor) ++ ' ' :: crlf ++ headerBlock lines ++ more)
    (fuel : Nat) (hfuel : lines.length < fuel) :
    ∃ stream' scratch, readRequestHead fuel stream = done (r, stream', scratch) ∧
      scratch ++ stream'.content = more ∧ stream'.WellFormed := by
  obtain ⟨s₁, t₁, hl, hr₁, hw₁⟩ := readLine_of_crlf _ (headerBlock lines ++ more)
    (requestLine_no_crlf hM hU major minor) stream [] hwf (by rw [List.nil_append, hs]; simp)
  obtain ⟨s₂, t₂, hr₂, hw₂, hrun⟩ := readHeaders_headerBlock more lines hlines s₁ t₁ hw₁ hr₁
  obtain ⟨k, rfl⟩ : ∃ k, fuel = k + 1 := ⟨fuel - 1, by omega⟩
  refine ⟨s₂, t₂, readRequestHead_of_readHeaders hM htoken hU hmajor hminor hl ?_ hhost hframing,
    hr₂, hw₂⟩
  rw [hrun _ _ false hfuel, hr]
  rfl

/-! ### Requests -/

/-- The `Content-Length` field the encoder adds for a body: its length in decimal, after a
space. -/
def contentLengthField (body : List Char) : List Char × List Char :=
  ("Content-Length".toList, ' ' :: Nat.toDigits 10 body.length)

/-- The fields a request is written with: the caller's, then `Content-Length` when there is
a body. -/
def framedFields (fields : List (List Char × List Char)) (body : List Char) :
    List (List Char × List Char) :=
  if body = [] then fields else fields ++ [contentLengthField body]

theorem contentLengthField_isField (body : List Char) : IsField (contentLengthField body) := by
  have hdigits := isSpace_toDigits_ten body.length
  refine ⟨by simp [IsContinuation, fieldLine, contentLengthField], fun h => ?_,
    show ':' ∉ "Content-Length".toList by decide,
    show isValidToken "Content-Length".toList = true by decide, fun h => ?_⟩
  · have hr : '\r' ∈ fieldLine (contentLengthField body) := h.subset (List.mem_cons_self _ _)
    simp only [fieldLine, contentLengthField, List.mem_append, List.mem_cons] at hr
    rcases hr with hr | hr | hr | hr
    · revert hr
      decide
    · cases hr
    · cases hr
    · cases hdigits _ hr
  · rcases List.mem_cons.mp h with h | h
    · cases h
    · cases hdigits _ h

/-- A request as a client writes it for `readRequest`, with the conditions the reader checks
or relies on: words for the method and the URI, the method a token, a version from 1.0 with
numbers that fit an `int`, fields read as new headers under caselessly distinct names and none
of them framing the body, a `Host` field from HTTP/1.1 on, and a body, below `2^32` bytes,
exactly when the method is not `GET` or `HEAD`. -/
structure WireRequest where
  method : List Char
  uri : List Char
  major : Nat
  minor : Nat
  fields : List (List Char × List Char)
  body : List Char
  method_isWord : IsWord method
  method_token : isValidToken method = true
  uri_isWord : IsWord uri
  major_range : 1 ≤ major ∧ major < 2 ^ 31
  minor_range : minor < 2 ^ 31
  fields_isField : ∀ f ∈ fields, IsField f
  names_distinct : fields.Pairwise fun a b => CaselessCmp.equal a.1 b.1 = false
  no_framing : ∀ f ∈ fields, CaselessCmp.equal f.1 "Transfer-Encoding".toList = false ∧
    CaselessCmp.equal f.1 "Content-Length".toList = false
  host : 1 < major ∨ major = 1 ∧ 1 ≤ minor →
    ∃ f ∈ fields, CaselessCmp.equal f.1 "Host".toList = true
  body_iff : body = [] ↔ method = "GET".toList ∨ method = "HEAD".toList
  body_length : body.length < 2 ^ 32

namespace WireRequest

variable (q : WireRequest)

/-- The bytes of the request: the request line with a space after the version word, CRLF,
the header block with the framed fields, the body. -/
def text : List Char :=
  requestLine q.method q.uri (versionText q.major q.minor) ++ ' ' :: crlf ++
    headerBlock ((framedFields q.fields q.body).map fieldLine) ++ q.body

/-- The request without its body: what the request line and the header block stand for. -/
def head : CHTTPRequest where
  m_method := q.method
  m_uri := q.uri
  m_majorVersion := q.major
  m_minorVersion := q.minor
  m_headers := (framedFields q.fields q.body).map Prod.snd
  m_headerIndexByName := fieldIndex 0 (framedFields q.fields q.body)

/-- The request the bytes stand for. -/
def parsed : CHTTPRequest := { q.head with m_body := q.body }

theorem framed_isField : ∀ f ∈ framedFields q.fields q.body, IsField f := by
  unfold framedFields
  split
  · exact q.fields_isField
  · intro f hf
    rcases List.mem_append.mp hf with hf | hf
    · exact q.fields_isField f hf
    · exact (List.mem_singleton.mp hf) ▸ contentLengthField_isField q.body

theorem framed_pairwise :
    (framedFields q.fields q.body).Pairwise fun a b => CaselessCmp.equal a.1 b.1 = false := by
  unfold framedFields
  split
  · exact q.names_distinct
  · refine List.pairwise_append.mpr ⟨q.names_distinct, List.pairwise_singleton _ _, ?_⟩
    intro f hf g hg
    rw [List.mem_singleton.mp hg]
    exact (q.no_framing f hf).2

theorem mem_framedFields {f : List Char × List Char} (hf : f ∈ q.fields) :
    f ∈ framedFields q.fields q.body := by
  unfold framedFields
  split
  · exact hf
  · exact List.mem_append_left _ hf

theorem find_transferEncoding :
    (fieldIndex 0 (framedFields q.fields q.body)).find "Transfer-Encoding".toList = none := by
  refine find_fieldIndex_eq_none 0 _ fun f hf => ?_
  unfold framedFields at hf
  split at hf
  · exact (q.no_framing f hf).1
  · rcases List.mem_append.mp hf with hf | hf
    · exact (q.no_framing f hf).1
    · rw [List.mem_singleton.mp hf]
      show CaselessCmp.equal "Content-Length".toList "Transfer-Encoding".toList = false
      decide

theorem find_contentLength_of_nil (h : q.body = []) :
    (fieldIndex 0 (framedFields q.fields q.body)).find "Content-Length".toList = none := by
  rw [framedFields, if_pos h]
  exact find_fieldIndex_eq_none 0 _ fun f hf => (q.no_framing f hf).2

theorem find_contentLength (h : q.body ≠ []) :
    (fieldIndex 0 (framedFields q.fields q.body)).find "Content-Length".toList =
      some q.fields.length := by
  rw [framedFields, if_neg h, fieldIndex_append_singleton, Nat.zero_add]
  exact CHeaderMap.find_append_new _ (find_fieldIndex_eq_none 0 _ fun f hf => (q.no_framing f hf).2)
    (show CaselessCmp.equal "Content-Length".toList "Content-Length".toList = true by decide)

/-- The `Host` check passes: from HTTP/1.1 on a field is named `Host`. -/
theorem host_check : ¬ ((1 < q.head.m_majorVersion ∨ q.head.m_majorVersion = 1 ∧
    1 ≤ q.head.m_minorVersion) ∧ q.head.hasHeader "Host".toList = false) := by
  rintro ⟨hv, hh⟩
  obtain ⟨f, hf, hname⟩ := q.host (by simp only [head] at hv; omega)
  have := find_fieldIndex_isSome 0 _ ⟨f, q.mem_framedFields hf, hname⟩
  simp only [CHTTPRequest.hasHeader, head] at hh
  rw [hh] at this
  cases this

/-- The framing check passes: no `Transfer-Encoding`, and `Content-Length` exactly when the
method is not `GET` or `HEAD`. -/
theorem framing_check : ¬ (((!q.head.hasHeader "Transfer-Encoding".toList &&
    !q.head.hasHeader "Content-Length".toList) !=
    (q.head.m_method == "GET".toList || q.head.m_method == "HEAD".toList)) = true) := by
  simp only [CHTTPRequest.hasHeader, head, q.find_transferEncoding, Option.isSome_none,
    Bool.not_false, Bool.true_and]
  by_cases hb : q.body = []
  · rw [q.find_contentLength_of_nil hb]
    rcases q.body_iff.mp hb with h | h <;> simp [h]
  · have hm := mt q.body_iff.mpr hb
    simp only [not_or] at hm
    rw [q.find_contentLength hb, beq_eq_false_iff_ne.mpr hm.1, beq_eq_false_iff_ne.mpr hm.2]
    simp

/-- The head of a `WireRequest`: the request without its body, with the body and what
follows it left to be read. -/
theorem readRequestHead_text (rest : List Char) (stream : InputStream) (hwf : stream.WellFormed)
    (hs : stream.content = q.text ++ rest) (fuel : Nat) (hfuel : q.fields.length + 1 < fuel) :
    ∃ stream' scratch, readRequestHead fuel stream = done (q.head, stream', scratch) ∧
      scratch ++ stream'.content = q.body ++ rest ∧ stream'.WellFormed := by
  have hlen : ((framedFields q.fields q.body).map fieldLine).length < fuel := by
    unfold framedFields
    split <;> simp <;> omega
  refine readRequestHead_headerBlock q.method_isWord q.method_token q.uri_isWord q.major_range
    q.minor_range (fieldLines_isHeaderLine q.framed_isField) ?_ q.host_check q.framing_check
    (q.body ++ rest) stream hwf (by rw [hs]; simp [text]) fuel hlen
  exact readHeaderLines_fields _ _ q.framed_isField q.framed_pairwise fun _ _ => rfl

/-- **The body.**  After the header block, the body step reads exactly the body: nothing for
`GET` and `HEAD`, otherwise the `Content-Length` bytes, whatever follows them. -/
theorem readBody_head (stream : InputStream) (scratch rest : List Char) (hwf : stream.WellFormed)
    (h : scratch ++ stream.content = q.body ++ rest) (fuel : Nat) :
    readBody fuel q.head stream scratch = done q.parsed := by
  unfold readBody
  rw [show q.head.m_headerIndexByName = fieldIndex 0 (framedFields q.fields q.body) from rfl,
    q.find_transferEncoding]
  by_cases hb : q.body = []
  · rw [q.find_contentLength_of_nil hb]
    simp only [parsed, hb, pure_eq]
    rfl
  · rw [q.find_contentLength hb]
    have hvalue : q.head.m_headers.getD q.fields.length [] = ' ' :: Nat.toDigits 10 q.body.length := by
      simp [head, framedFields, hb, contentLengthField]
    obtain ⟨s', t', hblock, -, -⟩ := readBlock_exact q.body rest hb stream scratch hwf h
    simp only [hvalue, parseContentLength_toDigits _ q.body_length, hblock, done_bind, ne_eq,
      not_true_eq_false, if_false, pure_eq]
    rfl

end WireRequest

/-- **`readRequest` reads back every request written in its format.**  However the bytes of
a `WireRequest` are split across reads, and whatever follows them on the stream, `readRequest`
with a pass to spare for each header line returns exactly the request they encode: method,
URI, both version numbers, every field with its value as written after the colon, the
`Content-Length` field of a body, and the body. -/
theorem readRequest_wireRequest (q : WireRequest) (rest : List Char) (stream : InputStream)
    (hwf : stream.WellFormed) (hs : stream.content = q.text ++ rest) (fuel : Nat)
    (hfuel : q.fields.length + 1 < fuel) : readRequest fuel stream = done q.parsed := by
  obtain ⟨s, t, hhead, hr, hw⟩ := q.readRequestHead_text rest stream hwf hs fuel hfuel
  rw [readRequest_eq_head, hhead, done_bind]
  exact q.readBody_head s t rest hw hr fuel

/-- `POST /x HTTP/1.1 ` with a `Host` field and a three-byte body. -/
def postAbc : WireRequest where
  method := "POST".toList
  uri := "/x".toList
  major := 1
  minor := 1
  fields := [("Host".toList, " a".toList)]
  body := "abc".toList
  method_isWord := ⟨by decide, by decide⟩
  method_token := by decide
  uri_isWord := ⟨by decide, by decide⟩
  major_range := by decide
  minor_range := by decide
  fields_isField := by decide
  names_distinct := by decide
  no_framing := by decide
  host := by decide
  body_iff := by decide
  body_length := by decide

/-- `postAbc` in three reads that cut its request line, a field and its body. -/
theorem readRequest_postAbc_split :
    readRequest 3 ⟨["POST /x HTTP/1.1 \r\nHo".toList, "st: a\r\nContent-Length: 3\r\n\r\nab".toList,
      "c".toList]⟩ = done postAbc.parsed :=
  readRequest_wireRequest postAbc [] _ (by decide) (by decide) 3 (by decide)

/-! ### At the end of the stream -/

/-- At the end of the stream `readLine` returns what is left, with no CRLF in it, and leaves
an empty buffer and stream. -/
theorem readLine_eof (stream : InputStream) (tmpBuffer : List Char) (hwf : stream.WellFormed)
    (h : ¬ crlf <:+: tmpBuffer ++ stream.content) :
    ∃ stream', readLine stream tmpBuffer = (tmpBuffer ++ stream.content, stream', []) ∧
      stream'.content = [] ∧ stream'.WellFormed :=
  readLineLoop_of_no_crlf _ stream tmpBuffer hwf (Nat.lt_succ_self _) h

/-- **A header block cut off by the end of the stream.**  When the stream ends after the
lines of a header block, with no blank line and perhaps without the CRLF of the last line
(`final`), `readHeaders` reads the lines as it reads a whole block: the end of the stream
reads as an empty line. -/
theorem readHeaders_eof (final : List (List Char))
    (hfinal : final = [] ∨ ∃ last, final = [last] ∧ IsHeaderLine last) :
    ∀ (lines : List (List Char)), (∀ line ∈ lines, IsHeaderLine line) →
    ∀ (stream : InputStream) (tmpBuffer : List Char), stream.WellFormed →
      tmpBuffer ++ stream.content = (lines.map (· ++ crlf)).flatten ++ final.flatten →
      ∃ stream', stream'.content = [] ∧ stream'.WellFormed ∧
        ∀ fuel request isFooter, (lines ++ final).length < fuel →
          readHeaders fuel stream request isFooter tmpBuffer =
            readHeaderLines request (lines ++ final) >>= fun r => pure (r, stream', [])
  | [], _, stream, tmpBuffer, hwf, h => by
    rcases hfinal with rfl | ⟨last, rfl, hne, hcrlf⟩
    · -- nothing is left: the line read is empty
      have hnil : tmpBuffer ++ stream.content = [] := by simpa using h
      obtain ⟨s', hl, hc, hw⟩ := readLine_eof stream tmpBuffer hwf (by rw [hnil]; decide)
      refine ⟨s', hc, hw, fun fuel request isFooter hfuel => ?_⟩
      obtain ⟨fuel, rfl⟩ : ∃ f, fuel = f + 1 := ⟨fuel - 1, by simp at hfuel; omega⟩
      rw [readHeaders_succ, hl, hnil]
      rfl
    · -- the last line without its CRLF, then an empty line
      have hlast : tmpBuffer ++ stream.content = last := by simpa using h
      obtain ⟨s₁, hl₁, hc₁, hw₁⟩ := readLine_eof stream tmpBuffer hwf (by rw [hlast]; exact hcrlf)
      obtain ⟨s₂, hl₂, hc₂, hw₂⟩ := readLine_eof s₁ [] hw₁ (by rw [hc₁]; decide)
      refine ⟨s₂, hc₂, hw₂, fun fuel request isFooter hfuel => ?_⟩
      obtain ⟨fuel, rfl⟩ : ∃ f, fuel = f + 1 := ⟨fuel - 1, by simp at hfuel; omega⟩
      have hempty : last.isEmpty = false := by cases last <;> simp_all
      have htail : ∀ r, readHeaders fuel s₁ r isFooter [] = pure (r, s₂, []) := fun r => by
        obtain ⟨fuel, rfl⟩ : ∃ f, fuel = f + 1 := ⟨fuel - 1, by simp at hfuel; omega⟩
        rw [readHeaders_succ, hl₂, hc₁]
        rfl
      rw [readHeaders_succ, hl₁, hlast]
      simp only [hempty, Bool.false_eq_true, if_false, htail, List.nil_append, readHeaderLines,
        Outcome.bind_assoc, pure_eq, done_bind]
  | line :: lines, hlines, stream, tmpBuffer, hwf, h => by
    obtain ⟨hne, hcrlf⟩ := hlines line (List.mem_cons_self _ _)
    obtain ⟨s₁, t₁, hl, hr, hw⟩ := readLine_of_crlf line
      ((lines.map (· ++ crlf)).flatten ++ final.flatten) hcrlf stream tmpBuffer hwf
      (by rw [h]; simp)
    obtain ⟨s', hc', hw', hrun⟩ := readHeaders_eof final hfinal lines
      (fun l hl => hlines l (List.mem_cons_of_mem _ hl)) s₁ t₁ hw hr
    refine ⟨s', hc', hw', fun fuel request isFooter hfuel => ?_⟩
    obtain ⟨fuel, rfl⟩ : ∃ f, fuel = f + 1 := ⟨fuel - 1, by simp at hfuel; omega⟩
    have hempty : line.isEmpty = false := by cases line <;> simp_all
    have hfuel : (lines ++ final).length < fuel := by simp at hfuel ⊢; omega
    rw [readHeaders_succ, hl]
    simp only [hempty, Bool.false_eq_true, if_false, List.cons_append, readHeaderLines,
      List.append_eq, Outcome.bind_assoc, (hrun fuel · isFooter hfuel)]

/-- Bytes that lack the last CRLF, or the last two, of lines each followed by CRLF and then
a blank line: some first lines with their CRLF, then at most one line without it. -/
theorem eof_lines {L : List (List Char)} (hL : L ≠ []) {content cut : List Char}
    (hcut : cut = crlf ∨ cut = crlf ++ crlf)
    (h : content ++ cut = (L.map (· ++ crlf)).flatten ++ crlf) :
    ∃ pre final, L = pre ++ final ∧ (final = [] ∨ ∃ last, final = [last]) ∧
      content = (pre.map (· ++ crlf)).flatten ++ final.flatten := by
  rcases hcut with rfl | rfl
  · exact ⟨L, [], by simp, .inl rfl, by simpa using List.append_cancel_right h⟩
  · obtain ⟨pre, last, rfl⟩ := (List.eq_nil_or_concat L).resolve_left hL
    exact ⟨pre, [last], List.concat_eq_append _ _, .inr ⟨last, rfl⟩,
      List.append_cancel_right (by simpa using h)⟩

namespace WireRequest

variable (q : WireRequest)

/-- A `GET` or `HEAD` `WireRequest` with its last CRLF, or last two, cut off: the first line
read is the request line, and the header loop after it reads the fields and stops at the end
of the stream. -/
theorem readLines_eof (hbody : q.body = []) {cut : List Char} (hcut : cut = crlf ∨ cut = crlf ++ crlf)
    {stream : InputStream} (hwf : stream.WellFormed) (hs : stream.content ++ cut = q.text) :
    ∃ s₁ t₁ s₂, readLine stream [] =
        (requestLine q.method q.uri (versionText q.major q.minor) ++ [' '], s₁, t₁) ∧
      s₂.content = [] ∧ s₂.WellFormed ∧
      ∀ fuel request, q.fields.length < fuel →
        readHeaders fuel s₁ request false t₁ =
          readHeaderLines request ((framedFields q.fields q.body).map fieldLine) >>=
            fun r => pure (r, s₂, []) := by
  have hRL := requestLine_no_crlf q.method_isWord q.uri_isWord q.major q.minor
  have hlines := fieldLines_isHeaderLine q.framed_isField
  have hlen : ((framedFields q.fields q.body).map fieldLine).length = q.fields.length := by
    simp [framedFields, hbody]
  obtain ⟨pre, final, hsplit, hfinal, hc⟩ := eof_lines (List.cons_ne_nil _ _) hcut
    (show stream.content ++ cut = (List.map (· ++ crlf) ((requestLine q.method q.uri
      (versionText q.major q.minor) ++ [' ']) :: (framedFields q.fields q.body).map fieldLine)).flatten ++
        crlf by
      rw [hs, text, hbody]
      simp [headerBlock])
  cases pre with
  | nil =>
    -- the request line itself lost its CRLF: nothing follows it
    obtain ⟨last, rfl⟩ : ∃ last, final = [last] := hfinal.resolve_left (by rintro rfl; cases hsplit)
    obtain ⟨rfl, hnil⟩ := List.cons_eq_cons.mp hsplit
    obtain ⟨s₁, hl, hc₁, hw₁⟩ := readLine_eof stream [] hwf (by simpa [hc] using hRL)
    obtain ⟨s₂, hc₂, hw₂, hrun⟩ := readHeaders_eof [] (.inl rfl) [] (by simp) s₁ []
      hw₁ (by simp [hc₁])
    refine ⟨s₁, [], s₂, by simpa [hc] using hl, hc₂, hw₂, fun fuel request hfuel => ?_⟩
    rw [hnil]
    exact hrun fuel request false (by simp; omega)
  | cons p pre =>
    obtain ⟨rfl, hrest⟩ : _ = p ∧ _ = pre ++ final := by simpa using hsplit
    have hfinal' : final = [] ∨ ∃ last, final = [last] ∧ IsHeaderLine last := by
      rcases hfinal with rfl | ⟨last, rfl⟩
      · exact .inl rfl
      · exact .inr ⟨last, rfl, hlines last (by rw [hrest]; simp)⟩
    obtain ⟨s₁, t₁, hl, hr₁, hw₁⟩ := readLine_of_crlf _
      ((pre.map (· ++ crlf)).flatten ++ final.flatten) hRL stream [] hwf (by rw [hc]; simp)
    obtain ⟨s₂, hc₂, hw₂, hrun⟩ := readHeaders_eof final hfinal' pre
      (fun l hl => hlines l (by rw [hrest]; exact List.mem_append_left _ hl)) s₁ t₁ hw₁ hr₁
    refine ⟨s₁, t₁, s₂, hl, hc₂, hw₂, fun fuel request hfuel => ?_⟩
    rw [hrest]
    exact hrun fuel request false (by rw [← hrest, hlen]; exact hfuel)

end WireRequest

/-- **The end of the stream ends the header block.**  A `GET` or `HEAD` request whose bytes
stop before the blank line that ends its header block, or also before the CRLF of its last
line, is read as the whole request: `readLine` returns what is left at the end of the stream,
and then empty lines. -/
theorem readRequest_eof (q : WireRequest) (hbody : q.body = []) (cut : List Char)
    (hcut : cut = crlf ∨ cut = crlf ++ crlf) (stream : InputStream) (hwf : stream.WellFormed)
    (hs : stream.content ++ cut = q.text) (fuel : Nat) (hfuel : q.fields.length + 1 < fuel) :
    readRequest fuel stream = done q.parsed := by
  obtain ⟨s₁, t₁, s₂, hl, hc₂, hw₂, hrun⟩ := q.readLines_eof hbody hcut hwf hs
  obtain ⟨k, rfl⟩ : ∃ k, fuel = k + 1 := ⟨fuel - 1, by omega⟩
  have hhead : readRequestHead (k + 1) stream = done (q.head, s₂, []) := by
    refine readRequestHead_of_readHeaders q.method_isWord q.method_token q.uri_isWord
      q.major_range q.minor_range hl ?_ q.host_check q.framing_check
    rw [hrun _ _ (by omega), readHeaderLines_fields _
      { m_method := q.method, m_uri := q.uri, m_majorVersion := q.major, m_minorVersion := q.minor }
      q.framed_isField q.framed_pairwise fun _ _ => rfl]
    rfl
  rw [readRequest_eq_head, hhead, done_bind]
  exact q.readBody_head s₂ [] [] hw₂ (by rw [hc₂, hbody]) (k + 1)

/-- `GET / HTTP/1.1 ` with a `Host` field. -/
def getHost : WireRequest where
  method := "GET".toList
  uri := "/".toList
  major := 1
  minor := 1
  fields := [("Host".toList, " a".toList)]
  body := []
  method_isWord := ⟨by decide, by decide⟩
  method_token := by decide
  uri_isWord := ⟨by decide, by decide⟩
  major_range := by decide
  minor_range := by decide
  fields_isField := by decide
  names_distinct := by decide
  no_framing := by decide
  host := by decide
  body_iff := by decide
  body_length := by decide

/-- `getHost` with its last four bytes cut off, in two reads. -/
theorem readRequest_getHost_cut :
    readRequest 3 ⟨["GET / HT".toList, "TP/1.1 \r\nHost: a".toList]⟩ = done getHost.parsed :=
  readRequest_eof getHost rfl (crlf ++ crlf) (.inr rfl) _ (by decide) (by decide) 3 (by decide)

/-! ### Chunked requests -/

/-- The field the encoder frames a chunked body with, `Transfer-Encoding:chunked`: with no
blank after the colon, since the value is stored as written and compared with `chunked`
as it is (`readHeaderLine_transferEncoding`). -/
def transferEncodingField : List Char × List Char :=
  ("Transfer-Encoding".toList, "chunked".toList)

/-- A request with a chunked body as a client writes it for `readRequest`: a request line as
for `WireRequest`; fields under any names, repeated ones and `Content-Length` included, but
none naming `Transfer-Encoding`, which the encoder adds; a `Host` field from HTTP/1.1 on; a
method other than `GET` and `HEAD`, since the request has a body; chunks that are not empty,
below `2^32` bytes together; and the footer fields. -/
structure ChunkedRequest where
  method : List Char
  uri : List Char
  major : Nat
  minor : Nat
  fields : List (List Char × List Char)
  chunks : List (List Char)
  trailer : List (List Char × List Char)
  method_isWord : IsWord method
  method_token : isValidToken method = true
  uri_isWord : IsWord uri
  major_range : 1 ≤ major ∧ major < 2 ^ 31
  minor_range : minor < 2 ^ 31
  fields_isField : ∀ f ∈ fields, IsField f
  no_transferEncoding : ∀ f ∈ fields, CaselessCmp.equal f.1 "Transfer-Encoding".toList = false
  host : 1 < major ∨ major = 1 ∧ 1 ≤ minor →
    ∃ f ∈ fields, CaselessCmp.equal f.1 "Host".toList = true
  not_get_head : method ≠ "GET".toList ∧ method ≠ "HEAD".toList
  chunks_ne_nil : ∀ c ∈ chunks, c ≠ []
  body_length : chunks.flatten.length < 2 ^ 32
  trailer_isField : ∀ f ∈ trailer, IsField f

namespace ChunkedRequest

variable (q : ChunkedRequest)

/-- The header fields: the caller's, then `Transfer-Encoding:chunked`. -/
def framed : List (List Char × List Char) := q.fields ++ [transferEncodingField]

/-- The bytes of the request: the request line with a space after the version word, CRLF,
the header block, the chunks, the last chunk `0` and the footer block. -/
def text : List Char :=
  requestLine q.method q.uri (versionText q.major q.minor) ++ ' ' :: crlf ++
    headerBlock (q.framed.map fieldLine) ++ chunkedBody q.chunks (q.trailer.map fieldLine)

/-- What the request line stands for. -/
def line : CHTTPRequest :=
  { m_method := q.method, m_uri := q.uri, m_majorVersion := q.major, m_minorVersion := q.minor }

theorem framed_isField : ∀ f ∈ q.framed, IsField f := by
  intro f hf
  rcases List.mem_append.mp hf with hf | hf
  · exact q.fields_isField f hf
  · rw [List.mem_singleton.mp hf]
    decide

theorem joinedValue_transferEncoding :
    joinedValue q.framed "Transfer-Encoding".toList = some "chunked".toList := by
  rw [joinedValue, framed, fieldValues_append_of_equal (by decide),
    fieldValues_eq_nil_iff.mpr q.no_transferEncoding]
  rfl

/-- The header block fills the tables of the request line's request with the fields. -/
theorem readHeaderLines_framed : ∃ r, readHeaderLines q.line (q.framed.map fieldLine) = done r ∧
    Represents r q.framed ∧ r.withoutTables = q.line.withoutTables := by
  obtain ⟨r, hr, hrep⟩ := readHeaderLines_represents q.framed
    (show Represents q.line [] from ⟨⟨rfl, List.Pairwise.nil⟩, fun _ => rfl⟩) q.framed_isField
  exact ⟨r, hr, by simpa using hrep, readHeaderLines_withoutTables _ hr⟩

section Checks

variable {q} {r : CHTTPRequest} (hr : Represents r q.framed)
  (hline : r.withoutTables = q.line.withoutTables)
include hr hline

/-- The `Host` check passes: from HTTP/1.1 on a field is named `Host`. -/
theorem host_check : ¬ ((1 < r.m_majorVersion ∨ r.m_majorVersion = 1 ∧ 1 ≤ r.m_minorVersion) ∧
    r.hasHeader "Host".toList = false) := by
  rintro ⟨hv, hh⟩
  have hmajor : r.m_majorVersion = q.major := congrArg CHTTPRequest.m_majorVersion hline
  have hminor : r.m_minorVersion = q.minor := congrArg CHTTPRequest.m_minorVersion hline
  obtain ⟨f, hf, hname⟩ := q.host (by omega)
  rw [hr.hasHeader_iff.mpr ⟨f, List.mem_append_left _ hf, hname⟩] at hh
  cases hh

/-- The framing check passes: `Transfer-Encoding` is there, and the method is not `GET` or
`HEAD`. -/
theorem framing_check : ¬ (((!r.hasHeader "Transfer-Encoding".toList &&
    !r.hasHeader "Content-Length".toList) !=
    (r.m_method == "GET".toList || r.m_method == "HEAD".toList)) = true) := by
  have hte : r.hasHeader "Transfer-Encoding".toList = true := hr.hasHeader_iff.mpr
    ⟨transferEncodingField, List.mem_append_right _ (List.mem_singleton_self _), by decide⟩
  have hmethod : r.m_method = q.method := congrArg CHTTPRequest.m_method hline
  rw [hte, hmethod, beq_eq_false_iff_ne.mpr q.not_get_head.1,
    beq_eq_false_iff_ne.mpr q.not_get_head.2]
  simp

end Checks

/-- **The body.**  After the header block, the body step reads the chunks into the body, and
the footer fields into the same tables. -/
theorem readBody_chunks {r : CHTTPRequest} (hr : Represents r q.framed) (hbody : r.m_body = [])
    (rest : List Char) (stream : InputStream) (scratch : List Char) (hwf : stream.WellFormed)
    (h : scratch ++ stream.content = chunkedBody q.chunks (q.trailer.map fieldLine) ++ rest)
    (fuel : Nat) (hcfuel : q.chunks.length < fuel) (htfuel : q.trailer.length < fuel) :
    ∃ r', readBody fuel r stream scratch = done r' ∧ Represents r' (q.framed ++ q.trailer) ∧
      r'.withoutTables = { r.withoutTables with m_body := q.chunks.flatten } := by
  obtain ⟨index, hte, hvalue⟩ := Option.map_eq_some'.mp
    ((hr.lookup "Transfer-Encoding".toList).trans q.joinedValue_transferEncoding)
  have hchunked : CaselessCmp.equal (r.m_headers.getD index []) "chunked".toList = true := by
    rw [show r.m_headers.getD index [] = "chunked".toList from hvalue]
    decide
  have hchunks : ∀ c ∈ q.chunks, c ≠ [] ∧ c.length < 2 ^ 32 := fun c hc =>
    ⟨q.chunks_ne_nil c hc, lt_of_le_of_lt (List.sublist_flatten_of_mem hc).length_le q.body_length⟩
  obtain ⟨s₁, t₁, hloop, hr₁, hw₁⟩ := readChunks_chunkedBody q.chunks _ hchunks r.m_body
    (by simpa [hbody] using q.body_length) rest stream scratch hwf h fuel hcfuel
  obtain ⟨s₂, t₂, -, -, hrun⟩ := readHeaders_headerBlock rest _
    (fieldLines_isHeaderLine q.trailer_isField) s₁ t₁ hw₁ hr₁
  obtain ⟨r', hlines, hrep⟩ := readHeaderLines_represents q.trailer
    (show Represents { r with m_body := r.m_body ++ q.chunks.flatten } q.framed from
      ⟨⟨hr.wf.indices, hr.wf.distinct⟩, hr.lookup⟩) q.trailer_isField
  refine ⟨r', ?_, hrep, by rw [readHeaderLines_withoutTables _ hlines, hbody]; rfl⟩
  unfold readBody
  simp only [hte, throwIf, hchunked, Bool.true_eq_false, if_false, pure_eq, done_bind, hloop]
  rw [hrun fuel _ true (by simpa using htfuel), hlines]
  rfl

end ChunkedRequest

/-- **`readRequest` reads back every chunked request.**  However the bytes of a
`ChunkedRequest` are split across reads, and whatever follows them on the stream,
`readRequest` with a pass to spare for each header line, chunk and footer line returns a
request with the method, URI and version numbers of the request line, the chunks' bytes for
its body, and header tables that look every name up, in any spelling, as the values of all
the fields so named, footers included, in order and joined by commas. -/
theorem readRequest_chunkedRequest (q : ChunkedRequest) (rest : List Char) (stream : InputStream)
    (hwf : stream.WellFormed) (hs : stream.content = q.text ++ rest) (fuel : Nat)
    (hfuel : q.fields.length + 1 < fuel) (hcfuel : q.chunks.length < fuel)
    (htfuel : q.trailer.length < fuel) :
    ∃ r, readRequest fuel stream = done r ∧
      r.withoutTables = { m_method := q.method, m_uri := q.uri, m_majorVersion := q.major,
                          m_minorVersion := q.minor, m_body := q.chunks.flatten } ∧
      Represents r (q.fields ++ transferEncodingField :: q.trailer) := by
  obtain ⟨r, hlines, hrep, hline⟩ := q.readHeaderLines_framed
  obtain ⟨s, t, hhead, hr, hw⟩ := readRequestHead_headerBlock q.method_isWord q.method_token
    q.uri_isWord q.major_range q.minor_range (fieldLines_isHeaderLine q.framed_isField) hlines
    (ChunkedRequest.host_check hrep hline) (ChunkedRequest.framing_check hrep hline)
    (chunkedBody q.chunks (q.trailer.map fieldLine) ++ rest) stream hwf
    (by rw [hs]; simp [ChunkedRequest.text]) fuel (by simpa [ChunkedRequest.framed] using hfuel)
  obtain ⟨r', hbody, hrep', hline'⟩ := q.readBody_chunks hrep
    (congrArg CHTTPRequest.m_body hline) rest s t hw hr fuel hcfuel htfuel
  refine ⟨r', by rw [readRequest_eq_head, hhead, done_bind, hbody], by rw [hline', hline]; rfl,
    by simpa [ChunkedRequest.framed] using hrep'⟩

/-- `POST /u HTTP/1.1 ` with a `Host` field, a field `X-Tag` that a footer `x-tag` repeats,
and two chunks. -/
def postChunked : ChunkedRequest where
  method := "POST".toList
  uri := "/u".toList
  major := 1
  minor := 1
  fields := [("Host".toList, " h".toList), ("X-Tag".toList, " a".toList)]
  chunks := ["abc".toList, "de".toList]
  trailer := [("x-tag".toList, " b".toList)]
  method_isWord := ⟨by decide, by decide⟩
  method_token := by decide
  uri_isWord := ⟨by decide, by decide⟩
  major_range := by decide
  minor_range := by decide
  fields_isField := by decide
  no_transferEncoding := by decide
  host := by decide
  not_get_head := by decide
  chunks_ne_nil := by decide
  body_length := by decide
  trailer_isField := by decide

/-- `postChunked` in three reads that cut the framing field and a chunk. -/
theorem readRequest_postChunked_split :
    ∃ r, readRequest 4 ⟨["POST /u HTTP/1.1 \r\nHost: h\r\nX-Tag: a\r\nTransfer-Enc".toList,
        "oding:chunked\r\n\r\n3\r\nab".toList, "c\r\n2\r\nde\r\n0\r\nx-tag: b\r\n\r\n".toList]⟩ =
        done r ∧
      r.withoutTables = { m_method := "POST".toList, m_uri := "/u".toList, m_majorVersion := 1,
                          m_minorVersion := 1, m_body := "abcde".toList } ∧
      Represents r (postChunked.fields ++ transferEncodingField :: postChunked.trailer) :=
  readRequest_chunkedRequest postChunked [] _ (by decide) (by decide) 4 (by decide) (by decide)
    (by decide)

end Synergy.Http
