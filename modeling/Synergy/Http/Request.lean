import Synergy.Http.StringStream
import Synergy.Http.InputStream

/-!
# Reading a request

`CHTTPProtocol::readRequest` with its helpers `readHeaders` and `readChunk`, written as
functions of the input stream and the scratch buffer they share.

* `readRequest fuel` gives `fuel` passes to each of its loops (see `Outcome`); only the
  first of them, which drops empty lines before the request line, can run for ever
  (`RequestProps`);
* `CHTTPRequest` with its header table: the values in `m_headers`, their indices by name in
  `m_headerIndexByName`, looked up with `CaselessCmp.equal`;
* `readHeaderLine` — one pass of the header loop, **including the continuation branch as the
  source has it**: `m_headers.back() == line` compares and drops the result, so a folded line
  only adds a comma;
* `parseRequestLine` — the request-line block, through the `IStringStream` model;
* `readChunks` — the chunk loop, whose `oldSize` is a `UInt32`.
-/

namespace Synergy.Http

open Outcome

/-! ### The request -/

/-- `CHTTPRequest::CHeaderMap`, a `std::map` from header names to indices ordered by
`CaselessCmp`, as a list of entries; a lookup finds the entry whose name is
`CaselessCmp.equal` to the one asked for, the equivalence of that order. -/
abbrev CHeaderMap := List (List Char × Nat)

/-- `CHeaderMap::find`. -/
def CHeaderMap.find (m : CHeaderMap) (name : List Char) : Option Nat :=
  (m.find? fun e => CaselessCmp.equal e.1 name).map (·.2)

/-- A request as `readRequest` builds it. -/
structure CHTTPRequest where
  m_method : List Char := []
  m_uri : List Char := []
  m_majorVersion : Int := 0
  m_minorVersion : Int := 0
  m_headers : List (List Char) := []
  m_headerIndexByName : CHeaderMap := []
  m_body : List Char := []
deriving DecidableEq, Repr

namespace CHTTPRequest

/-- `m_headerIndexByName.count(name) != 0`. -/
def hasHeader (r : CHTTPRequest) (name : List Char) : Bool :=
  (r.m_headerIndexByName.find name).isSome

/-- The stored value of the header `name`, `m_headers[m_headerIndexByName[name]]`. -/
def headerValue (r : CHTTPRequest) (name : List Char) : Option (List Char) :=
  (r.m_headerIndexByName.find name).map fun index => r.m_headers.getD index []

end CHTTPRequest

/-! ### Headers -/

/-- One pass of the loop of `readHeaders`, on a line that is not empty. -/
def readHeaderLine (request : CHTTPRequest) (line : List Char) : Outcome CHTTPRequest :=
  if line.head? = some ' ' ∨ line.head? = some '\t' then
    -- a continuation: `m_headers.back() += ","`; the next statement, `m_headers.back() ==
    -- line`, is a comparison, so the line itself is not stored
    match request.m_headers.getLast? with
    | none => throw ⟨400⟩
    | some last => pure { request with m_headers := request.m_headers.dropLast ++ [last ++ [',']] }
  else
    let s := IStringStream.ofString line
    let (name, s) := s.getline [] ':'
    if s.fail ∨ isValidToken name = false then throw ⟨400⟩
    else
      let (value, _) := s.getline [] '\n'
      match request.m_headerIndexByName.find name with
      | none =>
        pure { request with
          m_headerIndexByName := request.m_headerIndexByName ++ [(name, request.m_headers.length)]
          m_headers := request.m_headers ++ [value] }
      | some index =>
        pure { request with
          m_headers := request.m_headers.set index (request.m_headers.getD index [] ++ ',' :: value) }

/-- The loop of `readHeaders` from the line just read, with at most `fuel` passes. -/
def readHeadersLoop : Nat → CHTTPRequest → List Char → InputStream → List Char →
    Outcome (CHTTPRequest × InputStream × List Char)
  | 0, _, _, _, _ => outOfFuel
  | fuel + 1, request, line, stream, tmpBuffer =>
    if line.isEmpty then pure (request, stream, tmpBuffer)
    else do
      let request ← readHeaderLine request line
      let (line, stream, tmpBuffer) := readLine stream tmpBuffer
      readHeadersLoop fuel request line stream tmpBuffer

/-- `CHTTPProtocol::readHeaders`: header lines into `request` up to a blank line.  The source
leaves the footer check (`isFooter`) as an empty FIXME, so footers are read like headers. -/
def readHeaders (fuel : Nat) (stream : InputStream) (request : CHTTPRequest)
    (_isFooter : Bool) (tmpBuffer : List Char) : Outcome (CHTTPRequest × InputStream × List Char) :=
  let (line, stream, tmpBuffer) := readLine stream tmpBuffer
  readHeadersLoop fuel request line stream tmpBuffer

/-! ### Bodies -/

/-- `CHTTPProtocol::readChunk`: the next chunk of a chunked body, empty for the last one. -/
def readChunk (stream : InputStream) (tmpBuffer : List Char) :
    Outcome (List Char × InputStream × List Char) :=
  let (line, stream, tmpBuffer) := readLine stream tmpBuffer
  -- `s >> std::hex >> size` into a `UInt32`
  let (size, s) := (IStringStream.ofString line).extractUInt32 true 0
  if s.fail then throw ⟨400⟩
  else if size = 0 then pure ([], stream, tmpBuffer)
  else do
    let (data, stream, tmpBuffer) ← readBlock stream size tmpBuffer
    if data.length ≠ size then throw ⟨400⟩
    else
      -- the CRLF after the chunk's bytes
      let (line, stream, tmpBuffer) := readLine stream tmpBuffer
      if line ≠ [] then throw ⟨400⟩ else pure (data, stream, tmpBuffer)

/-- The chunk loop of `readRequest`, with at most `fuel` passes.  `oldSize` is a `UInt32`, so
it holds the body's size modulo `2^32`; the loop goes on while the size differs from it. -/
def readChunks : Nat → List Char → InputStream → List Char →
    Outcome (List Char × InputStream × List Char)
  | 0, _, _, _ => outOfFuel
  | fuel + 1, body, stream, tmpBuffer => do
    let oldSize := body.length % 2 ^ 32
    let (chunk, stream, tmpBuffer) ← readChunk stream tmpBuffer
    let body := body ++ chunk
    if body.length ≠ oldSize then readChunks fuel body stream tmpBuffer
    else pure (body, stream, tmpBuffer)

/-- The `Content-Length` block of `readRequest`: `s >> length` into a `UInt32`, `none` when
`!s`. -/
def parseContentLength (value : List Char) : Option Nat :=
  let (length, s) := (IStringStream.ofString value).extractUInt32 false 0
  if s.fail then none else some length

/-! ### The request line -/

/-- The first loop of `readRequest`: read lines, dropping empty ones, at most `fuel` times. -/
def readRequestLine : Nat → InputStream → List Char → Outcome (List Char × InputStream × List Char)
  | 0, _, _ => outOfFuel
  | fuel + 1, stream, scratch =>
    let (line, stream, scratch) := readLine stream scratch
    if line.isEmpty then readRequestLine fuel stream scratch else pure (line, stream, scratch)

/-- The request-line block of `readRequest`: `s >> m_method >> m_uri >> version`, then the
version read back through the same stream after `s.str(version)`, `s.ignore(5)`. -/
def parseRequestLine (request : CHTTPRequest) (line : List Char) : Outcome CHTTPRequest := do
  let s := IStringStream.ofString line
  let (method, s) := s.extractString request.m_method
  let (uri, s) := s.extractString request.m_uri
  let (version, s) := s.extractString []
  throwIf (s.fail ∨ uri = [] ∨ find "HTTP/".toList version ≠ some 0) 400
  let s := (s.str version).ignore 5
  let (major, s) := s.extractInt request.m_majorVersion
  let (dot, s) := s.get
  let (minor, s) := s.extractInt request.m_minorVersion
  throwIf (s.fail ∨ dot ≠ some '.') 400
  pure { request with
    m_method := method
    m_uri := uri
    m_majorVersion := major
    m_minorVersion := minor }

/-- The body part of `readRequest`: under `Transfer-Encoding`, which must be `chunked`, the
chunks and then the footers; otherwise under `Content-Length` that many bytes; otherwise no
body. -/
def readBody (fuel : Nat) (request : CHTTPRequest) (stream : InputStream)
    (scratch : List Char) : Outcome CHTTPRequest :=
  match request.m_headerIndexByName.find "Transfer-Encoding".toList with
  | some index => do
    throwIf (CaselessCmp.equal (request.m_headers.getD index []) "chunked".toList = false) 501
    let (body, stream, scratch) ← readChunks fuel request.m_body stream scratch
    let (request, _) ← readHeaders fuel stream { request with m_body := body } true scratch
    pure request
  | none =>
    match request.m_headerIndexByName.find "Content-Length".toList with
    | some index =>
      match parseContentLength (request.m_headers.getD index []) with
      | none => throw ⟨400⟩
      | some length => do
        let (body, _) ← readBlock stream length scratch
        if body.length ≠ length then throw ⟨400⟩ else pure { request with m_body := body }
    | none => pure request

/-- `CHTTPProtocol::readRequest`, each of its loops allowed `fuel` passes. -/
def readRequest (fuel : Nat) (stream : InputStream) : Outcome CHTTPRequest := do
  let (line, stream, scratch) ← readRequestLine fuel stream []
  let request ← parseRequestLine {} line
  throwIf (isValidToken request.m_method = false) 400
  throwIf (request.m_majorVersion < 1 ∨ request.m_minorVersion < 0) 400
  let (request, stream, scratch) ← readHeaders fuel stream request false scratch
  -- HTTP/1.1 requests must have a Host header
  throwIf ((1 < request.m_majorVersion ∨
      (request.m_majorVersion = 1 ∧ 1 ≤ request.m_minorVersion)) ∧
    request.hasHeader "Host".toList = false) 400
  -- a body exactly when the method is not GET or HEAD
  throwIf (((!request.hasHeader "Transfer-Encoding".toList &&
      !request.hasHeader "Content-Length".toList) !=
    (request.m_method == "GET".toList || request.m_method == "HEAD".toList)) = true) 400
  readBody fuel request stream scratch

end Synergy.Http
