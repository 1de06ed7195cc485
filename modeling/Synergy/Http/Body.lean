import Synergy.Http.Headers

/-!
# The assertion in `readBlock`

`readRequest` reads a body in one of two ways: under `Content-Length` one `readBlock` of that
many bytes, under `Transfer-Encoding: chunked` the chunk loop, one `readChunk` a pass, and
then the footers.  `readBlock` asserts that what the scratch buffer gives it is fewer bytes
than it was asked for.

* `readBlock_aborted_iff` — `readBlock`'s `assert(data.size() < numBytes)` fails exactly when
  no bytes are asked for and none are buffered;
* `readRequest_aborted_iff` — **PROVED**: `readRequest` stops at that assertion exactly when
  the request has no `Transfer-Encoding`, its `Content-Length` reads as 0, and nothing follows
  the header block in the scratch buffer; the chunk loop never asks `readBlock` for 0 bytes.
  `POST` with `Content-Length: 0` read in one piece stops there.
-/

namespace Synergy.Http

open Outcome

/-! ### The assertion in `readBlock` -/

/-- `readBlock` stops at its assertion exactly when it is asked for no bytes with nothing
buffered; otherwise the buffer alone serves, or all of it goes into `data`, fewer bytes than
asked for. -/
theorem readBlock_aborted_iff (stream : InputStream) (numBytes : Nat) (tmpBuffer : List Char) :
    readBlock stream numBytes tmpBuffer = aborted ↔ numBytes = 0 ∧ tmpBuffer = [] := by
  unfold readBlock
  by_cases h₁ : 0 < tmpBuffer.length ∧ numBytes ≤ tmpBuffer.length
  · rw [if_pos h₁]
    refine ⟨(by rintro ⟨⟩), ?_⟩
    rintro ⟨-, rfl⟩
    simp at h₁
  · rw [if_neg h₁]
    by_cases h₂ : tmpBuffer.length < numBytes
    · rw [if_neg (not_not.mpr h₂)]
      refine ⟨(by rintro ⟨⟩), ?_⟩
      rintro ⟨rfl, -⟩
      omega
    · -- the buffer is empty with nothing asked for, or too short while holding it all
      rw [if_pos h₂]
      refine ⟨fun _ => ?_, fun _ => rfl⟩
      rcases tmpBuffer with _ | ⟨c, cs⟩
      · exact ⟨by simp at h₂; omega, rfl⟩
      · simp at h₁ h₂; omega

theorem readChunk_ne_aborted (stream : InputStream) (tmpBuffer : List Char) :
    readChunk stream tmpBuffer ≠ aborted := by
  unfold readChunk
  split
  split
  split_ifs with h₁ h₂
  · simp
  · simp
  · rw [Ne, bind_eq_aborted, not_or, readBlock_aborted_iff]
    refine ⟨fun h => h₂ h.1, ?_⟩
    rintro ⟨_, -, h⟩
    split at h
    split_ifs at h
    split at h
    split_ifs at h

theorem readChunks_ne_aborted : ∀ (fuel : Nat) (body : List Char) (stream : InputStream)
    (tmpBuffer : List Char), readChunks fuel body stream tmpBuffer ≠ aborted
  | 0, _, _, _ => by simp [readChunks]
  | fuel + 1, body, stream, tmpBuffer => by
    rw [readChunks, Ne, bind_eq_aborted, not_or]
    refine ⟨readChunk_ne_aborted stream tmpBuffer, ?_⟩
    rintro ⟨_, -, h⟩
    split at h
    dsimp only at h
    split_ifs at h
    exact readChunks_ne_aborted fuel _ _ _ h

theorem readHeaderLine_ne_aborted (r : CHTTPRequest) (line : List Char) :
    readHeaderLine r line ≠ aborted := by
  unfold readHeaderLine
  split_ifs
  · split <;> simp
  · dsimp only
    split
    · simp
    · split <;> simp

theorem readHeadersLoop_ne_aborted : ∀ (fuel : Nat) (r : CHTTPRequest) (line : List Char)
    (stream : InputStream) (t : List Char), readHeadersLoop fuel r line stream t ≠ aborted
  | 0, _, _, _, _ => by simp [readHeadersLoop]
  | fuel + 1, r, line, stream, t => by
    unfold readHeadersLoop
    split_ifs
    · simp
    · rw [Ne, bind_eq_aborted, not_or]
      exact ⟨readHeaderLine_ne_aborted r line,
        fun ⟨_, _, h⟩ => readHeadersLoop_ne_aborted fuel _ _ _ _ h⟩

theorem readRequestLine_ne_aborted : ∀ (fuel : Nat) (stream : InputStream) (scratch : List Char),
    readRequestLine fuel stream scratch ≠ aborted
  | 0, _, _ => by simp [readRequestLine]
  | fuel + 1, stream, scratch => by
    unfold readRequestLine
    split
    split_ifs
    · exact readRequestLine_ne_aborted fuel _ _
    · simp

theorem parseRequestLine_ne_aborted (r : CHTTPRequest) (line : List Char) :
    parseRequestLine r line ≠ aborted := by
  rw [parseRequestLine, Ne, bind_eq_aborted, not_or]
  refine ⟨by unfold throwIf; split_ifs <;> simp, fun ⟨_, _, h⟩ => ?_⟩
  rw [bind_eq_aborted] at h
  rcases h with h | ⟨_, -, h⟩
  · revert h; unfold throwIf; split_ifs <;> simp
  · cases h

/-- The body step stops at the assertion exactly when the request has no
`Transfer-Encoding`, a `Content-Length` that reads as 0, and nothing in the scratch
buffer. -/
theorem readBody_aborted_iff (fuel : Nat) (r : CHTTPRequest) (stream : InputStream)
    (scratch : List Char) :
    readBody fuel r stream scratch = aborted ↔
      r.hasHeader "Transfer-Encoding".toList = false ∧
      (∃ value, r.headerValue "Content-Length".toList = some value ∧
        parseContentLength value = some 0) ∧ scratch = [] := by
  unfold readBody
  split
  · next index hte =>
    -- chunked: the chunk loop never asks for 0 bytes, and the footers assert nothing
    simp only [CHTTPRequest.hasHeader, hte, Option.isSome_some, Bool.true_eq_false, false_and,
      iff_false]
    intro h
    rcases bind_eq_aborted.mp h with h | ⟨_, -, h⟩
    · revert h; unfold throwIf; split_ifs <;> simp
    · rcases bind_eq_aborted.mp h with h | ⟨_, -, h⟩
      · exact readChunks_ne_aborted _ _ _ _ h
      · rcases bind_eq_aborted.mp h with h | ⟨_, -, h⟩
        · exact readHeadersLoop_ne_aborted _ _ _ _ _ h
        · cases h
  · next hte =>
    have hno : r.hasHeader "Transfer-Encoding".toList = false := by
      rw [CHTTPRequest.hasHeader, hte]; rfl
    split
    · next index hcl =>
      have hval : r.headerValue "Content-Length".toList = some (r.m_headers.getD index []) := by
        rw [CHTTPRequest.headerValue, hcl]; rfl
      rw [hval]
      simp only [hno, Option.some.injEq, exists_eq_left', true_and]
      split
      · next hlen => rw [hlen]; simp
      · next length hlen =>
        rw [hlen, Option.some.injEq, bind_eq_aborted, readBlock_aborted_iff]
        constructor
        · rintro (h | ⟨_, -, h⟩)
          · exact h
          · revert h; split_ifs <;> simp
        · exact fun h => .inl h
    · next hcl =>
      rw [CHTTPRequest.headerValue, hcl]
      simp

/-- `readRequest` up to its body: the request line, the headers and the checks made on
them, with the stream and scratch buffer the body is read from. -/
def readRequestHead (fuel : Nat) (stream : InputStream) :
    Outcome (CHTTPRequest × InputStream × List Char) := do
  let (line, stream, scratch) ← readRequestLine fuel stream []
  let request ← parseRequestLine {} line
  throwIf (isValidToken request.m_method = false) 400
  throwIf (request.m_majorVersion < 1 ∨ request.m_minorVersion < 0) 400
  let (request, stream, scratch) ← readHeaders fuel stream request false scratch
  throwIf ((1 < request.m_majorVersion ∨
      (request.m_majorVersion = 1 ∧ 1 ≤ request.m_minorVersion)) ∧
    request.hasHeader "Host".toList = false) 400
  throwIf (((!request.hasHeader "Transfer-Encoding".toList &&
      !request.hasHeader "Content-Length".toList) !=
    (request.m_method == "GET".toList || request.m_method == "HEAD".toList)) = true) 400
  pure (request, stream, scratch)

theorem readRequest_eq_head (fuel : Nat) (stream : InputStream) :
    readRequest fuel stream =
      readRequestHead fuel stream >>= fun x => readBody fuel x.1 x.2.1 x.2.2 := by
  simp only [readRequest, readRequestHead, Outcome.bind_assoc, done_bind, pure_eq]

theorem readRequestHead_ne_aborted (fuel : Nat) (stream : InputStream) :
    readRequestHead fuel stream ≠ aborted := by
  intro h
  have hthrow : ∀ (c : Prop) [Decidable c] (s : Nat), throwIf c s ≠ aborted := by
    intro c _ s; unfold throwIf; split_ifs <;> simp
  rcases bind_eq_aborted.mp h with h | ⟨_, -, h⟩
  · exact readRequestLine_ne_aborted _ _ _ h
  rcases bind_eq_aborted.mp h with h | ⟨_, -, h⟩
  · exact parseRequestLine_ne_aborted _ _ h
  rcases bind_eq_aborted.mp h with h | ⟨_, -, h⟩
  · exact hthrow _ _ h
  rcases bind_eq_aborted.mp h with h | ⟨_, -, h⟩
  · exact hthrow _ _ h
  rcases bind_eq_aborted.mp h with h | ⟨_, -, h⟩
  · exact readHeadersLoop_ne_aborted _ _ _ _ _ h
  rcases bind_eq_aborted.mp h with h | ⟨_, -, h⟩
  · exact hthrow _ _ h
  rcases bind_eq_aborted.mp h with h | ⟨_, -, h⟩
  · exact hthrow _ _ h
  · cases h

/-- **Where `readRequest` fails its assertion.**  On every stream, split across reads in any
way, `readRequest` stops at `readBlock`'s `assert` exactly when the request it read has no
`Transfer-Encoding`, a `Content-Length` that reads as 0, and an empty scratch buffer after
the header block. -/
theorem readRequest_aborted_iff (fuel : Nat) (stream : InputStream) :
    readRequest fuel stream = aborted ↔
      ∃ r s, readRequestHead fuel stream = done (r, s, []) ∧
        r.hasHeader "Transfer-Encoding".toList = false ∧
        ∃ value, r.headerValue "Content-Length".toList = some value ∧
          parseContentLength value = some 0 := by
  rw [readRequest_eq_head, bind_eq_aborted]
  constructor
  · rintro (h | ⟨⟨r, s, t⟩, hhead, h⟩)
    · exact absurd h (readRequestHead_ne_aborted fuel stream)
    · obtain ⟨hte, hcl, rfl⟩ := (readBody_aborted_iff fuel r s t).mp h
      exact ⟨r, s, hhead, hte, hcl⟩
  · rintro ⟨r, s, hhead, hte, hcl⟩
    exact .inr ⟨(r, s, []), hhead, (readBody_aborted_iff fuel r s []).mpr ⟨hte, hcl, rfl⟩⟩

/-- A `POST` whose `Content-Length` is 0, in one read. -/
def emptyPost : List Char := "POST / HTTP/1.0 \r\nContent-Length: 0\r\n\r\n".toList

/-- The request `readRequestHead` reads from `emptyPost`. -/
def emptyPostHead : CHTTPRequest :=
  { m_method := "POST".toList, m_uri := "/".toList, m_majorVersion := 1,
    m_headers := [" 0".toList], m_headerIndexByName := [("Content-Length".toList, 0)] }

theorem readRequest_emptyPost_aborted : readRequest 2 ⟨[emptyPost]⟩ = aborted :=
  (readRequest_aborted_iff 2 ⟨[emptyPost]⟩).mpr
    ⟨emptyPostHead, ⟨[]⟩, by decide, by decide, " 0".toList, by decide, by decide⟩

end Synergy.Http
