import Mathlib.Data.Nat.Digits
import Synergy.Http.Body

/-!
# The chunk loop

`readChunk` reads a chunk's size line, its bytes through `readBlock`, and the CRLF after
them; `readRequest` calls it until the body stops growing, comparing the body's size with
`oldSize`, a `UInt32`.

* `readBlock_exact`, `readChunk_chunkText` — a block and a chunk read back, however the
  bytes are split across reads and buffered;
* `extractUInt32_toDigits` — `s >> std::hex >> size` reads back a size written by
  `Nat.toDigits 16`;
* `readChunks_chunkTexts` — the loop runs one pass per encoded chunk, whatever their sizes;
* `readChunks_chunkedBody_large` — **PROVED**: once the body reaches `2^32` bytes, `oldSize`
  no longer equals the body's size at the last chunk, so the loop reads the blank line that
  ends the body as a chunk size and throws 400;
* `readBody_chunkedBody` — **PROVED**: below `2^32` bytes the body step appends exactly the
  chunks' bytes and reads the footer lines as headers.
-/

namespace Synergy.Http

open Outcome

/-! ### Reading a block back -/

theorem readBlock_exact (c more : List Char) (hc : c ≠ []) (stream : InputStream)
    (tmpBuffer : List Char) (hwf : stream.WellFormed)
    (h : tmpBuffer ++ stream.content = c ++ more) :
    ∃ stream' tmpBuffer', readBlock stream c.length tmpBuffer = done (c, stream', tmpBuffer') ∧
      tmpBuffer' ++ stream'.content = more ∧ stream'.WellFormed := by
  unfold readBlock
  rcases List.append_eq_append_iff.mp h with ⟨Y, hc', hY⟩ | ⟨Y, ht, hm⟩
  · -- the buffer holds a prefix of the block, the stream the rest
    by_cases hY0 : Y = []
    · subst hY0
      simp only [List.append_nil] at hc'
      subst hc'
      refine ⟨stream, [], ?_, by simpa using hY, hwf⟩
      rw [if_pos ⟨List.length_pos.mpr hc, le_refl _⟩]
      simp
    · have hlt : tmpBuffer.length < c.length := by
        rw [hc', List.length_append]; have := List.length_pos.mpr hY0; omega
      have hYlen : c.length - tmpBuffer.length = Y.length := by rw [hc']; simp
      obtain ⟨s', hrun, hs', hw⟩ := readBlockLoop_take c.length (c.length - tmpBuffer.length)
        stream tmpBuffer hwf (Nat.sub_le _ _)
      rw [hYlen, hY, List.take_left, ← hc'] at hrun
      refine ⟨s', [], ?_, by rw [hs', hYlen, hY, List.drop_left]; rfl, hw⟩
      rw [if_neg (by omega), if_neg (by omega), hYlen, hrun]
      rfl
  · -- the buffer holds the whole block
    subst ht
    refine ⟨stream, Y, ?_, hm.symm, hwf⟩
    rw [if_pos ⟨by have := List.length_pos.mpr hc; simp; omega, by simp⟩]
    simp

/-! ### Chunk sizes -/

theorem digitValue_digitChar : ∀ d < 16, IStringStream.digitValue true (Nat.digitChar d) = some d := by
  decide

/-- A leading hexadecimal digit is no space, sign or zero. -/
theorem digitChar_leading : ∀ d < 16, 0 < d → isSpace (Nat.digitChar d) = false ∧
    Nat.digitChar d ≠ '-' ∧ Nat.digitChar d ≠ '+' ∧ Nat.digitChar d ≠ '0' := by
  decide

/-- The size line of a chunk: `s >> std::hex >> size` reads a positive size below `2^32`
from its hexadecimal digits and leaves the stream at its end, not failed. -/
theorem extractUInt32_toDigits (n : Nat) (hpos : 0 < n) (hlt : n < 2 ^ 32) :
    (IStringStream.ofString (Nat.toDigits 16 n)).extractUInt32 true 0 = (n, ⟨[], true, false⟩) := by
  obtain ⟨d, L, heq, hd0, hd16, hL, hv⟩ :=
    @IStringStream.toDigitsCore_digits 16 (by decide) (n + 1) n [] hpos (Nat.lt_succ_self n)
  obtain ⟨hspace, hminus, hplus, hzero⟩ := digitChar_leading d hd16 hd0
  have hdigits := IStringStream.scanDigits_digitChars (d :: L)
    (fun x hx => digitValue_digitChar x (by rcases List.mem_cons.mp hx with rfl | hx; exacts [hd16, hL x hx]))
    [] (by simp)
  rw [Nat.toDigits, heq, List.append_nil, List.map_cons] at *
  simp [IStringStream.extractUInt32, IStringStream.sentry, IStringStream.ofString,
    IStringStream.scanInt, hspace, IStringStream.scanSign_of_ne _ _ hminus hplus,
    IStringStream.scanPrefix_hex_of_ne _ _ hzero,
    hdigits, hv]
  omega

/-! ### One chunk -/

theorem digitChar_ne_cr : ∀ d < 16, Nat.digitChar d ≠ '\r' := by decide

/-- A chunk size written in hexadecimal holds no CRLF. -/
theorem toDigits_no_crlf (n : Nat) (hpos : 0 < n) : ¬ crlf <:+: Nat.toDigits 16 n := by
  obtain ⟨d, L, heq, -, hd16, hL, -⟩ :=
    @IStringStream.toDigitsCore_digits 16 (by decide) (n + 1) n [] hpos (Nat.lt_succ_self n)
  intro h
  have hr : '\r' ∈ Nat.toDigits 16 n := h.subset (by decide)
  rw [Nat.toDigits, heq, List.append_nil] at hr
  obtain ⟨x, hx, hx'⟩ := List.mem_map.mp hr
  rcases List.mem_cons.mp hx with rfl | hx
  · exact digitChar_ne_cr x hd16 hx'
  · exact digitChar_ne_cr x (hL x hx) hx'

/-- One chunk as a client sends it: its size in hexadecimal, CRLF, its bytes, CRLF. -/
def chunkText (c : List Char) : List Char := Nat.toDigits 16 c.length ++ crlf ++ c ++ crlf

theorem readChunk_chunkText (c more : List Char) (hc : c ≠ []) (hlen : c.length < 2 ^ 32)
    (stream : InputStream) (tmpBuffer : List Char) (hwf : stream.WellFormed)
    (h : tmpBuffer ++ stream.content = chunkText c ++ more) :
    ∃ stream' tmpBuffer', readChunk stream tmpBuffer = done (c, stream', tmpBuffer') ∧
      tmpBuffer' ++ stream'.content = more ∧ stream'.WellFormed := by
  have hpos := List.length_pos.mpr hc
  obtain ⟨s₁, t₁, hl₁, hr₁, hw₁⟩ := readLine_of_crlf _ (c ++ crlf ++ more)
    (toDigits_no_crlf _ hpos) stream tmpBuffer hwf (by rw [h]; simp [chunkText])
  obtain ⟨s₂, t₂, hb, hr₂, hw₂⟩ := readBlock_exact c (crlf ++ more) hc s₁ t₁ hw₁
    (by rw [hr₁, List.append_assoc])
  obtain ⟨s₃, t₃, hl₃, hr₃, hw₃⟩ := readLine_of_crlf [] more (by decide) s₂ t₂ hw₂
    (by rw [hr₂]; rfl)
  refine ⟨s₃, t₃, ?_, hr₃, hw₃⟩
  simp [readChunk, hl₁, extractUInt32_toDigits _ hpos hlen, hb, hl₃, Nat.pos_iff_ne_zero.mp hpos]

/-- The last chunk, `0` CRLF: an empty chunk. -/
theorem readChunk_last (more : List Char) (stream : InputStream) (tmpBuffer : List Char)
    (hwf : stream.WellFormed) (h : tmpBuffer ++ stream.content = '0' :: crlf ++ more) :
    ∃ stream' tmpBuffer', readChunk stream tmpBuffer = done ([], stream', tmpBuffer') ∧
      tmpBuffer' ++ stream'.content = more ∧ stream'.WellFormed := by
  obtain ⟨s₁, t₁, hl₁, hr₁, hw₁⟩ := readLine_of_crlf ['0'] more (by decide) stream tmpBuffer hwf h
  exact ⟨s₁, t₁, by simp only [readChunk, hl₁]; rfl, hr₁, hw₁⟩

/-- A blank line where a chunk size belongs: no digits, so `!s` and 400. -/
theorem readChunk_blank (more : List Char) (stream : InputStream) (tmpBuffer : List Char)
    (hwf : stream.WellFormed) (h : tmpBuffer ++ stream.content = crlf ++ more) :
    readChunk stream tmpBuffer = thrown ⟨400⟩ := by
  obtain ⟨s₁, t₁, hl₁, -, -⟩ := readLine_of_crlf [] more (by decide) stream tmpBuffer hwf h
  simp only [readChunk, hl₁]
  rfl

/-! ### The loop -/

/-- One pass of the chunk loop. -/
theorem readChunks_succ (fuel : Nat) (body : List Char) (stream : InputStream)
    (tmpBuffer : List Char) :
    readChunks (fuel + 1) body stream tmpBuffer =
      readChunk stream tmpBuffer >>= fun x =>
        if (body ++ x.1).length ≠ body.length % 2 ^ 32 then readChunks fuel (body ++ x.1) x.2.1 x.2.2
        else pure (body ++ x.1, x.2.1, x.2.2) :=
  rfl

/-- **The chunk loop over encoded chunks.**  Whatever their sizes, and however the bytes
are split across reads, the loop runs one pass per chunk and goes on after the last with
their bytes appended to the body. -/
theorem readChunks_chunkTexts (more : List Char) : ∀ (chunks : List (List Char)),
    (∀ c ∈ chunks, c ≠ [] ∧ c.length < 2 ^ 32) →
    ∀ (stream : InputStream) (tmpBuffer : List Char), stream.WellFormed →
      tmpBuffer ++ stream.content = (chunks.map chunkText).flatten ++ more →
      ∃ stream' tmpBuffer', tmpBuffer' ++ stream'.content = more ∧ stream'.WellFormed ∧
        ∀ fuel body, readChunks (fuel + chunks.length) body stream tmpBuffer =
          readChunks fuel (body ++ chunks.flatten) stream' tmpBuffer'
  | [], _, stream, tmpBuffer, hwf, h => ⟨stream, tmpBuffer, by simpa using h, hwf, by simp⟩
  | c :: chunks, hchunks, stream, tmpBuffer, hwf, h => by
    obtain ⟨hc, hlen⟩ := hchunks c (List.mem_cons_self c chunks)
    obtain ⟨s₁, t₁, hread, hr₁, hw₁⟩ := readChunk_chunkText c
      ((chunks.map chunkText).flatten ++ more) hc hlen stream tmpBuffer hwf (by rw [h]; simp)
    obtain ⟨s', t', hr', hw', hrun⟩ := readChunks_chunkTexts more chunks
      (fun c' hc' => hchunks c' (List.mem_cons_of_mem c hc')) s₁ t₁ hw₁ hr₁
    refine ⟨s', t', hr', hw', fun fuel body => ?_⟩
    -- a chunk that is not empty makes the body longer than its `UInt32` copy
    have hgrow : (body ++ c).length ≠ body.length % 2 ^ 32 := by
      have := Nat.mod_le body.length (2 ^ 32)
      have := List.length_pos.mpr hc
      simp only [List.length_append]
      omega
    rw [List.length_cons, ← Nat.add_assoc, readChunks_succ, hread, done_bind]
    simp only [hgrow, ne_eq, not_false_eq_true, if_true, hrun, List.flatten_cons, List.append_assoc]

/-- The chunk loop at the last chunk: it stops when the body's size still equals its
`UInt32` copy, that is below `2^32` bytes, and reads on otherwise. -/
theorem readChunks_last (more : List Char) (stream : InputStream) (tmpBuffer : List Char)
    (hwf : stream.WellFormed) (h : tmpBuffer ++ stream.content = '0' :: crlf ++ more) :
    ∃ stream' tmpBuffer', tmpBuffer' ++ stream'.content = more ∧ stream'.WellFormed ∧
      ∀ fuel body, readChunks (fuel + 1) body stream tmpBuffer =
        if body.length < 2 ^ 32 then done (body, stream', tmpBuffer')
        else readChunks fuel body stream' tmpBuffer' := by
  obtain ⟨s', t', hread, hr', hw'⟩ := readChunk_last more stream tmpBuffer hwf h
  refine ⟨s', t', hr', hw', fun fuel body => ?_⟩
  -- the body stays as it was, so the loop goes on exactly when the size differs from its copy
  have hstop : body.length ≠ body.length % 2 ^ 32 ↔ ¬ body.length < 2 ^ 32 := by
    rw [ne_comm, Ne, Nat.mod_eq_iff_lt (by decide)]
  rw [readChunks_succ, hread, done_bind]
  simp only [List.append_nil, hstop, ite_not, pure_eq]

/-- The bytes of a chunked body as a client sends it: the chunks, then the last chunk `0`
and the footer block. -/
def chunkedBody (chunks trailer : List (List Char)) : List Char :=
  (chunks.map chunkText).flatten ++ '0' :: crlf ++ headerBlock trailer

/-- **The chunk loop fails at `2^32` bytes.**  For chunks that reach `2^32` bytes together,
with no footers, however the bytes are split across reads, the chunk loop does not stop at
the last chunk: its `UInt32` `oldSize` is the body's size modulo `2^32`, so it reads the
blank line that ends the body as a chunk size and throws 400. -/
theorem readChunks_chunkedBody_large (chunks : List (List Char))
    (hchunks : ∀ c ∈ chunks, c ≠ [] ∧ c.length < 2 ^ 32)
    (htotal : 2 ^ 32 ≤ chunks.flatten.length) (rest : List Char) (stream : InputStream)
    (tmpBuffer : List Char) (hwf : stream.WellFormed)
    (h : tmpBuffer ++ stream.content = chunkedBody chunks [] ++ rest) (fuel : Nat)
    (hfuel : chunks.length + 1 < fuel) :
    readChunks fuel [] stream tmpBuffer = thrown ⟨400⟩ := by
  obtain ⟨s₁, t₁, hr₁, hw₁, hrun₁⟩ := readChunks_chunkTexts ('0' :: crlf ++ crlf ++ rest) chunks
    hchunks stream tmpBuffer hwf (by rw [h]; simp [chunkedBody, headerBlock])
  obtain ⟨s₂, t₂, hr₂, hw₂, hrun₂⟩ := readChunks_last (crlf ++ rest) s₁ t₁ hw₁
    (by rw [hr₁]; simp)
  obtain ⟨k, rfl⟩ : ∃ k, fuel = k + 1 + 1 + chunks.length := ⟨fuel - chunks.length - 2, by omega⟩
  have hlarge : ¬ ([] ++ chunks.flatten).length < 2 ^ 32 := by
    rw [List.nil_append]; omega
  rw [hrun₁, hrun₂, if_neg hlarge, readChunks_succ, readChunk_blank rest s₂ t₂ hw₂ hr₂]
  rfl

/-- Half of `2^32` bytes. -/
def halfOf4GiB : List Char := List.replicate (2 ^ 31) 'a'

theorem halfOf4GiB_length : halfOf4GiB.length = 2 ^ 31 := List.length_replicate _ _

theorem readChunks_chunkedBody_4GiB :
    readChunks 4 [] ⟨[chunkedBody [halfOf4GiB, halfOf4GiB] []]⟩ [] = thrown ⟨400⟩ :=
  readChunks_chunkedBody_large [halfOf4GiB, halfOf4GiB]
    (by
      intro c hc
      simp only [List.mem_cons, List.mem_singleton, List.not_mem_nil, or_false] at hc
      rcases hc with rfl | rfl <;>
        exact ⟨fun h => by simpa [h] using halfOf4GiB_length, by rw [halfOf4GiB_length]; decide⟩)
    (by simp only [List.flatten_cons, List.flatten_nil, List.append_nil, List.length_append,
      halfOf4GiB_length]; decide)
    [] ⟨[chunkedBody [halfOf4GiB, halfOf4GiB] []]⟩ []
    (List.forall_mem_singleton.mpr (List.append_ne_nil_of_right_ne_nil _ (List.cons_ne_nil _ _)))
    (by rw [List.nil_append, List.append_nil, InputStream.content, List.flatten_cons,
      List.flatten_nil, List.append_nil])
    4 (by decide)

/-- **The chunk loop below `2^32` bytes.**  Chunks that with the body so far stay below
`2^32` bytes, however they are split across reads, are appended to the body, and the loop
stops after the last chunk with the footer block left to read. -/
theorem readChunks_chunkedBody (chunks trailer : List (List Char))
    (hchunks : ∀ c ∈ chunks, c ≠ [] ∧ c.length < 2 ^ 32) (body : List Char)
    (htotal : body.length + chunks.flatten.length < 2 ^ 32)
    (rest : List Char) (stream : InputStream) (tmpBuffer : List Char) (hwf : stream.WellFormed)
    (h : tmpBuffer ++ stream.content = chunkedBody chunks trailer ++ rest)
    (fuel : Nat) (hfuel : chunks.length < fuel) :
    ∃ stream' tmpBuffer', readChunks fuel body stream tmpBuffer =
        done (body ++ chunks.flatten, stream', tmpBuffer') ∧
      tmpBuffer' ++ stream'.content = headerBlock trailer ++ rest ∧ stream'.WellFormed := by
  obtain ⟨s₁, t₁, hr₁, hw₁, hrun₁⟩ := readChunks_chunkTexts ('0' :: crlf ++ headerBlock trailer ++ rest)
    chunks hchunks stream tmpBuffer hwf (by rw [h]; simp [chunkedBody])
  obtain ⟨s₂, t₂, hr₂, hw₂, hrun₂⟩ := readChunks_last (headerBlock trailer ++ rest) s₁ t₁ hw₁
    (by rw [hr₁]; simp)
  obtain ⟨k, rfl⟩ : ∃ k, fuel = k + 1 + chunks.length := ⟨fuel - 1 - chunks.length, by omega⟩
  refine ⟨s₂, t₂, ?_, hr₂, hw₂⟩
  rw [hrun₁, hrun₂, if_pos (by rwa [List.length_append])]

/-- **The chunked round trip below `2^32` bytes.**  For a request whose
`Transfer-Encoding` is caselessly `chunked`, chunks that with the body so far stay below
`2^32` bytes, and footer lines, however the bytes are split across reads and buffered, the
body step appends the chunks' bytes to the body and runs the header loop over the footer
lines. -/
theorem readBody_chunkedBody (r : CHTTPRequest) (index : Nat)
    (hte : r.m_headerIndexByName.find "Transfer-Encoding".toList = some index)
    (hchunked : CaselessCmp.equal (r.m_headers.getD index []) "chunked".toList = true)
    (chunks trailer : List (List Char)) (hchunks : ∀ c ∈ chunks, c ≠ [] ∧ c.length < 2 ^ 32)
    (htrailer : ∀ line ∈ trailer, IsHeaderLine line)
    (htotal : r.m_body.length + chunks.flatten.length < 2 ^ 32)
    (rest : List Char) (stream : InputStream) (scratch : List Char) (hwf : stream.WellFormed)
    (h : scratch ++ stream.content = chunkedBody chunks trailer ++ rest)
    (fuel : Nat) (hfuel : chunks.length < fuel) (htfuel : trailer.length < fuel) :
    readBody fuel r stream scratch =
      readHeaderLines { r with m_body := r.m_body ++ chunks.flatten } trailer := by
  obtain ⟨s₂, t₂, hloop, hr₂, hw₂⟩ := readChunks_chunkedBody chunks trailer hchunks r.m_body htotal
    rest stream scratch hwf h fuel hfuel
  obtain ⟨s₃, t₃, -, -, hrun₃⟩ := readHeaders_headerBlock rest trailer htrailer s₂ t₂ hw₂ hr₂
  unfold readBody
  rw [hte]
  simp only [throwIf, hchunked, Bool.true_eq_false, if_false, pure_eq, done_bind]
  rw [hloop, done_bind, hrun₃ fuel _ true htfuel]
  simp

/-- A request whose `Transfer-Encoding` is `chunked`, written with no space after the colon. -/
def chunkedHead : CHTTPRequest :=
  { m_method := "POST".toList, m_uri := "/".toList, m_majorVersion := 1,
    m_headers := ["chunked".toList], m_headerIndexByName := [("Transfer-Encoding".toList, 0)] }

theorem readBody_chunkedBody_abc :
    readBody 2 chunkedHead ⟨[chunkedBody ["abc".toList] ["X: 1".toList]]⟩ [] =
      readHeaderLines { chunkedHead with m_body := "abc".toList } ["X: 1".toList] :=
  readBody_chunkedBody chunkedHead 0 (by decide) (by decide) ["abc".toList] ["X: 1".toList]
    (by decide) (by decide) (by decide) [] _ [] (by decide) (by simp [InputStream.content]) 2
    (by decide) (by decide)

end Synergy.Http
