import Synergy.Http.Text
import Synergy.Http.Outcome

/-!
# The input stream and the scratch buffer

`CHTTPProtocol` reads a request through `IInputStream::read` and keeps what it has read but
not used in a scratch buffer (`tmpBuffer`), which every reader treats as if it were at the
head of the stream.  A read that returns 0 bytes is the end of the stream.

* `InputStream` — the runs of bytes successive reads deliver; `read` hands out at most the
  requested number of bytes of the next run;
* `readLine` / `readBlock` — `CHTTPProtocol::readLine` and `CHTTPProtocol::readBlock`, their
  loops bounded by the bytes the stream still holds (each pass that goes on reads one), with
  the `assert` of `readBlock`;
* `readLine_of_crlf` — **PROVED**: on a stream in which no read returns 0 before the end,
  `readLine` returns the text before the first CRLF of buffer-then-stream and leaves exactly
  the bytes after it, however those bytes are split across reads;
* `readLine_empty` — at the end of the stream with an empty buffer, `readLine` returns the
  empty line and changes nothing;
* `readLine_conserves` — **PROVED**: with or without a CRLF to come, `readLine` loses and
  repeats no byte: line, CRLF, new buffer and unread stream make up buffer-then-stream;
* `readBlock_conserves` — **PROVED**: for `numBytes ≥ 1`, `readBlock` returns the first
  `numBytes` bytes of buffer-then-stream and takes from the stream no byte past them.
-/

namespace Synergy.Http

/-- An `IInputStream` as the parser sees it: the runs of bytes that successive `read` calls
deliver.  A read asking for `n` bytes gets at most `n` bytes of the next run, and the rest of
that run waits for the next call; with no runs left, `read` returns 0. -/
structure InputStream where
  pieces : List (List Char)
deriving DecidableEq, Repr

namespace InputStream

/-- `IInputStream::read(buffer, n)`. -/
def read (s : InputStream) (n : Nat) : List Char × InputStream :=
  match s.pieces with
  | [] => ([], s)
  | p :: ps => (p.take n, ⟨if n < p.length then p.drop n :: ps else ps⟩)

/-- All the bytes still to come. -/
def content (s : InputStream) : List Char := s.pieces.flatten

/-- A stream whose reads return 0 only at its end: no run is empty. -/
def WellFormed (s : InputStream) : Prop := ∀ p ∈ s.pieces, p ≠ []

instance : DecidablePred WellFormed := fun s => inferInstanceAs (Decidable (∀ p ∈ s.pieces, p ≠ []))

/-- A read takes its bytes from the front of what is still to come. -/
theorem read_content (s : InputStream) (n : Nat) :
    (s.read n).1 ++ (s.read n).2.content = s.content := by
  rcases s with ⟨_ | ⟨p, ps⟩⟩
  · rfl
  · by_cases h : n < p.length
    · simp [read, content, h, ← List.append_assoc]
    · simp [read, content, h, List.take_of_length_le (Nat.le_of_not_lt h)]

theorem read_wellFormed {s : InputStream} (n : Nat) (hs : s.WellFormed) :
    (s.read n).2.WellFormed := by
  rcases s with ⟨_ | ⟨p, ps⟩⟩
  · exact hs
  · by_cases h : n < p.length
    · simp only [read, h, if_true]
      intro q hq
      rcases List.mem_cons.mp hq with rfl | hq
      · simpa using h
      · exact hs q (List.mem_cons_of_mem p hq)
    · simpa [read, h] using fun q hq => hs q (List.mem_cons_of_mem p hq)

/-- A read gets at most the bytes it asks for. -/
theorem read_length_le (s : InputStream) (n : Nat) : (s.read n).1.length ≤ n := by
  rcases s with ⟨_ | ⟨p, ps⟩⟩
  · simp [read]
  · exact List.length_take_le n p

/-- On a well-formed stream a read that asks for bytes gets one, until the end. -/
theorem read_ne_nil {s : InputStream} {n : Nat} (hs : s.WellFormed) (hc : s.content ≠ [])
    (hn : 0 < n) : (s.read n).1 ≠ [] := by
  rcases s with ⟨_ | ⟨p, ps⟩⟩
  · exact absurd rfl hc
  · have hp : p ≠ [] := hs p (List.mem_cons_self p ps)
    simpa [read, hp] using Nat.pos_iff_ne_zero.mp hn

/-- The bytes of a well-formed stream at its end: none. -/
theorem pieces_eq_nil {s : InputStream} (hs : s.WellFormed) (hc : s.content = []) :
    s.pieces = [] := by
  rcases s with ⟨_ | ⟨p, ps⟩⟩
  · rfl
  · exact absurd (by simp [content] at hc; exact hc.1) (hs p (List.mem_cons_self p ps))

end InputStream

/-! ### `readLine` -/

/-- The loop of `readLine`, bounded by `fuel`. -/
def readLineLoop : Nat → InputStream → List Char → List Char × InputStream × List Char
  | 0, stream, tmpBuffer => (tmpBuffer, stream, [])
  | fuel + 1, stream, tmpBuffer =>
    match find crlf tmpBuffer with
    | some newline => (tmpBuffer.take newline, stream, tmpBuffer.drop (newline + 2))
    | none =>
      let (buffer, stream) := stream.read 4096
      if buffer.length = 0 then (tmpBuffer, stream, [])
      else readLineLoop fuel stream (tmpBuffer ++ buffer)

/-- `CHTTPProtocol::readLine`: the line before the first CRLF of `tmpBuffer` followed by the
stream, the stream after the reads it made, and the new `tmpBuffer`.  At the end of the
stream it returns whatever was left.  Every pass of the loop that does not return reads a
byte, so one pass more than the bytes to come is enough. -/
def readLine (stream : InputStream) (tmpBuffer : List Char) :
    List Char × InputStream × List Char :=
  readLineLoop (stream.content.length + 1) stream tmpBuffer

/-- At the end of the stream with nothing buffered, `readLine` returns the empty line. -/
theorem readLine_empty : readLine ⟨[]⟩ [] = ([], ⟨[]⟩, []) := rfl

theorem readLineLoop_of_crlf (L rest : List Char) (hL : ¬ crlf <:+: L) :
    ∀ (fuel : Nat) (stream : InputStream) (tmpBuffer : List Char),
      stream.WellFormed → stream.content.length < fuel →
      tmpBuffer ++ stream.content = L ++ crlf ++ rest →
      ∃ stream' tmpBuffer', readLineLoop fuel stream tmpBuffer = (L, stream', tmpBuffer') ∧
        tmpBuffer' ++ stream'.content = rest ∧ stream'.WellFormed := by
  intro fuel
  induction fuel with
  | zero => intro _ _ _ h; omega
  | succ fuel ih =>
    intro stream tmp hwf hfuel h
    by_cases hlen : L.length + 2 ≤ tmp.length
    · -- the CRLF is in the buffer already
      have htake : tmp.take (L.length + 2) = L ++ crlf := by
        have hl : (L ++ crlf).length = L.length + 2 := by simp [crlf]
        have := congrArg (List.take (L.length + 2)) h
        rw [List.take_append_of_le_length hlen, ← hl, List.take_left, hl] at this
        exact this
      have htmp : tmp = L ++ crlf ++ tmp.drop (L.length + 2) := by
        rw [← htake, List.take_append_drop]
      refine ⟨stream, tmp.drop (L.length + 2), ?_, ?_, hwf⟩
      · rw [readLineLoop, htmp, find_crlf_append _ _ hL]
        simp [crlf]
      · rw [htmp, List.append_assoc, List.append_assoc, List.append_assoc] at h
        simpa using h
    · -- no CRLF yet: the stream has more bytes, and one read takes some of them
      have hpre : tmp <+: L ++ ['\r'] := by
        have e1 : tmp = (L ++ crlf ++ rest).take tmp.length := by rw [← h, List.take_left]
        have e2 : (L ++ crlf ++ rest).take tmp.length = (L ++ ['\r']).take tmp.length := by
          rw [show L ++ crlf ++ rest = (L ++ ['\r']) ++ ('\n' :: rest) by simp [crlf],
            List.take_append_of_le_length (by simp; omega)]
        rw [e1, e2]
        exact List.take_prefix _ _
      have hc : stream.content ≠ [] := by
        intro hc
        have := congrArg List.length h
        simp [hc, crlf] at this
        omega
      have hread := stream.read_content 4096
      have hne := InputStream.read_ne_nil hwf hc (by decide : 0 < 4096)
      obtain ⟨s', t', h1, h2, h3⟩ := ih (stream.read 4096).2 (tmp ++ (stream.read 4096).1)
        (InputStream.read_wellFormed 4096 hwf)
        (by have := congrArg List.length hread; simp at this; have := List.length_pos.mpr hne; omega)
        (by rw [List.append_assoc, hread, h])
      refine ⟨s', t', ?_, h2, h3⟩
      rw [readLineLoop, find_crlf_prefix L tmp hL hpre]
      simpa [List.length_eq_zero, hne] using h1

/-- **`readLine` reads one line, whatever the reads return.**  On a well-formed stream, if
the buffer followed by the stream is `L ++ CRLF ++ rest` with no CRLF in `L`, then
`readLine` returns `L` and leaves buffer-then-stream equal to `rest`. -/
theorem readLine_of_crlf (L rest : List Char) (hL : ¬ crlf <:+: L) (stream : InputStream)
    (tmpBuffer : List Char) (hwf : stream.WellFormed)
    (h : tmpBuffer ++ stream.content = L ++ crlf ++ rest) :
    ∃ stream' tmpBuffer', readLine stream tmpBuffer = (L, stream', tmpBuffer') ∧
      tmpBuffer' ++ stream'.content = rest ∧ stream'.WellFormed :=
  readLineLoop_of_crlf L rest hL _ stream tmpBuffer hwf (Nat.lt_succ_self _) h

theorem readLineLoop_of_no_crlf : ∀ (fuel : Nat) (stream : InputStream) (tmpBuffer : List Char),
    stream.WellFormed → stream.content.length < fuel →
    ¬ crlf <:+: tmpBuffer ++ stream.content →
    ∃ stream', readLineLoop fuel stream tmpBuffer = (tmpBuffer ++ stream.content, stream', []) ∧
      stream'.content = [] ∧ stream'.WellFormed
  | 0, _, _, _, hfuel, _ => absurd hfuel (Nat.not_lt_zero _)
  | fuel + 1, stream, tmp, hwf, hfuel, h => by
    have hfind : find crlf tmp = none :=
      (find_eq_none_iff _ _).mpr fun hc => h (hc.trans (List.prefix_append _ _).isInfix)
    by_cases hc : stream.content = []
    · refine ⟨stream, ?_, hc, hwf⟩
      obtain ⟨ps⟩ := stream
      obtain rfl : ps = [] := InputStream.pieces_eq_nil hwf hc
      simp [readLineLoop, hfind, InputStream.read, InputStream.content]
    · have hread := stream.read_content 4096
      have hne := InputStream.read_ne_nil hwf hc (by decide : 0 < 4096)
      obtain ⟨s', hrun, hs', hw⟩ := readLineLoop_of_no_crlf fuel (stream.read 4096).2
        (tmp ++ (stream.read 4096).1) (InputStream.read_wellFormed 4096 hwf)
        (by have := congrArg List.length hread; simp at this; have := List.length_pos.mpr hne; omega)
        (by rwa [List.append_assoc, hread])
      refine ⟨s', ?_, hs', hw⟩
      rw [readLineLoop, hfind]
      simpa [List.length_eq_zero, hne, List.append_assoc, hread] using hrun

/-- **`readLine` loses and repeats no byte.**  On every well-formed stream, with any buffer:
when buffer-then-stream holds a CRLF, the line is the text before the first one, and the line,
the CRLF, the new buffer and what the stream still holds are buffer-then-stream again; when it
holds none, the line is all of it, and the buffer and the stream are left empty.  The reads
may split the bytes anywhere, a CR and its LF included. -/
theorem readLine_conserves (stream : InputStream) (tmpBuffer : List Char)
    (hwf : stream.WellFormed) :
    ∃ line stream' tmpBuffer', readLine stream tmpBuffer = (line, stream', tmpBuffer') ∧
      stream'.WellFormed ∧
      (crlf <:+: tmpBuffer ++ stream.content →
        find crlf (tmpBuffer ++ stream.content) = some line.length ∧
        line ++ crlf ++ tmpBuffer' ++ stream'.content = tmpBuffer ++ stream.content) ∧
      (¬ crlf <:+: tmpBuffer ++ stream.content →
        line = tmpBuffer ++ stream.content ∧ tmpBuffer' = [] ∧ stream'.content = []) := by
  cases hfind : find crlf (tmpBuffer ++ stream.content) with
  | none =>
    have hno := (find_eq_none_iff _ _).mp hfind
    obtain ⟨s', hrun, hs', hw⟩ :=
      readLineLoop_of_no_crlf _ stream tmpBuffer hwf (Nat.lt_succ_self _) hno
    exact ⟨_, s', [], hrun, hw, fun h => absurd h hno, fun _ => ⟨rfl, rfl, hs'⟩⟩
  | some k =>
    obtain ⟨rest, hrest⟩ := prefix_of_find hfind
    have hL := not_infix_take_of_find (by simp [crlf]) hfind
    have hsplit : tmpBuffer ++ stream.content =
        (tmpBuffer ++ stream.content).take k ++ crlf ++ rest := by
      rw [List.append_assoc, hrest, List.take_append_drop]
    have hk : ((tmpBuffer ++ stream.content).take k).length = k := by
      have := congrArg List.length hsplit
      simp [crlf] at this ⊢; omega
    obtain ⟨s', t', hrun, hc, hw⟩ := readLine_of_crlf _ rest hL stream tmpBuffer hwf hsplit
    refine ⟨_, s', t', hrun, hw, fun _ => ⟨by rw [hk], ?_⟩, fun h => absurd ⟨_, _, hsplit.symm⟩ h⟩
    rw [List.append_assoc _ t', hc, ← hsplit]

/-- A CRLF whose CR and LF come in two reads. -/
theorem readLine_crlf_across_reads :
    ∃ stream' tmpBuffer', readLine ⟨[['a', '\r'], ['\n', 'b']]⟩ ['x'] = (['x', 'a'], stream', tmpBuffer') ∧
      tmpBuffer' ++ stream'.content = ['b'] := by
  obtain ⟨line, s', t', hrun, -, hc, -⟩ := readLine_conserves ⟨[['a', '\r'], ['\n', 'b']]⟩ ['x'] (by decide)
  obtain ⟨hfind, hcons⟩ := hc (by decide)
  have hlen : line.length = 2 := by
    have : find crlf ['x', 'a', '\r', '\n', 'b'] = some 2 := by decide
    simpa [InputStream.content, this] using hfind.symm
  match line, hlen, hcons with
  | [a, b], _, hcons =>
    simp [InputStream.content, crlf] at hcons
    obtain ⟨rfl, rfl, h⟩ := hcons
    exact ⟨s', t', hrun, h⟩

/-! ### `readBlock` -/

/-- The loop of `readBlock`: `numBytes` still wanted, each read asking for at most 4096;
`fuel` bounds the passes, and each pass that goes on reads a byte. -/
def readBlockLoop : Nat → Nat → InputStream → List Char → List Char × InputStream
  | 0, _, stream, data => (data, stream)
  | fuel + 1, numBytes, stream, data =>
    if numBytes = 0 then (data, stream)
    else
      let (buffer, stream) := stream.read (min 4096 numBytes)
      if buffer.length = 0 then (data, stream)
      else readBlockLoop fuel (numBytes - buffer.length) stream (data ++ buffer)

/-- `CHTTPProtocol::readBlock`: `numBytes` bytes from `tmpBuffer` followed by the stream, or
fewer when the stream ends first; with the stream after the reads and the new
`tmpBuffer`.  When `tmpBuffer` does not hold them all, its bytes move into `data`, and the
source asserts `data.size() < numBytes` (line 615) before it reads on. -/
def readBlock (stream : InputStream) (numBytes : Nat) (tmpBuffer : List Char) :
    Outcome (List Char × InputStream × List Char) :=
  if 0 < tmpBuffer.length ∧ numBytes ≤ tmpBuffer.length then
    pure (tmpBuffer.take numBytes, stream, tmpBuffer.drop numBytes)
  else
    -- everything in `tmpBuffer` moves into `data`
    if ¬ tmpBuffer.length < numBytes then .aborted
    else
      let (data, stream) := readBlockLoop numBytes (numBytes - tmpBuffer.length) stream tmpBuffer
      pure (data, stream, [])

/-- The loop of `readBlock` takes `numBytes` bytes of the stream, or all of them when it ends
first, and leaves the rest in the stream. -/
theorem readBlockLoop_take : ∀ (fuel numBytes : Nat) (stream : InputStream) (data : List Char),
    stream.WellFormed → numBytes ≤ fuel →
    ∃ stream', readBlockLoop fuel numBytes stream data =
        (data ++ stream.content.take numBytes, stream') ∧
      stream'.content = stream.content.drop numBytes ∧ stream'.WellFormed
  | 0, numBytes, stream, data, hwf, h => by
    obtain rfl : numBytes = 0 := by omega
    exact ⟨stream, by simp [readBlockLoop], by simp, hwf⟩
  | fuel + 1, numBytes, stream, data, hwf, h => by
    by_cases h0 : numBytes = 0
    · subst h0
      exact ⟨stream, by simp [readBlockLoop], by simp, hwf⟩
    have hread := stream.read_content (min 4096 numBytes)
    have hw := InputStream.read_wellFormed (min 4096 numBytes) hwf
    have hBlen := (stream.read_length_le (min 4096 numBytes)).trans (min_le_right _ _)
    by_cases hc : stream.content = []
    · -- the end of the stream: the read returns nothing and the loop stops
      have hB : (stream.read (min 4096 numBytes)).1 = [] := by
        have := congrArg List.length hread; rw [hc] at this; simp at this; exact this.1
      refine ⟨(stream.read (min 4096 numBytes)).2, ?_, ?_, hw⟩
      · rw [readBlockLoop, if_neg h0]; simp [hB, hc]
      · rw [hc]; simpa [hB, hc] using hread
    have hB := InputStream.read_ne_nil hwf hc (show 0 < min 4096 numBytes by omega)
    have hstep : readBlockLoop (fuel + 1) numBytes stream data =
        readBlockLoop fuel (numBytes - (stream.read (min 4096 numBytes)).1.length)
          (stream.read (min 4096 numBytes)).2 (data ++ (stream.read (min 4096 numBytes)).1) := by
      rw [readBlockLoop, if_neg h0]
      simp [hB]
    generalize stream.read (min 4096 numBytes) = r at hread hw hB hBlen hstep
    obtain ⟨B, s'⟩ := r
    dsimp only at hread hw hB hBlen hstep
    obtain ⟨s'', hrun, hc', hw'⟩ := readBlockLoop_take fuel (numBytes - B.length) s' (data ++ B) hw
      (by have := List.length_pos.mpr hB; omega)
    refine ⟨s'', ?_, ?_, hw'⟩
    · rw [hstep, hrun, ← hread, List.take_append_eq_append_take, List.take_of_length_le hBlen,
        List.append_assoc]
    · rw [hc', ← hread, List.drop_append_eq_append_drop, List.drop_eq_nil_of_le hBlen, List.nil_append]

/-- **`readBlock` reads the block and no byte after it.**  For every `numBytes ≥ 1`, buffer
and well-formed stream, it returns the first `numBytes` bytes of buffer-then-stream (all of
them when there are fewer), the new buffer and the stream hold exactly the bytes after them,
and the stream has given up only the `numBytes - tmpBuffer.size()` bytes still missing: each
read asks for at most what is missing. -/
theorem readBlock_conserves (stream : InputStream) (numBytes : Nat) (tmpBuffer : List Char)
    (hn : 0 < numBytes) (hwf : stream.WellFormed) :
    ∃ stream' tmpBuffer', readBlock stream numBytes tmpBuffer =
        .done ((tmpBuffer ++ stream.content).take numBytes, stream', tmpBuffer') ∧
      tmpBuffer' ++ stream'.content = (tmpBuffer ++ stream.content).drop numBytes ∧
      stream'.content = stream.content.drop (numBytes - tmpBuffer.length) ∧ stream'.WellFormed := by
  unfold readBlock
  by_cases hbuf : 0 < tmpBuffer.length ∧ numBytes ≤ tmpBuffer.length
  · -- the buffer holds the whole block; the stream is not read
    refine ⟨stream, tmpBuffer.drop numBytes, ?_, ?_, by rw [Nat.sub_eq_zero_of_le hbuf.2]; rfl, hwf⟩
    · rw [if_pos hbuf, List.take_append_of_le_length hbuf.2]; rfl
    · rw [List.drop_append_of_le_length hbuf.2]
  · -- the buffer's bytes move into `data`, and the stream gives the rest
    have hlt : tmpBuffer.length < numBytes := by
      rcases Nat.eq_zero_or_pos tmpBuffer.length with h | h <;> omega
    obtain ⟨s', hrun, hc, hw⟩ := readBlockLoop_take numBytes (numBytes - tmpBuffer.length) stream
      tmpBuffer hwf (Nat.sub_le _ _)
    refine ⟨s', [], ?_, ?_, hc, hw⟩
    · rw [if_neg hbuf, if_neg (not_not.mpr hlt), List.take_append_eq_append_take,
        List.take_of_length_le hlt.le]
      simp only [hrun]; rfl
    · rw [List.nil_append, hc, List.drop_append_eq_append_drop, List.drop_eq_nil_of_le hlt.le,
        List.nil_append]

/-- A block that ends inside the second read: the second read asks for the one byte still
missing, and the stream keeps the byte after it. -/
theorem readBlock_ends_inside_read :
    ∃ stream' tmpBuffer', readBlock ⟨[['b'], ['c', 'd']]⟩ 3 ['a'] =
        .done (['a', 'b', 'c'], stream', tmpBuffer') ∧
      tmpBuffer' = [] ∧ stream'.content = ['d'] := by
  obtain ⟨s', t', hrun, hcons, hc, -⟩ := readBlock_conserves ⟨[['b'], ['c', 'd']]⟩ 3 ['a']
    (by decide) (by decide)
  replace hc : s'.content = ['d'] := hc
  refine ⟨s', t', hrun, ?_, hc⟩
  rw [hc] at hcons
  exact List.append_left_eq_self.mp hcons

end Synergy.Http
