import Mathlib.Data.List.Nodup
import Synergy.Http.RequestProps

/-!
# The header table

`readHeaders` fills two tables of the request: `m_headers`, the values in the order their
names are first seen, and `m_headerIndexByName`, each name with its index into `m_headers`.

* `readHeaders_headerBlock` — a header block (lines each ended by CRLF, then a blank line) is
  read line by line, whatever the reads return: `readHeaders` is then `readHeaderLines`, the
  loop body run over the lines in turn;
* `readHeaderLine_field` — the loop body on `name:value`: a new name is added with the next
  index, a known one gets `,value` on its value; the value is all that follows the colon,
  white space included;
* `HeaderTableWF` / `readHeaders_headerTableWF` — **PROVED**: the tables stay in bijection
  (indices `0, 1, ...` in order, no two names caselessly equal) through every call of
  `readHeaders`, on every stream, and every name keeps the spelling it was first seen with;
  `readBody_rel` carries such a fact through the body of a request, footers included;
* `readHeaders_continuation_text` — **PROVED**: the text of a continuation line is never
  stored; header blocks that differ only in the text of their continuation lines give the
  same request.  The comma a continuation adds goes to the last value of `m_headers`, which
  need not be the header it follows;
* `readHeaderLine_transferEncoding` — **PROVED**: a `Transfer-Encoding` line stores what
  follows its colon, leading space included, and `readBody` then throws 501 exactly when that
  text is not caselessly `chunked`; so `Transfer-Encoding: chunked` is refused.
-/

namespace Synergy.Http

open Outcome

/-! ### The loop over the lines of a block -/

/-- The loop body of `readHeaders` run over a list of lines, in order. -/
def readHeaderLines (request : CHTTPRequest) : List (List Char) → Outcome CHTTPRequest
  | [] => pure request
  | line :: lines => readHeaderLine request line >>= fun request => readHeaderLines request lines

/-- The bytes of a header block: each line followed by CRLF, then the blank line. -/
def headerBlock (lines : List (List Char)) : List Char :=
  (lines.map (· ++ crlf)).flatten ++ crlf

/-- A line of a header block: not empty, and no CRLF inside it. -/
def IsHeaderLine (line : List Char) : Prop := line ≠ [] ∧ ¬ crlf <:+: line

/-- One pass of `readHeaders`: read a line; stop at an empty one, else run the loop body on
it and go on. -/
theorem readHeaders_succ (fuel : Nat) (stream : InputStream) (request : CHTTPRequest)
    (isFooter : Bool) (tmpBuffer : List Char) :
    readHeaders (fuel + 1) stream request isFooter tmpBuffer =
      if (readLine stream tmpBuffer).1.isEmpty then pure (request, (readLine stream tmpBuffer).2)
      else readHeaderLine request (readLine stream tmpBuffer).1 >>= fun request =>
        readHeaders fuel (readLine stream tmpBuffer).2.1 request isFooter
          (readLine stream tmpBuffer).2.2 :=
  rfl

/-- **A header block is read line by line.**  On a well-formed stream whose bytes after the
buffer are a header block and then `rest`, `readHeaders` with a pass to spare runs the loop
body over the block's lines and leaves buffer-then-stream equal to `rest`. -/
theorem readHeaders_headerBlock (rest : List Char) :
    ∀ (lines : List (List Char)), (∀ line ∈ lines, IsHeaderLine line) →
    ∀ (stream : InputStream) (tmpBuffer : List Char), stream.WellFormed →
      tmpBuffer ++ stream.content = headerBlock lines ++ rest →
      ∃ stream' tmpBuffer', tmpBuffer' ++ stream'.content = rest ∧ stream'.WellFormed ∧
        ∀ fuel request isFooter, lines.length < fuel →
          readHeaders fuel stream request isFooter tmpBuffer =
            readHeaderLines request lines >>= fun r => pure (r, stream', tmpBuffer')
  | [], _, stream, tmpBuffer, hwf, h => by
    obtain ⟨s', t', hl, hr, hw⟩ :=
      readLine_of_crlf [] rest (by decide) stream tmpBuffer hwf (by simpa [headerBlock] using h)
    refine ⟨s', t', hr, hw, fun fuel request isFooter hfuel => ?_⟩
    obtain ⟨fuel, rfl⟩ : ∃ f, fuel = f + 1 := ⟨fuel - 1, by simp at hfuel; omega⟩
    rw [readHeaders_succ, hl]
    rfl
  | line :: lines, hlines, stream, tmpBuffer, hwf, h => by
    obtain ⟨hne, hcrlf⟩ := hlines line (List.mem_cons_self _ _)
    obtain ⟨s₁, t₁, hl, hr, hw⟩ := readLine_of_crlf line (headerBlock lines ++ rest) hcrlf
      stream tmpBuffer hwf (by rw [h]; simp [headerBlock])
    obtain ⟨s', t', hr', hw', hrun⟩ := readHeaders_headerBlock rest lines
      (fun l hl => hlines l (List.mem_cons_of_mem _ hl)) s₁ t₁ hw hr
    refine ⟨s', t', hr', hw', fun fuel request isFooter hfuel => ?_⟩
    obtain ⟨fuel, rfl⟩ : ∃ f, fuel = f + 1 := ⟨fuel - 1, by simp at hfuel; omega⟩
    have hempty : line.isEmpty = false := by cases line <;> simp_all
    have hfuel : lines.length < fuel := by simp at hfuel; omega
    rw [readHeaders_succ, hl]
    simp only [hempty, Bool.false_eq_true, if_false, readHeaderLines, Outcome.bind_assoc,
      (hrun fuel · isFooter hfuel)]

/-! ### The loop body -/

/-- A line `readHeaders` takes as the continuation of the header before it. -/
def IsContinuation (line : List Char) : Prop := line.head? = some ' ' ∨ line.head? = some '\t'

instance : DecidablePred IsContinuation := fun _ => inferInstanceAs (Decidable (_ ∨ _))

/-- On a continuation line the loop body adds a comma to the last value and nothing else. -/
theorem readHeaderLine_of_continuation (request : CHTTPRequest) {line : List Char}
    (h : IsContinuation line) :
    readHeaderLine request line =
      match request.m_headers.getLast? with
      | none => throw ⟨400⟩
      | some last => pure { request with m_headers := request.m_headers.dropLast ++ [last ++ [',']] } :=
  if_pos h

/-- The loop body on a line `name:value` whose name is a token: a new name is added with the
next index and its value, a known one gets `,value` on its value.  The value is all that
follows the colon, as `getline` leaves it. -/
theorem readHeaderLine_field (request : CHTTPRequest) (name value : List Char)
    (hhead : ¬ IsContinuation (name ++ ':' :: value)) (hcolon : ':' ∉ name)
    (hvalid : isValidToken name = true) (hnl : '\n' ∉ value) :
    readHeaderLine request (name ++ ':' :: value) =
      match request.m_headerIndexByName.find name with
      | none =>
        pure { request with
          m_headerIndexByName := request.m_headerIndexByName ++ [(name, request.m_headers.length)]
          m_headers := request.m_headers ++ [value] }
      | some index =>
        pure { request with
          m_headers := request.m_headers.set index (request.m_headers.getD index [] ++ ',' :: value) } := by
  rw [readHeaderLine, if_neg (show ¬ (_ ∨ _) from hhead)]
  simp only [IStringStream.getline_ofString_delim _ _ _ _ hcolon,
    IStringStream.getline_ofString_all _ _ _ hnl, hvalid]
  rfl

/-! ### What the header and chunk loops throw -/

theorem readBlock_ne_thrown (stream : InputStream) (numBytes : Nat) (tmpBuffer : List Char)
    (e : XHTTP) : readBlock stream numBytes tmpBuffer ≠ thrown e := by
  unfold readBlock; split_ifs <;> simp

theorem readChunk_thrown {stream : InputStream} {tmpBuffer : List Char} {e : XHTTP}
    (h : readChunk stream tmpBuffer = thrown e) : e = ⟨400⟩ := by
  unfold readChunk at h
  split at h
  split at h
  split_ifs at h
  · exact (thrown.inj h).symm
  · rcases bind_eq_thrown.mp h with h | ⟨_, -, h⟩
    · exact absurd h (readBlock_ne_thrown _ _ _ _)
    · split at h
      split_ifs at h
      · exact (thrown.inj h).symm
      · split at h
        split_ifs at h
        exact (thrown.inj h).symm

theorem readChunks_thrown {e : XHTTP} : ∀ (fuel : Nat) (body : List Char) (stream : InputStream)
    (tmpBuffer : List Char), readChunks fuel body stream tmpBuffer = thrown e → e = ⟨400⟩
  | 0, _, _, _, h => by cases h
  | fuel + 1, body, stream, tmpBuffer, h => by
    rcases bind_eq_thrown.mp h with h | ⟨_, -, h⟩
    · exact readChunk_thrown h
    · split at h
      dsimp only at h
      split_ifs at h
      exact readChunks_thrown fuel _ _ _ h

theorem readHeaderLine_thrown {r : CHTTPRequest} {line : List Char} {e : XHTTP}
    (h : readHeaderLine r line = thrown e) : e = ⟨400⟩ := by
  unfold readHeaderLine at h
  split_ifs at h
  · split at h
    · exact (thrown.inj h).symm
    · cases h
  · dsimp only at h
    split at h
    · exact (thrown.inj h).symm
    · split at h <;> cases h

theorem readHeadersLoop_thrown {e : XHTTP} : ∀ (fuel : Nat) (r : CHTTPRequest) (line : List Char)
    (stream : InputStream) (t : List Char), readHeadersLoop fuel r line stream t = thrown e → e = ⟨400⟩
  | 0, _, _, _, _, h => by cases h
  | fuel + 1, r, line, stream, t, h => by
    unfold readHeadersLoop at h
    split_ifs at h
    rcases bind_eq_thrown.mp h with h | ⟨_, -, h⟩
    · exact readHeaderLine_thrown h
    · exact readHeadersLoop_thrown fuel _ _ _ _ h

/-! ### The tables in bijection -/

/-- The two header tables in bijection: the indices in `m_headerIndexByName` are
`0, 1, ...`, one for each value in `m_headers`, in order, and no two of its names are
caselessly equal. -/
structure HeaderTableWF (r : CHTTPRequest) : Prop where
  indices : r.m_headerIndexByName.map Prod.snd = List.range r.m_headers.length
  distinct : r.m_headerIndexByName.Pairwise fun a b => CaselessCmp.equal a.1 b.1 = false

instance (r : CHTTPRequest) : Decidable (HeaderTableWF r) :=
  decidable_of_iff (r.m_headerIndexByName.map Prod.snd = List.range r.m_headers.length ∧
      r.m_headerIndexByName.Pairwise fun a b => CaselessCmp.equal a.1 b.1 = false)
    ⟨fun h => ⟨h.1, h.2⟩, fun h => ⟨h.1, h.2⟩⟩

namespace HeaderTableWF

variable {r : CHTTPRequest} (hwf : HeaderTableWF r)
include hwf

/-- Every index is below the number of values, and every position is some name's index. -/
theorem mem_indices {k : Nat} : (∃ e ∈ r.m_headerIndexByName, e.2 = k) ↔ k < r.m_headers.length := by
  rw [← List.mem_range, ← hwf.indices, List.mem_map]

/-- No two entries share an index. -/
theorem index_injective {e₁ e₂ : List Char × Nat} (h₁ : e₁ ∈ r.m_headerIndexByName)
    (h₂ : e₂ ∈ r.m_headerIndexByName) (h : e₁.2 = e₂.2) : e₁ = e₂ :=
  List.inj_on_of_nodup_map (hwf.indices ▸ List.nodup_range _) h₁ h₂ h

end HeaderTableWF

/-- A name not found is caselessly unequal to every name in the index. -/
theorem CHeaderMap.find_eq_none {m : CHeaderMap} {name : List Char} (h : m.find name = none) :
    ∀ e ∈ m, CaselessCmp.equal e.1 name = false := by
  unfold CHeaderMap.find at h
  simpa using List.find?_eq_none.mp (Option.map_eq_none'.mp h)

/-- What the header loop keeps: well-formed tables stay well formed, and entries of the index
are only ever added at its end, so each keeps the spelling it was added with. -/
def KeepsHeaderTable (r r' : CHTTPRequest) : Prop :=
  HeaderTableWF r → HeaderTableWF r' ∧ r.m_headerIndexByName <+: r'.m_headerIndexByName

theorem KeepsHeaderTable.refl (r : CHTTPRequest) : KeepsHeaderTable r r :=
  fun hwf => ⟨hwf, List.prefix_refl _⟩

theorem KeepsHeaderTable.trans {r₁ r₂ r₃ : CHTTPRequest} (h₁ : KeepsHeaderTable r₁ r₂)
    (h₂ : KeepsHeaderTable r₂ r₃) : KeepsHeaderTable r₁ r₃ := fun hwf =>
  have h := h₁ hwf
  ⟨(h₂ h.1).1, h.2.trans (h₂ h.1).2⟩

/-- Each pass of the loop body keeps the tables in bijection. -/
theorem readHeaderLine_keepsHeaderTable {r r' : CHTTPRequest} {line : List Char}
    (h : readHeaderLine r line = done r') : KeepsHeaderTable r r' := fun hwf => by
  rcases readHeaderLine_cases h with ⟨last, hlast, rfl⟩ | ⟨name, value, hfind, rfl⟩ |
    ⟨_, _, _, -, rfl⟩
  · -- a continuation: one value changed, as many as before
    have hne : 0 < r.m_headers.length := List.length_pos.mpr fun h => by simp [h] at hlast
    refine ⟨⟨?_, hwf.distinct⟩, List.prefix_refl _⟩
    simp only [hwf.indices, List.length_append, List.length_dropLast, List.length_singleton]
    congr 1
    omega
  · -- a new name: the next index, and unequal to every name before
    refine ⟨⟨by simp [hwf.indices, List.range_succ], ?_⟩, List.prefix_append _ _⟩
    simpa [List.pairwise_append, hwf.distinct] using CHeaderMap.find_eq_none hfind
  · -- a name seen before: only its value changes
    exact ⟨⟨by simp [hwf.indices], hwf.distinct⟩, List.prefix_refl _⟩

/-- Header lines with a repeated name in two spellings and a continuation line. -/
def mixedHeaders : List Char := "Host: a\r\nX-A: 1\r\nhost: b\r\n c\r\n\r\n".toList

/-- What `readHeaders` makes of `mixedHeaders`: `host` is filed under the first spelling,
and the continuation's comma lands on `X-A`, the last value. -/
def mixedParsed : CHTTPRequest :=
  { m_headers := [" a, b".toList, " 1,".toList],
    m_headerIndexByName := [("Host".toList, 0), ("X-A".toList, 1)] }

/-- The request line leaves the header tables as they were. -/
theorem parseRequestLine_tables {r r' : CHTTPRequest} {line : List Char}
    (h : parseRequestLine r line = done r') :
    r'.m_headers = r.m_headers ∧ r'.m_headerIndexByName = r.m_headerIndexByName := by
  obtain ⟨_, -, h⟩ := bind_eq_done.mp h
  obtain ⟨_, -, h⟩ := bind_eq_done.mp h
  cases h
  exact ⟨rfl, rfl⟩

/-- **`readBody` keeps what the header loop keeps.**  A relation that composes, that every
pass of the loop body establishes and that holds from a request to the same request with
another body holds from the request `readBody` starts from to the one it returns: chunks then
footers, a `Content-Length` body, or nothing. -/
theorem readBody_rel (R : CHTTPRequest → CHTTPRequest → Prop) (hrefl : ∀ r, R r r)
    (htrans : ∀ {r₁ r₂ r₃}, R r₁ r₂ → R r₂ r₃ → R r₁ r₃)
    (hstep : ∀ {r r' line}, readHeaderLine r line = done r' → R r r')
    (hbody : ∀ r body, R r { r with m_body := body }) {fuel : Nat} {r r' : CHTTPRequest}
    {stream : InputStream} {scratch : List Char} (h : readBody fuel r stream scratch = done r') :
    R r r' := by
  unfold readBody at h
  split at h
  · -- chunked: the chunks set the body, the footers go through the header loop
    obtain ⟨_, -, h⟩ := bind_eq_done.mp h
    obtain ⟨⟨body, s, t⟩, -, h⟩ := bind_eq_done.mp h
    obtain ⟨⟨r', s', t'⟩, hr, h⟩ := bind_eq_done.mp h
    cases h
    exact htrans (hbody r body) (readHeadersLoop_rel R hrefl htrans hstep fuel _ _ _ _ _ _ _ hr)
  · split at h
    · split at h
      · cases h
      · obtain ⟨⟨body, _⟩, -, h⟩ := bind_eq_done.mp h
        dsimp only at h
        split at h
        · cases h
        · cases h
          exact hbody r body
    · cases h
      exact hrefl r

/-! ### Continuation lines -/

/-- Two header lines the loop body treats alike: the same line, or two continuation lines
whatever their text. -/
def SameButContinuationText (line₁ line₂ : List Char) : Prop :=
  line₁ = line₂ ∨ (IsContinuation line₁ ∧ IsContinuation line₂)

theorem readHeaderLines_congr (request : CHTTPRequest) {lines₁ lines₂ : List (List Char)}
    (h : List.Forall₂ SameButContinuationText lines₁ lines₂) :
    readHeaderLines request lines₁ = readHeaderLines request lines₂ := by
  induction h generalizing request with
  | nil => rfl
  | @cons line₁ line₂ lines₁ lines₂ hline _ ih =>
    have hbody : readHeaderLine request line₁ = readHeaderLine request line₂ := by
      rcases hline with rfl | ⟨h₁, h₂⟩
      · rfl
      · rw [readHeaderLine_of_continuation request h₁, readHeaderLine_of_continuation request h₂]
    simp only [readHeaderLines, hbody, ih]

/-- **The text of a continuation line is dropped.**  Two header blocks whose lines agree
except in the text of their continuation lines, each read from any well-formed stream with
any buffer and with a pass to spare, give the same request. -/
theorem readHeaders_continuation_text (lines₁ lines₂ : List (List Char))
    (hsame : List.Forall₂ SameButContinuationText lines₁ lines₂)
    (hlines₁ : ∀ line ∈ lines₁, IsHeaderLine line) (hlines₂ : ∀ line ∈ lines₂, IsHeaderLine line)
    (stream₁ stream₂ : InputStream) (tmpBuffer₁ tmpBuffer₂ rest₁ rest₂ : List Char)
    (hwf₁ : stream₁.WellFormed) (hwf₂ : stream₂.WellFormed)
    (hblock₁ : tmpBuffer₁ ++ stream₁.content = headerBlock lines₁ ++ rest₁)
    (hblock₂ : tmpBuffer₂ ++ stream₂.content = headerBlock lines₂ ++ rest₂)
    (fuel : Nat) (hfuel : lines₁.length < fuel) (request : CHTTPRequest) (isFooter : Bool) :
    (readHeaders fuel stream₁ request isFooter tmpBuffer₁ >>= fun x => pure x.1) =
      (readHeaders fuel stream₂ request isFooter tmpBuffer₂ >>= fun x => pure x.1) := by
  obtain ⟨_, _, -, -, hrun₁⟩ := readHeaders_headerBlock rest₁ lines₁ hlines₁ stream₁ tmpBuffer₁ hwf₁ hblock₁
  obtain ⟨_, _, -, -, hrun₂⟩ := readHeaders_headerBlock rest₂ lines₂ hlines₂ stream₂ tmpBuffer₂ hwf₂ hblock₂
  rw [hrun₁ fuel request isFooter hfuel, hrun₂ fuel request isFooter (hsame.length_eq ▸ hfuel),
    readHeaderLines_congr request hsame]
  simp

instance : DecidablePred IsHeaderLine := fun _ => inferInstanceAs (Decidable (_ ∧ _))

/-- Two blocks that differ in the text of their continuation line give the same request. -/
theorem readHeaders_continuation_x_y :
    (readHeaders 5 ⟨[headerBlock ["A: 1".toList, "B: 2".toList, "A: 3".toList, " x".toList]]⟩
        {} false [] >>= fun x => pure x.1) =
      (readHeaders 5 ⟨[headerBlock ["A: 1".toList, "B: 2".toList, "A: 3".toList, " y".toList]]⟩
        {} false [] >>= fun x => pure x.1) :=
  readHeaders_continuation_text ["A: 1".toList, "B: 2".toList, "A: 3".toList, " x".toList]
    ["A: 1".toList, "B: 2".toList, "A: 3".toList, " y".toList]
    (.cons (.inl rfl) (.cons (.inl rfl) (.cons (.inl rfl) (.cons (.inr ⟨by decide, by decide⟩) .nil))))
    (by decide) (by decide) _ _ [] [] [] [] (by decide) (by decide) (by simp [InputStream.content])
    (by simp [InputStream.content]) 5 (by decide) {} false

/-- The block above stores `A` as ` 1, 3` and `B` as ` 2,`: the continuation adds only a
comma, and adds it to `B`, the last value, although it follows the second `A` line. -/
example :
    (readHeaders 5 ⟨[headerBlock ["A: 1".toList, "B: 2".toList, "A: 3".toList, " x".toList]]⟩
        {} false [] >>= fun x => pure x.1) =
      done { m_headers := [" 1, 3".toList, " 2,".toList],
             m_headerIndexByName := [("A".toList, 0), ("B".toList, 1)] } := by
  decide

/-! ### `Transfer-Encoding` -/

/-- A lookup sees a name only through its lower-case form. -/
theorem CHeaderMap.find_congr (m : CHeaderMap) {a b : List Char}
    (h : a.map Char.toLower = b.map Char.toLower) : m.find a = m.find b := by
  have heq : ∀ e : List Char × Nat, CaselessCmp.equal e.1 a = CaselessCmp.equal e.1 b := fun e => by
    rw [Bool.eq_iff_iff, CaselessCmp.equal_iff, CaselessCmp.equal_iff, h]
  simp only [CHeaderMap.find, heq]

/-- A name added at the end of the index is found under every caseless spelling that no
earlier entry matches. -/
theorem CHeaderMap.find_append_new {m : CHeaderMap} {name key : List Char} (index : Nat)
    (hfind : m.find key = none) (hname : CaselessCmp.equal name key = true) :
    (m ++ [(name, index)]).find key = some index := by
  unfold CHeaderMap.find at hfind ⊢
  rw [List.find?_append, Option.map_eq_none'.mp hfind]
  simp [hname]

/-- **The body step on `Transfer-Encoding`.**  When the request has a `Transfer-Encoding`
header, `readBody` throws 501 exactly when its stored value is not caselessly `chunked`: the
chunk loop and the footers throw nothing but 400. -/
theorem readBody_eq_thrown_501 {r : CHTTPRequest} {index : Nat}
    (hte : r.m_headerIndexByName.find "Transfer-Encoding".toList = some index)
    (fuel : Nat) (stream : InputStream) (scratch : List Char) :
    readBody fuel r stream scratch = thrown ⟨501⟩ ↔
      CaselessCmp.equal (r.m_headers.getD index []) "chunked".toList = false := by
  unfold readBody
  rw [hte]
  constructor
  · intro h
    rcases bind_eq_thrown.mp h with h | ⟨_, -, h⟩
    · exact (throwIf_eq_thrown.mp h).1
    · -- past the check, the chunk loop and the footers throw only 400
      rcases bind_eq_thrown.mp h with h | ⟨_, -, h⟩
      · cases readChunks_thrown fuel _ _ _ h
      · rcases bind_eq_thrown.mp h with h | ⟨_, -, h⟩
        · cases readHeadersLoop_thrown fuel _ _ _ _ h
        · cases h
  · exact fun hc => bind_eq_thrown.mpr (.inl (throwIf_eq_thrown.mpr ⟨hc, rfl⟩))

/-- **`Transfer-Encoding` is read with the space after its colon.**  A header line naming
`Transfer-Encoding` in any spelling, in a request that has no such header yet, stores all
that follows the colon as the value, and `readBody` then throws 501 exactly when that text,
white space included, is not caselessly `chunked`. -/
theorem readHeaderLine_transferEncoding (request : CHTTPRequest) (name value : List Char)
    (hname : CaselessCmp.equal name "Transfer-Encoding".toList = true) (hnl : '\n' ∉ value)
    (hnew : request.hasHeader "Transfer-Encoding".toList = false) :
    ∃ request', readHeaderLine request (name ++ ':' :: value) = done request' ∧
      request'.headerValue "Transfer-Encoding".toList = some value ∧
      ∀ fuel stream scratch, readBody fuel request' stream scratch = thrown ⟨501⟩ ↔
        CaselessCmp.equal value "chunked".toList = false := by
  have hlow := (CaselessCmp.equal_iff _ _).mp hname
  -- a character that `tolower` keeps is in the name only if it is in `transfer-encoding`
  have hmem : ∀ c ∈ name, c.toLower = c → c ∈ "Transfer-Encoding".toList.map Char.toLower :=
    fun c hc hlc => hlow ▸ hlc ▸ List.mem_map_of_mem _ hc
  have hcolon : ':' ∉ name := fun hc => absurd (hmem ':' hc rfl) (by decide)
  have hvalid : isValidToken name = true := (isValidToken_iff name).mpr fun hi =>
    absurd (hmem '(' (hi.subset (by decide)) rfl) (by decide)
  have hhead : ¬ IsContinuation (name ++ ':' :: value) := by
    obtain _ | ⟨c, cs⟩ := name
    · cases hlow
    · have hc : c.toLower = 't' := (List.cons.inj hlow).1
      rintro (h | h) <;> simp only [List.cons_append, List.head?_cons, Option.some.injEq] at h <;>
        subst h <;> cases hc
  have hnone : request.m_headerIndexByName.find "Transfer-Encoding".toList = none := by
    simpa [CHTTPRequest.hasHeader] using hnew
  have hfind : request.m_headerIndexByName.find name = none :=
    (CHeaderMap.find_congr _ hlow).trans hnone
  have hte := CHeaderMap.find_append_new request.m_headers.length hnone hname
  rw [readHeaderLine_field request name value hhead hcolon hvalid hnl, hfind]
  refine ⟨_, rfl, ?_, fun fuel stream scratch => ?_⟩
  · rw [CHTTPRequest.headerValue, hte]
    simp
  rw [readBody_eq_thrown_501 hte]
  simp

/-- `Transfer-Encoding: chunked` is stored as ` chunked`, and the body step refuses it. -/
theorem readHeaderLine_transferEncoding_chunked :
    ∃ request', readHeaderLine {} "Transfer-Encoding: chunked".toList = done request' ∧
      request'.headerValue "Transfer-Encoding".toList = some " chunked".toList ∧
      ∀ fuel stream scratch, readBody fuel request' stream scratch = thrown ⟨501⟩ := by
  obtain ⟨r, h, hv, h501⟩ := readHeaderLine_transferEncoding {} "Transfer-Encoding".toList
    " chunked".toList (by decide) (by decide) (by decide)
  exact ⟨r, h, hv, fun fuel stream scratch => (h501 fuel stream scratch).mpr (by decide)⟩

/-- The whole request is refused with 501. -/
example : readRequest 3 ⟨["POST / HTTP/1.0 \r\nTransfer-Encoding: chunked\r\n\r\n0\r\n\r\n".toList]⟩ =
    thrown ⟨501⟩ := by
  decide

end Synergy.Http
