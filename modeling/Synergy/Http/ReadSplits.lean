import Synergy.Http.Chunked

/-!
# The parse reads bytes, not reads

`readRequest` takes its bytes through `readLine` and `readBlock`, which keep what they have
read and not used in the scratch buffer.  Where the transport cuts the bytes into reads is
then invisible to the parse, but for one test: `readBlock` asked for no bytes stops at its
assertion when the scratch buffer is empty, and returns nothing when it is not
(`readBlock_aborted_iff`).

* `Outcome.Agree` — two runs of one function from two places: they return results a relation
  holds of, throw the same status, both run out of loop passes, or one of them stopped at the
  assertion; `Agree.bind` composes it;
* `SamePlace` — two streams and scratch buffers with the same bytes still to come;
* `readLine_samePlace`, `readBlock_agree` — **PROVED**: the two readers return the same bytes
  and leave the same bytes to come, from any two places with the same bytes to come;
* `readChunk_agree`, `readChunks_agree`, `readHeadersLoop_agree`, `readRequestLine_agree`,
  `readBody_agree` — **PROVED**: so does every loop of `readRequest`, by induction on its
  passes;
* `readRequest_splitInvariant` — **PROVED**: on two well-formed streams with the same bytes,
  however each is cut into reads, `readRequest` returns the same request, throws the same
  status or runs out on both, unless one of them stops at the assertion.
-/

namespace Synergy.Http

open Outcome

namespace Outcome

variable {α β : Type}

/-- Two runs of one function from two places: both return, with results `R` holds of; both
throw the same status; both run out of loop passes; or one of them stopped at the
assertion. -/
def Agree (R : α → α → Prop) : Outcome α → Outcome α → Prop
  | done a, done b => R a b
  | thrown e, thrown e' => e = e'
  | outOfFuel, outOfFuel => True
  | aborted, _ => True
  | _, aborted => True
  | _, _ => False

@[simp] theorem agree_aborted_left (R : α → α → Prop) (y : Outcome α) : Agree R aborted y := by
  cases y <;> trivial

@[simp] theorem agree_aborted_right (R : α → α → Prop) (x : Outcome α) : Agree R x aborted := by
  cases x <;> trivial

/-- One computation agrees with itself. -/
theorem Agree.refl {R : α → α → Prop} (hR : ∀ a, R a a) : ∀ x : Outcome α, Agree R x x
  | done a => hR a
  | thrown _ => rfl
  | outOfFuel => trivial
  | aborted => trivial

/-- Two runs that agree, each followed by continuations that agree on what they return. -/
theorem Agree.bind {R : α → α → Prop} {S : β → β → Prop} {x y : Outcome α}
    {f g : α → Outcome β} (h : Agree R x y) (hfg : ∀ a b, R a b → Agree S (f a) (g b)) :
    Agree S (x >>= f) (y >>= g) := by
  cases x <;> cases y <;>
    simp only [done_bind, thrown_bind, outOfFuel_bind, aborted_bind, agree_aborted_left,
      agree_aborted_right] <;>
    first | exact hfg _ _ h | exact h | trivial

/-- Runs that agree on equal results are equal, unless one of them stopped at the
assertion. -/
theorem Agree.eq_or_aborted {x y : Outcome α} (h : Agree Eq x y) :
    x = y ∨ x = aborted ∨ y = aborted := by
  cases x <;> cases y <;> (try exact .inr (.inl rfl)) <;> (try exact .inr (.inr rfl)) <;>
    cases h <;> exact .inl rfl

end Outcome

/-- Two places in two well-formed streams with the same bytes still to come: the scratch
buffer, then what the stream still holds. -/
structure SamePlace (s : InputStream) (t : List Char) (s' : InputStream) (t' : List Char) :
    Prop where
  wf : s.WellFormed
  wf' : s'.WellFormed
  ahead : t ++ s.content = t' ++ s'.content

/-- Two results of a reader: the same value, at places with the same bytes to come. -/
def Same {α : Type} (x y : α × InputStream × List Char) : Prop :=
  x.1 = y.1 ∧ SamePlace x.2.1 x.2.2 y.2.1 y.2.2

variable {s s' : InputStream} {t t' : List Char}

/-! ### The two readers -/

/-- `readLine` reads the same line, and leaves the same bytes to come, from two places with
the same bytes to come. -/
theorem readLine_samePlace (h : SamePlace s t s' t') :
    ∃ line s₁ t₁ s₁' t₁', readLine s t = (line, s₁, t₁) ∧ readLine s' t' = (line, s₁', t₁') ∧
      SamePlace s₁ t₁ s₁' t₁' := by
  cases hfind : find crlf (t ++ s.content) with
  | none =>
    -- no CRLF: all of it is the line, and nothing is left
    have hno := (find_eq_none_iff _ _).mp hfind
    obtain ⟨s₁, e, hs₁, w₁⟩ := readLineLoop_of_no_crlf _ s t h.wf (Nat.lt_succ_self _) hno
    obtain ⟨s₁', e', hs₁', w₁'⟩ :=
      readLineLoop_of_no_crlf _ s' t' h.wf' (Nat.lt_succ_self _) (h.ahead ▸ hno)
    exact ⟨_, s₁, [], s₁', [], e, by rw [h.ahead]; exact e', w₁, w₁', by rw [hs₁, hs₁']⟩
  | some k =>
    -- the line before the first CRLF, and the same bytes after it
    obtain ⟨rest, hrest⟩ := prefix_of_find hfind
    have hsplit : t ++ s.content = (t ++ s.content).take k ++ crlf ++ rest := by
      rw [List.append_assoc, hrest, List.take_append_drop]
    have hL := not_infix_take_of_find (by simp [crlf]) hfind
    obtain ⟨s₁, t₁, e, r, w₁⟩ := readLine_of_crlf _ rest hL s t h.wf hsplit
    obtain ⟨s₁', t₁', e', r', w₁'⟩ := readLine_of_crlf _ rest hL s' t' h.wf' (h.ahead.symm.trans hsplit)
    exact ⟨_, s₁, t₁, s₁', t₁', e, e', w₁, w₁', r.trans r'.symm⟩

/-- When the stream ends before the block does, `readBlock` returns all that is left. -/
theorem readBlock_of_short {numBytes : Nat} (hn : (t ++ s.content).length < numBytes)
    (hwf : s.WellFormed) :
    ∃ s₁, readBlock s numBytes t = done (t ++ s.content, s₁, []) ∧ s₁.content = [] ∧
      s₁.WellFormed := by
  rw [List.length_append] at hn
  obtain ⟨s₁, hrun, hc, hw⟩ :=
    readBlockLoop_take numBytes (numBytes - t.length) s t hwf (Nat.sub_le _ _)
  refine ⟨s₁, ?_, by rw [hc, List.drop_eq_nil_of_le (by omega)], hw⟩
  unfold readBlock
  rw [if_neg (by omega), if_neg (by omega)]
  simp only [hrun, List.take_of_length_le (show s.content.length ≤ numBytes - t.length by omega)]
  rfl

/-- `readBlock` reads the same block, and leaves the same bytes to come, from two places with
the same bytes to come; asked for no bytes, it stops at its assertion where the scratch
buffer is empty. -/
theorem readBlock_agree (h : SamePlace s t s' t') (numBytes : Nat) :
    Agree Same (readBlock s numBytes t) (readBlock s' numBytes t') := by
  rcases Nat.eq_zero_or_pos numBytes with rfl | hn
  · -- no bytes: the buffer alone serves, or the assertion fails
    unfold readBlock
    split_ifs <;>
      (try simp only [pure_eq, agree_aborted_left, agree_aborted_right, List.take_zero,
        List.drop_zero]) <;>
      first | exact ⟨rfl, h⟩ | omega
  by_cases hlen : numBytes ≤ (t ++ s.content).length
  · -- the whole block: its bytes, and the same bytes after it
    have hc' : ((t ++ s.content).take numBytes).length = numBytes := by
      rw [List.length_take, Nat.min_eq_left hlen]
    have hc : (t ++ s.content).take numBytes ≠ [] := List.ne_nil_of_length_pos (by rw [hc']; exact hn)
    obtain ⟨s₁, t₁, e, r, w₁⟩ := readBlock_exact _ _ hc s t h.wf (List.take_append_drop _ _).symm
    obtain ⟨s₁', t₁', e', r', w₁'⟩ := readBlock_exact _ _ hc s' t' h.wf'
      (h.ahead.symm.trans (List.take_append_drop _ _).symm)
    rw [hc'] at e e'
    rw [e, e']
    exact ⟨rfl, w₁, w₁', r.trans r'.symm⟩
  · -- the stream ends first: all that is left, and nothing after it
    obtain ⟨s₁, e, hs₁, w₁⟩ :=
      readBlock_of_short (show (t ++ s.content).length < numBytes by omega) h.wf
    obtain ⟨s₁', e', hs₁', w₁'⟩ :=
      readBlock_of_short (show (t' ++ s'.content).length < numBytes by rw [← h.ahead]; omega) h.wf'
    rw [e, e']
    exact ⟨h.ahead, w₁, w₁', by rw [hs₁, hs₁']⟩

/-! ### The loops -/

/-- A chunk: the same size line, the same block and the same CRLF after it. -/
theorem readChunk_agree (h : SamePlace s t s' t') :
    Agree Same (readChunk s t) (readChunk s' t') := by
  obtain ⟨line, s₁, t₁, s₁', t₁', e, e', h₁⟩ := readLine_samePlace h
  simp only [readChunk, e, e']
  generalize (IStringStream.ofString line).extractUInt32 true 0 = r
  obtain ⟨size, st⟩ := r
  dsimp only
  split_ifs
  · rfl
  · exact ⟨rfl, h₁⟩
  · refine (readBlock_agree h₁ size).bind fun a b hab => ?_
    obtain ⟨data, s₂, t₂⟩ := a
    obtain ⟨_, s₂', t₂'⟩ := b
    obtain ⟨rfl, h₂⟩ := hab
    obtain ⟨line', s₃, t₃, s₃', t₃', e, e', h₃⟩ := readLine_samePlace h₂
    simp only [e, e']
    split_ifs
    · rfl
    · rfl
    · exact ⟨rfl, h₃⟩

/-- The chunk loop, pass by pass. -/
theorem readChunks_agree : ∀ (fuel : Nat) (body : List Char) {s s' : InputStream}
    {t t' : List Char}, SamePlace s t s' t' →
    Agree Same (readChunks fuel body s t) (readChunks fuel body s' t')
  | 0, _, _, _, _, _, _ => trivial
  | fuel + 1, body, _, _, _, _, h => by
    simp only [readChunks]
    refine (readChunk_agree h).bind fun a b hab => ?_
    obtain ⟨chunk, s₁, t₁⟩ := a
    obtain ⟨_, s₁', t₁'⟩ := b
    obtain ⟨rfl, h₁⟩ := hab
    dsimp only
    split_ifs
    · exact readChunks_agree fuel _ h₁
    · exact ⟨rfl, h₁⟩

/-- The header loop, line by line. -/
theorem readHeadersLoop_agree : ∀ (fuel : Nat) (request : CHTTPRequest) (line : List Char)
    {s s' : InputStream} {t t' : List Char}, SamePlace s t s' t' →
    Agree Same (readHeadersLoop fuel request line s t) (readHeadersLoop fuel request line s' t')
  | 0, _, _, _, _, _, _, _ => trivial
  | fuel + 1, request, line, _, _, _, _, h => by
    simp only [readHeadersLoop]
    split_ifs
    · exact ⟨rfl, h⟩
    · refine (Agree.refl (fun _ => rfl) (readHeaderLine request line)).bind fun r _ hr => ?_
      subst hr
      obtain ⟨line', s₁, t₁, s₁', t₁', e, e', h₁⟩ := readLine_samePlace h
      simp only [e, e']
      exact readHeadersLoop_agree fuel r line' h₁

theorem readHeaders_agree (fuel : Nat) (request : CHTTPRequest) (isFooter : Bool)
    (h : SamePlace s t s' t') :
    Agree Same (readHeaders fuel s request isFooter t) (readHeaders fuel s' request isFooter t') := by
  obtain ⟨line, s₁, t₁, s₁', t₁', e, e', h₁⟩ := readLine_samePlace h
  simp only [readHeaders, e, e']
  exact readHeadersLoop_agree fuel request line h₁

/-- The loop over the lines before the request line. -/
theorem readRequestLine_agree : ∀ (fuel : Nat) {s s' : InputStream} {t t' : List Char},
    SamePlace s t s' t' → Agree Same (readRequestLine fuel s t) (readRequestLine fuel s' t')
  | 0, _, _, _, _, _ => trivial
  | fuel + 1, _, _, _, _, h => by
    obtain ⟨line, s₁, t₁, s₁', t₁', e, e', h₁⟩ := readLine_samePlace h
    simp only [readRequestLine, e, e']
    split_ifs
    · exact readRequestLine_agree fuel h₁
    · exact ⟨rfl, h₁⟩

/-- The body: the chunks and footers, or the `Content-Length` block. -/
theorem readBody_agree (fuel : Nat) (request : CHTTPRequest) (h : SamePlace s t s' t') :
    Agree Eq (readBody fuel request s t) (readBody fuel request s' t') := by
  unfold readBody
  split
  · -- chunked
    refine (Agree.refl (fun _ => rfl) (throwIf _ 501)).bind fun _ _ _ => ?_
    refine (readChunks_agree fuel _ h).bind fun a b hab => ?_
    obtain ⟨body, s₁, t₁⟩ := a
    obtain ⟨_, s₁', t₁'⟩ := b
    obtain ⟨rfl, h₁⟩ := hab
    refine (readHeaders_agree fuel _ true h₁).bind fun a b hab => ?_
    obtain ⟨r, _⟩ := a
    obtain ⟨_, _⟩ := b
    obtain ⟨rfl, -⟩ := hab
    rfl
  · split
    · split
      · rfl
      · refine (readBlock_agree h _).bind fun a b hab => ?_
        obtain ⟨body, _⟩ := a
        obtain ⟨_, _⟩ := b
        obtain ⟨rfl, -⟩ := hab
        dsimp only
        split_ifs <;> rfl
    · rfl

/-- Up to the body: the request line, the headers and the checks on them. -/
theorem readRequestHead_agree (fuel : Nat) (h : SamePlace s [] s' []) :
    Agree Same (readRequestHead fuel s) (readRequestHead fuel s') := by
  unfold readRequestHead
  refine (readRequestLine_agree fuel h).bind fun a b hab => ?_
  obtain ⟨line, s₁, t₁⟩ := a
  obtain ⟨_, s₁', t₁'⟩ := b
  obtain ⟨rfl, h₁⟩ := hab
  refine (Agree.refl (fun _ => rfl) (parseRequestLine {} line)).bind fun r _ hr => ?_
  subst hr
  refine (Agree.refl (fun _ => rfl) (throwIf _ 400)).bind fun _ _ _ => ?_
  refine (Agree.refl (fun _ => rfl) (throwIf _ 400)).bind fun _ _ _ => ?_
  refine (readHeaders_agree fuel r false h₁).bind fun a b hab => ?_
  obtain ⟨r', s₂, t₂⟩ := a
  obtain ⟨_, s₂', t₂'⟩ := b
  obtain ⟨rfl, h₂⟩ := hab
  refine (Agree.refl (fun _ => rfl) (throwIf _ 400)).bind fun _ _ _ => ?_
  refine (Agree.refl (fun _ => rfl) (throwIf _ 400)).bind fun _ _ _ => ?_
  exact ⟨rfl, h₂⟩

/-! ### The request -/

/-- **How the reads split the bytes does not matter.**  On two well-formed streams with the
same bytes, each cut into reads in its own way, `readRequest` returns the same request, throws
the same status, or runs out of loop passes on both, unless one of them stops at the
assertion of `readBlock`. -/
theorem readRequest_splitInvariant (fuel : Nat) {stream stream' : InputStream}
    (hwf : stream.WellFormed) (hwf' : stream'.WellFormed) (h : stream.content = stream'.content) :
    readRequest fuel stream = readRequest fuel stream' ∨
      readRequest fuel stream = aborted ∨ readRequest fuel stream' = aborted := by
  refine Agree.eq_or_aborted ?_
  rw [readRequest_eq_head, readRequest_eq_head]
  refine (readRequestHead_agree fuel ⟨hwf, hwf', by simpa using h⟩).bind fun a b hab => ?_
  obtain ⟨r, s₁, t₁⟩ := a
  obtain ⟨_, s₁', t₁'⟩ := b
  obtain ⟨rfl, h₁⟩ := hab
  exact readBody_agree fuel r h₁

/-- A `GET` in one read, and cut inside the version and between the CR and the LF. -/
theorem readRequest_get_resplit :
    InputStream.content ⟨["GET / HTTP/1.0 \r\n\r\n".toList]⟩ =
      InputStream.content ⟨["GET / HT".toList, "TP/1.0 \r".toList, "\n\r\n".toList]⟩ ∧
    (readRequest 2 ⟨["GET / HTTP/1.0 \r\n\r\n".toList]⟩ =
        readRequest 2 ⟨["GET / HT".toList, "TP/1.0 \r".toList, "\n\r\n".toList]⟩ ∨
      readRequest 2 ⟨["GET / HTTP/1.0 \r\n\r\n".toList]⟩ = aborted ∨
      readRequest 2 ⟨["GET / HT".toList, "TP/1.0 \r".toList, "\n\r\n".toList]⟩ = aborted) :=
  ⟨by decide, readRequest_splitInvariant 2 (by decide) (by decide) (by decide)⟩

/-- Where the split matters: `POST` with `Content-Length: 0` and one byte after it.  In one
read the byte waits in the scratch buffer and the empty body is read from there; in two reads
the scratch buffer is empty when the body is read, and the assertion fails. -/
example : readRequest 2 ⟨[emptyPost ++ ['G']]⟩ ≠ aborted ∧
    readRequest 2 ⟨[emptyPost, ['G']]⟩ = aborted := by
  decide

end Synergy.Http
