import Synergy.Http.FormData

/-!
# The part loop of `parseFormData` ends and reads inside the body

The part loop of `CHTTPProtocol::parseFormData` is a `for (;;)` whose progress rests on its
searches: each pass that goes on sets `partIndex` to just after the next delimiter, which is
found at or after `partIndex`.  Its reads rest on them too: `body[partIndex]` is guarded by the
size test, and every other position it reads is bounded by a match found inside the body.

* `findFrom_bounds`, `searchCaseless_bounds` — where the searches can land;
* `formStep_part_bounds` — a pass that goes on moves `partIndex` forward by at least the
  delimiter's length, and not past the end;
* `parseFormDataLoop_isSome` — the loop returns once it has passes enough to walk
  `partIndex` to the end; `parseFormData_isSome`: the `body.size() + 2` passes
  `parseFormData` gives it are enough;
* `partIndices` — the values `partIndex` takes, pass by pass: `parseFormDataLoop_partIndices`,
  after `k` passes the loop goes on from the `k`-th; `formStepReads` — the ranges of the body
  a pass reads (`lastPartReads`, `extractNameReads`, `substrRange`);
* `parseFormData_terminates` — **PROVED**: for every request `parseFormData` returns, and
  where it runs the loop, `partIndex` starts inside the body, increases at every pass and
  stays inside the body, and every range a pass reads lies within the body.
-/

namespace Synergy.Http

/-! ### Where the searches land -/

/-- A match `find` reports lies wholly inside the text. -/
theorem find_add_length_le {pattern s : List Char} {k : Nat} (h : find pattern s = some k) :
    k + pattern.length ≤ s.length := by
  have hle := (prefix_of_find h).length_le
  rw [List.length_drop] at hle
  rcases pattern with _ | ⟨c, p⟩
  · obtain rfl : k = 0 := by cases s <;> simp [find] at h <;> omega
    simp
  · simp only [List.length_cons] at hle ⊢
    omega

/-- `findFrom` reports a match at or after where it started, wholly inside the text. -/
theorem findFrom_bounds {pattern s : List Char} {pos k : Nat}
    (h : findFrom pattern s pos = some k) : pos ≤ k ∧ k + pattern.length ≤ s.length := by
  unfold findFrom at h
  split_ifs at h with hpos
  obtain ⟨j, hj, rfl⟩ := Option.map_eq_some'.mp h
  have := find_add_length_le hj
  rw [List.length_drop] at this
  omega

/-- `std::search` over `[first, last)` returns a place in the range; a match it reports, for a
nonempty pattern, ends by `last` and inside the text. -/
theorem searchCaseless_bounds (s : List Char) {first last : Nat} (pattern : List Char)
    (hpat : pattern ≠ []) (hfl : first ≤ last) :
    first ≤ searchCaseless s first last pattern ∧ (searchCaseless s first last pattern = last ∨
      searchCaseless s first last pattern + pattern.length ≤ min last s.length) := by
  unfold searchCaseless
  split
  · next k hk =>
    have := find_add_length_le hk
    have hp : 0 < pattern.length := List.length_pos.mpr hpat
    simp only [List.length_map, List.length_drop, List.length_take] at this
    omega
  · exact ⟨hfl, .inl rfl⟩

/-! ### The loop ends -/

/-- A pass that goes on moves `partIndex` to just after the next delimiter: forward, and not
past the end of the body. -/
theorem formStep_part_bounds {body delimiter name value : List Char}
    {partIndex endOfHeaders nextPart : Nat}
    (h : formStep body delimiter partIndex = .part name value endOfHeaders nextPart) :
    partIndex ≤ nextPart ∧ nextPart + delimiter.length ≤ body.length :=
  findFrom_bounds (formStep_eq_part h).1

/-- Passes enough to walk `partIndex` to the end of the body end the loop: each pass that
goes on moves `partIndex` forward by at least the delimiter's length. -/
theorem parseFormDataLoop_isSome {body delimiter : List Char} (hd : delimiter ≠ []) :
    ∀ (fuel partIndex : Nat) (parts : CFormParts), partIndex ≤ body.length →
      body.length - partIndex < fuel →
      (parseFormDataLoop body delimiter fuel partIndex parts).isSome
  | 0, _, _, _, hfuel => absurd hfuel (Nat.not_lt_zero _)
  | fuel + 1, partIndex, parts, hp, hfuel => by
    rw [parseFormDataLoop]
    split
    · rfl
    · rfl
    · next name value _ nextPart hstep =>
      have := formStep_part_bounds hstep
      have : 0 < delimiter.length := List.length_pos.mpr hd
      exact parseFormDataLoop_isSome hd fuel _ _ (by omega) (by omega)

/-- The values `partIndex` takes at the passes of the part loop, with at most `fuel` passes:
the trace of `parseFormDataLoop`. -/
def partIndices (body delimiter : List Char) : Nat → Nat → List Nat
  | 0, _ => []
  | fuel + 1, partIndex =>
    partIndex :: match formStep body delimiter partIndex with
      | .part _ _ _ nextPart => partIndices body delimiter fuel (nextPart + delimiter.length)
      | _ => []

/-- **The passes of the loop are at `partIndices`.**  The `k`-th value is where the `k`-th pass
runs: after `k` passes the loop goes on as the loop from that value, with `k` passes fewer
(at least one left) and the parts inserted so far. -/
theorem parseFormDataLoop_partIndices {body delimiter : List Char} :
    ∀ (fuel partIndex : Nat) (parts : CFormParts) (k q : Nat),
      (partIndices body delimiter fuel partIndex)[k]? = some q →
      k < fuel ∧ ∃ parts', parseFormDataLoop body delimiter fuel partIndex parts =
        parseFormDataLoop body delimiter (fuel - k) q parts'
  | 0, _, _, _, _, h => by simp [partIndices] at h
  | fuel + 1, partIndex, parts, 0, q, h => by
    simp only [partIndices, List.getElem?_cons_zero, Option.some.injEq] at h
    exact ⟨Nat.succ_pos _, parts, by rw [h]; rfl⟩
  | fuel + 1, partIndex, parts, k + 1, q, h => by
    simp only [partIndices, List.getElem?_cons_succ] at h
    split at h
    · next name value _ nextPart hstep =>
      obtain ⟨hk, parts', e⟩ := parseFormDataLoop_partIndices fuel _ (parts.insert (name, value)) k q h
      refine ⟨Nat.succ_lt_succ hk, parts', ?_⟩
      rw [parseFormDataLoop, hstep]
      exact e.trans (by rw [Nat.add_sub_add_right])
    · simp at h

/-- From a `partIndex` inside the body, the loop's `partIndex` increases at every pass and stays
inside the body. -/
theorem partIndices_increasing {body delimiter : List Char} (hd : delimiter ≠ []) :
    ∀ (fuel partIndex : Nat), partIndex ≤ body.length →
      (partIndices body delimiter fuel partIndex).Chain' (· < ·) ∧
        ∀ q ∈ partIndices body delimiter fuel partIndex, q ≤ body.length
  | 0, _, _ => ⟨trivial, by simp [partIndices]⟩
  | fuel + 1, partIndex, hp => by
    rw [partIndices]
    split
    · next name value _ nextPart hstep =>
      have := formStep_part_bounds hstep
      have : 0 < delimiter.length := List.length_pos.mpr hd
      obtain ⟨hchain, hle⟩ :=
        @partIndices_increasing body delimiter hd fuel (nextPart + delimiter.length) (by omega)
      cases fuel with
      | zero => exact ⟨List.Chain.nil, List.forall_mem_cons.mpr ⟨hp, hle⟩⟩
      | succ fuel =>
        rw [partIndices] at hchain hle ⊢
        exact ⟨.cons (by omega) hchain, List.forall_mem_cons.mpr ⟨hp, hle⟩⟩
    · exact ⟨List.Chain.nil, by simp [hp]⟩

/-- `parseFormData` returns `false` before the loop, or runs the loop with the delimiter
`CRLF--` and the boundary, from a `partIndex` inside the body, with `body.size() + 2` passes. -/
theorem parseFormData_eq_loop (request : CHTTPRequest) (parts : CFormParts) :
    parseFormData request parts = some (false, parts) ∨
      ∃ boundary partIndex, partIndex ≤ request.m_body.length ∧
        parseFormData request parts = parseFormDataLoop request.m_body ("\r\n--".toList ++ boundary)
          (request.m_body.length + 2) partIndex parts := by
  unfold parseFormData
  split
  · exact .inl rfl
  · dsimp only
    split_ifs
    · exact .inl rfl
    · exact .inl rfl
    · split
      · exact .inl rfl
      · next partIndex hfind =>
        exact .inr ⟨_, _, find_add_length_le hfind, rfl⟩

/-! ### What a pass reads -/

/-- The positions `substr(pos, n)` copies, as a range `[pos, min (pos + n) size)`; it throws
when `pos > size`, where the range is empty the wrong way round. -/
def substrRange (s : List Char) (pos n : Nat) : Nat × Nat := (pos, min (pos + n) s.length)

/-- The ranges of the body the name block reads: `*index`; for a quoted name the range
`std::search` scans for the closing quote, and the name it copies; for a bare name the name
it copies. -/
def extractNameReads (body : List Char) (index endOfHeader : Nat) : List (Nat × Nat) :=
  (index, index + 1) ::
  if charAt body index = '"' then
    let namePos := index + 1
    let index := searchCaseless body namePos endOfHeader ['"']
    (namePos, endOfHeader) ::
      if index = endOfHeader then [] else [substrRange body namePos (index - namePos)]
  else [substrRange body index (findFirstOf " \t\r\n".toList body)]

/-- The positions the last-part test reads: `body[partIndex]`, and `body[partIndex + 1]` after
a `-` there, once `body.size() >= partIndex + 2` (`&&` reads no further). -/
def lastPartReads (body : List Char) (partIndex : Nat) : List (Nat × Nat) :=
  if partIndex + 2 ≤ body.length then
    (partIndex, partIndex + 1) ::
      if charAt body partIndex = '-' then [(partIndex + 1, partIndex + 2)] else []
  else []

/-- The ranges `[first, last)` of the body one pass of the part loop reads, in its order: the
last-part test's; the ranges `std::search` scans for `Content-Disposition:` and `name=`; the
name block's reads; and the value `substr` copies.  The `find` calls are left out: whatever
their start, they read nothing at or past the end. -/
def formStepReads (body delimiter : List Char) (partIndex : Nat) : List (Nat × Nat) :=
  lastPartReads body partIndex ++
  if partIndex + 2 ≤ body.length ∧ charAt body partIndex = '-' ∧
      charAt body (partIndex + 1) = '-' then []
  else
    match findFrom delimiter body partIndex with
    | none => []
    | some nextPart =>
      match findFrom "\r\n\r\n".toList body partIndex with
      | none => []
      | some endOfHeaders =>
        if nextPart < endOfHeaders then []
        else
          let endOfHeaders := endOfHeaders + 2
          let index := searchCaseless body partIndex endOfHeaders "Content-Disposition:".toList
          (partIndex, endOfHeaders) ::
          match findFrom crlf body index with
          | none => []
          | some endOfHeader =>
            if endOfHeaders ≤ endOfHeader then []
            else
              let index' := searchCaseless body index endOfHeader "name=".toList
              (index, endOfHeader) ::
              if index' = endOfHeader then []
              else extractNameReads body (index' + 5) endOfHeader ++
                if (extractName body (index' + 5) endOfHeader).isSome then
                  [substrRange body (endOfHeaders + 2) (sizeSub nextPart (endOfHeaders + 2))]
                else []

/-- A range that lies within the body. -/
def InBody (body : List Char) (r : Nat × Nat) : Prop := r.1 ≤ r.2 ∧ r.2 ≤ body.length

theorem substrRange_inBody {body : List Char} {pos : Nat} (n : Nat) (h : pos ≤ body.length) :
    InBody body (substrRange body pos n) := by
  simp only [InBody, substrRange]; omega

/-- The name block reads inside the body when `index` is at most `endOfHeader`, where a CR
stands. -/
theorem extractNameReads_inBody {body : List Char} {index endOfHeader : Nat}
    (hle : index ≤ endOfHeader) (hend : endOfHeader < body.length)
    (hcr : charAt body endOfHeader = '\r') :
    ∀ r ∈ extractNameReads body index endOfHeader, InBody body r := by
  unfold extractNameReads
  intro r hr
  rcases List.mem_cons.mp hr with rfl | hr
  · simp only [InBody]; omega
  split_ifs at hr with hq
  · -- a quote, so not the CR at `endOfHeader`
    have hlt : index < endOfHeader := by
      rcases Nat.lt_or_eq_of_le hle with h | rfl
      · exact h
      · rw [hcr] at hq; cases hq
    have hs := searchCaseless_bounds body ['"'] (by simp) (Nat.succ_le_of_lt hlt)
    dsimp only at hr
    split_ifs at hr
    · simp only [List.mem_singleton] at hr; subst hr; simp only [InBody]; omega
    · simp only [List.mem_cons, List.mem_singleton, List.not_mem_nil, or_false] at hr
      rcases hr with rfl | rfl
      · simp only [InBody]; omega
      · exact substrRange_inBody _ (by omega)
  · simp only [List.mem_singleton] at hr; subst hr
    exact substrRange_inBody _ (by omega)

/-- **Every range a pass reads lies within the body**, whatever `partIndex` is: the dashes
are read only under the size test, and every other range ends at a match one of the searches
found inside the body. -/
theorem formStepReads_inBody (body delimiter : List Char) (partIndex : Nat) :
    ∀ r ∈ formStepReads body delimiter partIndex, InBody body r := by
  unfold formStepReads
  intro r hr
  rcases List.mem_append.mp hr with hr | hr
  · unfold lastPartReads at hr
    split_ifs at hr <;> simp at hr <;> rcases hr with rfl | rfl <;> simp only [InBody] <;> omega
  split at hr
  · cases hr
  split at hr
  · cases hr
  next nextPart hnext =>
  split at hr
  · cases hr
  next eoh heoh =>
  have ⟨_, heoh'⟩ := findFrom_bounds heoh
  rw [show ("\r\n\r\n".toList).length = 4 from rfl] at heoh'
  split at hr
  · cases hr
  dsimp only at hr
  rcases List.mem_cons.mp hr with rfl | hr
  · simp only [InBody]; omega
  split at hr
  · cases hr
  next endOfHeader hline =>
  have ⟨hidx, hline'⟩ := findFrom_bounds hline
  have hcr : charAt body endOfHeader = '\r' := by
    simpa using charAt_of_prefix_drop (j := 0) (findFrom_some hline).2 (by decide)
  simp only [crlf, List.length_cons, List.length_nil] at hline'
  split at hr
  · cases hr
  rcases List.mem_cons.mp hr with rfl | hr
  · simp only [InBody]; omega
  split at hr
  · cases hr
  next hname =>
  have hs := searchCaseless_bounds body "name=".toList (by decide) hidx
  rw [show "name=".toList.length = 5 from rfl] at hs
  rcases List.mem_append.mp hr with hr | hr
  · exact extractNameReads_inBody (by omega) (by omega) hcr r hr
  · split at hr
    · simp only [List.mem_singleton] at hr; subst hr
      exact substrRange_inBody _ (by omega)
    · cases hr

/-! ### The whole loop -/

/-- `parseFormData` returns, on every request. -/
theorem parseFormData_isSome (request : CHTTPRequest) (parts : CFormParts) :
    (parseFormData request parts).isSome := by
  rcases parseFormData_eq_loop request parts with h | ⟨boundary, partIndex, hp, h⟩
  · rw [h]; rfl
  · rw [h]
    have hd : "\r\n--".toList ++ boundary ≠ [] := by simp
    exact parseFormDataLoop_isSome hd _ _ _ hp (by omega)

/-- **The part loop ends, moves forward and reads inside the body.**  For every request,
`parseFormData` returns; where it runs the part loop, `partIndex` starts inside the body, the
loop's passes run at the values `partIndices` lists, and those grow at every pass and stay
inside the body, and every range each pass reads lies within the body. -/
theorem parseFormData_terminates (request : CHTTPRequest) (parts : CFormParts) :
    (parseFormData request parts).isSome ∧
      (parseFormData request parts = some (false, parts) ∨
        ∃ boundary partIndex, partIndex ≤ request.m_body.length ∧
          parseFormData request parts = parseFormDataLoop request.m_body
            ("\r\n--".toList ++ boundary) (request.m_body.length + 2) partIndex parts ∧
          (∀ k q, (partIndices request.m_body ("\r\n--".toList ++ boundary)
              (request.m_body.length + 2) partIndex)[k]? = some q →
            ∃ parts', parseFormData request parts = parseFormDataLoop request.m_body
              ("\r\n--".toList ++ boundary) (request.m_body.length + 2 - k) q parts') ∧
          (partIndices request.m_body ("\r\n--".toList ++ boundary) (request.m_body.length + 2)
            partIndex).Chain' (· < ·) ∧
          ∀ q ∈ partIndices request.m_body ("\r\n--".toList ++ boundary)
              (request.m_body.length + 2) partIndex,
            q ≤ request.m_body.length ∧
              ∀ r ∈ formStepReads request.m_body ("\r\n--".toList ++ boundary) q,
                InBody request.m_body r) := by
  refine ⟨parseFormData_isSome request parts, ?_⟩
  rcases parseFormData_eq_loop request parts with h | ⟨boundary, partIndex, hp, h⟩
  · exact .inl h
  · have hd : "\r\n--".toList ++ boundary ≠ [] := by simp
    obtain ⟨hchain, hle⟩ := partIndices_increasing hd (request.m_body.length + 2) _ hp
    refine .inr ⟨boundary, partIndex, hp, h, fun k q hq => ?_, hchain, fun q hq =>
      ⟨hle q hq, formStepReads_inBody _ _ q⟩⟩
    rw [h]
    exact (parseFormDataLoop_partIndices _ _ parts k q hq).2

end Synergy.Http
