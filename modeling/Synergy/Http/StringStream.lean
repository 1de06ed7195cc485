import Synergy.Http.Text
import Mathlib.Data.Nat.Digits

/-!
# `std::istringstream` extraction

`readRequest`, `readChunk` and `readHeaders` parse through `std::istringstream` with
exceptions turned off, so what an extraction did is left in the stream's state bits.  This
file models that state and the extractions the parser uses, as libstdc++ performs them in
the "C" locale:

* `IStringStream` — the characters not yet extracted, `eofbit` and `failbit`;
* `sentry` — the white-space skipping of formatted input;
* `extractString` — `s >> str`;
* `scanInt` and `extractUInt32` / `extractInt` — `s >> n` through
  `num_get::_M_extract_int`: a sign, leading zeros (an `0x` prefix in hexadecimal), digits;
* `ignore`, `get`, `getline` — the unformatted extractions;
* `str` — `s.str(t)`, which replaces the characters and **keeps** the state bits;
* `toDigitsCore_digits`, `scanDigits_digitChars` — a number written by `Nat.toDigits` is a
  digit string the digit loop reads back, in decimal as in hexadecimal.

The last point is the one `readRequest` trips on: after `s >> version` has run to the end of
the line, `eofbit` is set, and `s.str(version)` leaves it set (`str_keeps_eof`).
-/

namespace Synergy.Http

/-- An `std::istringstream` with exceptions off: the characters left and the two state bits
the parser can set (`badbit` never is). -/
structure IStringStream where
  buf : List Char
  eof : Bool := false
  fail : Bool := false
deriving DecidableEq, Repr

namespace IStringStream

/-- `std::istringstream s(t)`. -/
def ofString (t : List Char) : IStringStream := ⟨t, false, false⟩

/-- `s.str(t)`: new characters, the state bits as they were. -/
def str (s : IStringStream) (t : List Char) : IStringStream := { s with buf := t }

theorem str_keeps_eof (s : IStringStream) (t : List Char) : (s.str t).eof = s.eof := rfl

/-- The `sentry` of a formatted extraction.  A stream that is not good fails it; otherwise
white space is skipped, and running out of characters sets `eofbit` and `failbit`.  On
success it gives the characters from the first non-space one on. -/
def sentry (s : IStringStream) : Except IStringStream (List Char) :=
  if s.eof || s.fail then .error { s with fail := true }
  else match s.buf.dropWhile isSpace with
    | [] => .error ⟨[], true, true⟩
    | c :: cs => .ok (c :: cs)

/-- `s >> str`: the next white-space-delimited word; `str` is left as it was when the
sentry fails. -/
def extractString (s : IStringStream) (str : List Char) : List Char × IStringStream :=
  match s.sentry with
  | .error s' => (str, s')
  | .ok cs =>
    let word := cs.takeWhile (fun c => !isSpace c)
    let rest := cs.drop word.length
    (word, ⟨rest, rest.isEmpty, false⟩)

/-! ### Integers -/

/-- `__num_base::_S_atoms_in` looked up by `_M_find`: the value of a digit, in decimal or in
hexadecimal. -/
def digitValue (hex : Bool) (c : Char) : Option Nat :=
  if '0' ≤ c ∧ c ≤ '9' then some (c.toNat - '0'.toNat)
  else if hex ∧ 'a' ≤ c ∧ c ≤ 'f' then some (c.toNat - 'a'.toNat + 10)
  else if hex ∧ 'A' ≤ c ∧ c ≤ 'F' then some (c.toNat - 'A'.toNat + 10)
  else none

/-- The digit loop of `_M_extract_int`: the digits' values and the characters after them. -/
def scanDigits (hex : Bool) : List Char → List Nat × List Char
  | [] => ([], [])
  | c :: cs =>
    match digitValue hex c with
    | some d => let r := scanDigits hex cs; (d :: r.1, r.2)
    | none => ([], c :: cs)

/-- The value of a digit string in base `base`. -/
def digitsValue (base : Nat) (ds : List Nat) : Nat := ds.foldl (fun acc d => acc * base + d) 0

/-- The value of a digit string grows by one place for each digit appended. -/
theorem digitsValue_append_singleton (base : Nat) (ds : List Nat) (d : Nat) :
    digitsValue base (ds ++ [d]) = digitsValue base ds * base + d := by
  simp [digitsValue]

/-- `Nat.toDigitsCore b` writes a positive number as its digits in base `b`, most significant
first and not 0, each as `Nat.digitChar`; `fuel` bounds the digits it writes. -/
theorem toDigitsCore_digits {b : Nat} (hb : 1 < b) : ∀ (fuel n : Nat) (ds : List Char),
    0 < n → n < fuel → ∃ d L, Nat.toDigitsCore b fuel n ds = (d :: L).map Nat.digitChar ++ ds ∧
      0 < d ∧ d < b ∧ (∀ x ∈ L, x < b) ∧ digitsValue b (d :: L) = n
  | 0, _, _, _, hn => absurd hn (Nat.not_lt_zero _)
  | fuel + 1, n, ds, hpos, hn => by
    have hmod : n % b < b := Nat.mod_lt n (by omega)
    by_cases h0 : n / b = 0
    · have hlt : n < b := by
        by_contra hge
        exact absurd h0 (Nat.div_pos (by omega) (by omega)).ne'
      refine ⟨n % b, [], by simp [Nat.toDigitsCore, h0], ?_, hmod, by simp, ?_⟩ <;>
        simp [digitsValue, Nat.mod_eq_of_lt hlt, hpos]
    · have hdiv : n / b < n := Nat.div_lt_self hpos hb
      obtain ⟨d, L, heq, hd0, hdb, hL, hv⟩ :=
        toDigitsCore_digits hb fuel (n / b) (Nat.digitChar (n % b) :: ds) (Nat.pos_of_ne_zero h0)
          (Nat.lt_of_lt_of_le hdiv (Nat.lt_succ_iff.mp hn))
      refine ⟨d, L ++ [n % b], by simp [Nat.toDigitsCore, h0, heq], hd0, hdb, ?_, ?_⟩
      · intro x hx
        rcases List.mem_append.mp hx with hx | hx
        · exact hL x hx
        · exact (List.mem_singleton.mp hx) ▸ hmod
      · rw [← List.cons_append, digitsValue_append_singleton, hv, Nat.mul_comm]
        exact Nat.div_add_mod n b

/-- The digit loop reads back digits written by `Nat.digitChar`, up to a character that is
no digit. -/
theorem scanDigits_digitChars {hex : Bool} (L : List Nat)
    (hL : ∀ x ∈ L, digitValue hex (Nat.digitChar x) = some x) (rest : List Char)
    (hrest : ∀ c, rest.head? = some c → digitValue hex c = none) :
    scanDigits hex (L.map Nat.digitChar ++ rest) = (L, rest) := by
  induction L with
  | nil =>
    cases rest with
    | nil => rfl
    | cons c cs => simp [scanDigits, hrest c rfl]
  | cons x L ih =>
    simp only [List.map_cons, List.cons_append, scanDigits, hL x (List.mem_cons_self x L),
      List.append_eq, ih fun y hy => hL y (List.mem_cons_of_mem x hy)]

/-- The sign test of `_M_extract_int`: `-` sets `__negative`, `+` is skipped. -/
def scanSign : List Char → Bool × List Char
  | '-' :: r => (true, r)
  | '+' :: r => (false, r)
  | r => (false, r)

/-- The leading-zero loop of `_M_extract_int`: in decimal it eats every `0`; in hexadecimal
one `0`, and an `x` or `X` after it, which clears `__found_zero` again. -/
def scanPrefix (hex : Bool) (cs : List Char) : Bool × List Char :=
  if hex then
    match cs with
    | '0' :: 'x' :: r => (false, r)
    | '0' :: 'X' :: r => (false, r)
    | '0' :: r => (true, r)
    | r => (false, r)
  else
    let zeros := cs.takeWhile (· = '0')
    (!zeros.isEmpty, cs.drop zeros.length)

/-- No sign, nothing read. -/
theorem scanSign_of_ne (c : Char) (r : List Char) (h₁ : c ≠ '-') (h₂ : c ≠ '+') :
    scanSign (c :: r) = (false, c :: r) := by
  unfold scanSign; split <;> simp_all

/-- In hexadecimal, a first character other than `0` starts no prefix. -/
theorem scanPrefix_hex_of_ne (c : Char) (r : List Char) (h : c ≠ '0') :
    scanPrefix true (c :: r) = (false, c :: r) := by
  unfold scanPrefix; split <;> simp_all

/-- What `_M_extract_int` reads after the sentry. -/
structure NumScan where
  negative : Bool
  /-- `__sep_pos || __found_zero`: a digit (or a leading zero) was read. -/
  found : Bool
  /-- The magnitude of the digits read, unbounded. -/
  value : Nat
  rest : List Char

/-- `num_get::_M_extract_int` on the characters left after the sentry. -/
def scanInt (hex : Bool) (cs : List Char) : NumScan :=
  let (negative, cs) := scanSign cs
  let (zero, cs) := scanPrefix hex cs
  let (ds, rest) := scanDigits hex cs
  ⟨negative, zero || !ds.isEmpty, digitsValue (if hex then 16 else 10) ds, rest⟩

/-- `s >> n` for an `unsigned int` (`UInt32`): no digits give 0 and `failbit`, a magnitude
past `UINT_MAX` gives `UINT_MAX` and `failbit`, and a minus sign negates modulo `2^32`. -/
def extractUInt32 (hex : Bool) (s : IStringStream) (n : Nat) : Nat × IStringStream :=
  match s.sentry with
  | .error s' => (n, s')
  | .ok cs =>
    let r := scanInt hex cs
    let s' : IStringStream := ⟨r.rest, r.rest.isEmpty, false⟩
    if !r.found then (0, { s' with fail := true })
    else if 2 ^ 32 ≤ r.value then (2 ^ 32 - 1, { s' with fail := true })
    else (if r.negative then (2 ^ 32 - r.value) % 2 ^ 32 else r.value, s')

/-- `s >> n` for an `int`: libstdc++ reads a `long` (64 bits) through `_M_extract_int`, then
clamps to `int` and sets `failbit` when it had to. -/
def extractInt (s : IStringStream) (n : Int) : Int × IStringStream :=
  match s.sentry with
  | .error s' => (n, s')
  | .ok cs =>
    let r := scanInt false cs
    let s' : IStringStream := ⟨r.rest, r.rest.isEmpty, false⟩
    -- the `long` that `num_get` produces
    let (l, failed) : Int × Bool :=
      if !r.found then (0, true)
      else if r.negative then
        (if 2 ^ 63 < r.value then (-2 ^ 63, true) else (-(r.value : Int), false))
      else (if 2 ^ 63 - 1 < r.value then (2 ^ 63 - 1, true) else ((r.value : Int), false))
    if l < -2 ^ 31 then (-2 ^ 31, { s' with fail := true })
    else if 2 ^ 31 - 1 < l then (2 ^ 31 - 1, { s' with fail := true })
    else (l, { s' with fail := failed })

/-! ### Unformatted input -/

/-- `s.ignore(n)`: skip `n` characters; `eofbit` is set when the peek after them finds the
end. -/
def ignore (s : IStringStream) (n : Nat) : IStringStream :=
  if s.eof || s.fail then { s with fail := true }
  else if s.buf.length ≤ n then ⟨[], true, false⟩
  else { s with buf := s.buf.drop n }

/-- `s.get(c)`: the next character, or `eofbit` and `failbit` at the end. -/
def get (s : IStringStream) : Option Char × IStringStream :=
  if s.eof || s.fail then (none, { s with fail := true })
  else match s.buf with
    | [] => (none, ⟨[], true, true⟩)
    | c :: cs => (some c, { s with buf := cs })

/-- `std::getline(s, str, delim)`: the characters up to `delim`, which is extracted and
dropped; the end sets `eofbit`, and extracting nothing at all sets `failbit`.  `str` is left
as it was when the sentry fails. -/
def getline (s : IStringStream) (str : List Char) (delim : Char) : List Char × IStringStream :=
  if s.eof || s.fail then (str, { s with fail := true })
  else
    let line := s.buf.takeWhile (· ≠ delim)
    match s.buf.drop line.length with
    | [] => (line, ⟨[], true, line.isEmpty⟩)
    | _ :: rest => (line, { s with buf := rest })

/-- `getline` up to a delimiter that the text before it does not hold. -/
theorem getline_ofString_delim (str before after : List Char) (delim : Char)
    (h : delim ∉ before) :
    (ofString (before ++ delim :: after)).getline str delim = (before, ofString after) := by
  have hw : (before ++ delim :: after).takeWhile (· ≠ delim) = before := by
    rw [List.takeWhile_append_of_pos (fun c hc => by simpa using (ne_of_mem_of_not_mem hc h))]
    simp
  simp only [getline, ofString, hw]
  simp

/-- `getline` on text that holds no delimiter takes all of it and sets `eofbit`. -/
theorem getline_ofString_all (str text : List Char) (delim : Char) (h : delim ∉ text) :
    (ofString text).getline str delim = (text, ⟨[], true, text.isEmpty⟩) := by
  have hw : text.takeWhile (· ≠ delim) = text :=
    List.takeWhile_eq_self_iff.mpr fun c hc => by simpa using (ne_of_mem_of_not_mem hc h)
  simp only [getline, ofString, hw]
  simp

end IStringStream

end Synergy.Http
