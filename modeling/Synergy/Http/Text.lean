import Mathlib.Data.List.Infix
import Mathlib.Data.List.Lex
import Mathlib.Data.Char
import Mathlib.Algebra.Group.Int

/-!
# Byte strings, searches and the caseless header order

The HTTP layer (`CHTTPProtocol.cpp`) works on `CString`s, byte strings.  Here a `CString` is
a `List Char`, one `Char` for each byte.  This file holds what the parser uses of the standard
library and of `CHTTPUtil`:

* `find` — `std::string::find`, the first position at which a pattern starts;
* `isSpace` — `isspace` in the "C" locale;
* `CaselessCmp.less` / `CaselessCmp.equal` — the header-name order `CHTTPUtil::CaselessCmp`;
  `less_strictWeakOrder` — **PROVED**: `less` is the lexicographic order of the strings after
  `tolower`, so a strict weak order, and `equal`, its incomparability, holds exactly when the
  strings have one length and agree after `tolower` at every place;
* `isValidToken` — **PROVED** (`isValidToken_iff`): a name is rejected only when it contains
  the whole nineteen-character run that is left of the source's literal once `find` stops at
  its first NUL, so every single separator passes (`isValidToken_accepts_separators`).
-/

namespace Synergy.Http

/-! ### `std::string::find` -/

/-- `std::string::find(pattern)`: the first index at which `pattern` starts in `s`
(`none` for `npos`). -/
def find (pattern : List Char) : List Char → Option Nat
  | [] => if pattern = [] then some 0 else none
  | c :: cs => if pattern <+: c :: cs then some 0 else (find pattern cs).map (· + 1)

theorem find_eq_none_iff (pattern s : List Char) : find pattern s = none ↔ ¬ pattern <:+: s := by
  induction s with
  | nil => cases pattern <;> simp [find]
  | cons c cs ih => by_cases h : pattern <+: c :: cs <;> simp [find, h, ih, List.infix_cons_iff]

/-- The line terminator `readLine` looks for. -/
def crlf : List Char := ['\r', '\n']

/-- `find` locates the first CRLF of a buffer whose prefix `L` holds none. -/
theorem find_crlf_append (L rest : List Char) (hL : ¬ crlf <:+: L) :
    find crlf (L ++ crlf ++ rest) = some L.length := by
  induction L with
  | nil => simp [find, crlf]
  | cons c L ih =>
    have hL' : ¬ crlf <:+: L := fun h => hL (h.trans (List.suffix_cons c L).isInfix)
    have hpre : ¬ crlf <+: c :: (L ++ crlf ++ rest) := by
      intro h
      obtain ⟨t, ht⟩ := h
      cases L with
      | nil => simp [crlf] at ht
      | cons d L =>
        simp only [crlf, List.cons_append, List.singleton_append, List.cons.injEq] at ht
        rw [← ht.1, ← ht.2.1] at hL
        exact hL (List.prefix_append crlf L).isInfix
    rw [List.cons_append, List.cons_append, find, if_neg hpre, ih hL']
    rfl

/-- No CRLF is found in a buffer that is a prefix of `L ++ "\r"` when `L` holds none. -/
theorem find_crlf_prefix (L t : List Char) (hL : ¬ crlf <:+: L) (ht : t <+: L ++ ['\r']) :
    find crlf t = none := by
  rw [find_eq_none_iff]
  intro h
  rcases List.infix_concat_iff.mp (h.trans ht.isInfix) with hs | hi
  · -- a run at the very end would end in the trailing `'\r'`, which is no `'\n'`
    obtain ⟨u, hu, -⟩ := by simpa [List.suffix_concat_iff, crlf] using hs
    simpa using congrArg List.getLast? hu
  · exact hL hi

/-- `find` reports an index at which the pattern starts. -/
theorem prefix_of_find {pattern s : List Char} {k : Nat} (h : find pattern s = some k) :
    pattern <+: s.drop k := by
  induction s generalizing k with
  | nil =>
    unfold find at h
    split_ifs at h with hp
    cases h; simp [hp]
  | cons c cs ih =>
    unfold find at h
    split_ifs at h with hp
    · cases h; exact hp
    · obtain ⟨k', hk', rfl⟩ := Option.map_eq_some'.mp h
      exact ih hk'

/-- No match of a nonempty pattern lies wholly before the first one `find` reports. -/
theorem not_infix_take_of_find {pattern s : List Char} {k : Nat} (hp : pattern ≠ [])
    (h : find pattern s = some k) : ¬ pattern <:+: s.take k := by
  induction s generalizing k with
  | nil => simp [find, hp] at h
  | cons c cs ih =>
    unfold find at h
    split_ifs at h with hpre
    · cases h
      simpa using hp
    · obtain ⟨k, hk, rfl⟩ := Option.map_eq_some'.mp h
      rw [List.take_succ_cons, List.infix_cons_iff]
      rintro (hc | hc)
      · exact hpre (hc.trans (List.cons_prefix_cons.mpr ⟨rfl, List.take_prefix k cs⟩))
      · exact ih hk hc

/-- `find` passes over a first part in which the pattern starts nowhere. -/
theorem find_append_skip (pattern A R : List Char)
    (h : ∀ i < A.length, ¬ pattern <+: (A ++ R).drop i) :
    find pattern (A ++ R) = (find pattern R).map (· + A.length) := by
  induction A with
  | nil => simp
  | cons a A ih =>
    have h0 : ¬ pattern <+: a :: (A ++ R) := h 0 (by simp)
    rw [List.cons_append, find, if_neg h0, ih fun i hi => h (i + 1) (by simp; omega)]
    simp [Option.map_map, Function.comp_def, Nat.add_assoc, Nat.add_comm 1]

/-- A match inside the first part of an append is the first one. -/
theorem find_append_of_some {pattern A : List Char} {k : Nat} (B : List Char)
    (h : find pattern A = some k) : find pattern (A ++ B) = some k := by
  induction A generalizing k with
  | nil =>
    unfold find at h
    split_ifs at h with hp
    cases h; subst hp
    cases B <;> simp [find]
  | cons a A ih =>
    unfold find at h
    rw [List.cons_append, find]
    split_ifs at h with hp
    · cases h
      rw [if_pos (show pattern <+: a :: (A ++ B) from hp.trans (List.prefix_append (a :: A) B))]
    · obtain ⟨k', hk', rfl⟩ := Option.map_eq_some'.mp h
      rw [ih hk', if_neg]
      · rfl
      -- a match at the head would be a match within `a :: A`, which is long enough to hold it
      intro hp'
      have hlen := (prefix_of_find hk').length_le
      exact hp (List.prefix_of_prefix_length_le hp' (List.prefix_append (a :: A) B)
        (by simp at hlen ⊢; omega))

/-- A pattern found at the head. -/
theorem find_append_self (pattern R : List Char) : find pattern (pattern ++ R) = some 0 := by
  cases hp : pattern ++ R with
  | nil => simp_all [find]
  | cons c cs => rw [find, if_pos (hp ▸ List.prefix_append _ _)]

/-- `find` passes over characters that cannot start the pattern. -/
theorem find_append_of_not_head (pattern X R : List Char) (c : Char) (hc : pattern.head? = some c)
    (hX : ∀ x ∈ X, x ≠ c) : find pattern (X ++ R) = (find pattern R).map (· + X.length) := by
  obtain ⟨p', rfl⟩ : ∃ p', pattern = c :: p' := by cases pattern <;> simp_all
  refine find_append_skip _ X R fun i hi hpre => ?_
  rw [List.drop_append_of_le_length hi.le, List.drop_eq_getElem_cons hi] at hpre
  obtain ⟨t, ht⟩ := hpre
  simp only [List.cons_append, List.cons.injEq] at ht
  exact hX _ (List.getElem_mem hi) ht.1.symm

/-- A pattern whose first character occurs in it only there is found first where it is
written after `v`, when `v` does not hold it: no match can start inside `v` and run on into
the written pattern. -/
theorem find_append_pattern (c : Char) (P' v post : List Char) (hc : c ∉ P')
    (hv : ¬ (c :: P') <:+: v) : find (c :: P') (v ++ (c :: P') ++ post) = some v.length := by
  rw [List.append_assoc, find_append_skip _ v _ ?_, find_append_self]
  · simp
  intro i hi hpre
  rw [List.drop_append_of_le_length hi.le] at hpre
  by_cases hk : (c :: P').length ≤ (v.drop i).length
  · exact hv ((List.prefix_of_prefix_length_le hpre (List.prefix_append _ _) hk).isInfix.trans
      (List.drop_suffix i v).isInfix)
  · -- the match would run on into the written pattern, putting `c` at a later place of it
    obtain ⟨t, ht⟩ := hpre
    have hlen : 0 < (v.drop i).length := by simp; omega
    have hat := congrArg (·[(v.drop i).length]?) ht
    simp only at hat
    rw [List.getElem?_append_left (by omega), List.getElem?_append_right (le_refl _),
      Nat.sub_self, List.getElem?_append_left (by simp), List.getElem?_cons_zero] at hat
    obtain ⟨k, hk'⟩ : ∃ k, (v.drop i).length = k + 1 := ⟨_, (Nat.succ_pred_eq_of_pos hlen).symm⟩
    rw [hk', List.getElem?_cons_succ] at hat
    exact hc (List.getElem?_mem hat)

/-! ### Characters -/

/-- `isspace` in the "C" locale. -/
def isSpace (c : Char) : Bool :=
  c = ' ' || c = '\t' || c = '\n' || c = Char.ofNat 11 || c = Char.ofNat 12 || c = '\r'

/-! ### `CHTTPUtil::CaselessCmp` -/

namespace CaselessCmp

/-- `CaselessCmp::cmpEqual`: the characters agree after `tolower`. -/
def cmpEqual (a b : Char) : Bool := a.toLower == b.toLower

/-- `CaselessCmp::cmpLess`: `tolower(a) < tolower(b)`. -/
def cmpLess (a b : Char) : Bool := decide (a.toLower < b.toLower)

/-- `CaselessCmp::less`: `std::lexicographical_compare` under `cmpLess`. -/
def less : List Char → List Char → Bool
  | _, [] => false
  | [], _ :: _ => true
  | a :: as, b :: bs => if cmpLess a b then true else if cmpLess b a then false else less as bs

/-- `CaselessCmp::equal`: neither string is less than the other. -/
def equal (a b : List Char) : Bool := !(less a b || less b a)

/-- Two strings are `equal` exactly when they agree after `tolower`. -/
theorem equal_iff (a b : List Char) : equal a b = true ↔ a.map Char.toLower = b.map Char.toLower := by
  induction a generalizing b with
  | nil => cases b <;> simp [equal, less]
  | cons x xs ih =>
    cases b with
    | nil => simp [equal, less]
    | cons y ys =>
      by_cases hxy : x.toLower < y.toLower
      · simp [equal, less, cmpLess, hxy, ne_of_lt hxy]
      · by_cases hyx : y.toLower < x.toLower
        · simp [equal, less, cmpLess, hxy, hyx, (ne_of_lt hyx).symm]
        · have he : x.toLower = y.toLower := le_antisymm (not_lt.mp hyx) (not_lt.mp hxy)
          simpa [equal, less, cmpLess, hxy, hyx, he] using ih ys

theorem lex_cons_cons_iff {α : Type} {r : α → α → Prop} {a b : α} {l l' : List α} :
    List.Lex r (a :: l) (b :: l') ↔ r a b ∨ a = b ∧ List.Lex r l l' :=
  ⟨fun h => by cases h with | cons h => exact .inr ⟨rfl, h⟩ | rel h => exact .inl h,
    fun h => h.elim .rel fun ⟨e, h⟩ => e ▸ .cons h⟩

/-- `std::lexicographical_compare` under `cmpLess` is the lexicographic order of the strings
after `tolower`. -/
theorem less_iff_lex (a b : List Char) :
    less a b = true ↔ List.Lex (· < ·) (a.map Char.toLower) (b.map Char.toLower) := by
  induction a generalizing b with
  | nil => cases b <;> simp [less, List.Lex.nil]
  | cons x xs ih =>
    cases b with
    | nil => simp [less]
    | cons y ys =>
      rw [List.map_cons, List.map_cons, lex_cons_cons_iff, ← ih]
      rcases lt_trichotomy x.toLower y.toLower with h | h | h
      · simp [less, cmpLess, h]
      · simp [less, cmpLess, h]
      · simp [less, cmpLess, h, not_lt.mpr h.le, h.ne']

/-- **`CaselessCmp::less` is a strict weak order**, as `CHeaderMap` needs: the lexicographic
order on the lowered strings, pulled back.  Its incomparability, `equal`, holds exactly when
the strings have one length and agree after `tolower` at every place. -/
theorem less_strictWeakOrder :
    IsStrictWeakOrder (List Char) (fun a b => less a b = true) ∧
      ∀ a b, equal a b = true ↔ a.length = b.length ∧
        ∀ k (ha : k < a.length) (hb : k < b.length), a[k].toLower = b[k].toLower := by
  have lex : IsStrictWeakOrder (List Char) (List.Lex (· < ·)) :=
    isStrictWeakOrder_of_isOrderConnected
  simp only [less_iff_lex]
  refine ⟨{ irrefl := fun a => irrefl _, trans := fun a b c => IsTrans.trans _ _ _,
            incomp_trans := fun a b c => lex.incomp_trans _ _ _ }, fun a b => ?_⟩
  rw [equal_iff, List.ext_get_iff]
  simp

end CaselessCmp

/-! ### Tokens -/

/-- The literal `isValidToken` hands to `find`, character for character: the nineteen
separators, then the bytes 0 to 31 and 127. -/
def tokenSeparators : List Char :=
  "()<>@,;:\\\"/[]?=\x7b\x7d ".toList ++ (List.range 32).map Char.ofNat ++ [Char.ofNat 127]

/-- A `const char*` argument ends at its first NUL (`char_traits::length`). -/
def cString (literal : List Char) : List Char := literal.takeWhile (· ≠ Char.ofNat 0)

/-- `CHTTPProtocol::isValidToken`: `token.find(literal) == npos`. -/
def isValidToken (token : List Char) : Bool := find (cString tokenSeparators) token = none

/-- What `find` searches for: the separators before the literal's first NUL, as one run. -/
theorem cString_tokenSeparators : cString tokenSeparators = "()<>@,;:\\\"/[]?=\x7b\x7d ".toList := by
  decide

/-- A token is rejected only when the nineteen separators occur in it, in order and
adjacent. -/
theorem isValidToken_iff (token : List Char) :
    isValidToken token = true ↔ ¬ "()<>@,;:\\\"/[]?=\x7b\x7d ".toList <:+: token := by
  simp [isValidToken, cString_tokenSeparators, find_eq_none_iff]

/-- **Every forbidden character passes on its own.**  Each of the 35 characters of the
literal, alone, is a valid token. -/
theorem isValidToken_accepts_separators : ∀ c ∈ tokenSeparators, isValidToken [c] = true := by
  decide

/-- The token `(` passes. -/
theorem isValidToken_open_paren : isValidToken ['('] = true :=
  isValidToken_accepts_separators '(' (by decide)

end Synergy.Http
