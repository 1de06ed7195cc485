import Synergy.Keyboard.KeySelection
import Synergy.Keyboard.Bounds

/-!
# The keysym table and the key `findKeyCode` picks

`updateKeycodeMap` fills `m_keycodeMap` with one `insert` per keysym of the first two of every
key code, in key-code order, and `std::map::insert` keeps the first entry for a keysym.  So the
table is a first-match lookup over the key codes (`rowEntry`): an earlier key code wins, and a
key's first keysym wins over its second.  It reads the two keysyms at `i * keysymsPerKeycode`
and the slot after it; when the mapping has one keysym per key, that slot is the next key's
first keysym, not a keysym of key `i` (`keyKeysyms` is what the key itself holds).

`findKeyCode` then reads the entry of the keysym it looks up and computes the modifiers
(`keyMaskOut`) under which the key code is to be pressed.  Against the X core protocol's
keysym rules (`xKeysymOf`, with Lock read as Caps Lock) this is right on every key whose
keysyms are laid out as those rules expect (`ConventionalRow`), whatever Caps Lock, Num Lock
and the requested modifiers are, with two exceptions.  A lone lower-case letter asked for
with Shift gets Shift, and the key gives the upper case.  The first keysym of a key whose
second keysym is on the keypad, while Num Lock is on, gets no Shift, which the rules need to
reach the first keysym under Num Lock, and the key gives its second keysym.

* `updateKeycodeMap_find` — **PROVED**: the table is the first-match lookup over the key
  codes, after the whole loop, for every mapping;
* `findKeyCodeEntry_rowEntry` — what `findKeyCode` finds in such a table is the offer of a key
  code of the mapping;
* `findKeyCode_single_letter` — **PROVED**: a lone letter asked for with Shift gives its
  upper case;
* `xKeysymOf_rowEntry` — the rules applied to a key's entry and the mask `keyMaskOut`
  computes for it, case by case on the key's layout, Caps Lock and Num Lock;
* `findKeyCode_xKeysymOf` — **PROVED**: on a table built by `updateKeycodeMap` from a
  conventional mapping with two keysyms per key or more, the key code `findKeyCode` returns,
  pressed under its mask, gives the keysym looked up, except in the keypad case above, where
  it gives the second keysym.

The rules are stated for keysyms whose case the model's `XConvertCase` gives as Xlib's does
(`CaseModelled`: Latin-1 and the function and keypad pages); the display's case tables for
other scripts, and the keysyms of a key past its second, are outside the model, as the second
are outside `updateKeycodeMap`.
-/

namespace Synergy.Keyboard

namespace CXWindowsSecondaryScreen

/-! ### The table as a first-match lookup -/

/-- The key code `updateKeycodeMap` stores for the `i`-th key code of the mapping. -/
def keycodeOf (x : XServer) (i : Nat) : KeyCode := UInt8.ofNat ((x.min_keycode + i) % 256).toNat

/-- The first two keysyms the `i`-th key code itself holds, as the protocol reads them: with
one keysym per key, the key's only keysym and `NoSymbol`. -/
def keyKeysyms (x : XServer) (i : Nat) : KeySym × KeySym :=
  (keysymAt x i 0, if x.keysyms_per_keycode ≤ 1 then NoSymbol else keysymAt x i 1)

/-- What the `i`-th key code offers the table for `sym`: nothing when it has no first keysym;
otherwise its first keysym with no modifier, else the keysym of the slot after it with Shift,
each sensitive to Shift and Lock when that slot holds a keysym.  The slot is the key's second
keysym when the mapping has two keysyms per key or more; with one, it is the next key's first
keysym (`keysymAt x i 1 = keysymAt x (i + 1) 0`), which the table then offers at key `i`
with Shift. -/
def rowEntry (x : XServer) (i : Nat) (sym : KeySym) : Option KeyCodeMask :=
  if keysymAt x i 0 = NoSymbol then none
  else
    let m_keyMaskMask := if keysymAt x i 1 = NoSymbol then 0 else ShiftMask ||| LockMask
    if keysymAt x i 0 = sym then some ⟨keycodeOf x i, 0, m_keyMaskMask⟩
    else if keysymAt x i 1 = sym then some ⟨keycodeOf x i, ShiftMask, m_keyMaskMask⟩
    else none

/-- An offer is the key's first keysym, with no modifier, or its second, with Shift. -/
theorem rowEntry_cases {x : XServer} {i : Nat} {sym : KeySym} {e : KeyCodeMask}
    (he : rowEntry x i sym = some e) :
    keysymAt x i 0 ≠ NoSymbol ∧
      ((keysymAt x i 0 = sym ∧ e = ⟨keycodeOf x i, 0,
          if keysymAt x i 1 = NoSymbol then 0 else ShiftMask ||| LockMask⟩) ∨
        (keysymAt x i 0 ≠ sym ∧ keysymAt x i 1 = sym ∧ e = ⟨keycodeOf x i, ShiftMask,
          if keysymAt x i 1 = NoSymbol then 0 else ShiftMask ||| LockMask⟩)) := by
  unfold rowEntry at he
  dsimp only at he
  by_cases h0 : keysymAt x i 0 = NoSymbol
  · rw [if_pos h0] at he
    cases he
  · rw [if_neg h0] at he
    refine ⟨h0, ?_⟩
    by_cases ha : keysymAt x i 0 = sym
    · rw [if_pos ha] at he
      exact .inl ⟨ha, (Option.some.inj he).symm⟩
    · rw [if_neg ha] at he
      by_cases hb : keysymAt x i 1 = sym
      · rw [if_pos hb] at he
        exact .inr ⟨ha, hb, (Option.some.inj he).symm⟩
      · rw [if_neg hb] at he
        cases he

/-- One pass of the loop: the entries already there stay, and the new key code's offer
answers only for keysyms the table did not have. -/
theorem find_insertKeycode (x : XServer) (map : StdMap KeySym KeyCodeMask) (i : Nat)
    (sym : KeySym) : (insertKeycode x map i).find sym = (map.find sym).or (rowEntry x i sym) := by
  unfold insertKeycode rowEntry keycodeOf
  generalize keysymAt x i 0 = a
  generalize keysymAt x i 1 = b
  by_cases h0 : a = NoSymbol
  · simp [h0]
  · -- the two inserts against the two offers, for each of the keysyms the key holds
    by_cases hb0 : b = NoSymbol <;> by_cases ha : a = sym <;> by_cases hb : b = sym <;>
      subst_vars <;> simp_all [Option.or_assoc, eq_comm]

/-- The loop over the first `n` key codes. -/
theorem find_foldl_insertKeycode (x : XServer) (sym : KeySym) (n : Nat) :
    ((List.range n).foldl (insertKeycode x) StdMap.empty).find sym =
      (List.range n).findSome? (rowEntry x · sym) := by
  induction n with
  | zero => rfl
  | succ n ih =>
    rw [List.range_succ, List.foldl_append, List.foldl_cons, List.foldl_nil, find_insertKeycode,
      ih, List.findSome?_append]
    simp only [List.findSome?]
    cases rowEntry x n sym <;> rfl

variable (s : CXWindowsSecondaryScreen)

/-- **The keysym table is a first-match lookup over the key codes.**  After
`updateKeycodeMap`, for every mapping and every keysym, `m_keycodeMap` holds the entry of the
first key code, in order, that has a first keysym and holds the keysym in its first slot or
the slot after it (its second keysym, or with one keysym per key the next key's first), the
first preferred. -/
theorem updateKeycodeMap_find (x : XServer) (sym : KeySym) :
    (s.updateKeycodeMap x).m_keycodeMap.find sym =
      (List.range x.numKeycodes).findSome? (rowEntry x · sym) :=
  find_foldl_insertKeycode x sym _

/-- The key code of an offer is the key code's own. -/
theorem rowEntry_keycode {x : XServer} {i : Nat} {sym : KeySym} {e : KeyCodeMask}
    (he : rowEntry x i sym = some e) : e.m_keycode = keycodeOf x i := by
  rcases (rowEntry_cases he).2 with ⟨-, rfl⟩ | ⟨-, -, rfl⟩ <;> rfl

/-- A property of both arms of an `if` holds of what it returns. -/
theorem forall_mem_ite {α : Type} {c : Prop} [Decidable c] {a b : Option α} {P : α → Prop}
    (ha : ∀ p ∈ a, P p) (hb : ∀ p ∈ b, P p) : ∀ p ∈ (if c then a else b), P p := by
  split
  · exact ha
  · exact hb

/-- The fallback keysyms are keysyms, not `NoSymbol`. -/
theorem backupKeysym_fst (keysym : KeySym) (maskIn : BitVec 32) :
    ∀ p ∈ backupKeysym keysym maskIn, p.1 ≠ NoSymbol := by
  unfold backupKeysym
  repeat' apply forall_mem_ite
  all_goals rintro p ⟨⟩
  all_goals exact Nat.succ_ne_zero _

/-- What `findKeyCode` finds: a keysym other than `NoSymbol`, and the table's entry for it. -/
theorem findKeyCodeEntry_find {id : KeyID} {maskIn maskIn' : BitVec 32} {sym : KeySym}
    {e : KeyCodeMask} (he : s.findKeyCodeEntry id maskIn = some (sym, e, maskIn')) :
    sym ≠ NoSymbol ∧ s.m_keycodeMap.find sym = some e := by
  unfold findKeyCodeEntry at he
  by_cases h0 : keysymOfKeyID id = 0
  · rw [if_pos h0] at he
    cases he
  rw [if_neg h0] at he
  -- the keysym after the Tab swap is not `NoSymbol`
  generalize hp : (if keysymOfKeyID id = XK_Tab ∧ maskIn &&& ShiftMask ≠ 0 then
    (XK_ISO_Left_Tab, maskIn &&& ~~~ShiftMask) else (keysymOfKeyID id, maskIn)) = p at he
  have hp0 : p.1 ≠ NoSymbol := by
    rw [← hp]
    split
    · exact Nat.succ_ne_zero _
    · exact h0
  obtain ⟨k, m⟩ := p
  dsimp only at he hp0
  split at he
  · next entry hfind =>
    cases he
    exact ⟨hp0, hfind⟩
  · split at he
    · cases he
    · next k' m' hb =>
      obtain ⟨entry, hfind, he⟩ := Option.map_eq_some'.mp he
      cases he
      exact ⟨backupKeysym_fst k m _ hb, hfind⟩

/-- What `findKeyCode` finds in a table `updateKeycodeMap` built: a keysym other than
`NoSymbol`, and the offer of a key code of the mapping for it. -/
theorem findKeyCodeEntry_rowEntry {x : XServer} {t : CXWindowsSecondaryScreen}
    (hmap : s.m_keycodeMap = (t.updateKeycodeMap x).m_keycodeMap) {id : KeyID}
    {maskIn maskIn' : BitVec 32} {sym : KeySym} {e : KeyCodeMask}
    (he : s.findKeyCodeEntry id maskIn = some (sym, e, maskIn')) :
    sym ≠ NoSymbol ∧ ∃ i < x.numKeycodes, rowEntry x i sym = some e := by
  obtain ⟨hsym, hfind⟩ := s.findKeyCodeEntry_find he
  have htable : (List.range x.numKeycodes).findSome? (rowEntry x · sym) = some e := by
    rw [← find_foldl_insertKeycode, ← hfind, hmap]
    rfl
  obtain ⟨i, hi, hrow⟩ := List.exists_of_findSome?_eq_some htable
  exact ⟨hsym, i, List.mem_range.mp hi, hrow⟩

/-! ### A lone letter -/

/-- **A lone letter is asked for with Shift.**  In every state whose keysym table
`updateKeycodeMap` built, when `findKeyCode` finds a lower-case letter that the mapping holds
only on keys with an empty slot after it, and the request has Shift: the key code returned
is one whose own keysyms are the letter alone, the output mask is the request, Shift
included, and under it the key gives the upper case, not the letter. -/
theorem findKeyCode_single_letter {x : XServer} {t : CXWindowsSecondaryScreen}
    (hmap : s.m_keycodeMap = (t.updateKeycodeMap x).m_keycodeMap) {id : KeyID}
    {maskIn maskIn' : BitVec 32} {sym : KeySym} {e : KeyCodeMask}
    (he : s.findKeyCodeEntry id maskIn = some (sym, e, maskIn'))
    (hlone : ∀ i < x.numKeycodes, keysymAt x i 0 = sym ∨ keysymAt x i 1 = sym →
      keysymAt x i 1 = NoSymbol)
    (hletter : (XConvertCase sym).1 = sym ∧ (XConvertCase sym).2 ≠ sym)
    (hshift : maskIn' &&& ShiftMask ≠ 0) :
    ∃ i < x.numKeycodes, keyKeysyms x i = (sym, NoSymbol) ∧
      s.findKeyCode id maskIn = some (keycodeOf x i, maskIn') ∧
      xKeysymOf (keyKeysyms x i) maskIn' s.m_numLockMask = (XConvertCase sym).2 := by
  obtain ⟨hsym, i, hi, hrow⟩ := s.findKeyCodeEntry_rowEntry hmap he
  obtain ⟨-, ⟨ha, rfl⟩ | ⟨-, hb, -⟩⟩ := rowEntry_cases hrow
  · -- the letter is the key's first keysym, and the slot after it is empty
    have hb0 := hlone i hi (.inl ha)
    have hkeys : keyKeysyms x i = (sym, NoSymbol) := by simp only [keyKeysyms, ha, hb0, ite_self]
    obtain ⟨hfind, hgives⟩ := s.findKeyCode_lone_letter he (by simp [hb0]) hletter hshift
    exact ⟨i, hi, hkeys, hfind, hkeys ▸ hgives⟩
  · -- a letter in the slot after the first would not leave that slot empty
    exact absurd (hb.symm.trans (hlone i hi (.inr hb))) hsym

/-- A display whose key code 38 has the one keysym `a`. -/
def letterBoard : XServer :=
  ⟨38, 38, 2, [0x61, 0], 1, [0, 0, 0, 0, 0, 0, 0, 0], List.replicate 32 0, none⟩

/-- `a` asked for with Shift (`maskToX` of `KeyModifierShift`) after `updateKeys`: key code 38
with Shift, which gives `A`. -/
theorem findKeyCode_letterBoard :
    ∃ i < letterBoard.numKeycodes, keyKeysyms letterBoard i = (0x61, NoSymbol) ∧
      (opened.updateKeys letterBoard).findKeyCode 0x61 ShiftMask =
        some (keycodeOf letterBoard i, ShiftMask) ∧
      xKeysymOf (keyKeysyms letterBoard i) ShiftMask (opened.updateKeys letterBoard).m_numLockMask =
        (XConvertCase 0x61).2 :=
  findKeyCode_single_letter (s := opened.updateKeys letterBoard) (t := opened)
    (updateKeys_m_keycodeMap opened letterBoard) (e := ⟨38, 0, 0⟩) (by decide) (by decide)
    (by decide) (by decide)

/-! ### The mask `findKeyCode` computes, against the protocol's rules -/

/-- A keysym whose case the model's `XConvertCase` gives as Xlib's does: Latin-1, or the
pages `0xfe00`–`0xffff` of the keyboard's function, keypad and modifier keys, which have no
case.  Xlib also pairs the letters of other scripts (Latin-2 to Latin-9, Cyrillic, Greek and
Unicode keysyms among them), which the model's `XConvertCase` treats as caseless. -/
def CaseModelled (k : KeySym) : Prop := k < 0x100 ∨ 0xfe00 ≤ k ∧ k < 0x10000

instance (k : KeySym) : Decidable (CaseModelled k) :=
  inferInstanceAs (Decidable (k < 0x100 ∨ 0xfe00 ≤ k ∧ k < 0x10000))

/-- A key's first two keysyms laid out as the X core protocol's rules expect, in the scripts
the model's case pairs cover: a lone keysym has no case, a second keysym with a case is the
upper case of the first, and a key whose second keysym is on the keypad has its first there
too. -/
structure ConventionalRow (a b : KeySym) : Prop where
  lone : b = NoSymbol → (XConvertCase a).1 = (XConvertCase a).2
  cased : b ≠ NoSymbol → (XConvertCase b).1 ≠ (XConvertCase b).2 → XConvertCase b = (a, b)
  keypad : (IsKeypadKey b || IsPrivateKeypadKey b) = true →
    (IsKeypadKey a || IsPrivateKeypadKey a) = true
  modelled : CaseModelled a ∧ CaseModelled b

instance (a b : KeySym) : Decidable (ConventionalRow a b) :=
  decidable_of_iff ((b = NoSymbol → (XConvertCase a).1 = (XConvertCase a).2) ∧
      (b ≠ NoSymbol → (XConvertCase b).1 ≠ (XConvertCase b).2 → XConvertCase b = (a, b)) ∧
      ((IsKeypadKey b || IsPrivateKeypadKey b) = true →
        (IsKeypadKey a || IsPrivateKeypadKey a) = true) ∧ CaseModelled a ∧ CaseModelled b)
    ⟨fun ⟨l, c, k, m⟩ => ⟨l, c, k, m⟩, fun ⟨l, c, k, m⟩ => ⟨l, c, k, m⟩⟩

/-- A keysym's lower case converts to the same pair as the keysym. -/
theorem XConvertCase_of_upper {a b : KeySym} (h : XConvertCase b = (a, b)) :
    XConvertCase a = (a, b) := by
  unfold XConvertCase at h ⊢
  unfold KeySym at *
  split_ifs at h with h1 h2 <;> simp only [Prod.mk.injEq] at h <;> split_ifs <;> simp <;> omega

theorem upperIfLower_of_upper {a b : KeySym} (h : XConvertCase b = (a, b)) (hne : a ≠ b) :
    upperIfLower a = b := by
  simp [upperIfLower, XConvertCase_of_upper h, hne]

/-- A key with one keysym and no case gives it under every state. -/
theorem xKeysymOf_lone {a : KeySym} (ha : (XConvertCase a).1 = (XConvertCase a).2)
    (state numLockMask : BitVec 32) : xKeysymOf (a, NoSymbol) state numLockMask = a := by
  have hup : upperIfLower a = a := by simp [upperIfLower, ha]
  simp only [xKeysymOf, if_true, ha, ne_eq, not_true_eq_false, if_false, hup]
  split_ifs <;> rfl

theorem shiftMask_eq : ShiftMask = BitVec.twoPow 32 0 := by decide

theorem lockMask_eq : LockMask = BitVec.twoPow 32 1 := by decide

@[simp] theorem and_shiftMask_ne_zero (x : BitVec 32) :
    x &&& ShiftMask ≠ 0 ↔ x.getLsbD 0 = true := by
  rw [shiftMask_eq]
  exact and_twoPow_ne_zero x (by decide)

@[simp] theorem and_lockMask_ne_zero (x : BitVec 32) :
    x &&& LockMask ≠ 0 ↔ x.getLsbD 1 = true := by
  rw [lockMask_eq]
  exact and_twoPow_ne_zero x (by decide)

theorem or_and_self_eq (y n : BitVec 32) : (y ||| n) &&& n = n := by
  ext i
  simp only [BitVec.getLsbD_and, BitVec.getLsbD_or]
  cases y.getLsbD i <;> cases n.getLsbD i <;> rfl

theorem and_not_and_self (y n : BitVec 32) : y &&& ~~~n &&& n = 0 := by
  ext i
  simp

/-- The rules on a key with two keysyms read three things of the state: Shift (bit 0), Lock
(bit 1) and whether a Num Lock bit is on. -/
theorem xKeysymOf_pair {a b : KeySym} (hb : b ≠ NoSymbol) (state numLockMask : BitVec 32) :
    xKeysymOf (a, b) state numLockMask =
      if state &&& numLockMask ≠ 0 ∧ (IsKeypadKey b || IsPrivateKeypadKey b) = true then
        (if state.getLsbD 0 then a else b)
      else if state.getLsbD 0 = false ∧ state.getLsbD 1 = false then a
      else if state.getLsbD 0 = false then upperIfLower a
      else if state.getLsbD 1 then upperIfLower b
      else b := by
  simp only [xKeysymOf, if_neg hb, and_shiftMask_ne_zero, and_lockMask_ne_zero,
    Bool.not_eq_true]

/-- For a keypad keysym the mask holds a Num Lock bit exactly when Num Lock is on. -/
theorem keyMaskOut_numLock {sym : KeySym}
    (hk : (IsKeypadKey sym || IsPrivateKeypadKey sym) = true) (e : KeyCodeMask)
    (maskIn : BitVec 32) :
    s.keyMaskOut sym e maskIn &&& s.m_numLockMask ≠ 0 ↔ s.m_mask &&& s.m_numLockMask ≠ 0 := by
  unfold keyMaskOut
  rw [if_pos hk]
  split_ifs with hon
  · rw [or_and_self_eq]
    exact ⟨fun _ => hon, fun _ h => hon (by rw [h]; exact BitVec.and_zero)⟩
  · rw [and_not_and_self]
    exact ⟨fun h => absurd rfl h, fun h => absurd h hon⟩

section Masks

variable {s} (hnum : s.m_numLockMask &&& (ShiftMask ||| LockMask) = 0)
include hnum

theorem numLock_bits : s.m_numLockMask.getLsbD 0 = false ∧ s.m_numLockMask.getLsbD 1 = false := by
  have h0 := congrArg (BitVec.getLsbD · 0) hnum
  have h1 := congrArg (BitVec.getLsbD · 1) hnum
  simp [shiftMask_eq, lockMask_eq, BitVec.getLsbD_twoPow] at h0 h1
  exact ⟨h0, h1⟩

/-- The first keysym of a key with two: the mask has neither Shift nor Lock, and a Num Lock
bit only when the keysym is on the keypad and Num Lock is on; the rules then pick the first
keysym, or the second when Num Lock is on and the second is on the keypad. -/
theorem xKeysymOf_first {a b : KeySym} (hb : b ≠ NoSymbol) (hrow : ConventionalRow a b)
    (kc : KeyCode) (maskIn : BitVec 32) :
    xKeysymOf (a, b) (s.keyMaskOut a ⟨kc, 0, ShiftMask ||| LockMask⟩ maskIn) s.m_numLockMask =
      if s.m_mask &&& s.m_numLockMask ≠ 0 ∧ (IsKeypadKey b || IsPrivateKeypadKey b) = true
      then b else a := by
  obtain ⟨hN0, hN1⟩ := numLock_bits hnum
  -- neither Shift nor Lock, in every branch
  have hbits : (s.keyMaskOut a ⟨kc, 0, ShiftMask ||| LockMask⟩ maskIn).getLsbD 0 = false ∧
      (s.keyMaskOut a ⟨kc, 0, ShiftMask ||| LockMask⟩ maskIn).getLsbD 1 = false := by
    unfold keyMaskOut
    split_ifs <;> simp [hN0, hN1, shiftMask_eq, lockMask_eq, BitVec.getLsbD_twoPow]
  rw [xKeysymOf_pair hb]
  by_cases hkb : (IsKeypadKey b || IsPrivateKeypadKey b) = true
  · have hiff := s.keyMaskOut_numLock (hrow.keypad hkb) ⟨kc, 0, ShiftMask ||| LockMask⟩ maskIn
    by_cases hon : s.m_mask &&& s.m_numLockMask ≠ 0
    · rw [if_pos (And.intro (hiff.mpr hon) hkb), if_pos (And.intro hon hkb), hbits.1]
      rfl
    · rw [if_neg (not_and_of_not_left _ (mt hiff.mp hon)), if_neg (not_and_of_not_left _ hon),
        hbits.1, hbits.2]
      rfl
  · rw [if_neg (not_and_of_not_right _ hkb), if_neg (not_and_of_not_right _ hkb), hbits.1,
      hbits.2]
    rfl

variable (hcaps : s.m_capsLockMask = LockMask)
include hcaps

/-- The second keysym of a key with two: Shift, or Caps Lock in its place for a letter while
Caps Lock is on, or Shift inverted by Num Lock on the keypad; the rules pick the second. -/
theorem xKeysymOf_second {a b : KeySym} (hb : b ≠ NoSymbol) (hrow : ConventionalRow a b)
    (kc : KeyCode) (maskIn : BitVec 32) :
    xKeysymOf (a, b) (s.keyMaskOut b ⟨kc, ShiftMask, ShiftMask ||| LockMask⟩ maskIn)
      s.m_numLockMask = b := by
  obtain ⟨hN0, hN1⟩ := numLock_bits hnum
  rw [xKeysymOf_pair hb]
  by_cases hkb : (IsKeypadKey b || IsPrivateKeypadKey b) = true
  · have hiff := s.keyMaskOut_numLock hkb ⟨kc, ShiftMask, ShiftMask ||| LockMask⟩ maskIn
    by_cases hon : s.m_mask &&& s.m_numLockMask ≠ 0
    · -- Num Lock on: no Shift, and the rules read the keypad's second keysym
      rw [if_pos (And.intro (hiff.mpr hon) hkb)]
      simp only [keyMaskOut, hkb, if_true, if_pos hon]
      simp [hN0, shiftMask_eq, lockMask_eq, BitVec.getLsbD_twoPow]
    · -- Num Lock off: Shift
      rw [if_neg (not_and_of_not_left _ (mt hiff.mp hon))]
      simp only [keyMaskOut, hkb, if_true, if_neg hon]
      simp [hN0, hN1, shiftMask_eq, lockMask_eq, BitVec.getLsbD_twoPow]
  · rw [if_neg (not_and_of_not_right _ hkb)]
    have hkb' : (IsKeypadKey b || IsPrivateKeypadKey b) = false := by simpa using hkb
    have hSS : ShiftMask &&& ShiftMask = ShiftMask := BitVec.and_self
    have hS : ShiftMask ≠ 0 := by decide
    by_cases hon : s.m_mask &&& LockMask ≠ 0
    · by_cases hcase : (XConvertCase b).1 ≠ (XConvertCase b).2
      · -- a letter under Caps Lock: Lock alone, and the rules raise the first keysym
        have hconv := hrow.cased hb hcase
        simp only [keyMaskOut, hkb', hSS, hcaps, Bool.false_eq_true, if_false,
          if_pos (And.intro hS hon), if_pos hcase]
        have hne : a ≠ b := by rw [hconv] at hcase; exact hcase
        simp [shiftMask_eq, lockMask_eq, BitVec.getLsbD_twoPow, upperIfLower_of_upper hconv hne]
      · -- no case: Shift and Lock, and the rules keep the second keysym
        simp only [keyMaskOut, hkb', hSS, hcaps, Bool.false_eq_true, if_false,
          if_pos (And.intro hS hon), if_neg hcase]
        simp [shiftMask_eq, lockMask_eq, BitVec.getLsbD_twoPow, upperIfLower, not_not.mp hcase]
    · simp only [keyMaskOut, hkb', hSS, hcaps, Bool.false_eq_true, if_false,
        if_neg (fun h : ShiftMask ≠ 0 ∧ s.m_mask &&& LockMask ≠ 0 => hon h.2)]
      simp [shiftMask_eq, lockMask_eq, BitVec.getLsbD_twoPow]

/-- **The rules against one entry of the table.**  Pressed under the mask `keyMaskOut`
computes, a key whose keysyms are laid out conventionally gives the keysym its entry is for,
except the first keysym of a key whose second is on the keypad while Num Lock is on, where it
gives the second. -/
theorem xKeysymOf_rowEntry {x : XServer} {i : Nat} {sym : KeySym} {e : KeyCodeMask}
    (he : rowEntry x i sym = some e) (hrow : ConventionalRow (keysymAt x i 0) (keysymAt x i 1))
    (hsym : sym ≠ NoSymbol) (maskIn : BitVec 32) :
    xKeysymOf (keysymAt x i 0, keysymAt x i 1) (s.keyMaskOut sym e maskIn) s.m_numLockMask =
      if keysymAt x i 0 = sym ∧ s.m_mask &&& s.m_numLockMask ≠ 0 ∧
          (IsKeypadKey (keysymAt x i 1) || IsPrivateKeypadKey (keysymAt x i 1)) = true
      then keysymAt x i 1 else sym := by
  obtain ⟨-, ⟨ha, rfl⟩ | ⟨ha, hb, rfl⟩⟩ := rowEntry_cases he
  · -- the key's first keysym
    subst ha
    by_cases hb0 : keysymAt x i 1 = NoSymbol
    · rw [if_pos hb0, hb0, xKeysymOf_lone (hrow.lone hb0)]
      simp [NoSymbol, IsKeypadKey, IsPrivateKeypadKey]
    · rw [if_neg hb0, xKeysymOf_first hnum hb0 hrow]
      simp
  · -- its second
    subst hb
    rw [if_neg hsym, xKeysymOf_second hnum hcaps hsym hrow, if_neg (fun h => ha h.1)]

end Masks

/-- A display whose key codes 10 and 11 carry `a`, `A` and the keypad's `KP_Home`, `KP_7`. -/
def keypadBoard : XServer :=
  ⟨10, 11, 2, [0x61, 0x41, XK_KP_Home, 0xffb7], 1, [0, 0, 0, 0, 0, 0, 0, 0],
    List.replicate 32 0, none⟩

/-- The keysym table of `keypadBoard`, with Caps Lock on Lock and Num Lock on `Mod2`, on. -/
def keypadScreen : CXWindowsSecondaryScreen :=
  { opened.updateKeycodeMap keypadBoard with
    m_mask := 0x10, m_numLockMask := 0x10, m_capsLockMask := LockMask }

/-- The key gives `KP_7`, not `KP_Home`. -/
example : keypadScreen.findKeyCode 0xef95 0 = some (11, 0x10) ∧
    xKeysymOf (XK_KP_Home, 0xffb7) 0x10 0x10 = 0xffb7 :=
  ⟨by decide, by decide⟩

/-- A display with one keysym per key: `1` on key code 10 and `2` on key code 11. -/
def digitBoard : XServer :=
  ⟨10, 11, 1, [0x31, 0x32], 1, [0, 0, 0, 0, 0, 0, 0, 0], List.replicate 32 0, none⟩

/-- With one keysym per key the table takes the next key's keysym as key 10's second: `2` is
found on key code 10 with Shift, and key 10, which holds `1` alone, gives `1`. -/
example : (opened.updateKeycodeMap digitBoard).findKeyCode 0x32 0 = some (10, ShiftMask) ∧
    xKeysymOf (keyKeysyms digitBoard 0) ShiftMask 0 = 0x31 :=
  ⟨by decide, by decide⟩

end CXWindowsSecondaryScreen

end Synergy.Keyboard
