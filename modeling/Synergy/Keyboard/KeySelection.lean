import Synergy.Keyboard.FindKeyCode

/-!
# Which keysym a key gives under a modifier state

`findKeyCode` promises a key code and the modifiers under which the display turns that key
code into the keysym asked for.  The display decides by the X core protocol's rules for the
first two keysyms of the key; `xKeysymOf` states them as the protocol does, with Lock read
as Caps Lock.  `findKeyCode` gives a key with one keysym no modifier bits of its own
(`m_keyMaskMask = 0`), but the protocol reads a lone letter as the pair (lower, upper): the
requested Shift is passed through, and the key gives the upper-case letter.

* `xKeysymOf` — the selection rules;
* `findKeyCode_lone_letter` — for every state and every lower-case letter whose table entry
  has no modifier bits, a request with Shift gets a mask with Shift, under which a key with
  the letter alone gives the upper-case letter.  `findKeyCode_single_letter`, in
  `KeycodeMap`, finds such entries in every table `updateKeycodeMap` builds.
-/

namespace Synergy.Keyboard

/-- The upper-case form of a lower-case letter; other keysyms as they are. -/
def upperIfLower (k : KeySym) : KeySym :=
  if (XConvertCase k).1 = k ∧ (XConvertCase k).1 ≠ (XConvertCase k).2 then (XConvertCase k).2
  else k

/-- Modelled from the X core protocol's keysym selection, for the first two keysyms `row`
of a key, the modifier `state` and the Num Lock bits, with Lock read as Caps Lock:
a lone keysym is read as (lower, upper) if it is a letter and (K, K) otherwise; with Num Lock
on and a keypad second keysym, Shift picks the first; otherwise neither Shift nor Lock picks
the first, Shift the second, and Lock turns a lower-case letter into its upper case. -/
def xKeysymOf (row : KeySym × KeySym) (state numLockMask : BitVec 32) : KeySym :=
  let pair :=
    if row.2 = NoSymbol then
      if (XConvertCase row.1).1 ≠ (XConvertCase row.1).2 then XConvertCase row.1
      else (row.1, row.1)
    else row
  let shift := state &&& ShiftMask ≠ 0
  let lock := state &&& LockMask ≠ 0
  if state &&& numLockMask ≠ 0 ∧ (IsKeypadKey pair.2 || IsPrivateKeypadKey pair.2) then
    if shift then pair.1 else pair.2
  else if ¬shift ∧ ¬lock then pair.1
  else if ¬shift then upperIfLower pair.1
  else if lock then upperIfLower pair.2
  else pair.2

/-- A lower-case letter is Latin-1, its upper case lies below it, and the upper case has
the letter as its lower case. -/
theorem XConvertCase_of_lower {sym : Nat}
    (h : (XConvertCase sym).1 = sym ∧ (XConvertCase sym).2 ≠ sym) :
    sym < 0x100 ∧ (XConvertCase sym).2 < sym ∧
      XConvertCase (XConvertCase sym).2 = (sym, (XConvertCase sym).2) := by
  unfold XConvertCase at h
  split_ifs at h with h1 h2 <;> simp at h
  have e : XConvertCase sym = (sym, sym - 0x20) := by rw [XConvertCase, if_neg h1, if_pos h2]
  unfold KeySym at h1 h2
  rw [e, XConvertCase, if_pos (by unfold KeySym; omega)]
  unfold KeySym
  simp only [Prod.mk.injEq, and_true]
  omega

/-- Latin-1 keysyms are not keypad keysyms. -/
theorem not_keypad_of_lt {sym : Nat} (h : sym < 0x100) :
    IsKeypadKey sym = false ∧ IsPrivateKeypadKey sym = false := by
  unfold IsKeypadKey IsPrivateKeypadKey KeySym
  constructor <;> simp <;> omega

namespace CXWindowsSecondaryScreen

variable (s : CXWindowsSecondaryScreen)

/-- A lone letter's entry passes Shift through.  For every state, when `findKeyCode` finds a
lower-case letter whose table entry has no modifier bits (as `updateKeycodeMap` builds for a
key code whose only keysym it is) and the request has Shift, the output mask is the request
itself, Shift included; under it a key with the letter alone gives its upper case. -/
theorem findKeyCode_lone_letter {id : KeyID} {maskIn maskIn' : BitVec 32} {sym : Nat}
    {entry : KeyCodeMask} (he : s.findKeyCodeEntry id maskIn = some (sym, entry, maskIn'))
    (hsingle : entry.m_keyMaskMask = 0 ∧ entry.m_keyMask = 0)
    (hletter : (XConvertCase sym).1 = sym ∧ (XConvertCase sym).2 ≠ sym)
    (hshift : maskIn' &&& ShiftMask ≠ 0) :
    s.findKeyCode id maskIn = some (entry.m_keycode, maskIn') ∧
      xKeysymOf (sym, NoSymbol) maskIn' s.m_numLockMask = (XConvertCase sym).2 := by
  obtain ⟨hlt, hUlt, hupper⟩ := XConvertCase_of_lower hletter
  constructor
  · have hkeep : maskIn' &&& ~~~(0 : BitVec 32) = maskIn' := by
      show maskIn' &&& ~~~(0#32) = maskIn'
      rw [BitVec.not_zero, BitVec.and_allOnes]
    simp only [findKeyCode, he, Option.map_some', keyMaskOut, hsingle.1, hsingle.2, hkeep]
    simp [not_keypad_of_lt hlt]
  · -- the key reads as (letter, upper case), and Shift picks the upper case
    have hpair : (if (XConvertCase sym).1 ≠ (XConvertCase sym).2 then XConvertCase sym
        else (sym, sym)) = XConvertCase sym := if_pos (by rw [hletter.1]; exact hletter.2.symm)
    have hup : upperIfLower (XConvertCase sym).2 = (XConvertCase sym).2 := by
      rw [upperIfLower, hupper, if_neg (fun h => Nat.ne_of_gt hUlt h.1)]
    have hkpU := not_keypad_of_lt (Nat.lt_trans hUlt hlt)
    simp only [xKeysymOf, NoSymbol, if_true, hpair, hkpU, Bool.or_false, Bool.false_eq_true,
      and_false, if_false, hup, ite_self]
    rw [if_neg (fun h => h.1 hshift), if_neg (fun h => h hshift)]

end CXWindowsSecondaryScreen

end Synergy.Keyboard
