import Mathlib.Logic.Function.Basic

/-!
# Key codes, keysyms, masks and the server snapshot

The types and constants `CXWindowsSecondaryScreen` works with, and what the X server's
queries return.  The constants come from the X headers (`X.h`, `keysymdef.h`, `Xutil.h`) and
from synergy's `KeyTypes.h`, none of which is under `src/`; their values are the headers'.

* `KeyCode` is X's `unsigned char`, `KeyID` synergy's `UInt32`; the `unsigned int` and
  `KeyModifierMask` masks are `BitVec 32`, the source's `1 << i` is `BitVec.twoPow 32 i`.
  A `KeySym` (`unsigned long`) is only ever compared, so it is a number;
* `StdMap` — a `std::map` under `find` and `insert`, which keeps an existing entry;
* `XServer` — one reading of the display: its key codes, keyboard mapping, modifier mapping,
  the keys it reports down and the pointer's modifier state;
* `XConvertCase` — Xlib's case pairs for Latin-1 keysyms; keysyms of other scripts are
  treated as caseless, which no result here depends on;
* bit lemmas — `and_twoPow_ne_zero` and `and_twoPow_eq_iff` read a mask test of the source
  as one bit of the mask.
-/

namespace Synergy.Keyboard

/-- X's `KeyCode`, an `unsigned char`. -/
abbrev KeyCode := UInt8

/-- X's `KeySym`. -/
abbrev KeySym := Nat

/-- synergy's `KeyID`, a `UInt32`. -/
abbrev KeyID := UInt32

/-- synergy's `KeyModifierMask`, a `UInt32`. -/
abbrev KeyModifierMask := BitVec 32

/-! ### Constants of the headers -/

/-- `NoSymbol`. -/
def NoSymbol : KeySym := 0

def ShiftMask : BitVec 32 := 0x01
def LockMask : BitVec 32 := 0x02
def ControlMask : BitVec 32 := 0x04
def Mod1Mask : BitVec 32 := 0x08
def Mod4Mask : BitVec 32 := 0x40

def KeyModifierShift : KeyModifierMask := 0x0001
def KeyModifierControl : KeyModifierMask := 0x0002
def KeyModifierAlt : KeyModifierMask := 0x0004
def KeyModifierMeta : KeyModifierMask := 0x0008
def KeyModifierCapsLock : KeyModifierMask := 0x1000
def KeyModifierNumLock : KeyModifierMask := 0x2000
def KeyModifierScrollLock : KeyModifierMask := 0x4000

def kKeyLeftTab : KeyID := 0xEE20
def kKeyNumLock : KeyID := 0xEF7F
def kKeyCapsLock : KeyID := 0xEFE5

def XK_Tab : KeySym := 0xff09
def XK_ISO_Left_Tab : KeySym := 0xfe20
def XK_Home : KeySym := 0xff50
def XK_Left : KeySym := 0xff51
def XK_Up : KeySym := 0xff52
def XK_Right : KeySym := 0xff53
def XK_Down : KeySym := 0xff54
def XK_Prior : KeySym := 0xff55
def XK_Next : KeySym := 0xff56
def XK_End : KeySym := 0xff57
def XK_Insert : KeySym := 0xff63
def XK_Delete : KeySym := 0xffff
def XK_KP_Home : KeySym := 0xff95
def XK_KP_Left : KeySym := 0xff96
def XK_KP_Up : KeySym := 0xff97
def XK_KP_Right : KeySym := 0xff98
def XK_KP_Down : KeySym := 0xff99
def XK_KP_Prior : KeySym := 0xff9a
def XK_KP_Next : KeySym := 0xff9b
def XK_KP_End : KeySym := 0xff9c
def XK_KP_Insert : KeySym := 0xff9e
def XK_KP_Delete : KeySym := 0xff9f
def XK_Scroll_Lock : KeySym := 0xff14
def XK_Num_Lock : KeySym := 0xff7f
def XK_Caps_Lock : KeySym := 0xffe5
def XK_Shift_Lock : KeySym := 0xffe6

/-- `IsKeypadKey`: `XK_KP_Space` to `XK_KP_Equal`. -/
def IsKeypadKey (keysym : KeySym) : Bool := 0xff80 ≤ keysym && keysym ≤ 0xffbd

/-- `IsPrivateKeypadKey`. -/
def IsPrivateKeypadKey (keysym : KeySym) : Bool := 0x11000000 ≤ keysym && keysym ≤ 0x1100ffff

/-- `CXWindowsSecondaryScreen::isToggleKeysym`. -/
def isToggleKeysym (key : KeySym) : Bool :=
  key = XK_Caps_Lock || key = XK_Shift_Lock || key = XK_Num_Lock || key = XK_Scroll_Lock

/-- Xlib's `XConvertCase`, (lower, upper), for Latin-1: `A`–`Z`, `Agrave`–`Odiaeresis` and
`Ooblique`–`Thorn` against their lower-case forms `0x20` above. -/
def XConvertCase (sym : KeySym) : KeySym × KeySym :=
  if 0x41 ≤ sym ∧ sym ≤ 0x5a ∨ 0xc0 ≤ sym ∧ sym ≤ 0xd6 ∨ 0xd8 ≤ sym ∧ sym ≤ 0xde then
    (sym + 0x20, sym)
  else if 0x61 ≤ sym ∧ sym ≤ 0x7a ∨ 0xe0 ≤ sym ∧ sym ≤ 0xf6 ∨ 0xf8 ≤ sym ∧ sym ≤ 0xfe then
    (sym, sym - 0x20)
  else (sym, sym)

/-! ### Records of the source -/

/-- `KeyCodeMask`: the key code that yields a keysym, the modifier bits that select it
(`m_keyMask`) and the modifier bits the key code is sensitive to (`m_keyMaskMask`). -/
structure KeyCodeMask where
  m_keycode : KeyCode
  m_keyMask : BitVec 32
  m_keyMaskMask : BitVec 32
deriving DecidableEq, Repr

/-- `Keystroke`: one synthetic key event, marked when it belongs to a run to repeat. -/
structure Keystroke where
  m_keycode : KeyCode
  m_press : Bool
  m_repeat : Bool
deriving DecidableEq, Repr

/-- `EKeyAction`. -/
inductive EKeyAction
  | kPress
  | kRelease
  | kRepeat
deriving DecidableEq, Repr

/-- One `XTestFakeKeyEvent(display, keycode, press, CurrentTime)`. -/
structure FakeKeyEvent where
  keycode : KeyCode
  press : Bool
deriving DecidableEq, Repr

/-! ### `std::map` -/

/-- A `std::map`, as its entries in the order they were inserted. -/
structure StdMap (κ ν : Type) where
  entries : List (κ × ν)
deriving DecidableEq, Repr

namespace StdMap

variable {κ ν : Type} [DecidableEq κ]

/-- The empty map, as `clear` leaves it. -/
def empty : StdMap κ ν := ⟨[]⟩

/-- `find`: the value stored under `k`. -/
def find (m : StdMap κ ν) (k : κ) : Option ν := (m.entries.find? fun e => e.1 = k).map Prod.snd

/-- `insert(std::make_pair(k, v))`: does nothing when `k` is present. -/
def insert (m : StdMap κ ν) (k : κ) (v : ν) : StdMap κ ν :=
  if (m.find k).isSome then m else ⟨m.entries ++ [(k, v)]⟩

@[simp] theorem find_empty (k : κ) : (empty : StdMap κ ν).find k = none := rfl

theorem find_append (m : StdMap κ ν) (k k' : κ) (v : ν) :
    (⟨m.entries ++ [(k, v)]⟩ : StdMap κ ν).find k' =
      (m.find k').or (if k' = k then some v else none) := by
  unfold find
  rw [List.find?_append]
  cases m.entries.find? (fun e => e.1 = k') <;> by_cases h : k' = k <;> simp [h, Ne.symm]

/-- `insert` adds `v` under `k` when nothing is stored there, and changes nothing else. -/
@[simp] theorem find_insert (m : StdMap κ ν) (k k' : κ) (v : ν) :
    (m.insert k v).find k' = (m.find k').or (if k' = k then some v else none) := by
  unfold insert
  split
  · next hk =>
    by_cases h : k' = k
    · subst h
      obtain ⟨x, hx⟩ := Option.isSome_iff_exists.mp hk
      simp [hx]
    · cases m.find k' <;> simp [h]
  · exact find_append m k k' v

/-- An entry, once in, stays under every later `insert`. -/
theorem find_insert_of_find {m : StdMap κ ν} {k : κ} {v : ν} (k' : κ) (v' : ν)
    (h : m.find k = some v) : (m.insert k' v').find k = some v := by
  simp [h]

end StdMap

/-! ### The display -/

/-- What the display's queries report at one moment: `XDisplayKeycodes`,
`XGetKeyboardMapping` (row after row of `keysyms_per_keycode` keysyms from `min_keycode`),
`XGetModifierMapping` (`max_keypermod` slots for each of the 8 modifiers), `XQueryKeymap`
(32 bytes, a bit per key code) and the modifier state of `XQueryPointer`, `none` when the
query fails. -/
structure XServer where
  min_keycode : Int
  max_keycode : Int
  keysyms_per_keycode : Nat
  keysyms : List KeySym
  max_keypermod : Nat
  modifiermap : List KeyCode
  keymap : List UInt8
  pointerState : Option (BitVec 32)
deriving DecidableEq, Repr

/-- Xlib's `XKeycodeToKeysym(display, keycode, 0)` in its core form: `NoSymbol` outside the
key codes; otherwise the first keysym, in lower case when the key has no second one. -/
def XKeycodeToKeysym (x : XServer) (keycode : KeyCode) : KeySym :=
  if (keycode.toNat : Int) < x.min_keycode ∨ x.max_keycode < keycode.toNat then NoSymbol
  else
    let row := (keycode.toNat - x.min_keycode).toNat * x.keysyms_per_keycode
    if x.keysyms_per_keycode ≤ 1 ∨ x.keysyms.getD (row + 1) NoSymbol = NoSymbol then
      (XConvertCase (x.keysyms.getD row NoSymbol)).1
    else x.keysyms.getD row NoSymbol

/-! ### Mask bits -/

theorem twoPow_ne_zero {i : Nat} (hi : i < 32) : BitVec.twoPow 32 i ≠ 0#32 := by
  intro h
  have := congrArg (BitVec.getLsbD · i) h
  simp [hi] at this

/-- `(x & (1 << i)) != 0` tests bit `i` of `x`. -/
@[simp] theorem and_twoPow_ne_zero (x : BitVec 32) {i : Nat} (hi : i < 32) :
    x &&& BitVec.twoPow 32 i ≠ 0 ↔ x.getLsbD i = true := by
  rw [BitVec.and_twoPow]
  cases x.getLsbD i
  · simp
  · simpa using twoPow_ne_zero hi

/-- `(x & (1 << i)) != (y & (1 << i))` compares bit `i` of `x` and `y`. -/
@[simp] theorem and_twoPow_eq_iff (x y : BitVec 32) {i : Nat} (hi : i < 32) :
    x &&& BitVec.twoPow 32 i = y &&& BitVec.twoPow 32 i ↔ x.getLsbD i = y.getLsbD i := by
  rw [BitVec.and_twoPow, BitVec.and_twoPow]
  cases x.getLsbD i <;> cases y.getLsbD i <;>
    simp [twoPow_ne_zero hi, Ne.symm (twoPow_ne_zero hi)]

end Synergy.Keyboard
