import Synergy.Keyboard.Screen

/-!
# Finding a key code for a key

`CXWindowsSecondaryScreen::findKeyCode` turns a synergy `KeyID` into a keysym, looks the
keysym up in `m_keycodeMap` (with a fallback for the keypad's navigation keys and for the
left tab), and computes the modifiers that must be active when the key code is pressed.
It is cut here along the source's own sections:

* `keysymOfKeyID` — the `switch` on the `KeyID`'s page;
* `findKeyCodeEntry` — the Tab swap, the lookup and the fallback: the keysym finally looked
  up, its table entry and the requested mask as the swaps leave it;
* `keyMaskOut` — the output mask, with its keypad and caps-lock cases;
* `findKeyCode` — the three together.
-/

namespace Synergy.Keyboard

namespace CXWindowsSecondaryScreen

variable (s : CXWindowsSecondaryScreen)

/-- The `KeyID` to keysym `switch` of `findKeyCode`: Latin-1 as it is, the left tab of the
ISO 9995 page, the miscellany page moved to X's; 0 for anything else. -/
def keysymOfKeyID (id : KeyID) : KeySym :=
  let page := (id &&& 0xffffff00).toNat
  if page = 0x0000 then id.toNat
  else if page = 0xee00 then (if id = kKeyLeftTab then XK_ISO_Left_Tab else 0)
  else if page = 0xef00 then id.toNat - 0xef00 + 0xff00
  else 0

/-- The keysym `findKeyCode` tries when the table has none for `keysym`: the keypad's
navigation keys fall back to the main ones, the left tab to Tab with Shift. -/
def backupKeysym (keysym : KeySym) (maskIn : BitVec 32) : Option (KeySym × BitVec 32) :=
  if keysym = XK_KP_Home then some (XK_Home, maskIn)
  else if keysym = XK_KP_Left then some (XK_Left, maskIn)
  else if keysym = XK_KP_Up then some (XK_Up, maskIn)
  else if keysym = XK_KP_Right then some (XK_Right, maskIn)
  else if keysym = XK_KP_Down then some (XK_Down, maskIn)
  else if keysym = XK_KP_Prior then some (XK_Prior, maskIn)
  else if keysym = XK_KP_Next then some (XK_Next, maskIn)
  else if keysym = XK_KP_End then some (XK_End, maskIn)
  else if keysym = XK_KP_Insert then some (XK_Insert, maskIn)
  else if keysym = XK_KP_Delete then some (XK_Delete, maskIn)
  else if keysym = XK_ISO_Left_Tab then some (XK_Tab, maskIn ||| ShiftMask)
  else none

/-- The lookup part of `findKeyCode`: the keysym it finally found in `m_keycodeMap`, the
entry stored for it, and the requested mask as the Tab swaps leave it. -/
def findKeyCodeEntry (id : KeyID) (maskIn : BitVec 32) :
    Option (KeySym × KeyCodeMask × BitVec 32) :=
  let keysym := keysymOfKeyID id
  -- fail if unknown key
  if keysym = 0 then none
  else
    -- Tab with Shift asks for the left tab first
    let (keysym, maskIn) :=
      if keysym = XK_Tab ∧ maskIn &&& ShiftMask ≠ 0 then (XK_ISO_Left_Tab, maskIn &&& ~~~ShiftMask)
      else (keysym, maskIn)
    match s.m_keycodeMap.find keysym with
    | some entry => some (keysym, entry, maskIn)
    | none =>
      match backupKeysym keysym maskIn with
      | none => none
      | some (keysym, maskIn) => (s.m_keycodeMap.find keysym).map fun entry => (keysym, entry, maskIn)

/-- The output mask of `findKeyCode` for the keysym it found, its entry and the requested
mask: the requested bits the key code is not sensitive to, then the bits that select the
keysym, read against the num lock for keypad keysyms and against the caps lock otherwise. -/
def keyMaskOut (keysym : KeySym) (entry : KeyCodeMask) (maskIn : BitVec 32) : BitVec 32 :=
  let maskOut := maskIn &&& ~~~entry.m_keyMaskMask
  if IsKeypadKey keysym || IsPrivateKeypadKey keysym then
    if s.m_mask &&& s.m_numLockMask ≠ 0 then (maskOut &&& ~~~entry.m_keyMask) ||| s.m_numLockMask
    else (maskOut ||| entry.m_keyMask) &&& ~~~s.m_numLockMask
  else
    let maskShift := entry.m_keyMask &&& ShiftMask
    -- shift and caps lock cancel out for keysyms subject to case conversion
    let maskShift :=
      if maskShift ≠ 0 ∧ s.m_mask &&& s.m_capsLockMask ≠ 0 then
        if (XConvertCase keysym).1 ≠ (XConvertCase keysym).2 then s.m_capsLockMask
        else maskShift ||| s.m_capsLockMask
      else maskShift
    maskOut ||| maskShift ||| (entry.m_keyMask &&& ~~~(ShiftMask ||| LockMask))

/-- `findKeyCode`: the key code to press for `id` and the modifiers that must be active. -/
def findKeyCode (id : KeyID) (maskIn : BitVec 32) : Option (KeyCode × BitVec 32) :=
  (s.findKeyCodeEntry id maskIn).map fun (keysym, entry, maskIn) =>
    (entry.m_keycode, s.keyMaskOut keysym entry maskIn)

end CXWindowsSecondaryScreen

end Synergy.Keyboard
