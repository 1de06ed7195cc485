import Synergy.Keyboard.Operations

/-!
# When `mapKey` gives up

`mapKey` fails softly in four places: a half-duplex key's release or repeat, a key with no
key code, a required modifier the display lacks, and a modifier bit with no key code in its
first two slots.  The first three return before anything is pushed.  The fourth returns
from inside the loop over modifier bits, with the keystrokes already pushed for the bits
before still in `keys`; the callers see a non-empty list and replay it.

* `mapKey_early` (in `MapKey`) — **PROVED**: the first three return `m_mask` and no keystroke;
* `keyDown_of_bail` — **PROVED**: after the fourth, `keyDown` sends the keystrokes pushed
  for the earlier bits and records the key as down, although it never pressed it.
-/

namespace Synergy.Keyboard

namespace CXWindowsSecondaryScreen

variable (s : CXWindowsSecondaryScreen)

/-- **`keyDown` replays an abandoned modifier adjustment.**  When the loop of `mapKey`
returns for want of a key code after pushing keystrokes for earlier modifier bits,
`keyDown` sends those keystrokes and marks the key code as down; `m_mask` is unchanged. -/
theorem keyDown_of_bail {id : KeyID} {mask : KeyModifierMask} {keycode : KeyCode}
    {outMask : BitVec 32} {keys : List Keystroke}
    (hf : s.findKeyCode id (s.maskToX mask) = some (keycode, outMask))
    (hsub : outMask &&& s.m_modifierMask = outMask)
    (hidx : s.m_keycodeToModifier.find keycode = none)
    (hadj : s.adjustModifiers outMask (List.range 8) = (keys, none)) (hkeys : keys ≠ []) :
    s.keyDown id mask =
      some ({ s with m_keys := Function.update s.m_keys keycode true },
        keys.map Keystroke.event) := by
  have hmap : s.mapKey id mask .kPress = ⟨s.m_mask, keys, keycode⟩ :=
    s.mapKey_of_bail (by simp) hf hsub hidx hadj
  have hrep : ∀ k ∈ keys, k.m_repeat = false := by
    simpa [hadj] using (s.adjustModifiers_not_repeat outMask (List.range 8)).1
  simp [keyDown, hmap, hkeys, doKeystrokes_of_not_repeat keys hrep (Int.le_refl 1)]

/-- A display with Control on key code 37, in the first of its three slots, Alt (`Mod1`)
on key code 64 in the third slot only, and `a`, `A` on key code 38. -/
def controlAltBoard : XServer :=
  ⟨37, 64, 2, [0xffe3, 0, 0x61, 0x41] ++ List.replicate 50 0 ++ [0xffe9, 0], 3,
    [0, 0, 0, 0, 0, 0, 37, 0, 0, 0, 0, 64, 0, 0, 0, 0, 0, 0, 0, 0, 0, 0, 0, 0],
    List.replicate 32 0, none⟩

/-- `a` with Control and Alt: Control is pressed, Alt has no key in its first two slots,
and `keyDown` sends the Control press and records key code 38 as down. -/
theorem keyDown_controlAlt :
    (opened.updateKeys controlAltBoard).keyDown 0x61 (KeyModifierControl ||| KeyModifierAlt) =
      some ({ opened.updateKeys controlAltBoard with
          m_keys := Function.update (opened.updateKeys controlAltBoard).m_keys 38 true },
        [⟨37, true⟩]) :=
  @keyDown_of_bail (opened.updateKeys controlAltBoard) 0x61 (KeyModifierControl ||| KeyModifierAlt)
    38 (ControlMask ||| Mod1Mask) [⟨37, true, false⟩] (by decide) (by decide) (by decide)
    (by decide) (by decide)

end CXWindowsSecondaryScreen

end Synergy.Keyboard
