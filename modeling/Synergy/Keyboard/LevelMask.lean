import Synergy.Keyboard.Operations

/-!
# The level modifiers in `m_mask`

For a level (non-toggle) modifier, `m_mask` should say whether one of the modifier's keys is
down: `mapKey` sets the bit when such a key is pressed and clears it on release "only if no
other keycode implementing that modifier is still recorded as down".  The scan that decides
runs before `keyUp` clears `m_keys` for the released key, so it always finds that key down;
and `releaseKeys` clears `m_keys` without touching `m_mask`.

* `LevelMaskAgrees` — the law, for one state;
* `keyUp_level_modifier` — **PROVED**: releasing a level modifier's key that `m_keys` has down
  leaves `m_mask` as it was;
* `releaseKeys_breaks_levelMask` — from every state obeying the law with a level modifier
  active, `releaseKeys` leads to one that breaks it;
* `keyUp_breaks_levelMask` — **PROVED**: from every state obeying the law in which the
  released key is the only key of its modifier down, `keyUp` leads to one that breaks it, and
  so does `releaseKeys`.
-/

namespace Synergy.Keyboard

namespace CXWindowsSecondaryScreen

/-- A key of modifier `i`, in one of its slots, that `m_keys` records as down. -/
def LevelKeyDown (s : CXWindowsSecondaryScreen) (i : Nat) : Prop :=
  ∃ j, j < s.m_keysPerModifier ∧ s.modifierSlot i j ≠ 0 ∧ s.m_keys (s.modifierSlot i j) = true

instance (s : CXWindowsSecondaryScreen) (i : Nat) : Decidable (s.LevelKeyDown i) :=
  inferInstanceAs (Decidable (∃ j, j < s.m_keysPerModifier ∧ s.modifierSlot i j ≠ 0 ∧
    s.m_keys (s.modifierSlot i j) = true))

/-- Every level modifier's bit in `m_mask` says whether one of its keys is down. -/
def LevelMaskAgrees (s : CXWindowsSecondaryScreen) : Prop :=
  ∀ i, i < 8 → s.m_toggleModifierMask.getLsbD i = false →
    (s.m_mask.getLsbD i = true ↔ s.LevelKeyDown i)

instance (s : CXWindowsSecondaryScreen) : Decidable s.LevelMaskAgrees :=
  inferInstanceAs (Decidable (∀ i, i < 8 → s.m_toggleModifierMask.getLsbD i = false →
    (s.m_mask.getLsbD i = true ↔ s.LevelKeyDown i)))

variable (s : CXWindowsSecondaryScreen)

/-- Releasing a key of level modifier `i` that `m_keys` has down: one release event, the key
recorded as up, and `m_mask` as it was, since the scan for another key of the modifier
still down finds the released key itself. -/
theorem keyUp_level_modifier {id : KeyID} {mask : KeyModifierMask} {keycode : KeyCode}
    {outMask : BitVec 32} {i : Nat}
    (hhd : s.isHalfDuplexKey id = false)
    (hf : s.findKeyCode id (s.maskToX mask) = some (keycode, outMask))
    (hsub : outMask &&& s.m_modifierMask = outMask)
    (hidx : s.m_keycodeToModifier.find keycode = some i)
    (hlevel : BitVec.twoPow 32 i &&& s.m_toggleModifierMask = 0)
    (hslot : ∃ j, j < s.m_keysPerModifier ∧ s.modifierSlot i j = keycode)
    (hkey : keycode ≠ 0) (hdown : s.m_keys keycode = true) :
    s.keyUp id mask =
      some ({ s with m_keys := Function.update s.m_keys keycode false }, [⟨keycode, false⟩]) := by
  have hmap : s.mapKey id mask .kRelease = _ := s.mapKey_of_modifier (by simp [hhd]) hf hsub hidx
  have hact : s.effectiveAction id (some i) .kRelease = .kRelease := by
    unfold effectiveAction
    split <;> rfl
  obtain ⟨j, hj, rfl⟩ := hslot
  -- the scan for another key of the modifier still down finds the released key itself
  rw [hact, s.newMask_release_of_down _ hlevel ⟨j, hj, hkey, hdown⟩] at hmap
  simp [keyUp, hmap, primaryKeystrokes, doKeystrokes, doKeystrokesLoop, Keystroke.event]

/-- `releaseKeys` breaks the law: from a state obeying it with a level modifier active,
it releases every key and leaves `m_mask` as it was. -/
theorem releaseKeys_breaks_levelMask {i : Nat} (hinv : s.LevelMaskAgrees) (hi : i < 8)
    (hlevel : s.m_toggleModifierMask.getLsbD i = false) (hdown : s.LevelKeyDown i) :
    ¬ s.releaseKeys.1.LevelMaskAgrees := by
  intro h
  obtain ⟨j, -, -, hkd⟩ := (h i hi hlevel).mp ((hinv i hi hlevel).mpr hdown)
  simp [releaseKeys] at hkd

/-- **`keyUp` breaks the law.**  From a state obeying it, releasing the only key of a
level modifier that `m_keys` has down leaves the modifier's bit set with none of its keys
down; `releaseKeys` from the same state does too. -/
theorem keyUp_breaks_levelMask {id : KeyID} {mask : KeyModifierMask} {keycode : KeyCode}
    {outMask : BitVec 32} {i : Nat} (hinv : s.LevelMaskAgrees) (hi : i < 8)
    (hhd : s.isHalfDuplexKey id = false)
    (hf : s.findKeyCode id (s.maskToX mask) = some (keycode, outMask))
    (hsub : outMask &&& s.m_modifierMask = outMask)
    (hidx : s.m_keycodeToModifier.find keycode = some i)
    (hlevel : s.m_toggleModifierMask.getLsbD i = false)
    (hslot : ∃ j, j < s.m_keysPerModifier ∧ s.modifierSlot i j = keycode)
    (hkey : keycode ≠ 0) (hdown : s.m_keys keycode = true)
    (honly : ∀ j, j < s.m_keysPerModifier → s.modifierSlot i j ≠ 0 →
      s.m_keys (s.modifierSlot i j) = true → s.modifierSlot i j = keycode) :
    (∃ s' events, s.keyUp id mask = some (s', events) ∧ ¬ s'.LevelMaskAgrees) ∧
      ¬ s.releaseKeys.1.LevelMaskAgrees := by
  have hlevel' : BitVec.twoPow 32 i &&& s.m_toggleModifierMask = 0 := by
    rw [BitVec.and_comm, BitVec.and_twoPow, hlevel]
    rfl
  have hkd : s.LevelKeyDown i := by
    obtain ⟨j, hj, rfl⟩ := hslot
    exact ⟨j, hj, hkey, hdown⟩
  refine ⟨⟨_, _, s.keyUp_level_modifier hhd hf hsub hidx hlevel' hslot hkey hdown, fun h => ?_⟩,
    s.releaseKeys_breaks_levelMask hinv hi hlevel hkd⟩
  -- the bit is still set, and no key of the modifier is down any more
  have hbit : s.m_mask.getLsbD i = true := (hinv i hi hlevel).mpr hkd
  obtain ⟨j, hj, hk, hstill⟩ := (h i hi hlevel).mp hbit
  change Function.update s.m_keys keycode false (s.modifierSlot i j) = true at hstill
  by_cases hne : s.modifierSlot i j = keycode
  · rw [hne, Function.update_same] at hstill
    cases hstill
  · rw [Function.update_noteq hne] at hstill
    exact hne (honly j hj hk hstill)

/-- A display with `Shift_L` on key code 50, its only Shift key. -/
def shiftBoard : XServer :=
  ⟨50, 50, 2, [0xffe1, 0], 1, [50, 0, 0, 0, 0, 0, 0, 0], List.replicate 32 0, none⟩

/-- The state after `updateKeys` and a press of `Shift_L` (synergy's `0xEFE1`). -/
def shiftDown : CXWindowsSecondaryScreen :=
  ((((opened.updateKeys shiftBoard).keyDown 0xEFE1 0).map Prod.fst).getD opened)

/-- Releasing `Shift_L` from there, or every key, leaves Shift set in `m_mask` with no Shift
key down. -/
theorem shiftDown_keyUp_breaks_levelMask :
    (∃ s' events, shiftDown.keyUp 0xEFE1 0 = some (s', events) ∧ ¬ s'.LevelMaskAgrees) ∧
      ¬ shiftDown.releaseKeys.1.LevelMaskAgrees :=
  @keyUp_breaks_levelMask shiftDown 0xEFE1 0 50 0 0 (by decide) (by decide) (by decide)
    (by decide) (by decide) (by decide) (by decide) ⟨0, by decide, by decide⟩ (by decide)
    (by decide) (by decide)

end CXWindowsSecondaryScreen

end Synergy.Keyboard
