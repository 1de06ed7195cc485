import Synergy.Keyboard.Screen

/-!
# What `updateKeys` leaves in the modifier tables

`updateKeys` runs when the display reports a new keyboard mapping.  Every table it builds
is computed from the display's snapshot alone, except `m_keycodeToModifier`: the loop of
`updateModifierMap` only inserts into it, and `std::map::insert` keeps an entry that is
already there.

* `updateKeys_history` — two states that read the same snapshot agree on every table but
  `m_keycodeToModifier`;
* `updateKeys_keycodeToModifier` — **PROVED**: that, and after `updateKeys` a key code's
  modifier is the one it had before if it had one, and only otherwise the first modifier
  whose slots hold it now.  A key code moved to another modifier keeps its old one, and one
  removed from every modifier keeps its entry.
-/

namespace Synergy.Keyboard

namespace CXWindowsSecondaryScreen

/-- The modifier of the first slot, in `updateModifierMap`'s order, that holds `k`. -/
def firstModifier (x : XServer) (k : KeyCode) : Option Nat :=
  ((modifierSlots x.max_keypermod).find? fun ij => slotKeycode x ij = k).map Prod.fst

theorem find_insertSlots (x : XServer) (l : List (Nat × Nat)) (m : StdMap KeyCode Nat)
    (k : KeyCode) :
    (insertSlots x l m).find k =
      (m.find k).or ((l.find? fun ij => slotKeycode x ij = k).map Prod.fst) := by
  induction l generalizing m with
  | nil => simp [insertSlots]
  | cons ij l ih =>
    rw [insertSlots, List.foldl_cons, ← insertSlots, ih, StdMap.find_insert, List.find?_cons]
    by_cases h : slotKeycode x ij = k
    · cases m.find k <;> simp [h]
    · simp [h, Ne.symm h]

/-- The tables `updateKeys` builds do not depend on the state it starts from, apart from
`m_keycodeToModifier` (and the half-duplex flags, which it neither reads nor writes). -/
theorem updateKeys_history (s t : CXWindowsSecondaryScreen) (x : XServer) :
    { s.updateKeys x with
      m_keycodeToModifier := t.m_keycodeToModifier
      m_numLockHalfDuplex := t.m_numLockHalfDuplex
      m_capsLockHalfDuplex := t.m_capsLockHalfDuplex } =
      { t.updateKeys x with m_keycodeToModifier := t.m_keycodeToModifier } := by
  simp only [updateKeys, updateModifiers, updateModifierMap_eq, updateKeycodeMap, modifierSlot]

/-- **`updateKeys` keeps every old entry of `m_keycodeToModifier`, the one table that
depends on the past.**  Two states that read the same snapshot agree on every other table;
after it, a key code's modifier is the one the state had for it, if any, and only otherwise
the first modifier whose slots in the new snapshot hold it. -/
theorem updateKeys_keycodeToModifier (s t : CXWindowsSecondaryScreen) (x : XServer) :
    { s.updateKeys x with
      m_keycodeToModifier := t.m_keycodeToModifier
      m_numLockHalfDuplex := t.m_numLockHalfDuplex
      m_capsLockHalfDuplex := t.m_capsLockHalfDuplex } =
      { t.updateKeys x with m_keycodeToModifier := t.m_keycodeToModifier } ∧
    ∀ k, (s.updateKeys x).m_keycodeToModifier.find k =
      (s.m_keycodeToModifier.find k).or (firstModifier x k) := by
  refine ⟨updateKeys_history s t x, fun k => ?_⟩
  simp only [updateKeys, updateModifiers, updateModifierMap_eq, updateKeycodeMap,
    find_insertSlots, firstModifier]

/-- A display whose Shift slot holds key code 50. -/
def shiftAt50 : XServer :=
  ⟨8, 255, 2, [], 1, [50, 0, 0, 0, 0, 0, 0, 0], List.replicate 32 0, none⟩

/-- The same display after key code 50 moved to Control. -/
def controlAt50 : XServer :=
  ⟨8, 255, 2, [], 1, [0, 0, 50, 0, 0, 0, 0, 0], List.replicate 32 0, none⟩

/-- Read fresh, the second mapping puts key code 50 under Control (modifier 2); read after
the first one, it stays under Shift (modifier 0). -/
theorem updateKeys_shiftAt50_controlAt50 :
    (opened.updateKeys controlAt50).m_keycodeToModifier.find 50 = some 2 ∧
      ((opened.updateKeys shiftAt50).updateKeys controlAt50).m_keycodeToModifier.find 50 =
        some 0 := by
  rw [(updateKeys_keycodeToModifier _ opened controlAt50).2,
    (updateKeys_keycodeToModifier _ opened controlAt50).2,
    (updateKeys_keycodeToModifier _ opened shiftAt50).2]
  exact ⟨by decide, by decide⟩

end CXWindowsSecondaryScreen

end Synergy.Keyboard
