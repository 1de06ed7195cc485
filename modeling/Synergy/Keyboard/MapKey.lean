import Synergy.Keyboard.FindKeyCode

/-!
# The keystrokes for one key event

`CXWindowsSecondaryScreen::mapKey` computes the keystrokes that press, release or repeat a
key with the requested modifiers: for each of the 8 modifier bits whose state must change
it pushes the keystrokes that change it and records their inverse on an undo list, then it
pushes the key's own keystroke and the undo list backwards.  It returns the modifier mask
the screen will have afterwards.  It is cut here along the source's own sections:

* `adjustModifier` — the body of the loop over modifier bits, `none` where no key code is
  found for the modifier and the source returns;
* `adjustModifiers` — the loop: the keystrokes pushed, and the undo list, `none` if it
  returned early;
* `primaryKeystrokes` — the `switch` on the action;
* `newMask` — the mask after the key, for a modifier key;
* `mapKey` — the whole, with its early returns.
-/

namespace Synergy.Keyboard

namespace CXWindowsSecondaryScreen

variable (s : CXWindowsSecondaryScreen)

/-- A modifier bit handled with one event per change: the caps or num lock bit when the
screen calls that lock half-duplex. -/
def isHalfDuplexBit (bit : BitVec 32) : Bool :=
  (bit = s.m_capsLockMask && s.m_capsLockHalfDuplex) ||
    (bit = s.m_numLockMask && s.m_numLockHalfDuplex)

/-- The key code `mapKey` uses for modifier `i`: `modifierKeys[0]`, or `modifierKeys[1]`
when that is 0. -/
def modifierKeyOf (i : Nat) : KeyCode :=
  if s.modifierSlot i 0 = 0 then s.modifierSlot i 1 else s.modifierSlot i 0

/-- The keys of modifier `i` that `m_keys` records as down, in slot order. -/
def downModifierKeys (i : Nat) : List KeyCode :=
  (List.range s.m_keysPerModifier).filterMap fun j =>
    if s.modifierSlot i j ≠ 0 ∧ s.m_keys (s.modifierSlot i j) then some (s.modifierSlot i j)
    else none

/-- The body of `mapKey`'s loop for modifier bit `i`: the keystrokes that bring the bit to
its state in `outMask` and the ones pushed on the undo list; `none` when the source returns
for want of a key code.  A toggle is pressed and released (one event if half-duplex), a level
modifier pressed with its first key, or released at every key of it `m_keys` has down. -/
def adjustModifier (outMask : BitVec 32) (i : Nat) :
    Option (List Keystroke × List Keystroke) :=
  let bit := BitVec.twoPow 32 i
  if outMask &&& bit = s.m_mask &&& bit then some ([], [])
  else
    let modifierKey := s.modifierKeyOf i
    if modifierKey = 0 then none
    else
      let keystroke (press : Bool) : Keystroke := ⟨modifierKey, press, false⟩
      let isToggle := bit &&& s.m_toggleModifierMask ≠ 0
      if outMask &&& bit ≠ 0 then
        -- modifier is not active but should be
        if isToggle then
          if s.isHalfDuplexBit bit then some ([keystroke true], [keystroke false])
          else some ([keystroke true, keystroke false], [keystroke false, keystroke true])
        else some ([keystroke true], [keystroke false])
      else
        -- modifier is active but should not be
        if isToggle then
          if s.isHalfDuplexBit bit then some ([keystroke false], [keystroke true])
          else some ([keystroke true, keystroke false], [keystroke false, keystroke true])
        else
          some ((s.downModifierKeys i).map fun key => ⟨key, false, false⟩,
            (s.downModifierKeys i).map fun key => ⟨key, true, false⟩)

/-- `mapKey`'s loop over the modifier bits `bits`: the keystrokes pushed and the undo list,
or the keystrokes pushed before the source returned and `none`. -/
def adjustModifiers (outMask : BitVec 32) : List Nat → List Keystroke × Option (List Keystroke)
  | [] => ([], some [])
  | i :: bits =>
    match s.adjustModifier outMask i with
    | none => ([], none)
    | some (keys, undo) =>
      let rest := adjustModifiers outMask bits
      (keys ++ rest.1, rest.2.map (undo ++ ·))

/-- The key's own keystrokes: a repeat is a release and a press, both marked to repeat. -/
def primaryKeystrokes (keycode : KeyCode) : EKeyAction → List Keystroke
  | .kPress => [⟨keycode, true, false⟩]
  | .kRelease => [⟨keycode, false, false⟩]
  | .kRepeat => [⟨keycode, false, true⟩, ⟨keycode, true, true⟩]

/-- The mask after the key, for a key of modifier `index`: a toggle flips on release (on
every event if half-duplex); a level modifier is set on press and cleared on release unless
`m_keys` has one of its keys down.  Repeats and other keys leave `m_mask`. -/
def newMask (index : Option Nat) (isHalfDuplex : Bool) (action : EKeyAction) : BitVec 32 :=
  match index with
  | none => s.m_mask
  | some i =>
    if action = .kRepeat then s.m_mask
    else
      let modifierBit := BitVec.twoPow 32 i
      if modifierBit &&& s.m_toggleModifierMask ≠ 0 then
        if isHalfDuplex ∨ action = .kRelease then s.m_mask ^^^ modifierBit else s.m_mask
      else if action = .kPress then s.m_mask ||| modifierBit
      else
        -- can't reset bit until all keys that set it are released
        let down := (List.range s.m_keysPerModifier).any fun j =>
          s.modifierSlot i j ≠ 0 && s.m_keys (s.modifierSlot i j)
        if down then s.m_mask else s.m_mask &&& ~~~modifierBit

/-- A level modifier's press sets its bit. -/
theorem newMask_press_level {i : Nat} (hd : Bool)
    (hlevel : BitVec.twoPow 32 i &&& s.m_toggleModifierMask = 0) :
    s.newMask (some i) hd .kPress = s.m_mask ||| BitVec.twoPow 32 i := by
  unfold newMask
  dsimp only
  rw [if_neg (by decide), if_neg (by simp [hlevel]), if_pos rfl]

/-- A level modifier's release keeps its bit while `m_keys` has a key of it down. -/
theorem newMask_release_of_down {i : Nat} (hd : Bool)
    (hlevel : BitVec.twoPow 32 i &&& s.m_toggleModifierMask = 0)
    (hdown : ∃ j, j < s.m_keysPerModifier ∧ s.modifierSlot i j ≠ 0 ∧
      s.m_keys (s.modifierSlot i j) = true) :
    s.newMask (some i) hd .kRelease = s.m_mask := by
  obtain ⟨j, hj, hk, hkd⟩ := hdown
  have hscan : ((List.range s.m_keysPerModifier).any fun j =>
      decide (s.modifierSlot i j ≠ 0) && s.m_keys (s.modifierSlot i j)) = true :=
    List.any_eq_true.mpr ⟨j, List.mem_range.mpr hj, by simp [hk, hkd]⟩
  unfold newMask
  dsimp only
  rw [if_neg (by decide), if_neg (by simp [hlevel]), if_neg (by decide), if_pos hscan]

/-- What `mapKey` gives back: the mask it returns and its two out-parameters. -/
structure MapKeyResult where
  mask : KeyModifierMask
  keys : List Keystroke
  keycode : KeyCode
deriving DecidableEq, Repr

/-- The key id is the caps or num lock and the screen calls that lock half-duplex. -/
def isHalfDuplexKey (id : KeyID) : Bool :=
  (id = kKeyCapsLock && s.m_capsLockHalfDuplex) || (id = kKeyNumLock && s.m_numLockHalfDuplex)

/-- `mapKey`.  Where the source returns before `findKeyCode` sets `keycode` the model
returns key code 0: the callers read it only when `keys` is not empty, and it is empty
there.  The source reads `index->second` for the half-duplex test even when the key code
is no modifier's, past the end of `m_keycodeToModifier`; the model reads modifier 0 there. -/
def mapKey (id : KeyID) (mask : KeyModifierMask) (action : EKeyAction) : MapKeyResult :=
  let isHalfDuplex := s.isHalfDuplexKey id
  -- ignore releases and repeats for half-duplex keys
  if isHalfDuplex ∧ action ≠ .kPress then ⟨s.m_mask, [], 0⟩
  else
    match s.findKeyCode id (s.maskToX mask) with
    | none => ⟨s.m_mask, [], 0⟩
    | some (keycode, outMask) =>
      if outMask &&& s.m_modifierMask ≠ outMask then ⟨s.m_mask, [], keycode⟩
      else
        let index := s.m_keycodeToModifier.find keycode
        let (keys, undo) :=
          if outMask ≠ s.m_mask ∧ index = none then s.adjustModifiers outMask (List.range 8)
          else ([], some [])
        match undo with
        | none => ⟨s.m_mask, keys, keycode⟩
        | some undo =>
          -- the press of a half-duplex key that is down is its release
          let action :=
            if isHalfDuplex ∧ s.m_mask &&& BitVec.twoPow 32 (index.getD 0) ≠ 0 then .kRelease
            else action
          ⟨s.newMask index isHalfDuplex action,
            keys ++ primaryKeystrokes keycode action ++ undo.reverse, keycode⟩

/-! ### How `mapKey` ends -/

/-- With nothing to change, the loop pushes nothing and completes. -/
theorem adjustModifiers_self (bits : List Nat) :
    s.adjustModifiers s.m_mask bits = ([], some []) := by
  induction bits with
  | nil => rfl
  | cons i bits ih => simp [adjustModifiers, adjustModifier, ih]

/-- The loop's keystrokes, and its undo list, are never marked to repeat. -/
theorem adjustModifiers_not_repeat (outMask : BitVec 32) (bits : List Nat) :
    (∀ k ∈ (s.adjustModifiers outMask bits).1, k.m_repeat = false) ∧
      ∀ undo, (s.adjustModifiers outMask bits).2 = some undo → ∀ k ∈ undo, k.m_repeat = false := by
  induction bits with
  | nil => simp [adjustModifiers]
  | cons i bits ih =>
    have step : ∀ keys undo, s.adjustModifier outMask i = some (keys, undo) →
        ∀ k ∈ keys ++ undo, k.m_repeat = false := by
      intro keys undo h
      simp only [adjustModifier] at h
      split_ifs at h <;> cases h <;> simp
      rintro k (⟨a, -, rfl⟩ | ⟨a, -, rfl⟩) <;> rfl
    simp only [adjustModifiers]
    split
    · simp
    · next keys undo h =>
      refine ⟨fun k hk => ?_, fun u hu k hk => ?_⟩
      · rcases List.mem_append.mp hk with hk | hk
        · exact step keys undo h k (List.mem_append_left _ hk)
        · exact ih.1 k hk
      · obtain ⟨u', hu', rfl⟩ := Option.map_eq_some'.mp hu
        rcases List.mem_append.mp hk with hk | hk
        · exact step keys undo h k (List.mem_append_right _ hk)
        · exact ih.2 u' hu' k hk

/-- The early returns before the loop: a half-duplex key's release or repeat, no key code
for the key, a required modifier the display does not have.  Each returns `m_mask` and no
keystroke. -/
theorem mapKey_early (id : KeyID) (mask : KeyModifierMask) (action : EKeyAction)
    (h : s.isHalfDuplexKey id ∧ action ≠ .kPress ∨ s.findKeyCode id (s.maskToX mask) = none ∨
      ∃ keycode outMask, s.findKeyCode id (s.maskToX mask) = some (keycode, outMask) ∧
        outMask &&& s.m_modifierMask ≠ outMask) :
    (s.mapKey id mask action).mask = s.m_mask ∧ (s.mapKey id mask action).keys = [] := by
  by_cases hhd : s.isHalfDuplexKey id ∧ action ≠ .kPress
  · simp [mapKey, hhd]
  · rcases h with h | h | ⟨keycode, outMask, hf, hsub⟩
    · exact absurd h hhd
    · simp [mapKey, h, hhd]
    · simp [mapKey, hf, hsub, hhd]

/-- The return inside the loop: when no key code is found for a modifier bit that must
change, `mapKey` returns `m_mask` and the keystrokes the loop pushed for the bits before. -/
theorem mapKey_of_bail {id : KeyID} {mask : KeyModifierMask} {action : EKeyAction}
    {keycode : KeyCode} {outMask : BitVec 32} {keys : List Keystroke}
    (hhd : ¬(s.isHalfDuplexKey id ∧ action ≠ .kPress))
    (hf : s.findKeyCode id (s.maskToX mask) = some (keycode, outMask))
    (hsub : outMask &&& s.m_modifierMask = outMask)
    (hidx : s.m_keycodeToModifier.find keycode = none)
    (hadj : s.adjustModifiers outMask (List.range 8) = (keys, none)) :
    s.mapKey id mask action = ⟨s.m_mask, keys, keycode⟩ := by
  have hne : outMask ≠ s.m_mask := by
    rintro rfl
    rw [adjustModifiers_self] at hadj
    cases hadj
  simp [mapKey, hhd, hf, hsub, hidx, hne, hadj]

/-- The action `mapKey` gives the key code: a half-duplex key's press is its release when
bit `index` of `m_mask` is set. -/
def effectiveAction (id : KeyID) (index : Option Nat) (action : EKeyAction) : EKeyAction :=
  if s.isHalfDuplexKey id ∧ s.m_mask &&& BitVec.twoPow 32 (index.getD 0) ≠ 0 then .kRelease
  else action

/-- The path to the primary keystroke, for a key code that is no modifier's: the loop's
keystrokes, the key's own, then the undo list backwards; the mask is `m_mask`. -/
theorem mapKey_of_adjust {id : KeyID} {mask : KeyModifierMask} {action : EKeyAction}
    {keycode : KeyCode} {outMask : BitVec 32} {keys undo : List Keystroke}
    (hhd : ¬(s.isHalfDuplexKey id ∧ action ≠ .kPress))
    (hf : s.findKeyCode id (s.maskToX mask) = some (keycode, outMask))
    (hsub : outMask &&& s.m_modifierMask = outMask)
    (hidx : s.m_keycodeToModifier.find keycode = none)
    (hadj : s.adjustModifiers outMask (List.range 8) = (keys, some undo)) :
    s.mapKey id mask action = ⟨s.m_mask,
      keys ++ primaryKeystrokes keycode (s.effectiveAction id none action) ++ undo.reverse,
      keycode⟩ := by
  by_cases hne : outMask = s.m_mask
  · subst hne
    rw [adjustModifiers_self] at hadj
    cases hadj
    simp [mapKey, effectiveAction, newMask, hhd, hf, hsub, hidx]
  · simp [mapKey, effectiveAction, newMask, hhd, hf, hsub, hidx, hne, hadj]

/-- The path to the primary keystroke for a modifier's key code: no adjustment, the key's
own keystrokes alone, and the mask `newMask` computes. -/
theorem mapKey_of_modifier {id : KeyID} {mask : KeyModifierMask} {action : EKeyAction}
    {keycode : KeyCode} {outMask : BitVec 32} {i : Nat}
    (hhd : ¬(s.isHalfDuplexKey id ∧ action ≠ .kPress))
    (hf : s.findKeyCode id (s.maskToX mask) = some (keycode, outMask))
    (hsub : outMask &&& s.m_modifierMask = outMask)
    (hidx : s.m_keycodeToModifier.find keycode = some i) :
    s.mapKey id mask action =
      ⟨s.newMask (some i) (s.isHalfDuplexKey id) (s.effectiveAction id (some i) action),
        primaryKeystrokes keycode (s.effectiveAction id (some i) action), keycode⟩ := by
  simp [mapKey, effectiveAction, hhd, hf, hsub, hidx]

end CXWindowsSecondaryScreen

end Synergy.Keyboard
