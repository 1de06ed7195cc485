import Synergy.Keyboard.Types

/-!
# The secondary screen's keyboard tables

The part of `CXWindowsSecondaryScreen` that tracks the display's keyboard: the keys it has
pressed (`m_keys`), the modifiers it believes active (`m_mask`), the keysym table
(`m_keycodeMap`) and the modifier tables, and `updateKeys`, which reads them all from the
display again.  Window, mouse and screen-saver state is left out: nothing below reads it.

* `updateKeycodeMap`, `updateModifierMap`, `updateModifiers`, `updateKeys` — as the source
  computes them from one `XServer` reading; `updateModifierMap` clears every table but
  `m_keycodeToModifier`, into which it only inserts;
* `maskOf` and `getLsbD_maskOf` — **PROVED**: the 8-bit masks the loops over modifiers build
  have bit `i` set exactly when the loop's test holds for `i`;
* `maskToX` — synergy's modifier mask in X's terms.
-/

namespace Synergy.Keyboard

/-- The keyboard fields of `CXWindowsSecondaryScreen`.  `m_keys` is the 256-entry table of
the keys the screen has pressed; `m_keysPerModifier` slots of `m_modifierToKeycode` belong
to each modifier. -/
structure CXWindowsSecondaryScreen where
  m_keys : KeyCode → Bool
  m_mask : KeyModifierMask
  m_keycodeMap : StdMap KeySym KeyCodeMask
  m_modifierMask : BitVec 32
  m_toggleModifierMask : BitVec 32
  m_numLockMask : BitVec 32
  m_capsLockMask : BitVec 32
  m_scrollLockMask : BitVec 32
  m_keysPerModifier : Nat
  m_modifierToKeycode : List KeyCode
  m_keycodeToModifier : StdMap KeyCode Nat
  m_numLockHalfDuplex : Bool
  m_capsLockHalfDuplex : Bool

/-- The screen after its constructor and `onPostOpen`: empty tables and no half-duplex lock.
The fields the constructor leaves unset, which `updateKeys` writes before anything reads
them, hold 0. -/
def opened : CXWindowsSecondaryScreen :=
  ⟨fun _ => false, 0, StdMap.empty, 0, 0, 0, 0, 0, 0, [], StdMap.empty, false, false⟩

/-- The mask with bit `i` set, for `i < n`, exactly when `c i` holds: what the loops
`for (i = 0; i < 8; ++i) if (...) mask |= (1 << i)` build from 0. -/
def maskOf (n : Nat) (c : Nat → Bool) : BitVec 32 :=
  (List.range n).foldl (fun mask i => if c i then mask ||| BitVec.twoPow 32 i else mask) 0

@[simp] theorem getLsbD_maskOf (n : Nat) (c : Nat → Bool) (j : Nat) :
    (maskOf n c).getLsbD j = (decide (j < 32) && decide (j < n) && c j) := by
  induction n with
  | zero => simp [maskOf]
  | succ n ih =>
    rw [maskOf, List.range_succ, List.foldl_append, ← maskOf, List.foldl_cons, List.foldl_nil]
    by_cases hj : j = n
    · subst hj
      cases hc : c j <;> simp [hc, ih]
    · have : decide (j < n + 1) = decide (j < n) := by simp only [decide_eq_decide]; omega
      split <;> simp [ih, hj, Ne.symm hj, this]

/-- Masks built from tests that agree on the first `n` bits are equal. -/
theorem maskOf_congr {n : Nat} {c c' : Nat → Bool} (h : ∀ i, i < n → c i = c' i) :
    maskOf n c = maskOf n c' :=
  BitVec.eq_of_getLsbD_eq fun i => by
    by_cases hi : i.val < n <;> simp [hi, h]

/-- Scans over the first `n` slots agree when their tests agree on each slot. -/
theorem any_range_congr {n : Nat} {f g : Nat → Bool} (h : ∀ j, j < n → f j = g j) :
    (List.range n).any f = (List.range n).any g := by
  induction n with
  | zero => rfl
  | succ n ih =>
    simp only [List.range_succ, List.any_append, List.any_cons, List.any_nil, Bool.or_false,
      ih fun j hj => h j (by omega), h n (by omega)]

namespace CXWindowsSecondaryScreen

variable (s : CXWindowsSecondaryScreen)

/-- Slot `j` of modifier `i`: `m_modifierToKeycode[i * m_keysPerModifier + j]`, 0 past the
end of the table. -/
def modifierSlot (i j : Nat) : KeyCode :=
  s.m_modifierToKeycode.getD (i * s.m_keysPerModifier + j) 0

/-! ### `updateKeycodeMap` -/

/-- `keysyms[i * keysymsPerKeycode + n]`, `NoSymbol` past the end of the mapping. -/
def keysymAt (x : XServer) (i n : Nat) : KeySym :=
  x.keysyms.getD (i * x.keysyms_per_keycode + n) NoSymbol

/-- One pass of the loop of `updateKeycodeMap`, for the `i`-th key code: entries for its
first two keysyms, the second one inserted even when it is `NoSymbol`. -/
def insertKeycode (x : XServer) (map : StdMap KeySym KeyCodeMask) (i : Nat) :
    StdMap KeySym KeyCodeMask :=
  -- how many keysyms for this keycode?
  let n := if keysymAt x i 0 = NoSymbol then 0 else if keysymAt x i 1 = NoSymbol then 1 else 2
  if n = 0 then map
  else
    let m_keyMaskMask := if n = 1 then 0 else ShiftMask ||| LockMask
    let m_keycode : KeyCode := UInt8.ofNat ((x.min_keycode + i) % 256).toNat
    (map.insert (keysymAt x i 0) ⟨m_keycode, 0, m_keyMaskMask⟩).insert (keysymAt x i 1)
      ⟨m_keycode, ShiftMask, m_keyMaskMask⟩

/-- `updateKeycodeMap`: the keysym table, cleared and built again from the mapping. -/
def updateKeycodeMap (x : XServer) : CXWindowsSecondaryScreen :=
  let numKeycodes := x.max_keycode - x.min_keycode + 1
  { s with m_keycodeMap := (List.range numKeycodes.toNat).foldl (insertKeycode x) StdMap.empty }

/-! ### `updateModifierMap` -/

/-- `keymap->modifiermap[i * max_keypermod + j]` for slot `ij = (i, j)`, 0 past the end. -/
def slotKeycode (x : XServer) (ij : Nat × Nat) : KeyCode :=
  x.modifiermap.getD (ij.1 * x.max_keypermod + ij.2) 0

/-- The keysym that decides whether slot `ij` makes its modifier a toggle. -/
def slotKeysym (x : XServer) (ij : Nat × Nat) : KeySym := XKeycodeToKeysym x (slotKeycode x ij)

/-- One pass of the inner loop of `updateModifierMap`, for slot `ij = (i, j)`. -/
def modifierMapSlot (x : XServer) (s : CXWindowsSecondaryScreen) (ij : Nat × Nat) :
    CXWindowsSecondaryScreen :=
  let bit := BitVec.twoPow 32 ij.1
  let keycode := slotKeycode x ij
  let keysym := slotKeysym x ij
  let toggle := isToggleKeysym keysym
  { s with
    m_keycodeToModifier := s.m_keycodeToModifier.insert keycode ij.1
    m_modifierMask := if keycode ≠ 0 then s.m_modifierMask ||| bit else s.m_modifierMask
    m_toggleModifierMask :=
      if toggle then s.m_toggleModifierMask ||| bit else s.m_toggleModifierMask
    m_numLockMask :=
      if toggle ∧ keysym = XK_Num_Lock then s.m_numLockMask ||| bit else s.m_numLockMask
    m_capsLockMask :=
      if toggle ∧ keysym = XK_Caps_Lock then s.m_capsLockMask ||| bit else s.m_capsLockMask
    m_scrollLockMask :=
      if toggle ∧ keysym = XK_Scroll_Lock then s.m_scrollLockMask ||| bit
      else s.m_scrollLockMask }

/-- The slots `updateModifierMap` visits, in its order. -/
def modifierSlots (keysPerModifier : Nat) : List (Nat × Nat) :=
  (List.range 8).flatMap fun i => (List.range keysPerModifier).map fun j => (i, j)

/-- `updateModifierMap`: the masks cleared, `m_modifierToKeycode` the server's
`8 * max_keypermod` slots (the loop writes each of them once), then every slot visited.
`m_keycodeToModifier` is not cleared. -/
def updateModifierMap (x : XServer) : CXWindowsSecondaryScreen :=
  (modifierSlots x.max_keypermod).foldl (modifierMapSlot x)
    { s with
      m_modifierMask := 0
      m_toggleModifierMask := 0
      m_numLockMask := 0
      m_capsLockMask := 0
      m_scrollLockMask := 0
      m_keysPerModifier := x.max_keypermod
      m_modifierToKeycode :=
        (List.range (8 * x.max_keypermod)).map fun k => x.modifiermap.getD k 0 }

/-- `m` with the bit of modifier `ij.1` added for each slot `ij` of `l` that passes `c`. -/
def orSlots (l : List (Nat × Nat)) (c : Nat × Nat → Prop) [DecidablePred c] (m : BitVec 32) :
    BitVec 32 :=
  l.foldl (fun m ij => if c ij then m ||| BitVec.twoPow 32 ij.1 else m) m

@[simp] theorem getLsbD_orSlots (l : List (Nat × Nat)) (c : Nat × Nat → Prop) [DecidablePred c]
    (m : BitVec 32) (n : Nat) : (orSlots l c m).getLsbD n =
      (m.getLsbD n || (decide (n < 32) && l.any fun ij => ij.1 = n && c ij)) := by
  induction l generalizing m with
  | nil => simp [orSlots]
  | cons ij l ih =>
    simp only [orSlots] at ih ⊢
    rw [List.foldl_cons, ih, List.any_cons]
    by_cases hc : c ij
    · by_cases h : ij.1 = n
      · subst h
        by_cases hn : ij.1 < 32 <;> simp [hc, hn]
      · simp [hc, h]
    · simp [hc]

/-- `m` with the key code of each slot of `l` inserted under its modifier, in order. -/
def insertSlots (x : XServer) (l : List (Nat × Nat)) (m : StdMap KeyCode Nat) :
    StdMap KeyCode Nat :=
  l.foldl (fun m ij => m.insert (slotKeycode x ij) ij.1) m

/-- The loop of `updateModifierMap` one table at a time: each mask gains the bits of the
slots its test accepts, and `m_keycodeToModifier` gets every slot inserted. -/
theorem foldl_modifierMapSlot (x : XServer) (l : List (Nat × Nat))
    (s : CXWindowsSecondaryScreen) :
    l.foldl (modifierMapSlot x) s =
      { s with
        m_keycodeToModifier := insertSlots x l s.m_keycodeToModifier
        m_modifierMask := orSlots l (fun ij => slotKeycode x ij ≠ 0) s.m_modifierMask
        m_toggleModifierMask :=
          orSlots l (fun ij => isToggleKeysym (slotKeysym x ij)) s.m_toggleModifierMask
        m_numLockMask := orSlots l (fun ij => isToggleKeysym (slotKeysym x ij) ∧
          slotKeysym x ij = XK_Num_Lock) s.m_numLockMask
        m_capsLockMask := orSlots l (fun ij => isToggleKeysym (slotKeysym x ij) ∧
          slotKeysym x ij = XK_Caps_Lock) s.m_capsLockMask
        m_scrollLockMask := orSlots l (fun ij => isToggleKeysym (slotKeysym x ij) ∧
          slotKeysym x ij = XK_Scroll_Lock) s.m_scrollLockMask } := by
  induction l generalizing s with
  | nil => rfl
  | cons ij l ih => rw [List.foldl_cons, ih]; rfl

/-- `updateModifierMap` as one record: every table computed from the snapshot alone, except
`m_keycodeToModifier`, which keeps what it held. -/
theorem updateModifierMap_eq (x : XServer) :
    s.updateModifierMap x =
      { s with
        m_keycodeToModifier := insertSlots x (modifierSlots x.max_keypermod) s.m_keycodeToModifier
        m_modifierMask := orSlots (modifierSlots x.max_keypermod) (fun ij => slotKeycode x ij ≠ 0) 0
        m_toggleModifierMask :=
          orSlots (modifierSlots x.max_keypermod) (fun ij => isToggleKeysym (slotKeysym x ij)) 0
        m_numLockMask := orSlots (modifierSlots x.max_keypermod) (fun ij =>
          isToggleKeysym (slotKeysym x ij) ∧ slotKeysym x ij = XK_Num_Lock) 0
        m_capsLockMask := orSlots (modifierSlots x.max_keypermod) (fun ij =>
          isToggleKeysym (slotKeysym x ij) ∧ slotKeysym x ij = XK_Caps_Lock) 0
        m_scrollLockMask := orSlots (modifierSlots x.max_keypermod) (fun ij =>
          isToggleKeysym (slotKeysym x ij) ∧ slotKeysym x ij = XK_Scroll_Lock) 0
        m_keysPerModifier := x.max_keypermod
        m_modifierToKeycode :=
          (List.range (8 * x.max_keypermod)).map fun k => x.modifiermap.getD k 0 } := by
  rw [updateModifierMap, foldl_modifierMapSlot]

/-! ### `updateModifiers` and `updateKeys` -/

/-- `updateModifiers`: a level modifier is active when one of its slots holds a key in
`m_keys` (an empty slot reads `m_keys[0]`), a toggle when the pointer's state says so. -/
def updateModifiers (x : XServer) : CXWindowsSecondaryScreen :=
  let state := x.pointerState.getD 0
  { s with
    m_mask := maskOf 8 fun i =>
      if BitVec.twoPow 32 i &&& s.m_toggleModifierMask = 0 then
        (List.range s.m_keysPerModifier).any fun j => s.m_keys (s.modifierSlot i j)
      else BitVec.twoPow 32 i &&& state ≠ 0 }

@[simp] theorem updateModifiers_m_toggleModifierMask (x : XServer) :
    (s.updateModifiers x).m_toggleModifierMask = s.m_toggleModifierMask := rfl

@[simp] theorem updateModifiers_m_keysPerModifier (x : XServer) :
    (s.updateModifiers x).m_keysPerModifier = s.m_keysPerModifier := rfl

@[simp] theorem modifierSlot_updateModifiers (x : XServer) (i j : Nat) :
    (s.updateModifiers x).modifierSlot i j = s.modifierSlot i j := rfl

/-- `XQueryKeymap`'s bit for key code `k`: bit `k % 8` of byte `k / 8`. -/
def keymapBit (keymap : List UInt8) (k : KeyCode) : Bool :=
  (keymap.getD (k.toNat / 8) 0).toNat.testBit (k.toNat % 8)

/-- `updateKeys`: `m_keys` from the keymap, then the keysym table, the modifier tables and
the active modifiers. -/
def updateKeys (x : XServer) : CXWindowsSecondaryScreen :=
  let s := { s with m_keys := keymapBit x.keymap }
  updateModifiers (updateModifierMap (updateKeycodeMap s x) x) x

/-- After `updateKeys`, `m_keys` is the keymap the display reported. -/
@[simp] theorem updateKeys_m_keys (x : XServer) : (s.updateKeys x).m_keys = keymapBit x.keymap := by
  simp only [updateKeys, updateModifiers, updateModifierMap_eq, updateKeycodeMap]

/-- After `updateKeys`, the keysym table is the one `updateKeycodeMap` builds. -/
theorem updateKeys_m_keycodeMap (x : XServer) :
    (s.updateKeys x).m_keycodeMap = (s.updateKeycodeMap x).m_keycodeMap := by
  simp only [updateKeys, updateModifiers, updateModifierMap_eq, updateKeycodeMap]

/-! ### `maskToX` -/

/-- `maskToX`: synergy's modifiers as X modifier bits; Alt is `Mod1`, Meta `Mod4`, and the
locks are the bits `updateModifierMap` found for them. -/
def maskToX (inMask : KeyModifierMask) : BitVec 32 :=
  let outMask : BitVec 32 := 0
  let outMask := if inMask &&& KeyModifierShift ≠ 0 then outMask ||| ShiftMask else outMask
  let outMask := if inMask &&& KeyModifierControl ≠ 0 then outMask ||| ControlMask else outMask
  let outMask := if inMask &&& KeyModifierAlt ≠ 0 then outMask ||| Mod1Mask else outMask
  let outMask := if inMask &&& KeyModifierMeta ≠ 0 then outMask ||| Mod4Mask else outMask
  let outMask :=
    if inMask &&& KeyModifierCapsLock ≠ 0 then outMask ||| s.m_capsLockMask else outMask
  let outMask :=
    if inMask &&& KeyModifierNumLock ≠ 0 then outMask ||| s.m_numLockMask else outMask
  if inMask &&& KeyModifierScrollLock ≠ 0 then outMask ||| s.m_scrollLockMask else outMask

end CXWindowsSecondaryScreen

end Synergy.Keyboard
