import Synergy.Keyboard.TableInvariant

/-!
# The table reads of `updateKeycodeMap` and `mapKey`

The keyboard code indexes three tables with no bounds check: the keysyms `XGetKeyboardMapping`
returns (`numKeycodes` rows of `keysymsPerKeycode`), `m_modifierToKeycode` (`8 *
m_keysPerModifier` slots, written by `updateModifierMap`, which no other call changes), and
`m_keycodeToModifier`, whose lookup `mapKey` dereferences for a half-duplex key.  The model
reads past an end as a default (`getD`); here the reads are listed, index by index, as the
source makes them, and compared with the tables' sizes.

* `keysymReads` — `updateKeycodeMap` reads `keysyms[i * keysymsPerKeycode + 1]` for every key
  with a keysym, since `numKeysyms` is 2 whatever `keysymsPerKeycode` is;
* `modifierKeyReads` — `modifierKeys[0]`, and `modifierKeys[1]` when that is 0;
* `halfDuplexLookup` — the entry behind `index->second`;
* `updateKeys_accesses_inBounds_iff` — **PROVED**: the first two stay inside their tables
  exactly when the keys have two keysyms each or the last has none, and when the snapshot has
  slots and, where a modifier's first slot is empty, two slots a modifier or a modifier after
  it; `capsLockBoard_reads_out_of_bounds` shows all three reads going wrong on one snapshot.
-/

namespace Synergy.Keyboard

/-- `numKeycodes`: `maxKeycode - minKeycode + 1`, the key codes `updateKeycodeMap` walks. -/
def XServer.numKeycodes (x : XServer) : Nat := (x.max_keycode - x.min_keycode + 1).toNat

namespace CXWindowsSecondaryScreen

/-- The indices of `keysyms` the loop of `updateKeycodeMap` reads for the `i`-th key code, in
its order: `keysyms[i * keysymsPerKeycode + n]` for `n = 0`, and, when that is a keysym, for
`n = 1` in the counting loop and then for `j = 0, 1` in the insert loop (`numKeysyms` is 2
whatever `keysymsPerKeycode` is). -/
def keysymReads (x : XServer) (i : Nat) : List Nat :=
  let row := i * x.keysyms_per_keycode
  if keysymAt x i 0 = NoSymbol then [row] else [row, row + 1, row, row + 1]

/-- The first `i + 1` rows of the mapping end inside `numKeycodes` rows. -/
theorem row_add_le {i n k : Nat} (hi : i < n) : i * k + k ≤ n * k := by
  have := Nat.mul_le_mul_right k (Nat.succ_le_of_lt hi)
  rwa [Nat.succ_mul] at this

/-- With the `numKeycodes * keysymsPerKeycode` keysyms `XGetKeyboardMapping` returns, the reads
of `updateKeycodeMap` are all inside the mapping exactly when the keys have two keysyms or
more each, or the last key code has none. -/
theorem keysymReads_inBounds_iff (x : XServer) (hk : 1 ≤ x.keysyms_per_keycode)
    (hlen : x.keysyms.length = x.numKeycodes * x.keysyms_per_keycode) :
    (∀ i < x.numKeycodes, ∀ k ∈ keysymReads x i, k < x.keysyms.length) ↔
      2 ≤ x.keysyms_per_keycode ∨ ∀ i, i + 1 = x.numKeycodes → keysymAt x i 0 = NoSymbol := by
  rw [hlen]
  constructor
  · intro hr
    refine (Nat.lt_or_ge x.keysyms_per_keycode 2).elim (fun h1 => .inr fun i hi => ?_) .inl
    by_contra hsym
    have := hr i (by omega) (i * x.keysyms_per_keycode + 1) (by simp [keysymReads, hsym])
    rw [show x.keysyms_per_keycode = 1 by omega] at this
    omega
  · intro h i hi k hk'
    have hrow := row_add_le (k := x.keysyms_per_keycode) hi
    unfold keysymReads at hk'
    split_ifs at hk' with hsym
    · simp only [List.mem_singleton] at hk'; omega
    · -- the second read is inside when the rows are wide or a row follows
      have : i * x.keysyms_per_keycode + 1 < x.numKeycodes * x.keysyms_per_keycode := by
        rcases h with h2 | hlast
        · omega
        · rcases Nat.lt_or_ge x.keysyms_per_keycode 2 with h1 | h2
          · have hne : i + 1 ≠ x.numKeycodes := fun e => hsym (hlast i e)
            rw [show x.keysyms_per_keycode = 1 by omega] at hrow ⊢
            omega
          · omega
      simp only [List.mem_cons, List.not_mem_nil, or_false] at hk'
      omega

variable (s : CXWindowsSecondaryScreen)

/-- The entries of `m_modifierToKeycode` the body of `mapKey`'s loop reads to pick the key of
modifier `i`, where `modifierKeys` is `&m_modifierToKeycode[i * m_keysPerModifier]`:
`modifierKeys[0]`, and `modifierKeys[1]` when that is 0 (as `modifierKeyOf`). -/
def modifierKeyReads (i : Nat) : List Nat :=
  if s.modifierSlot i 0 = 0 then [i * s.m_keysPerModifier, i * s.m_keysPerModifier + 1]
  else [i * s.m_keysPerModifier]

/-- `updateKeys` sizes `m_modifierToKeycode` to the snapshot's `8 * max_keypermod` slots. -/
@[simp] theorem updateKeys_m_modifierToKeycode_length (x : XServer) :
    (s.updateKeys x).m_modifierToKeycode.length = 8 * x.max_keypermod := by
  simp only [updateKeys, updateModifiers, updateModifierMap_eq, updateKeycodeMap, List.length_map,
    List.length_range]

/-- After `updateKeys`, the reads that pick modifier `i`'s key are inside the table exactly when
the snapshot has slots and, where the first slot is empty, two slots a modifier or a modifier
after `i`; the release loop's reads `modifierKeys[j]`, `j < m_keysPerModifier`, always are. -/
theorem modifierKeyReads_updateKeys_iff (x : XServer) {i : Nat} (hi : i < 8) :
    ((∀ k ∈ (s.updateKeys x).modifierKeyReads i,
        k < (s.updateKeys x).m_modifierToKeycode.length) ↔
      0 < x.max_keypermod ∧ (slotKeycode x (i, 0) = 0 → 2 ≤ x.max_keypermod ∨ i < 7)) ∧
    ∀ j < (s.updateKeys x).m_keysPerModifier,
      i * (s.updateKeys x).m_keysPerModifier + j < (s.updateKeys x).m_modifierToKeycode.length := by
  have hrow := row_add_le (k := x.max_keypermod) hi
  simp only [updateKeys_m_modifierToKeycode_length, updateKeys_m_keysPerModifier]
  refine ⟨?_, fun j hj => by omega⟩
  unfold modifierKeyReads
  rw [updateKeys_m_keysPerModifier]
  rcases Nat.eq_zero_or_pos x.max_keypermod with h0 | hpos
  · -- no slots: even `modifierKeys[0]` is past the end of the empty table
    refine ⟨fun h => absurd (h (i * x.max_keypermod) (by split_ifs <;> simp)) (by omega),
      fun h => by omega⟩
  rw [modifierSlot_updateKeys s x hi hpos]
  split_ifs with hslot
  · simp only [List.mem_cons, List.not_mem_nil, or_false, forall_eq_or_imp, forall_eq, hslot,
      forall_const, hpos, true_and]
    rcases Nat.lt_or_ge x.max_keypermod 2 with h1 | h2
    · rw [show x.max_keypermod = 1 by omega]; omega
    · omega
  · simp [hslot, hpos]; omega

/-- The lookup `mapKey`'s half-duplex test dereferences, `index->second`: `some index` where
`mapKey` gets past its early returns and its loop with a half-duplex key, `index` being the key
code's entry in `m_keycodeToModifier` and `none` for `end()`; `none` where it does not read
it. -/
def halfDuplexLookup (id : KeyID) (mask : KeyModifierMask) (action : EKeyAction) :
    Option (Option Nat) :=
  if s.isHalfDuplexKey id ∧ action ≠ .kPress then none
  else
    match s.findKeyCode id (s.maskToX mask) with
    | none => none
    | some (keycode, outMask) =>
      if outMask &&& s.m_modifierMask ≠ outMask then none
      else
        let index := s.m_keycodeToModifier.find keycode
        let undo :=
          if outMask ≠ s.m_mask ∧ index = none then (s.adjustModifiers outMask (List.range 8)).2
          else some []
        if undo.isSome ∧ s.isHalfDuplexKey id then some index else none

/-- **The bounds of the table reads, after `updateKeys`.**  For every state and every snapshot
with `keysymsPerKeycode ≥ 1` whose mapping holds the `numKeycodes * keysymsPerKeycode` keysyms
`XGetKeyboardMapping` returns: the reads of
`updateKeycodeMap` stay inside the mapping exactly when the keys have two keysyms or more each,
or the last key code has none; and, for each modifier `i`, the reads by which `mapKey` picks
its key stay inside `m_modifierToKeycode` exactly when the snapshot has slots and, where `i`'s
first slot is empty, two slots a modifier or a modifier after `i`. -/
theorem updateKeys_accesses_inBounds_iff (x : XServer) (hk : 1 ≤ x.keysyms_per_keycode)
    (hlen : x.keysyms.length = x.numKeycodes * x.keysyms_per_keycode) :
    ((∀ i < x.numKeycodes, ∀ k ∈ keysymReads x i, k < x.keysyms.length) ↔
      2 ≤ x.keysyms_per_keycode ∨ ∀ i, i + 1 = x.numKeycodes → keysymAt x i 0 = NoSymbol) ∧
    ∀ i < 8, ((∀ k ∈ (s.updateKeys x).modifierKeyReads i,
        k < (s.updateKeys x).m_modifierToKeycode.length) ↔
      0 < x.max_keypermod ∧ (slotKeycode x (i, 0) = 0 → 2 ≤ x.max_keypermod ∨ i < 7)) :=
  ⟨keysymReads_inBounds_iff x hk hlen, fun _ hi => (s.modifierKeyReads_updateKeys_iff x hi).1⟩

/-- One key code, 66, with the one keysym Caps_Lock; one slot a modifier, all empty. -/
def capsLockBoard : XServer :=
  ⟨66, 66, 1, [XK_Caps_Lock], 1, List.replicate 8 0, List.replicate 32 0, none⟩

/-- On `capsLockBoard`, `updateKeycodeMap` reads `keysyms[1]` of a one-keysym mapping;
`mapKey` would read `m_modifierToKeycode[8]` of 8 entries to change `Mod5`; and, with the caps
lock half-duplex, a press of it dereferences `end()` of `m_keycodeToModifier`. -/
theorem capsLockBoard_reads_out_of_bounds :
    ¬ (∀ i < capsLockBoard.numKeycodes, ∀ k ∈ keysymReads capsLockBoard i,
        k < capsLockBoard.keysyms.length) ∧
    ¬ (∀ k ∈ (opened.updateKeys capsLockBoard).modifierKeyReads 7,
        k < (opened.updateKeys capsLockBoard).m_modifierToKeycode.length) ∧
    ({ opened with m_capsLockHalfDuplex := true }.updateKeys capsLockBoard).halfDuplexLookup
      kKeyCapsLock 0 .kPress = some none := by
  have h := updateKeys_accesses_inBounds_iff opened capsLockBoard (by decide) (by decide)
  refine ⟨fun hr => ?_, fun hr => absurd ((h.2 7 (by decide)).mp hr) (by decide), by decide⟩
  rcases h.1.mp hr with h2 | hlast
  · exact absurd h2 (by decide)
  · exact absurd (hlast 0 (by decide)) (by decide)

end CXWindowsSecondaryScreen

end Synergy.Keyboard
