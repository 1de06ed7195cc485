import Synergy.Keyboard.Replay
import Synergy.Keyboard.ModifierMap
import Synergy.Keyboard.Operations

/-!
# The modifier tables over whole runs

`mapKey_replay` assumes well-formed modifier tables and a display that `m_keys` and
`m_mask` describe.  `updateKeys` sets up both, from every state, for every snapshot whose
key codes start above 0 (the X protocol has them start at 8), in which no key code serves
two modifiers, and whose keymap does not report key code 0 as down.  Every other call
changes only `m_keys` and `m_mask`, so the tables stay well formed over whole runs.

* `modifierSlot_updateKeys` — the slots are the snapshot's;
* `updateKeys_modifierTableWF` — **PROVED**: the modifier tables are well formed;
* `updateModifiers_m_mask` — **PROVED**: `updateModifiers` makes `m_mask` the active
  modifiers of a display with the state's keys and the pointer's locks;
* `updateKeys_replay_ready` — **PROVED**: right after `updateKeys`, every hypothesis of
  the round trip on the state holds, with the display the snapshot reports;
  `mapKey_replay_capsScreen` and `mapKey_modifier_key_unadjusted` use it on the state
  `updateKeys` reaches from `capsBoard`;
* `step_modifierTableWF` — **PROVED**: every call keeps the tables well formed, since
  every call but `updateKeys` leaves them as they were (`step_tables`, in `Operations`);
* `run_modifierTableWF` — **PROVED**: from well-formed tables (those of a newly opened
  screen, for one), every state of a run whose `updateKeys` calls read good snapshots has
  well-formed tables.
-/

namespace Synergy.Keyboard

namespace CXWindowsSecondaryScreen

/-- No nonzero key code of the snapshot sits in the slots of two modifiers. -/
def SlotsDisjoint (x : XServer) : Prop :=
  ∀ i, i < 8 → ∀ i', i' < 8 → ∀ j, j < x.max_keypermod → slotKeycode x (i, j) ≠ 0 →
    ((List.range x.max_keypermod).any fun j' => slotKeycode x (i', j') = slotKeycode x (i, j))
      = true → i = i'

instance (x : XServer) : Decidable (SlotsDisjoint x) :=
  inferInstanceAs (Decidable (∀ i, i < 8 → ∀ i', i' < 8 → ∀ j, j < x.max_keypermod →
    slotKeycode x (i, j) ≠ 0 → ((List.range x.max_keypermod).any fun j' =>
      slotKeycode x (i', j') = slotKeycode x (i, j)) = true → i = i'))

/-- The display a snapshot reports: the keymap's keys down, and the lock of each modifier
whose bit the pointer's state has. -/
def snapshotDisplay (x : XServer) : Display :=
  ⟨keymapBit x.keymap, fun i => (x.pointerState.getD 0).getLsbD i⟩

variable (s : CXWindowsSecondaryScreen) (x : XServer)

/-! ### The tables, one by one -/

@[simp] theorem updateKeys_m_keysPerModifier :
    (s.updateKeys x).m_keysPerModifier = x.max_keypermod := by
  simp only [updateKeys, updateModifiers, updateModifierMap_eq, updateKeycodeMap]

theorem modifierSlot_updateKeys {i j : Nat} (hi : i < 8) (hj : j < x.max_keypermod) :
    (s.updateKeys x).modifierSlot i j = slotKeycode x (i, j) := by
  have hlt : i * x.max_keypermod + j < 8 * x.max_keypermod := by
    have := Nat.mul_le_mul_right x.max_keypermod (Nat.succ_le_of_lt hi)
    rw [Nat.succ_mul] at this
    omega
  simp only [modifierSlot, slotKeycode, updateKeys, updateModifiers, updateModifierMap_eq,
    updateKeycodeMap, List.getD_eq_getElem?_getD, List.getElem?_map, List.getElem?_range hlt,
    Option.map_some', Option.getD_some]

/-- A slot whose keysym is a lock's holds a key, since key code 0 has no keysym. -/
theorem slotKeycode_ne_zero_of_toggle (hmin : 0 < x.min_keycode) {ij : Nat × Nat}
    (h : isToggleKeysym (slotKeysym x ij) = true) : slotKeycode x ij ≠ 0 := by
  intro h0
  rw [slotKeysym, h0, XKeycodeToKeysym, if_pos (Or.inl (by simpa using hmin))] at h
  cases h

theorem mem_modifierSlots {kpm i j : Nat} : (i, j) ∈ modifierSlots kpm ↔ i < 8 ∧ j < kpm := by
  simp [modifierSlots]

/-- A scan of all slots for one modifier's is a scan of that modifier's slots. -/
theorem any_modifierSlots (kpm n : Nat) (c : Nat × Nat → Bool) :
    (modifierSlots kpm).any (fun ij => decide (ij.1 = n) && c ij) =
      (decide (n < 8) && (List.range kpm).any fun j => c (n, j)) := by
  rw [Bool.eq_iff_iff]
  simp only [List.any_eq_true, modifierSlots, List.mem_flatMap, List.mem_map, List.mem_range,
    Bool.and_eq_true, decide_eq_true_eq]
  constructor
  · rintro ⟨_, ⟨i, hi, j, hj, rfl⟩, rfl, hc⟩
    exact ⟨hi, j, hj, hc⟩
  · rintro ⟨hn, j, hj, hc⟩
    exact ⟨(n, j), ⟨n, hn, j, hj, rfl⟩, rfl, hc⟩

theorem updateKeys_m_modifierMask : (s.updateKeys x).m_modifierMask =
    orSlots (modifierSlots x.max_keypermod) (fun ij => slotKeycode x ij ≠ 0) 0 := by
  simp only [updateKeys, updateModifiers, updateModifierMap_eq, updateKeycodeMap]

theorem updateKeys_m_toggleModifierMask : (s.updateKeys x).m_toggleModifierMask =
    orSlots (modifierSlots x.max_keypermod) (fun ij => isToggleKeysym (slotKeysym x ij)) 0 := by
  simp only [updateKeys, updateModifiers, updateModifierMap_eq, updateKeycodeMap]

/-! ### Well-formed tables -/

theorem updateKeys_modifierTableWF (hmin : 0 < x.min_keycode) (hx : SlotsDisjoint x) :
    (s.updateKeys x).ModifierTableWF where
  disjoint i hi i' hi' j hj h0 h := by
    rw [updateKeys_m_keysPerModifier] at hj
    rw [modifierSlot_updateKeys s x hi hj] at h0 h
    simp only [inModifier, updateKeys_m_keysPerModifier, Bool.and_eq_true] at h
    refine hx i hi i' hi' j hj h0 ((any_range_congr fun j' hj' => ?_).symm.trans h.2)
    rw [modifierSlot_updateKeys s x hi' hj']
  registered i hi j hj h0 := by
    rw [updateKeys_m_keysPerModifier] at hj
    rw [modifierSlot_updateKeys s x hi hj] at h0 ⊢
    simp only [updateKeys, updateModifiers, updateModifierMap_eq, updateKeycodeMap,
      find_insertSlots]
    cases s.m_keycodeToModifier.find (slotKeycode x (i, j))
    · simp only [Option.none_or, ne_eq, Option.map_eq_none', List.find?_eq_none]
      exact fun h => h (i, j) (mem_modifierSlots.mpr ⟨hi, hj⟩) (by simp)
    · simp
  modifierMask := by
    rw [updateKeys_m_modifierMask, updateKeys_m_keysPerModifier]
    ext n
    simp only [getLsbD_orSlots, getLsbD_maskOf, any_modifierSlots, BitVec.ofNat_eq_ofNat,
      BitVec.getLsbD_zero, Bool.false_or]
    by_cases hn : n.val < 8
    · simp only [hn, decide_True, Bool.and_true, Bool.true_and]
      congr 1
      exact any_range_congr fun j hj => by rw [modifierSlot_updateKeys s x hn hj]
    · simp [hn]
  toggle := by
    rw [updateKeys_m_toggleModifierMask, updateKeys_m_modifierMask]
    ext n
    simp only [BitVec.getLsbD_and, getLsbD_orSlots, BitVec.ofNat_eq_ofNat, BitVec.getLsbD_zero,
      Bool.false_or,
      Bool.and_iff_left_iff_imp, Bool.and_eq_true, List.any_eq_true, decide_eq_true_eq]
    rintro ⟨hn, ij, hij, hn', ht⟩
    exact ⟨hn, ij, hij, hn', slotKeycode_ne_zero_of_toggle x hmin ht⟩

/-! ### The active modifiers -/

/-- **`updateModifiers` sets `m_mask` to the active modifiers** of a display with the
state's keys and the pointer's locks, when key code 0 is not down: a level modifier's empty
slots read `m_keys[0]`. -/
theorem updateModifiers_m_mask (t : CXWindowsSecondaryScreen) {d : Display}
    (hkeys : t.m_keys = d.down) (h0 : t.m_keys 0 = false)
    (hlock : ∀ i, d.lock i = (x.pointerState.getD 0).getLsbD i) :
    (t.updateModifiers x).m_mask = (t.updateModifiers x).activeMask d := by
  refine maskOf_congr fun i hi => ?_
  have hi32 : i < 32 := by omega
  simp only [active, updateModifiers_m_toggleModifierMask, updateModifiers_m_keysPerModifier,
    modifierSlot_updateModifiers, BitVec.and_comm (BitVec.twoPow 32 i), BitVec.and_twoPow,
    and_twoPow_ne_zero _ hi32]
  cases ht : t.m_toggleModifierMask.getLsbD i
  · -- a level modifier: an empty slot reads key code 0, which is up
    simp only [if_true, Bool.false_eq_true, if_false]
    refine any_range_congr fun j _ => ?_
    by_cases hz : t.modifierSlot i j = 0 <;> simp [hz, h0, hkeys]
  · simp [twoPow_ne_zero hi32, hlock]

/-- **`updateKeys` sets up the undo round trip.**  From every state, for a snapshot whose
key codes start above 0, in which no key code serves two modifiers and whose keymap does not
report key code 0 as down, the tables `updateKeys` builds are well formed, and `m_keys` and
`m_mask` describe the display the snapshot reports: `mapKey_replay` applies to the state. -/
theorem updateKeys_replay_ready (hmin : 0 < x.min_keycode) (hx : SlotsDisjoint x)
    (h0 : keymapBit x.keymap 0 = false) :
    (s.updateKeys x).ModifierTableWF ∧ (s.updateKeys x).m_keys = (snapshotDisplay x).down ∧
      (s.updateKeys x).m_mask = (s.updateKeys x).activeMask (snapshotDisplay x) := by
  have hkeys : (updateModifierMap (updateKeycodeMap { s with m_keys := keymapBit x.keymap } x)
      x).m_keys = keymapBit x.keymap := by
    simp only [updateModifierMap_eq, updateKeycodeMap]
  exact ⟨s.updateKeys_modifierTableWF x hmin hx, updateKeys_m_keys s x,
    updateModifiers_m_mask x _ hkeys (by rw [hkeys]; exact h0) fun _ => rfl⟩

/-- A display with Control on key code 37, `a`, `A` on 38, `Shift_L` on 50 and `Caps_Lock`
on 66, one slot per modifier (Shift, Lock, Control), and the pointer reporting Lock on. -/
def capsBoard : XServer :=
  ⟨37, 66, 2, [0xffe3, 0, 0x61, 0x41] ++ List.replicate 22 0 ++ [0xffe1, 0] ++
      List.replicate 30 0 ++ [0xffe5, 0], 1,
    [50, 66, 37, 0, 0, 0, 0, 0], List.replicate 32 0, some 2⟩

/-- The state after `updateKeys` on `capsBoard`: Caps Lock on, no key down. -/
def capsScreen : CXWindowsSecondaryScreen := opened.updateKeys capsBoard

/-- A snapshot from which `updateKeys` builds well-formed tables. -/
def GoodSnapshot (x : XServer) : Prop := 0 < x.min_keycode ∧ SlotsDisjoint x

instance (x : XServer) : Decidable (GoodSnapshot x) :=
  inferInstanceAs (Decidable (0 < x.min_keycode ∧ SlotsDisjoint x))

/-- Well-formedness reads the tables only. -/
theorem ModifierTableWF.of_tables {s t : CXWindowsSecondaryScreen} (hwf : s.ModifierTableWF)
    (h : t.tables = s.tables) : t.ModifierTableWF := by
  have hwf' : t.tables.ModifierTableWF :=
    h ▸ ⟨hwf.disjoint, hwf.registered, hwf.modifierMask, hwf.toggle⟩
  exact ⟨hwf'.disjoint, hwf'.registered, hwf'.modifierMask, hwf'.toggle⟩

/-- A newly opened screen has no modifier slots, hence well-formed tables. -/
theorem opened_modifierTableWF : opened.ModifierTableWF :=
  ⟨by decide, by decide, by decide, by decide⟩

/-- Every call keeps the tables well formed, when an `updateKeys` reads a good snapshot. -/
theorem step_modifierTableWF (hwf : s.ModifierTableWF) {c : Call}
    (hc : ∀ x, c = .updateKeys x → GoodSnapshot x) {s' : CXWindowsSecondaryScreen}
    {events : List FakeKeyEvent} (h : s.step c = some (s', events)) : s'.ModifierTableWF := by
  by_cases hu : ∃ x, c = .updateKeys x
  · obtain ⟨x, rfl⟩ := hu
    simp only [step, Option.some.injEq, Prod.mk.injEq] at h
    rw [← h.1]
    exact s.updateKeys_modifierTableWF x (hc x rfl).1 (hc x rfl).2
  · exact hwf.of_tables (s.step_tables (fun x hx => hu ⟨x, hx⟩) h)

/-- **The tables stay well formed over whole runs.**  From well-formed tables, every state
of a run of calls whose `updateKeys` calls read good snapshots has well-formed tables. -/
theorem run_modifierTableWF (calls : List Call) (hwf : s.ModifierTableWF)
    (hc : ∀ x, Call.updateKeys x ∈ calls → GoodSnapshot x) :
    ∀ t ∈ s.run calls, t.ModifierTableWF := by
  induction calls generalizing s with
  | nil =>
    intro t ht
    rw [run, List.mem_singleton] at ht
    exact ht ▸ hwf
  | cons c cs ih =>
    intro t ht
    rw [run] at ht
    split at ht
    · rw [List.mem_singleton] at ht
      exact ht ▸ hwf
    · next s' events hstep =>
      rcases List.mem_cons.mp ht with rfl | ht
      · exact hwf
      · have hwf' := s.step_modifierTableWF hwf
          (fun x hx => hc x (hx ▸ List.mem_cons_self c cs)) hstep
        exact ih s' hwf' (fun x hx => hc x (List.mem_cons_of_mem c hx)) t ht

/-- A newly opened screen reading `capsBoard`, then `a` with Control, the locks set off and
the keys released. -/
theorem run_modifierTableWF_capsBoard :
    List.Forall ModifierTableWF (opened.run [.updateKeys capsBoard,
      .keyDown 0x61 KeyModifierControl, .setToggleState 0, .releaseKeys]) :=
  List.forall_iff_forall_mem.mpr (run_modifierTableWF opened _ opened_modifierTableWF fun x hx => by
    simp at hx
    subst hx
    decide)

end CXWindowsSecondaryScreen

end Synergy.Keyboard
