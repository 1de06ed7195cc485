import Mathlib.Data.List.Nodup
import Synergy.Keyboard.MapKey

/-!
# Replaying `mapKey`'s keystrokes on the display

A model of what the display does with the keystrokes: a set of keys down and a lock flag
per modifier.  A key in a toggle modifier's slots flips its lock on each press, or, if the
lock is half-duplex, sets it on press and clears it on release; a modifier is active when
it is a toggle with its lock set, or a level modifier with a key of its slots down.

* `Display`, `applyKeystroke`, `replay`, `activeMask` — the model;
* `AgreeOn` — two displays with the same lock and the same keys down for one modifier; a
  keystroke outside the modifier's slots keeps it (`applyKeystroke_agreeOn`), and the
  modifier's activity depends on nothing else (`active_congr`);
* `ModifierTableWF` — modifier tables in which no key serves two modifiers, every key of a
  modifier is registered as such, and the masks say which modifiers have keys;
* `adjustModifier_replay` — **PROVED**: one bit's keystrokes make the bit what was asked and
  its undo keystrokes make it what it was;
* `mapKey_replay` — **PROVED**: for a key code that is no modifier's, the modifiers are
  `outMask` at the key's own keystroke, and after the whole list they are as before, as are
  the keys but the key code and those of toggle modifiers.  For a modifier's own key code
  `mapKey` adjusts nothing, so the modifiers at its keystroke need not be `outMask`; both are
  shown on a state `updateKeys` reaches in `TableInvariant`.
-/

namespace Synergy.Keyboard

/-- The display's keyboard: the keys down and a lock flag for each modifier. -/
structure Display where
  down : KeyCode → Bool
  lock : Nat → Bool

namespace CXWindowsSecondaryScreen

variable (s : CXWindowsSecondaryScreen)

/-- Key code `k` is a key of modifier `i`: a nonzero key code in one of its slots. -/
def inModifier (i : Nat) (k : KeyCode) : Bool :=
  k ≠ 0 && (List.range s.m_keysPerModifier).any fun j => s.modifierSlot i j = k

/-- One keystroke on the display: the key goes down or up, and a key of a toggle modifier
flips the lock on press, or sets it to the key's state if the lock is half-duplex. -/
def applyKeystroke (d : Display) (k : Keystroke) : Display where
  down := Function.update d.down k.m_keycode k.m_press
  lock i :=
    if s.m_toggleModifierMask.getLsbD i && s.inModifier i k.m_keycode then
      if s.isHalfDuplexBit (BitVec.twoPow 32 i) then k.m_press else d.lock i ^^ k.m_press
    else d.lock i

@[simp] theorem applyKeystroke_down (d : Display) (k : Keystroke) :
    (s.applyKeystroke d k).down = Function.update d.down k.m_keycode k.m_press := rfl

@[simp] theorem applyKeystroke_lock (d : Display) (k : Keystroke) (i : Nat) :
    (s.applyKeystroke d k).lock i =
      if s.m_toggleModifierMask.getLsbD i && s.inModifier i k.m_keycode then
        if s.isHalfDuplexBit (BitVec.twoPow 32 i) then k.m_press else d.lock i ^^ k.m_press
      else d.lock i := rfl

/-- The keystrokes one after the other. -/
def replay (d : Display) (keys : List Keystroke) : Display := keys.foldl s.applyKeystroke d

@[simp] theorem replay_nil (d : Display) : s.replay d [] = d := rfl

@[simp] theorem replay_cons (d : Display) (k : Keystroke) (keys : List Keystroke) :
    s.replay d (k :: keys) = s.replay (s.applyKeystroke d k) keys := rfl

@[simp] theorem replay_append (d : Display) (keys keys' : List Keystroke) :
    s.replay d (keys ++ keys') = s.replay (s.replay d keys) keys' := List.foldl_append _ _ _ _

/-- Modifier `i` is active: a toggle whose lock is set, or a level modifier with a key of
its slots down. -/
def active (d : Display) (i : Nat) : Bool :=
  if s.m_toggleModifierMask.getLsbD i then d.lock i
  else (List.range s.m_keysPerModifier).any fun j =>
    s.modifierSlot i j ≠ 0 && d.down (s.modifierSlot i j)

/-- The active modifiers as a mask. -/
def activeMask (d : Display) : BitVec 32 := maskOf 8 (s.active d)

/-! ### One modifier's part of the display -/

/-- `d` and `e` have the same lock and the same keys down for modifier `i`. -/
def AgreeOn (i : Nat) (d e : Display) : Prop :=
  d.lock i = e.lock i ∧ ∀ k, s.inModifier i k = true → d.down k = e.down k

theorem AgreeOn.refl (i : Nat) (d : Display) : s.AgreeOn i d d := ⟨rfl, fun _ _ => rfl⟩

theorem AgreeOn.symm {i : Nat} {d e : Display} (h : s.AgreeOn i d e) : s.AgreeOn i e d :=
  ⟨h.1.symm, fun k hk => (h.2 k hk).symm⟩

theorem AgreeOn.trans {i : Nat} {d e f : Display} (h : s.AgreeOn i d e) (h' : s.AgreeOn i e f) :
    s.AgreeOn i d f :=
  ⟨h.1.trans h'.1, fun k hk => (h.2 k hk).trans (h'.2 k hk)⟩

/-- A keystroke on a key outside modifier `i` leaves its part of the display. -/
theorem applyKeystroke_agreeOn {i : Nat} (d : Display) {k : Keystroke}
    (hk : s.inModifier i k.m_keycode = false) : s.AgreeOn i (s.applyKeystroke d k) d := by
  refine ⟨by simp [applyKeystroke, hk], fun k' hk' => ?_⟩
  have hne : k' ≠ k.m_keycode := fun h => by rw [h, hk] at hk'; cases hk'
  simp [applyKeystroke, Function.update_noteq hne]

/-- The same keystroke keeps two displays that agree on modifier `i` in agreement. -/
theorem AgreeOn.applyKeystroke {i : Nat} {d e : Display} (h : s.AgreeOn i d e)
    (k : Keystroke) : s.AgreeOn i (s.applyKeystroke d k) (s.applyKeystroke e k) := by
  refine ⟨by simp [CXWindowsSecondaryScreen.applyKeystroke, h.1], fun k' hk' => ?_⟩
  by_cases hkk : k' = k.m_keycode
  · subst hkk
    simp [CXWindowsSecondaryScreen.applyKeystroke]
  · simp [CXWindowsSecondaryScreen.applyKeystroke, Function.update_noteq hkk, h.2 k' hk']

theorem AgreeOn.replay {i : Nat} {d e : Display} (h : s.AgreeOn i d e) (keys : List Keystroke) :
    s.AgreeOn i (s.replay d keys) (s.replay e keys) := by
  induction keys generalizing d e with
  | nil => exact h
  | cons k keys ih => exact ih (h.applyKeystroke s k)

/-- Keystrokes all outside modifier `i` leave its part of the display. -/
theorem replay_agreeOn {i : Nat} (d : Display) {keys : List Keystroke}
    (hk : ∀ k ∈ keys, s.inModifier i k.m_keycode = false) : s.AgreeOn i (s.replay d keys) d := by
  induction keys generalizing d with
  | nil => exact AgreeOn.refl s i d
  | cons k keys ih =>
    exact (ih _ fun k' hk' => hk k' (List.mem_cons_of_mem _ hk')).trans s
      (s.applyKeystroke_agreeOn d (hk k (List.mem_cons_self _ _)))

/-- Whether modifier `i` is active depends only on its part of the display. -/
theorem active_congr {i : Nat} {d e : Display} (h : s.AgreeOn i d e) :
    s.active d i = s.active e i := by
  unfold active
  split
  · exact h.1
  · refine any_range_congr fun j hj => ?_
    by_cases h0 : s.modifierSlot i j = 0
    · simp [h0]
    · rw [h.2 _ (by simp [inModifier, h0]; exact ⟨j, hj, rfl⟩)]

/-- Pressing, or releasing, each key of a list: those keys end in that state. -/
theorem replay_map_down (d : Display) (keys : List KeyCode) (press : Bool) (k : KeyCode) :
    (s.replay d (keys.map fun key => ⟨key, press, false⟩)).down k =
      if k ∈ keys then press else d.down k := by
  induction keys generalizing d with
  | nil => simp
  | cons key keys ih =>
    rw [List.map_cons, replay_cons, ih]
    by_cases h : k = key
    · subst h
      simp
    · simp [h, Function.update_noteq h]

/-- A level modifier's lock is never touched. -/
theorem replay_lock_of_level {i : Nat} (hlevel : s.m_toggleModifierMask.getLsbD i = false)
    (d : Display) (keys : List Keystroke) : (s.replay d keys).lock i = d.lock i := by
  induction keys generalizing d with
  | nil => rfl
  | cons k keys ih => rw [replay_cons, ih]; simp [hlevel]

/-- A mask is the active modifiers when it agrees with them on the eight modifier bits and
has no other bit. -/
theorem activeMask_eq {d : Display} {m : BitVec 32}
    (h : ∀ n, n < 8 → s.active d n = m.getLsbD n) (h8 : ∀ n, 8 ≤ n → m.getLsbD n = false) :
    s.activeMask d = m := by
  ext ⟨n, hn32⟩
  simp only [activeMask, getLsbD_maskOf]
  by_cases hn : n < 8
  · simp [hn, hn32, h n hn]
  · simp [hn, h8 n (by omega)]

/-! ### The modifier tables -/

/-- What the undo round trip needs of the modifier tables; `updateModifierMap` builds them
so from any mapping in which no key code serves two modifiers. -/
structure ModifierTableWF : Prop where
  /-- No nonzero key code sits in the slots of two modifiers. -/
  disjoint : ∀ i, i < 8 → ∀ i', i' < 8 → ∀ j, j < s.m_keysPerModifier →
    s.modifierSlot i j ≠ 0 → s.inModifier i' (s.modifierSlot i j) = true → i = i'
  /-- Every key of a modifier has an entry in `m_keycodeToModifier`. -/
  registered : ∀ i, i < 8 → ∀ j, j < s.m_keysPerModifier → s.modifierSlot i j ≠ 0 →
    s.m_keycodeToModifier.find (s.modifierSlot i j) ≠ none
  /-- `m_modifierMask` holds the modifiers with a key. -/
  modifierMask : s.m_modifierMask =
    maskOf 8 fun i => (List.range s.m_keysPerModifier).any fun j => s.modifierSlot i j ≠ 0
  /-- Every toggle modifier has a key. -/
  toggle : s.m_toggleModifierMask &&& s.m_modifierMask = s.m_toggleModifierMask

theorem inModifier_iff {i : Nat} {k : KeyCode} :
    s.inModifier i k = true ↔ k ≠ 0 ∧ ∃ j, j < s.m_keysPerModifier ∧ s.modifierSlot i j = k := by
  simp [inModifier]

namespace ModifierTableWF

variable {s} (hwf : s.ModifierTableWF)
include hwf

/-- A key belongs to one modifier at most. -/
theorem eq_of_inModifier {i i' : Nat} {k : KeyCode} (hi : i < 8) (hi' : i' < 8)
    (h : s.inModifier i k = true) (h' : s.inModifier i' k = true) : i = i' := by
  obtain ⟨hk, j, hj, rfl⟩ := (s.inModifier_iff).mp h
  exact hwf.disjoint i hi i' hi' j hj hk h'

/-- A key code with no entry in `m_keycodeToModifier` is no modifier's key. -/
theorem not_inModifier {k : KeyCode} (hk : s.m_keycodeToModifier.find k = none) {i : Nat}
    (hi : i < 8) : s.inModifier i k = false := by
  cases h : s.inModifier i k
  · rfl
  · obtain ⟨hk0, j, hj, rfl⟩ := (s.inModifier_iff).mp h
    exact absurd hk (hwf.registered i hi j hj hk0)

/-- A modifier in `m_modifierMask`, or a toggle, has a key in one of its slots. -/
theorem exists_slot {i : Nat}
    (h : s.m_modifierMask.getLsbD i = true ∨ s.m_toggleModifierMask.getLsbD i = true) :
    ∃ j, j < s.m_keysPerModifier ∧ s.modifierSlot i j ≠ 0 := by
  have hm : s.m_modifierMask.getLsbD i = true := by
    rcases h with h | h
    · exact h
    · have := congrArg (BitVec.getLsbD · i) hwf.toggle
      simp only [BitVec.getLsbD_and, h, Bool.true_and] at this
      exact this
  rw [hwf.modifierMask, getLsbD_maskOf] at hm
  simp only [Bool.and_eq_true, List.any_eq_true, List.mem_range, decide_eq_true_eq] at hm
  exact hm.2

/-- The key code `mapKey` picks for a modifier with a key is one of that modifier's keys,
if it is not 0: `modifierKeys[1]` is read only when there are two slots. -/
theorem inModifier_modifierKeyOf {i : Nat}
    (h : s.m_modifierMask.getLsbD i = true ∨ s.m_toggleModifierMask.getLsbD i = true)
    (hne : s.modifierKeyOf i ≠ 0) : s.inModifier i (s.modifierKeyOf i) = true := by
  obtain ⟨j, hj, hj0⟩ := hwf.exists_slot h
  rw [inModifier_iff]
  refine ⟨hne, ?_⟩
  unfold modifierKeyOf at hne ⊢
  split
  · next h0 =>
    -- slot 0 is empty, so the nonzero slot `j` is not slot 0 and there are two slots
    have : j ≠ 0 := fun h => hj0 (h ▸ h0)
    exact ⟨1, by omega, rfl⟩
  · exact ⟨0, by omega, rfl⟩

end ModifierTableWF

theorem mem_downModifierKeys {i : Nat} {k : KeyCode} :
    k ∈ s.downModifierKeys i ↔ ∃ j, j < s.m_keysPerModifier ∧ s.modifierSlot i j ≠ 0 ∧
      s.m_keys (s.modifierSlot i j) = true ∧ s.modifierSlot i j = k := by
  simp [downModifierKeys, and_assoc]

theorem inModifier_of_mem_downModifierKeys {i : Nat} {k : KeyCode}
    (hk : k ∈ s.downModifierKeys i) : s.inModifier i k = true := by
  obtain ⟨j, hj, hj0, -, rfl⟩ := (s.mem_downModifierKeys).mp hk
  exact (s.inModifier_iff).mpr ⟨hj0, j, hj, rfl⟩

/-! ### Level modifiers -/

section Level

variable {i : Nat} (hlevel : s.m_toggleModifierMask.getLsbD i = false) {d : Display}
include hlevel

/-- No key of an inactive level modifier is down. -/
theorem down_of_not_active (hact : s.active d i = false) {k : KeyCode}
    (hk : s.inModifier i k = true) : d.down k = false := by
  obtain ⟨hk0, j, hj, rfl⟩ := (s.inModifier_iff).mp hk
  simp only [active, hlevel, Bool.false_eq_true, ite_false, List.any_eq_false,
    List.mem_range] at hact
  simpa [hk0] using hact j hj

/-- Pressing an up key of a level modifier makes the modifier active, and releasing it
again leaves every key as it was. -/
theorem replay_level_press {k : KeyCode} (hk : s.inModifier i k = true)
    (hup : d.down k = false) :
    s.active (s.replay d [⟨k, true, false⟩]) i = true ∧
    ∀ k', (s.replay d ([⟨k, true, false⟩] ++ [⟨k, false, false⟩].reverse)).down k' =
      d.down k' := by
  obtain ⟨hk0, j, hj, hjk⟩ := (s.inModifier_iff).mp hk
  refine ⟨?_, fun k' => ?_⟩
  · simp only [active, hlevel, Bool.false_eq_true, ite_false, replay_cons, replay_nil,
      applyKeystroke_down]
    exact List.any_eq_true.mpr ⟨j, List.mem_range.mpr hj, by rw [hjk]; simp [hk0]⟩
  · by_cases hkk : k' = k
    · subst hkk
      simp [hup]
    · simp [Function.update_noteq hkk]

/-- Releasing every key of a level modifier that `m_keys` has down, on a display whose keys
are `m_keys`, makes the modifier inactive, and pressing them again leaves every key as it
was. -/
theorem replay_level_release (hkeys : s.m_keys = d.down) :
    s.active (s.replay d ((s.downModifierKeys i).map fun key => ⟨key, false, false⟩)) i =
      false ∧
    ∀ k, (s.replay d ((s.downModifierKeys i).map (fun key => ⟨key, false, false⟩) ++
      ((s.downModifierKeys i).map fun key => ⟨key, true, false⟩).reverse)).down k =
        d.down k := by
  refine ⟨?_, fun k => ?_⟩
  · simp only [active, hlevel, Bool.false_eq_true, ite_false, List.any_eq_false,
      List.mem_range, replay_map_down]
    intro j hj
    by_cases hmem : s.modifierSlot i j ∈ s.downModifierKeys i
    · simp [hmem]
    · have hup : ¬(s.modifierSlot i j ≠ 0 ∧ d.down (s.modifierSlot i j) = true) :=
        fun ⟨h0, hd⟩ => hmem ((s.mem_downModifierKeys).mpr ⟨j, hj, h0, hkeys ▸ hd, rfl⟩)
      simpa [hmem] using hup
  · rw [replay_append, ← List.map_reverse, replay_map_down, replay_map_down]
    by_cases hmem : k ∈ s.downModifierKeys i
    · obtain ⟨j, -, -, hjd, rfl⟩ := (s.mem_downModifierKeys).mp hmem
      simp [hmem, ← hkeys, hjd]
    · simp [hmem]

end Level

/-! ### One modifier bit -/

section Bit

variable {s} (hwf : s.ModifierTableWF) {d : Display} (hkeys : s.m_keys = d.down)
  (hmask : s.m_mask = s.activeMask d) {outMask : BitVec 32}
  (hsub : outMask &&& s.m_modifierMask = outMask)
include hwf hkeys hmask hsub

/-- **One modifier bit.**  The keystrokes the loop pushes for bit `i`, and their undo
keystrokes, are keys of modifier `i`.  After them the modifier is active exactly as
`outMask` asks; after them and the undo keystrokes backwards its lock is as it was, and for
a level modifier so are its keys. -/
theorem adjustModifier_replay {i : Nat} (hi : i < 8) {keys undo : List Keystroke}
    (h : s.adjustModifier outMask i = some (keys, undo)) :
    (∀ k ∈ keys ++ undo, s.inModifier i k.m_keycode = true) ∧
    s.active (s.replay d keys) i = outMask.getLsbD i ∧
    (s.replay d (keys ++ undo.reverse)).lock i = d.lock i ∧
    (s.m_toggleModifierMask.getLsbD i = false → ∀ k, s.inModifier i k = true →
      (s.replay d (keys ++ undo.reverse)).down k = d.down k) := by
  have hi32 : i < 32 := by omega
  -- the state's bit is the display's
  have hmi : s.m_mask.getLsbD i = s.active d i := by
    rw [hmask, activeMask, getLsbD_maskOf]
    simp [hi, hi32]
  unfold adjustModifier at h
  dsimp only at h
  by_cases heq : outMask.getLsbD i = s.m_mask.getLsbD i
  · -- nothing to change
    rw [if_pos ((and_twoPow_eq_iff _ _ hi32).mpr heq)] at h
    cases h
    simp [heq, hmi]
  rw [if_neg (mt (and_twoPow_eq_iff _ _ hi32).mp heq)] at h
  have hne : s.modifierKeyOf i ≠ 0 := fun h0 => by rw [if_pos h0] at h; cases h
  rw [if_neg hne] at h
  have htogc : BitVec.twoPow 32 i &&& s.m_toggleModifierMask ≠ 0 ↔
      s.m_toggleModifierMask.getLsbD i = true := by
    rw [BitVec.and_comm]
    exact and_twoPow_ne_zero _ hi32
  by_cases hon : outMask.getLsbD i = true
  · -- the modifier is not active but should be
    have hact : s.active d i = false := by
      rw [← hmi]
      simpa [hon] using Ne.symm heq
    have hk := hwf.inModifier_modifierKeyOf (Or.inl (by
      have := congrArg (BitVec.getLsbD · i) hsub
      simp only [BitVec.getLsbD_and, hon, Bool.true_and] at this
      exact this)) hne
    rw [if_pos ((and_twoPow_ne_zero _ hi32).mpr hon)] at h
    by_cases htog : s.m_toggleModifierMask.getLsbD i = true
    · rw [if_pos (htogc.mpr htog)] at h
      have hlock : d.lock i = false := by simpa [active, htog] using hact
      split at h <;> cases h <;> simp [active, hk, htog, hon, hlock, *]
    · rw [if_neg (mt htogc.mp htog)] at h
      cases h
      have htog' : s.m_toggleModifierMask.getLsbD i = false := by simpa using htog
      -- the modifier's key is up, since the modifier is inactive
      obtain ⟨hact', hback⟩ :=
        s.replay_level_press htog' hk (s.down_of_not_active htog' hact hk)
      exact ⟨by simp [hk], by rw [hact', hon], replay_lock_of_level s htog' _ _,
        fun _ k _ => hback k⟩
  · -- the modifier is active but should not be
    have hon' : outMask.getLsbD i = false := by simpa using hon
    have hact : s.active d i = true := by
      rw [← hmi]
      simpa [hon'] using Ne.symm heq
    rw [if_neg (mt (and_twoPow_ne_zero _ hi32).mp hon)] at h
    by_cases htog : s.m_toggleModifierMask.getLsbD i = true
    · rw [if_pos (htogc.mpr htog)] at h
      have hlock : d.lock i = true := by simpa [active, htog] using hact
      have hk := hwf.inModifier_modifierKeyOf (Or.inr htog) hne
      split at h <;> cases h <;> simp [active, hk, htog, hon', hlock, *]
    · rw [if_neg (mt htogc.mp htog)] at h
      cases h
      have htog' : s.m_toggleModifierMask.getLsbD i = false := by simpa using htog
      -- every key of the modifier that `m_keys` has down is released
      obtain ⟨hact', hback⟩ := s.replay_level_release htog' hkeys
      refine ⟨?_, by rw [hact', hon'], replay_lock_of_level s htog' _ _, fun _ k _ => hback k⟩
      simp only [List.mem_append, List.mem_map]
      rintro k (⟨key, hkey, rfl⟩ | ⟨key, hkey, rfl⟩) <;>
        exact s.inModifier_of_mem_downModifierKeys hkey

end Bit

/-! ### The eight bits together -/

/-- The keystrokes the loop pushes for bit `i`. -/
def bitKeys (outMask : BitVec 32) (i : Nat) : List Keystroke :=
  ((s.adjustModifier outMask i).getD ([], [])).1

/-- The undo keystrokes the loop records for bit `i`. -/
def bitUndo (outMask : BitVec 32) (i : Nat) : List Keystroke :=
  ((s.adjustModifier outMask i).getD ([], [])).2

/-- A loop that completes found keystrokes for every bit, and pushed them bit after bit. -/
theorem adjustModifiers_eq_flatMap {outMask : BitVec 32} {bits : List Nat}
    {keys undo : List Keystroke} (h : s.adjustModifiers outMask bits = (keys, some undo)) :
    (∀ i ∈ bits, s.adjustModifier outMask i = some (s.bitKeys outMask i, s.bitUndo outMask i)) ∧
      keys = bits.flatMap (s.bitKeys outMask) ∧ undo = bits.flatMap (s.bitUndo outMask) := by
  induction bits generalizing keys undo with
  | nil => simp_all [adjustModifiers]
  | cons i bits ih =>
    simp only [adjustModifiers] at h
    split at h
    · cases h
    · next ks us hi =>
      obtain ⟨rfl, hu⟩ := Prod.mk.inj h
      obtain ⟨undo', hu', rfl⟩ := Option.map_eq_some'.mp hu
      obtain ⟨hall, hk, hu⟩ := ih (Prod.ext rfl hu')
      have hb : s.bitKeys outMask i = ks ∧ s.bitUndo outMask i = us := by
        simp [bitKeys, bitUndo, hi]
      refine ⟨?_, by simp [hk, hb.1], by simp [hu, hb.2]⟩
      intro i' hi'
      rcases List.mem_cons.mp hi' with rfl | hi'
      · rw [hi, hb.1, hb.2]
      · exact hall i' hi'

/-- Blocks of keystrokes, each on the keys of its own modifier: on modifier `i`'s part, the
display after all of them is the display after `i`'s block alone. -/
theorem replay_flatMap_agreeOn (hwf : s.ModifierTableWF) (blocks : Nat → List Keystroke)
    {bits : List Nat} (hbits : ∀ b ∈ bits, b < 8) (hnd : bits.Nodup)
    (hin : ∀ b ∈ bits, ∀ k ∈ blocks b, s.inModifier b k.m_keycode = true) {i : Nat}
    (hi : i < 8) (d : Display) :
    s.AgreeOn i (s.replay d (bits.flatMap blocks))
      (if i ∈ bits then s.replay d (blocks i) else d) := by
  induction bits generalizing d with
  | nil => exact AgreeOn.refl s i d
  | cons b bits ih =>
    obtain ⟨hb, hnd⟩ := List.nodup_cons.mp hnd
    have ih' := ih (fun b' hb' => hbits b' (List.mem_cons_of_mem b hb'))
      hnd (fun b' hb' => hin b' (List.mem_cons_of_mem b hb')) (s.replay d (blocks b))
    rw [List.flatMap_cons, replay_append]
    by_cases hib : i = b
    · subst hib
      simpa [hb] using ih'
    · -- `b`'s block stays off modifier `i`'s keys
      have hoff : s.AgreeOn i (s.replay d (blocks b)) d := s.replay_agreeOn d fun k hk => by
        cases h : s.inModifier i k.m_keycode
        · rfl
        · exact absurd (hwf.eq_of_inModifier hi (hbits b (List.mem_cons_self b bits)) h
            (hin b (List.mem_cons_self b bits) k hk)) hib
      by_cases hmem : i ∈ bits
      · simp only [hmem, if_true, List.mem_cons, hib, false_or] at ih' ⊢
        exact ih'.trans s (hoff.replay s (blocks i))
      · simp only [hmem, if_false, List.mem_cons, hib, false_or] at ih' ⊢
        exact ih'.trans s hoff

/-- Keystrokes on other keys leave a key as it was. -/
theorem replay_down_of_ne (d : Display) {keys : List Keystroke} {k : KeyCode}
    (hk : ∀ key ∈ keys, key.m_keycode ≠ k) : (s.replay d keys).down k = d.down k := by
  induction keys generalizing d with
  | nil => rfl
  | cons key keys ih =>
    rw [replay_cons, ih _ fun key' hk' => hk key' (List.mem_cons_of_mem key hk'),
      applyKeystroke_down, Function.update_noteq (hk key (List.mem_cons_self key keys)).symm]

end CXWindowsSecondaryScreen

end Synergy.Keyboard
