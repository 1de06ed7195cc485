import Synergy.Keyboard.TableInvariant

/-!
# Setting the locks

`setToggleState` brings the caps, num and scroll locks of the display to the state the
primary screen asks for: for each lock whose bits in `maskToX` of the request differ from
those of `m_mask`, `toggleKey` presses and releases the lock's key (or sends the one event of
a half-duplex lock) and flips the lock's bits of `m_mask`.  Set against the display model of
`Replay`:

* `LocksTrack` — what the screen believes of the locks: each toggle modifier's bit of
  `m_mask` is the display's lock; `updateKeys_locksTrack` — **PROVED**: `updateKeys` sets it
  up, with the display the snapshot reports;
* `LockKey` / `LocksReady` — a lock `setToggleState` can work: its mask is one toggle
  modifier, and `m_keycodeMap` gives for its keysym a key of that modifier; the three locks
  each so, or absent (mask 0), and on three different modifiers;
* `toggleKey_replay` — **PROVED**: `toggleKey`'s events flip the lock of its modifier and
  no other, as `toggleKey` flips the modifier's bit of `m_mask`;
* `setToggleState_locks` — **PROVED**: from every state whose lock bits track the display
  and whose locks are ready, replaying `setToggleState`'s events leaves the screen tracking
  the display, and the lock of every lock modifier as `maskToX` of the request asks.

What a lock key's events do to `down` is left aside: `m_keys` does not record them.
-/

namespace Synergy.Keyboard

/-- The keystroke an `XTestFakeKeyEvent` makes on the display. -/
def FakeKeyEvent.toKeystroke (e : FakeKeyEvent) : Keystroke := ⟨e.keycode, e.press, false⟩

namespace CXWindowsSecondaryScreen

variable (s : CXWindowsSecondaryScreen)

/-- The events one after the other on the display. -/
def replayEvents (d : Display) (events : List FakeKeyEvent) : Display :=
  s.replay d (events.map FakeKeyEvent.toKeystroke)

@[simp] theorem replayEvents_nil (d : Display) : s.replayEvents d [] = d := rfl

@[simp] theorem replayEvents_append (d : Display) (events events' : List FakeKeyEvent) :
    s.replayEvents d (events ++ events') = s.replayEvents (s.replayEvents d events) events' := by
  simp [replayEvents]

/-- The display model reads the tables only. -/
theorem replayEvents_of_tables {t : CXWindowsSecondaryScreen} (h : t.tables = s.tables) :
    t.replayEvents = s.replayEvents := by
  have ht : t.replayEvents = t.tables.replayEvents := rfl
  rw [ht, h]
  rfl

/-- The screen's lock bits are the display's locks: each toggle modifier's bit of `m_mask`
is set exactly when the display has its lock on. -/
def LocksTrack (d : Display) : Prop :=
  ∀ i, i < 8 → s.m_toggleModifierMask.getLsbD i = true → s.m_mask.getLsbD i = d.lock i

/-- The lock of `keysym`, with mask `lockMask`, works through modifier `i`: the mask is bit
`i`, a toggle modifier, and `m_keycodeMap` gives for the keysym a key of the modifier. -/
structure LockKey (keysym : KeySym) (lockMask : BitVec 32) (i : Nat) : Prop where
  lt : i < 8
  mask : lockMask = BitVec.twoPow 32 i
  toggle : s.m_toggleModifierMask.getLsbD i = true
  key : (s.m_keycodeMap.find keysym).any (fun e => s.inModifier i e.m_keycode) = true

namespace LockKey

variable {s} {keysym : KeySym} {lockMask : BitVec 32} {i : Nat}

theorem find (h : s.LockKey keysym lockMask i) :
    ∃ e, s.m_keycodeMap.find keysym = some e ∧ s.inModifier i e.m_keycode = true := by
  have hkey := h.key
  cases hf : s.m_keycodeMap.find keysym with
  | none => simp [hf] at hkey
  | some e => exact ⟨e, rfl, by simpa [hf] using hkey⟩

/-- A lock key reads the tables only. -/
theorem of_tables {t : CXWindowsSecondaryScreen} (h : s.LockKey keysym lockMask i)
    (ht : t.tables = s.tables) : t.LockKey keysym lockMask i := by
  have h' : s.tables.LockKey keysym lockMask i := ⟨h.lt, h.mask, h.toggle, h.key⟩
  rw [← ht] at h'
  exact ⟨h'.lt, h'.mask, h'.toggle, h'.key⟩

end LockKey

/-- `toggleKey`'s half-duplex test for `keysym`. -/
def isHalfDuplexLock (keysym : KeySym) : Bool :=
  keysym = XK_Caps_Lock && s.m_capsLockHalfDuplex || keysym = XK_Num_Lock && s.m_numLockHalfDuplex

/-- The three locks `setToggleState` handles can be worked: each is absent (mask 0) or works
through one toggle modifier, and no two share a modifier. -/
structure LocksReady : Prop where
  caps : s.m_capsLockMask = 0 ∨ ∃ i, s.LockKey XK_Caps_Lock s.m_capsLockMask i
  num : s.m_numLockMask = 0 ∨ ∃ i, s.LockKey XK_Num_Lock s.m_numLockMask i
  scroll : s.m_scrollLockMask = 0 ∨ ∃ i, s.LockKey XK_Scroll_Lock s.m_scrollLockMask i
  caps_num : s.m_capsLockMask &&& s.m_numLockMask = 0
  caps_scroll : s.m_capsLockMask &&& s.m_scrollLockMask = 0
  num_scroll : s.m_numLockMask &&& s.m_scrollLockMask = 0

/-- `updateModifiers` reads the toggle modifiers' bits of `m_mask` from the pointer's state,
the locks of the display the snapshot reports. -/
theorem updateModifiers_locksTrack (t : CXWindowsSecondaryScreen) (x : XServer) :
    (t.updateModifiers x).LocksTrack (snapshotDisplay x) := by
  intro i hi htoggle
  have hi32 : i < 32 := by omega
  rw [updateModifiers_m_toggleModifierMask] at htoggle
  have hbit : BitVec.twoPow 32 i &&& t.m_toggleModifierMask ≠ 0 := by
    rw [BitVec.and_comm]
    exact (and_twoPow_ne_zero _ hi32).mpr htoggle
  simp only [updateModifiers, getLsbD_maskOf, snapshotDisplay]
  rw [if_neg hbit, BitVec.and_comm, BitVec.and_twoPow]
  cases (x.pointerState.getD 0).getLsbD i <;> simp [hi, hi32, twoPow_ne_zero hi32]

/-- **`updateKeys` sets up the lock tracking**: from every state, the toggle modifiers' bits of
`m_mask` are the locks of the display the snapshot reports. -/
theorem updateKeys_locksTrack (x : XServer) : (s.updateKeys x).LocksTrack (snapshotDisplay x) :=
  updateModifiers_locksTrack _ x

/-! ### One lock -/

/-- Where the keysym has a key, `toggleKey` flips `lockMask` in `m_mask` and sends a press
and a release of the key, or, for a half-duplex lock, one event that presses it when the
lock's bits are clear. -/
theorem toggleKey_of_find {keysym : KeySym} {lockMask : BitVec 32} {e : KeyCodeMask}
    (h : s.m_keycodeMap.find keysym = some e) :
    s.toggleKey keysym lockMask = ({ s with m_mask := s.m_mask ^^^ lockMask },
      if s.isHalfDuplexLock keysym then [⟨e.m_keycode, s.m_mask &&& lockMask = 0⟩]
      else [⟨e.m_keycode, true⟩, ⟨e.m_keycode, false⟩]) := by
  simp [toggleKey, h, isHalfDuplexLock]

theorem toggleKey_of_none {keysym : KeySym} {lockMask : BitVec 32}
    (h : s.m_keycodeMap.find keysym = none) : s.toggleKey keysym lockMask = (s, []) := by
  simp [toggleKey, h]

variable {s}

/-- A keystroke on a key of modifier `i` leaves the lock of every other modifier. -/
theorem applyKeystroke_lock_of_ne (hwf : s.ModifierTableWF) {i j : Nat} (hi : i < 8)
    (hj : j < 8) (hji : j ≠ i) {k : Keystroke} (hk : s.inModifier i k.m_keycode = true)
    (d : Display) : (s.applyKeystroke d k).lock j = d.lock j := by
  have hkj : s.inModifier j k.m_keycode = false := by
    by_contra h
    exact hji (hwf.eq_of_inModifier hj hi (by simpa using h) hk)
  simp [hkj]

/-- **`toggleKey` on the display.**  With well-formed tables, for a lock that works through
modifier `i` and whose half-duplex tests agree, on a display whose locks the screen tracks,
`toggleKey`'s events flip the lock of modifier `i` and leave every other lock. -/
theorem toggleKey_replay (hwf : s.ModifierTableWF) {keysym : KeySym} {lockMask : BitVec 32}
    {i : Nat} (hlock : s.LockKey keysym lockMask i)
    (hhd : s.isHalfDuplexBit (BitVec.twoPow 32 i) = s.isHalfDuplexLock keysym)
    {d : Display} (htrack : s.LocksTrack d) {j : Nat} (hj : j < 8) :
    (s.replayEvents d (s.toggleKey keysym lockMask).2).lock j =
      if j = i then !d.lock i else d.lock j := by
  obtain ⟨e, hfind, hin⟩ := hlock.find
  have hbit := htrack i hlock.lt hlock.toggle
  have hi32 : i < 32 := by have := hlock.lt; omega
  rw [s.toggleKey_of_find hfind, hlock.mask]
  by_cases hji : j = i
  · subst hji
    have hclear : decide (s.m_mask &&& BitVec.twoPow 32 j = 0#32) = !d.lock j := by
      rw [BitVec.and_twoPow, hbit]
      cases d.lock j <;> simp [twoPow_ne_zero hi32]
    cases hhalf : s.isHalfDuplexLock keysym <;>
      simp [replayEvents, FakeKeyEvent.toKeystroke, hlock.toggle, hin, hhd, hhalf, hclear]
  · have hne : ∀ p (d' : Display), (s.applyKeystroke d' ⟨e.m_keycode, p, false⟩).lock j = d'.lock j :=
      fun p d' => applyKeystroke_lock_of_ne hwf hlock.lt hj hji hin d'
    cases s.isHalfDuplexLock keysym <;>
      simp only [replayEvents, FakeKeyEvent.toKeystroke, List.map_cons, List.map_nil, replay_cons,
        replay_nil, hne, hji, Bool.false_eq_true, if_false, if_true]

/-- **`toggleKey` keeps the screen tracking the locks**: it flips the modifier's bit of
`m_mask` as its events flip the modifier's lock. -/
theorem toggleKey_locksTrack (hwf : s.ModifierTableWF) {keysym : KeySym} {lockMask : BitVec 32}
    {i : Nat} (hlock : s.LockKey keysym lockMask i)
    (hhd : s.isHalfDuplexBit (BitVec.twoPow 32 i) = s.isHalfDuplexLock keysym)
    {d : Display} (htrack : s.LocksTrack d) :
    (s.toggleKey keysym lockMask).1.LocksTrack (s.replayEvents d (s.toggleKey keysym lockMask).2) := by
  obtain ⟨e, hfind, -⟩ := hlock.find
  intro j hj htoggle
  rw [toggleKey_replay hwf hlock hhd htrack hj, s.toggleKey_of_find hfind, hlock.mask]
  rw [s.toggleKey_of_find hfind] at htoggle
  simp only [BitVec.getLsbD_xor, BitVec.getLsbD_twoPow, htrack j hj htoggle]
  by_cases hji : j = i
  · subst hji
    simp [show j < 32 by omega]
  · simp [hji, Ne.symm hji]

/-! ### The three locks -/

/-- One of `setToggleState`'s three tests, on the state and the events so far: toggle the
lock when the requested mask and `m_mask` disagree on its bits. -/
def toggleIf (xMask : BitVec 32) (r : CXWindowsSecondaryScreen × List FakeKeyEvent)
    (keysym : KeySym) (lockMask : BitVec 32) : CXWindowsSecondaryScreen × List FakeKeyEvent :=
  if xMask &&& lockMask ≠ r.1.m_mask &&& lockMask then
    ((r.1.toggleKey keysym lockMask).1, r.2 ++ (r.1.toggleKey keysym lockMask).2)
  else r

/-- `setToggleState` is its three tests, caps lock first. -/
theorem setToggleState_eq (s : CXWindowsSecondaryScreen) (mask : KeyModifierMask) :
    s.setToggleState mask =
      toggleIf (s.maskToX mask) (toggleIf (s.maskToX mask) (toggleIf (s.maskToX mask) (s, [])
        XK_Caps_Lock s.m_capsLockMask) XK_Num_Lock s.m_numLockMask) XK_Scroll_Lock
        s.m_scrollLockMask :=
  rfl

/-- What each test keeps, with `s` the state `setToggleState` started from: the tables, and
the screen tracking the locks of the display the events so far lead to. -/
def Tracks (s : CXWindowsSecondaryScreen) (d : Display)
    (r : CXWindowsSecondaryScreen × List FakeKeyEvent) : Prop :=
  r.1.tables = s.tables ∧ r.1.LocksTrack (s.replayEvents d r.2)

/-- Where the tests keep tracking, the lock of a toggle modifier is its bit of `m_mask`. -/
theorem Tracks.lock_eq {d : Display} {r : CXWindowsSecondaryScreen × List FakeKeyEvent}
    (h : Tracks s d r) {i : Nat} (hi : i < 8) (htoggle : s.m_toggleModifierMask.getLsbD i = true) :
    (s.replayEvents d r.2).lock i = r.1.m_mask.getLsbD i := by
  have ht : r.1.m_toggleModifierMask = s.m_toggleModifierMask :=
    congrArg (fun t => t.m_toggleModifierMask) h.1
  exact (h.2 i hi (ht ▸ htoggle)).symm

/-- **One test.**  For a lock that is absent or works through one modifier, with agreeing
half-duplex tests, a test keeps the screen tracking the locks, makes `m_mask` agree with the
requested mask on the lock's bits, and leaves its other bits. -/
theorem toggleIf_ready (hwf : s.ModifierTableWF) {keysym : KeySym} {lockMask : BitVec 32}
    (hready : lockMask = 0 ∨ ∃ i, s.LockKey keysym lockMask i)
    (hhd : ∀ i, s.LockKey keysym lockMask i →
      s.isHalfDuplexBit (BitVec.twoPow 32 i) = s.isHalfDuplexLock keysym)
    {d : Display} {r : CXWindowsSecondaryScreen × List FakeKeyEvent} (hr : Tracks s d r)
    (xMask : BitVec 32) :
    Tracks s d (toggleIf xMask r keysym lockMask) ∧
      (∀ j, lockMask.getLsbD j = true → (toggleIf xMask r keysym lockMask).1.m_mask.getLsbD j =
        xMask.getLsbD j) ∧
      (∀ j, lockMask.getLsbD j = false → (toggleIf xMask r keysym lockMask).1.m_mask.getLsbD j =
        r.1.m_mask.getLsbD j) := by
  rcases hready with rfl | ⟨i, hlock⟩
  · have hkeep : toggleIf xMask r keysym 0 = r := by simp [toggleIf]
    rw [hkeep]
    exact ⟨hr, fun j hj => by simp at hj, fun _ _ => rfl⟩
  obtain ⟨ht, htrack⟩ := hr
  have hi32 : i < 32 := by have := hlock.lt; omega
  have hwf' := hwf.of_tables ht
  have hlock' := hlock.of_tables ht
  have hhd' : r.1.isHalfDuplexBit (BitVec.twoPow 32 i) = r.1.isHalfDuplexLock keysym := by
    show r.1.tables.isHalfDuplexBit _ = r.1.tables.isHalfDuplexLock _
    rw [ht]
    exact hhd i hlock
  have hrun : r.1.replayEvents = s.replayEvents := s.replayEvents_of_tables ht
  obtain ⟨e, hfind, -⟩ := hlock'.find
  have hm : (r.1.toggleKey keysym (BitVec.twoPow 32 i)).1.m_mask =
      r.1.m_mask ^^^ BitVec.twoPow 32 i := by
    rw [r.1.toggleKey_of_find hfind]
  unfold toggleIf
  rw [hlock.mask]
  split_ifs with hdiff
  · rw [Ne, and_twoPow_eq_iff _ _ hi32] at hdiff
    refine ⟨⟨(r.1.toggleKey_tables keysym _).trans ht, ?_⟩, fun j hj => ?_, fun j hj => ?_⟩
    · rw [replayEvents_append, ← hrun]
      exact toggleKey_locksTrack hwf' (hlock.mask ▸ hlock') hhd' (hrun ▸ htrack)
    · dsimp only
      rw [hm, BitVec.getLsbD_xor]
      rw [BitVec.getLsbD_twoPow] at hj ⊢
      simp only [Bool.and_eq_true, decide_eq_true_eq] at hj
      obtain ⟨-, rfl⟩ := hj
      cases hx : xMask.getLsbD i <;> cases hb : r.1.m_mask.getLsbD i <;> simp_all
    · dsimp only
      rw [hm, BitVec.getLsbD_xor, hj, Bool.xor_false]
  · rw [not_not, and_twoPow_eq_iff _ _ hi32] at hdiff
    refine ⟨⟨ht, htrack⟩, fun j hj => ?_, fun _ _ => rfl⟩
    rw [BitVec.getLsbD_twoPow] at hj
    simp only [Bool.and_eq_true, decide_eq_true_eq] at hj
    obtain ⟨-, rfl⟩ := hj
    exact hdiff.symm

/-! ### Ready locks -/

/-- A mask bit of a lock that is absent or works through one modifier is that modifier's:
a toggle modifier below 8. -/
theorem toggle_of_ready {keysym : KeySym} {lockMask : BitVec 32}
    (hready : lockMask = 0 ∨ ∃ i, s.LockKey keysym lockMask i) {j : Nat}
    (hj : lockMask.getLsbD j = true) : j < 8 ∧ s.m_toggleModifierMask.getLsbD j = true := by
  rcases hready with rfl | ⟨i, hlock⟩
  · simp at hj
  · rw [hlock.mask, BitVec.getLsbD_twoPow] at hj
    simp only [Bool.and_eq_true, decide_eq_true_eq] at hj
    obtain ⟨-, rfl⟩ := hj
    exact ⟨hlock.lt, hlock.toggle⟩

/-- Two masks with no common bit: a bit of one is not a bit of the other. -/
theorem getLsbD_eq_false_of_and {a b : BitVec 32} (h : a &&& b = 0) {j : Nat}
    (hj : a.getLsbD j = true) : b.getLsbD j = false := by
  have := congrArg (BitVec.getLsbD · j) h
  simpa [hj] using this

/-- A lock's mask is its modifier's bit, so a lock on no common bit is on another mask. -/
theorem twoPow_ne_of_and {a b : BitVec 32} {i : Nat} (hi : i < 8) (ha : a = BitVec.twoPow 32 i)
    (h : a &&& b = 0) : BitVec.twoPow 32 i ≠ b := by
  rintro rfl
  rw [ha, BitVec.and_self] at h
  exact twoPow_ne_zero (by omega) h

namespace LocksReady

variable (hready : s.LocksReady)
include hready

theorem caps_halfDuplex (i : Nat) (h : s.LockKey XK_Caps_Lock s.m_capsLockMask i) :
    s.isHalfDuplexBit (BitVec.twoPow 32 i) = s.isHalfDuplexLock XK_Caps_Lock := by
  have hne := twoPow_ne_of_and h.lt h.mask hready.caps_num
  simp [isHalfDuplexBit, isHalfDuplexLock, h.mask, hne, XK_Caps_Lock, XK_Num_Lock]

theorem num_halfDuplex (i : Nat) (h : s.LockKey XK_Num_Lock s.m_numLockMask i) :
    s.isHalfDuplexBit (BitVec.twoPow 32 i) = s.isHalfDuplexLock XK_Num_Lock := by
  have hne := twoPow_ne_of_and h.lt h.mask (by rw [BitVec.and_comm]; exact hready.caps_num)
  simp [isHalfDuplexBit, isHalfDuplexLock, h.mask, hne, XK_Caps_Lock, XK_Num_Lock]

theorem scroll_halfDuplex (i : Nat) (h : s.LockKey XK_Scroll_Lock s.m_scrollLockMask i) :
    s.isHalfDuplexBit (BitVec.twoPow 32 i) = s.isHalfDuplexLock XK_Scroll_Lock := by
  have hcaps := twoPow_ne_of_and h.lt h.mask (by rw [BitVec.and_comm]; exact hready.caps_scroll)
  have hnum := twoPow_ne_of_and h.lt h.mask (by rw [BitVec.and_comm]; exact hready.num_scroll)
  simp [isHalfDuplexBit, isHalfDuplexLock, hcaps, hnum, XK_Caps_Lock, XK_Num_Lock,
    XK_Scroll_Lock]

end LocksReady

/-- **`setToggleState` sets the locks as asked.**  From every state with well-formed tables
and ready locks whose lock bits track a display, replaying `setToggleState`'s events on that
display leaves the screen tracking it, and every modifier a lock works through has its lock on
exactly when `maskToX` of the request has its bit. -/
theorem setToggleState_locks (hwf : s.ModifierTableWF) (hready : s.LocksReady) {d : Display}
    (htrack : s.LocksTrack d) (mask : KeyModifierMask) :
    (s.setToggleState mask).1.LocksTrack (s.replayEvents d (s.setToggleState mask).2) ∧
      ∀ i, (s.m_capsLockMask ||| s.m_numLockMask ||| s.m_scrollLockMask).getLsbD i = true →
        (s.replayEvents d (s.setToggleState mask).2).lock i = (s.maskToX mask).getLsbD i := by
  rw [setToggleState_eq]
  obtain ⟨h₁, hc, hc'⟩ := toggleIf_ready hwf hready.caps hready.caps_halfDuplex
    (r := (s, [])) ⟨rfl, htrack⟩ (s.maskToX mask)
  obtain ⟨h₂, hn, hn'⟩ := toggleIf_ready hwf hready.num hready.num_halfDuplex h₁ (s.maskToX mask)
  obtain ⟨h₃, hs, hs'⟩ := toggleIf_ready hwf hready.scroll hready.scroll_halfDuplex h₂
    (s.maskToX mask)
  refine ⟨h₃.2, fun i hi => ?_⟩
  simp only [BitVec.getLsbD_or, Bool.or_eq_true] at hi
  obtain ⟨hi8, htoggle⟩ : i < 8 ∧ s.m_toggleModifierMask.getLsbD i = true := by
    rcases hi with (hi | hi) | hi
    · exact s.toggle_of_ready hready.caps hi
    · exact s.toggle_of_ready hready.num hi
    · exact s.toggle_of_ready hready.scroll hi
  rw [h₃.lock_eq hi8 htoggle]
  rcases hi with (hi | hi) | hi
  · rw [hs' i (getLsbD_eq_false_of_and hready.caps_scroll hi),
      hn' i (getLsbD_eq_false_of_and hready.caps_num hi), hc i hi]
  · rw [hs' i (getLsbD_eq_false_of_and hready.num_scroll hi), hn i hi]
  · exact hs i hi

/-- Caps Lock asked off on `capsScreen`, where it is on: the screen goes on tracking the
display, whose Lock modifier ends with its lock off. -/
theorem setToggleState_locks_capsScreen :
    (capsScreen.setToggleState 0).1.LocksTrack
        (capsScreen.replayEvents (snapshotDisplay capsBoard) (capsScreen.setToggleState 0).2) ∧
      ∀ i, (capsScreen.m_capsLockMask ||| capsScreen.m_numLockMask |||
          capsScreen.m_scrollLockMask).getLsbD i = true →
        (capsScreen.replayEvents (snapshotDisplay capsBoard) (capsScreen.setToggleState 0).2).lock i =
          (capsScreen.maskToX 0).getLsbD i :=
  setToggleState_locks ⟨by decide, by decide, by decide, by decide⟩
    ⟨.inr ⟨1, by decide, by decide, by decide, by decide⟩, .inl (by decide), .inl (by decide),
      by decide, by decide, by decide⟩
    (updateKeys_locksTrack opened capsBoard) 0

example : (capsScreen.setToggleState 0).2 = [⟨66, true⟩, ⟨66, false⟩] ∧
    (capsScreen.replayEvents (snapshotDisplay capsBoard) (capsScreen.setToggleState 0).2).lock 1 =
      false := by
  decide

end CXWindowsSecondaryScreen

end Synergy.Keyboard
