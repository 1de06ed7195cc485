import Synergy.Keyboard.MapKey

/-!
# Key events on the secondary screen

The calls that change the keyboard state: `keyDown`, `keyUp` and `keyRepeat` replay what
`mapKey` computed through `doKeystrokes` and update `m_mask` and `m_keys`;
`setToggleState` toggles the locks that differ from a requested mask; `releaseKeys`
releases every key the screen holds; `updateKeys` reads everything from the display again.
Each returns the state after it and the `XTestFakeKeyEvent` calls it made.

* `doKeystrokes` — the keystrokes in order, the run of repeat keystrokes `count` times;
  `none` where the source's loop never ends (a second repeat run, met with `count` at 0);
* `doKeystrokes_eq` — for every keystroke list and every `count ≥ 1`, the events the source's
  comment describes (`intendedEvents`) while at most one repeat run starts, and no end with
  two or more;
* `mapKey_repeatRuns` — the list `mapKey` gives starts one repeat run at most: the key's own
  keystrokes, between modifier keystrokes that never repeat;
* `keyCalls_intendedEvents` — **PROVED**: so `keyDown`, `keyUp` and `keyRepeat` return on
  every call, with the events the comment describes;
* `Call`, `step` and `run` — the calls as one state machine, for runs of any length;
* `step_tables` — **PROVED**: every call but `updateKeys` changes only `m_keys` and
  `m_mask`.
-/

namespace Synergy.Keyboard

/-- One `XTestFakeKeyEvent` for a keystroke. -/
def Keystroke.event (k : Keystroke) : FakeKeyEvent := ⟨k.m_keycode, k.m_press⟩

namespace CXWindowsSecondaryScreen

/-- The loop of `doKeystrokes` from `keys` on.  `inRun` says the keystrokes just before
were a repeat run, already sent `count` times: its remaining keystrokes are passed over and
`count` is 0.  A repeat keystroke met with `count` at 0 otherwise stops the loop for good. -/
def doKeystrokesLoop : List Keystroke → Int → Bool → Option (List FakeKeyEvent)
  | [], _, _ => some []
  | k :: ks, count, inRun =>
    if k.m_repeat then
      if inRun then doKeystrokesLoop ks count true
      else if 0 < count then
        -- repeat from here up to the next key with `m_repeat == false`, `count` times
        let run := ((k :: ks).takeWhile (·.m_repeat)).map Keystroke.event
        ((List.replicate count.toNat run).flatten ++ ·) <$> doKeystrokesLoop ks 0 true
      else none
    else (k.event :: ·) <$> doKeystrokesLoop ks count false

/-- `doKeystrokes`: nothing when there are no keys or no repeats. -/
def doKeystrokes (keys : List Keystroke) (count : Int) : Option (List FakeKeyEvent) :=
  if count < 1 ∨ keys = [] then some [] else doKeystrokesLoop keys count false

/-- Without repeat keystrokes, the loop sends each keystroke once, in order. -/
theorem doKeystrokesLoop_of_not_repeat (keys : List Keystroke)
    (h : ∀ k ∈ keys, k.m_repeat = false) (count : Int) (inRun : Bool) :
    doKeystrokesLoop keys count inRun = some (keys.map Keystroke.event) := by
  induction keys generalizing inRun with
  | nil => rfl
  | cons k ks ih =>
    simp [doKeystrokesLoop, h k (List.mem_cons_self _ _),
      ih (fun k hk => h k (List.mem_cons_of_mem _ hk))]

theorem doKeystrokes_of_not_repeat (keys : List Keystroke) (h : ∀ k ∈ keys, k.m_repeat = false)
    {count : Int} (hcount : 1 ≤ count) :
    doKeystrokes keys count = some (keys.map Keystroke.event) := by
  unfold doKeystrokes
  split
  · next hk =>
    rcases hk with hk | rfl
    · omega
    · rfl
  · exact doKeystrokesLoop_of_not_repeat keys h count false

/-! ### Repeat runs -/

/-- The events the comment in `doKeystrokes` describes: each keystroke once, except that a
maximal run of repeat keystrokes is sent `count` times in a row where it stands.  `inRun`
says the keystrokes just before were such a run, already sent. -/
def intendedEvents (count : Nat) : List Keystroke → Bool → List FakeKeyEvent
  | [], _ => []
  | k :: ks, inRun =>
    if k.m_repeat then
      if inRun then intendedEvents count ks true
      else (List.replicate count (((k :: ks).takeWhile (·.m_repeat)).map Keystroke.event)).flatten ++
        intendedEvents count ks true
    else k.event :: intendedEvents count ks false

/-- The maximal runs of repeat keystrokes that start in `keys` (one that goes on from before,
when `inRun`, is not counted). -/
def repeatRuns : List Keystroke → Bool → Nat
  | [], _ => 0
  | k :: ks, inRun =>
    if k.m_repeat then (if inRun then repeatRuns ks true else repeatRuns ks true + 1)
    else repeatRuns ks false

/-- Where no run starts, the count sends nothing. -/
theorem intendedEvents_of_repeatRuns_eq_zero {keys : List Keystroke} {inRun : Bool}
    (h : repeatRuns keys inRun = 0) (c c' : Nat) :
    intendedEvents c keys inRun = intendedEvents c' keys inRun := by
  induction keys generalizing inRun with
  | nil => rfl
  | cons k ks ih =>
    unfold repeatRuns at h
    unfold intendedEvents
    split_ifs at h ⊢ <;> first | omega | rw [ih h]

/-- With `count` used up, the loop ends exactly when no further run starts. -/
theorem doKeystrokesLoop_zero (keys : List Keystroke) (inRun : Bool) :
    doKeystrokesLoop keys 0 inRun =
      if repeatRuns keys inRun = 0 then some (intendedEvents 0 keys inRun) else none := by
  induction keys generalizing inRun with
  | nil => rfl
  | cons k ks ih =>
    unfold doKeystrokesLoop repeatRuns intendedEvents
    by_cases hk : k.m_repeat
    · cases inRun <;> simp [hk, ih]
    · simp only [hk, Bool.false_eq_true, if_false, ih]
      split <;> rfl

/-- With `count` positive, the loop sends what the comment describes while at most one run
starts, and never ends once a second one does. -/
theorem doKeystrokesLoop_pos (keys : List Keystroke) {count : Int} (hcount : 0 < count)
    (inRun : Bool) :
    doKeystrokesLoop keys count inRun =
      if repeatRuns keys inRun ≤ 1 then some (intendedEvents count.toNat keys inRun) else none := by
  induction keys generalizing inRun with
  | nil => rfl
  | cons k ks ih =>
    unfold doKeystrokesLoop repeatRuns intendedEvents
    by_cases hk : k.m_repeat
    · cases inRun
      · simp only [hk, if_true, Bool.false_eq_true, if_false, if_pos hcount, doKeystrokesLoop_zero,
          show repeatRuns ks true + 1 ≤ 1 ↔ repeatRuns ks true = 0 by omega]
        split
        · next h0 => rw [intendedEvents_of_repeatRuns_eq_zero h0 0 count.toNat]; rfl
        · rfl
      · simp [hk, ih]
    · simp only [hk, Bool.false_eq_true, if_false, ih]
      split <;> rfl

/-- `doKeystrokes` for every keystroke list and every `count ≥ 1`: the events the comment
describes while the list holds at most one run of repeat keystrokes; with two or more, the
loop never ends (`none`): the first run uses `count` up, and at the second one the repeat
loop runs no pass and leaves the iterator where it is. -/
theorem doKeystrokes_eq (keys : List Keystroke) {count : Int} (hcount : 1 ≤ count) :
    doKeystrokes keys count =
      if repeatRuns keys false ≤ 1 then some (intendedEvents count.toNat keys false) else none := by
  unfold doKeystrokes
  split
  · next h =>
    rcases h with h | rfl
    · omega
    · rfl
  · exact doKeystrokesLoop_pos keys (by omega) false

/-- Two repeat runs split by a plain keystroke, a list no caller passes: the loop never
ends. -/
theorem doKeystrokes_twoRuns :
    1 ≤ (2 : Int) ∧ doKeystrokes [⟨10, true, true⟩, ⟨20, true, false⟩, ⟨30, true, true⟩] 2 = none :=
  ⟨by decide, (doKeystrokes_eq _ (by decide)).trans (by decide)⟩

variable (s : CXWindowsSecondaryScreen)

/-- `keyDown`: the mask `mapKey` returns, and when it gave keystrokes, their events and the
key code recorded as down. -/
def keyDown (key : KeyID) (mask : KeyModifierMask) :
    Option (CXWindowsSecondaryScreen × List FakeKeyEvent) :=
  let r := s.mapKey key mask .kPress
  let s := { s with m_mask := r.mask }
  if r.keys = [] then some (s, [])
  else (doKeystrokes r.keys 1).map fun events =>
    ({ s with m_keys := Function.update s.m_keys r.keycode true }, events)

/-- `keyRepeat`: as `keyDown`, `count` times, and no key code recorded. -/
def keyRepeat (key : KeyID) (mask : KeyModifierMask) (count : Int) :
    Option (CXWindowsSecondaryScreen × List FakeKeyEvent) :=
  let r := s.mapKey key mask .kRepeat
  let s := { s with m_mask := r.mask }
  if r.keys = [] then some (s, [])
  else (doKeystrokes r.keys count).map fun events => (s, events)

/-- `keyUp`: as `keyDown`, the key code recorded as up. -/
def keyUp (key : KeyID) (mask : KeyModifierMask) :
    Option (CXWindowsSecondaryScreen × List FakeKeyEvent) :=
  let r := s.mapKey key mask .kRelease
  let s := { s with m_mask := r.mask }
  if r.keys = [] then some (s, [])
  else (doKeystrokes r.keys 1).map fun events =>
    ({ s with m_keys := Function.update s.m_keys r.keycode false }, events)

/-! ### The key events end -/

/-- A list without repeat keystrokes starts no run. -/
theorem repeatRuns_of_not_repeat {keys : List Keystroke} (h : ∀ k ∈ keys, k.m_repeat = false)
    (inRun : Bool) : repeatRuns keys inRun = 0 := by
  induction keys generalizing inRun with
  | nil => rfl
  | cons k ks ih =>
    simp [repeatRuns, h k (List.mem_cons_self _ _), ih fun k hk => h k (List.mem_cons_of_mem _ hk)]

/-- Keystrokes without repeats in front of a list start no run of their own. -/
theorem repeatRuns_append_left {pre : List Keystroke} (h : ∀ k ∈ pre, k.m_repeat = false)
    (keys : List Keystroke) : repeatRuns (pre ++ keys) false = repeatRuns keys false := by
  induction pre with
  | nil => rfl
  | cons k ks ih =>
    simp [repeatRuns, h k (List.mem_cons_self _ _), ih fun k hk => h k (List.mem_cons_of_mem _ hk)]

/-- Nor do keystrokes without repeats behind it. -/
theorem repeatRuns_append_right (keys : List Keystroke) {post : List Keystroke}
    (h : ∀ k ∈ post, k.m_repeat = false) (inRun : Bool) :
    repeatRuns (keys ++ post) inRun = repeatRuns keys inRun := by
  induction keys generalizing inRun with
  | nil => exact repeatRuns_of_not_repeat h inRun
  | cons k ks ih =>
    rw [List.cons_append]
    simp only [repeatRuns, ih]

/-- The key's own keystrokes are one run at most: a repeat's release and press. -/
theorem repeatRuns_primaryKeystrokes (keycode : KeyCode) (action : EKeyAction) :
    repeatRuns (primaryKeystrokes keycode action) false ≤ 1 := by
  cases action <;> simp [primaryKeystrokes, repeatRuns]

/-- `mapKey` starts one run of repeat keystrokes at most: the keystrokes of its adjustment
loop and of its undo list, before and after the key's own, are never marked to repeat. -/
theorem mapKey_repeatRuns (id : KeyID) (mask : KeyModifierMask) (action : EKeyAction) :
    repeatRuns (s.mapKey id mask action).keys false ≤ 1 := by
  unfold mapKey
  dsimp only
  split
  · exact Nat.zero_le _
  split
  · exact Nat.zero_le _
  split
  · exact Nat.zero_le _
  next keycode outMask _ _ =>
  -- the loop's keystrokes and undo list, or none
  generalize hp : (if outMask ≠ s.m_mask ∧ s.m_keycodeToModifier.find keycode = none then
    s.adjustModifiers outMask (List.range 8) else ([], some [])) = p
  have hnr : (∀ k ∈ p.1, k.m_repeat = false) ∧ ∀ u, p.2 = some u → ∀ k ∈ u, k.m_repeat = false := by
    rw [← hp]
    split
    · exact s.adjustModifiers_not_repeat outMask _
    · simp
  obtain ⟨keys, undo⟩ := p
  cases undo with
  | none => exact (repeatRuns_of_not_repeat hnr.1 false).symm ▸ Nat.zero_le 1
  | some undo =>
    show repeatRuns (keys ++ _ ++ undo.reverse) false ≤ 1
    rw [List.append_assoc, repeatRuns_append_left hnr.1, repeatRuns_append_right _
      (fun k hk => hnr.2 undo rfl k (List.mem_reverse.mp hk))]
    exact repeatRuns_primaryKeystrokes _ _

/-- `doKeystrokes` on a list with one repeat run at most: nothing for a `count` below 1, the
events the comment describes otherwise. -/
theorem doKeystrokes_of_repeatRuns {keys : List Keystroke} (h : repeatRuns keys false ≤ 1)
    (count : Int) :
    doKeystrokes keys count =
      some (if count < 1 then [] else intendedEvents count.toNat keys false) := by
  by_cases hc : count < 1
  · simp [doKeystrokes, hc]
  · rw [doKeystrokes_eq keys (by omega), if_pos h, if_neg hc]

/-- **Every key event ends, with the events the comment in `doKeystrokes` describes.**  For
every state, key, mask and count, `keyDown`, `keyUp` and `keyRepeat` return: the list `mapKey`
gives has one run of repeat keystrokes at most, so `doKeystrokes` sends each keystroke once, in
order, and the run `count` times where it stands; `keyRepeat` with a `count` below 1 sends
nothing. -/
theorem keyCalls_intendedEvents (key : KeyID) (mask : KeyModifierMask) (count : Int) :
    (s.keyDown key mask).map Prod.snd =
      some (intendedEvents 1 (s.mapKey key mask .kPress).keys false) ∧
    (s.keyUp key mask).map Prod.snd =
      some (intendedEvents 1 (s.mapKey key mask .kRelease).keys false) ∧
    (s.keyRepeat key mask count).map Prod.snd =
      some (if count < 1 then [] else
        intendedEvents count.toNat (s.mapKey key mask .kRepeat).keys false) := by
  refine ⟨?_, ?_, ?_⟩ <;> simp only [keyDown, keyUp, keyRepeat] <;> split <;>
    simp_all [doKeystrokes_of_repeatRuns (s.mapKey_repeatRuns _ _ _), intendedEvents]

/-- `toggleKey`: press and release the key of `keysym` (one event, a press when the lock is
off, if that lock is half-duplex) and flip `mask` in `m_mask`; nothing when no key has the
keysym.  `m_keys` is not changed. -/
def toggleKey (keysym : KeySym) (mask : BitVec 32) :
    CXWindowsSecondaryScreen × List FakeKeyEvent :=
  match s.m_keycodeMap.find keysym with
  | none => (s, [])
  | some entry =>
    let keycode := entry.m_keycode
    let events : List FakeKeyEvent :=
      if keysym = XK_Caps_Lock ∧ s.m_capsLockHalfDuplex ∨ keysym = XK_Num_Lock ∧ s.m_numLockHalfDuplex
      then [⟨keycode, s.m_mask &&& mask = 0⟩]
      else [⟨keycode, true⟩, ⟨keycode, false⟩]
    ({ s with m_mask := s.m_mask ^^^ mask }, events)

/-- `setToggleState`: toggle the caps, num and scroll locks, in that order, where the
requested mask and `m_mask` disagree on them. -/
def setToggleState (mask : KeyModifierMask) : CXWindowsSecondaryScreen × List FakeKeyEvent :=
  let xMask := s.maskToX mask
  let toggleIf (r : CXWindowsSecondaryScreen × List FakeKeyEvent) (keysym : KeySym)
      (lockMask : BitVec 32) : CXWindowsSecondaryScreen × List FakeKeyEvent :=
    if xMask &&& lockMask ≠ r.1.m_mask &&& lockMask then
      ((r.1.toggleKey keysym lockMask).1, r.2 ++ (r.1.toggleKey keysym lockMask).2)
    else r
  let r := toggleIf (s, []) XK_Caps_Lock s.m_capsLockMask
  let r := toggleIf r XK_Num_Lock s.m_numLockMask
  toggleIf r XK_Scroll_Lock s.m_scrollLockMask

/-- `releaseKeys`: a release for every key code `m_keys` has down, in order; `m_mask` is
left as it is. -/
def releaseKeys : CXWindowsSecondaryScreen × List FakeKeyEvent :=
  ({ s with m_keys := fun _ => false },
    ((List.range 256).filter fun i => s.m_keys (UInt8.ofNat i)).map fun i => ⟨UInt8.ofNat i, false⟩)

/-! ### What the calls change -/

/-- The state with `m_keys` and `m_mask` cleared: the tables, which only `updateKeys`
writes. -/
def tables : CXWindowsSecondaryScreen := { s with m_keys := fun _ => false, m_mask := 0 }

theorem toggleKey_tables (keysym : KeySym) (mask : BitVec 32) :
    (s.toggleKey keysym mask).1.tables = s.tables := by
  unfold toggleKey
  split <;> rfl

theorem setToggleState_tables (mask : KeyModifierMask) :
    (s.setToggleState mask).1.tables = s.tables := by
  unfold setToggleState
  dsimp only
  split_ifs <;> simp only [toggleKey_tables]

/-! ### Runs -/

/-- The calls that change the keyboard state. -/
inductive Call
  | keyDown (key : KeyID) (mask : KeyModifierMask)
  | keyUp (key : KeyID) (mask : KeyModifierMask)
  | keyRepeat (key : KeyID) (mask : KeyModifierMask) (count : Int)
  | setToggleState (mask : KeyModifierMask)
  | releaseKeys
  | updateKeys (x : XServer)
deriving DecidableEq, Repr

/-- One call: the state after it and its events, `none` if it never returns. -/
def step : Call → Option (CXWindowsSecondaryScreen × List FakeKeyEvent)
  | .keyDown key mask => s.keyDown key mask
  | .keyUp key mask => s.keyUp key mask
  | .keyRepeat key mask count => s.keyRepeat key mask count
  | .setToggleState mask => some (s.setToggleState mask)
  | .releaseKeys => some s.releaseKeys
  | .updateKeys x => some (s.updateKeys x, [])

/-- Every call but `updateKeys` changes only `m_keys` and `m_mask`. -/
theorem step_tables {c : Call} (hc : ∀ x, c ≠ .updateKeys x)
    {s' : CXWindowsSecondaryScreen} {events : List FakeKeyEvent}
    (h : s.step c = some (s', events)) : s'.tables = s.tables := by
  cases c with
  | keyDown key mask | keyUp key mask | keyRepeat key mask count =>
    simp only [step, keyDown, keyUp, keyRepeat] at h
    split at h
    · cases h
      rfl
    · obtain ⟨_, -, h⟩ := Option.map_eq_some'.mp h
      cases h
      rfl
  | setToggleState mask =>
    simp only [step, Option.some.injEq] at h
    have e : s' = (s.setToggleState mask).1 := by rw [h]
    rw [e]
    exact s.setToggleState_tables mask
  | releaseKeys =>
    simp only [step, Option.some.injEq] at h
    have e : s' = s.releaseKeys.1 := by rw [h]
    rw [e]
    rfl
  | updateKeys x => exact absurd rfl (hc x)

/-- The states a run of calls passes through, the first one included; it stops at a call
that never returns. -/
def run (s : CXWindowsSecondaryScreen) : List Call → List CXWindowsSecondaryScreen
  | [] => [s]
  | c :: cs =>
    match s.step c with
    | none => [s]
    | some (s', _) => s :: run s' cs

end CXWindowsSecondaryScreen

end Synergy.Keyboard
