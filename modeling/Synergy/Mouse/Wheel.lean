import Mathlib.Algebra.Group.Int

/-!
# The mouse wheel

`CXWindowsSecondaryScreen::mouseWheel` turns a wheel movement `delta`, an `SInt32`, into
clicks of X button 4 (forward, `delta >= 0`) or 5 (backward): it negates a negative `delta`,
then sends a press and a release for every 120 units.  `SInt32` is modelled as `BitVec 32`
with its signed value `toInt`, so that `-delta` and `delta -= 120` wrap as the machine's do.
The display lock and `XSync` are outside the model: `mouseWheel` returns the button events in
the order it sends them.

* `mouseWheelLoop_eq` — the loop sends `delta / 120` pairs for a nonnegative `delta`, none for
  a negative one;
* `mouseWheel_eq` — **PROVED**: for every `delta` but the minimum, `|delta| / 120` pairs of the
  button of `delta`'s sign; at the minimum `-2^31`, `-delta` wraps back to `-2^31` and no
  click is sent (`mouseWheel_intMin`), where `2^31 / 120 = 17895697` were due.
-/

namespace Synergy.Mouse

/-- `SInt32`: a 32-bit two's complement integer, whose arithmetic wraps. -/
abbrev SInt32 := BitVec 32

/-- A button event `XTestFakeButtonEvent` sends: the button, pressed or released. -/
structure FakeButtonEvent where
  button : Nat
  press : Bool
deriving DecidableEq, Repr

/-- While the loop runs, `delta -= 120` does not wrap. -/
theorem toInt_sub_120 {delta : SInt32} (h : 120 ≤ delta.toInt) :
    (delta - 120).toInt = delta.toInt - 120 := by
  have := delta.isLt
  have h120 : (120 : SInt32).toNat = 120 := rfl
  simp only [BitVec.toInt_eq_toNat_cond, BitVec.toNat_sub, h120] at h ⊢
  split_ifs at * <;> omega

/-- The click loop of `mouseWheel`: `for (; delta >= 120; delta -= 120)`, a press and a
release of `button` per pass; the comparison is signed. -/
def mouseWheelLoop (button : Nat) (delta : SInt32) : List FakeButtonEvent :=
  if h : 120 ≤ delta.toInt then
    ⟨button, true⟩ :: ⟨button, false⟩ :: mouseWheelLoop button (delta - 120)
  else []
termination_by delta.toInt.toNat
decreasing_by rw [toInt_sub_120 h]; omega

/-- `CXWindowsSecondaryScreen::mouseWheel`: button 4 when `delta >= 0`, else 5, and the
clicks for `delta`, negated first when it is negative. -/
def mouseWheel (delta : SInt32) : List FakeButtonEvent :=
  -- choose button depending on rotation direction
  let button := if 0 ≤ delta.toInt then 4 else 5
  -- now use absolute value of delta
  let delta := if delta.toInt < 0 then -delta else delta
  mouseWheelLoop button delta

/-- `n` press/release pairs of `button`. -/
def wheelClicks (button : Nat) : Nat → List FakeButtonEvent
  | 0 => []
  | n + 1 => ⟨button, true⟩ :: ⟨button, false⟩ :: wheelClicks button n

theorem mouseWheelLoop_eq (button : Nat) (delta : SInt32) :
    mouseWheelLoop button delta = wheelClicks button (delta.toInt.toNat / 120) := by
  induction delta using mouseWheelLoop.induct button with
  | case1 delta h ih =>
    rw [mouseWheelLoop, dif_pos h, ih, toInt_sub_120 h,
      show delta.toInt.toNat / 120 = (delta.toInt - 120).toNat / 120 + 1 by omega]
    rfl
  | case2 delta h =>
    rw [mouseWheelLoop, dif_neg h, show delta.toInt.toNat / 120 = 0 by omega]
    rfl

/-- Negation does not wrap, except at the minimum. -/
theorem toInt_neg_of_ne_intMin {delta : SInt32} (h : delta ≠ BitVec.intMin 32) :
    (-delta).toInt = -delta.toInt := by
  have hlt := delta.isLt
  have hne : delta.toNat ≠ 2 ^ 31 := fun e => h (BitVec.eq_of_toNat_eq (by rw [e]; rfl))
  rw [BitVec.toInt_eq_toNat_cond, BitVec.toInt_eq_toNat_cond delta, BitVec.toNat_neg]
  split_ifs <;> omega

theorem mouseWheel_eq (delta : SInt32) :
    mouseWheel delta = wheelClicks (if 0 ≤ delta.toInt then 4 else 5)
      (if delta = BitVec.intMin 32 then 0 else delta.toInt.natAbs / 120) := by
  unfold mouseWheel
  by_cases hmin : delta = BitVec.intMin 32
  · -- `-delta` wraps back to the minimum, which the loop test rejects
    have hval : (BitVec.intMin 32).toInt = -2 ^ 31 := by decide
    have hneg : -BitVec.intMin 32 = BitVec.intMin 32 := by decide
    subst hmin
    simp only [hval, hneg, if_pos rfl, ite_self]
    rw [mouseWheelLoop, dif_neg (by rw [hval]; decide)]
    rfl
  · rw [if_neg hmin, mouseWheelLoop_eq]
    congr 1
    split_ifs with hneg
    · rw [toInt_neg_of_ne_intMin hmin]; omega
    · omega

theorem mouseWheel_intMin :
    mouseWheel (BitVec.intMin 32) = [] ∧ (BitVec.intMin 32).toInt.natAbs / 120 = 17895697 :=
  ⟨by rw [mouseWheel_eq]; rfl, by decide⟩

end Synergy.Mouse
