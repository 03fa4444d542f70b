/-
Spending against an allowance that accrues at a constant rate up to a cap:
whatever the bookings are, what is spent within an interval is at most the cap
and what accrues during the interval.
-/
import Mathlib.Algebra.Order.Field.Basic
import Mathlib.Tactic.Linarith
import Mathlib.Tactic.Ring

universe u

namespace Allowance

variable {K : Type u}

/-- One booking: when it was made, what it spent and what it left. -/
structure Booking (K : Type u) where
  time : K
  spent : K
  left : K

section Spent

variable [Zero K] [Add K] [LE K] [DecidableLE K]

/-- What the bookings made in the closed interval spent. -/
def spentWithin (first last : K) : List (Booking K) → K
  | [] => 0
  | booking :: bookings =>
    if first ≤ booking.time ∧ booking.time ≤ last then
      booking.spent + spentWithin first last bookings
    else spentWithin first last bookings

end Spent

variable [Field K] [LinearOrder K]
variable {rate cap first last : K}

/-- From a balance at a time, each booking has what the one before it left and
what accrued since, and never more than the cap. -/
def Affordable (rate cap : K) : K → K → List (Booking K) → Prop
  | _, _, [] => True
  | time, left, booking :: bookings =>
    time ≤ booking.time ∧
    booking.spent + booking.left ≤ left + (booking.time - time) * rate ∧
    booking.spent + booking.left ≤ cap ∧ 0 ≤ booking.left ∧
    Affordable rate cap booking.time booking.left bookings

variable {time left : K} {bookings : List (Booking K)}

theorem spentWithin_after (hafford : Affordable rate cap time left bookings) (htime : last < time) :
    spentWithin first last bookings = 0 := by
  induction bookings generalizing time left with
  | nil => rfl
  | cons booking bookings ih =>
    obtain ⟨horder, -, -, -, hrest⟩ := hafford
    have hlate : last < booking.time := htime.trans_le horder
    rw [spentWithin, if_neg fun hin => absurd hin.2 (not_le.2 hlate)]
    exact ih hrest hlate

variable [IsStrictOrderedRing K]

/-- Inside the interval: the balance pays for what follows, together with
what still accrues. -/
theorem spentWithin_inside (hrate : 0 ≤ rate)
    (hafford : Affordable rate cap time left bookings) (hleft : 0 ≤ left)
    (hfirst : first ≤ time) (hlast : time ≤ last) :
    spentWithin first last bookings ≤ left + (last - time) * rate := by
  have haccrued : 0 ≤ (last - time) * rate := mul_nonneg (sub_nonneg.2 hlast) hrate
  induction bookings generalizing time left with
  | nil =>
    rw [spentWithin]
    exact add_nonneg hleft haccrued
  | cons booking bookings ih =>
    obtain ⟨horder, hpaid, -, hkept, hrest⟩ := hafford
    rcases le_or_gt booking.time last with hin | hlate
    · have htail := ih hrest hkept (hfirst.trans horder) hin (mul_nonneg (sub_nonneg.2 hin) hrate)
      rw [spentWithin, if_pos ⟨hfirst.trans horder, hin⟩]
      calc booking.spent + spentWithin first last bookings
          ≤ booking.spent + booking.left + (last - booking.time) * rate := by linarith
        _ ≤ left + (booking.time - time) * rate + (last - booking.time) * rate := by linarith
        _ = left + (last - time) * rate := by ring
    · rw [spentWithin, if_neg fun hin => absurd hin.2 (not_le.2 hlate),
        spentWithin_after hrest hlate]
      exact add_nonneg hleft haccrued

/-- Whatever was booked before, an interval sees at most the cap and what
accrues while it lasts. -/
theorem spentWithin_le (hrate : 0 ≤ rate) (hcap : 0 ≤ cap)
    (hafford : Affordable rate cap time left bookings)
    (hinterval : first ≤ last) : spentWithin first last bookings ≤ (last - first) * rate + cap := by
  induction bookings generalizing time left with
  | nil =>
    rw [spentWithin]
    exact add_nonneg (mul_nonneg (sub_nonneg.2 hinterval) hrate) hcap
  | cons booking bookings ih =>
    obtain ⟨-, -, hcapped, hkept, hrest⟩ := hafford
    rw [spentWithin]
    split
    case isTrue hin =>
        -- the first booking inside: at most the cap was there for it
        have htail := spentWithin_inside hrate hrest hkept hin.1 hin.2
        have hlater : (last - booking.time) * rate ≤ (last - first) * rate :=
          mul_le_mul_of_nonneg_right (by linarith [hin.1]) hrate
        linarith
    case isFalse => exact ih hrest

end Allowance
