/-
The token bucket of a bandwidth limiter, with exact rationals for the source's
floats and seconds for its instants: how long one waiter waits, and how much
any number of waiters is given.
-/
import Mathlib.Tactic.FieldSimp
import KeliCore.Allowance
import KeliCore.Loop

namespace KeliCore

open List

/-- `BandwidthState`.  A call never takes more than there is. -/
structure BandwidthState where
  tokens : ℚ
  lastRefill : ℚ
  nonneg : 0 ≤ tokens

namespace BandwidthState

def new (now : ℚ) : BandwidthState := ⟨0, now, le_rfl⟩

/-- `duration_since` is zero where the clock would run backwards. -/
def elapsed (state : BandwidthState) (now : ℚ) : ℚ :=
  max (now - state.lastRefill) 0

/-- The balance together with what accrued since the last refill. -/
def accrued (state : BandwidthState) (bytesPerSecond : Nat) (now : ℚ) : ℚ :=
  state.tokens + state.elapsed now * bytesPerSecond

def refill (state : BandwidthState) (bytesPerSecond bytes : Nat) (now : ℚ) :
    ℚ :=
  min (state.accrued bytesPerSecond now) (max bytesPerSecond bytes)

/-- `reserve_wait_duration`: the new state, and how long to sleep where the
request was refused.  A rate of zero is no limit and leaves the state. -/
def reserveWaitDuration (state : BandwidthState) (bytesPerSecond bytes : Nat)
    (now : ℚ) : BandwidthState × Option ℚ :=
  if bytesPerSecond = 0 then (state, none)
  else
    let tokens := state.refill bytesPerSecond bytes now
    if henough : (bytes : ℚ) ≤ tokens then
      (⟨tokens - bytes, now, sub_nonneg.2 henough⟩, none)
    else (⟨0, now, le_rfl⟩, some ((bytes - tokens) / bytesPerSecond))

variable {state : BandwidthState} {bytesPerSecond bytes : Nat} {now : ℚ}

theorem accrued_nonneg : 0 ≤ state.accrued bytesPerSecond now :=
  add_nonneg state.nonneg (mul_nonneg (le_max_right _ _) (Nat.cast_nonneg bytesPerSecond))

theorem le_refill_iff : (bytes : ℚ) ≤ state.refill bytesPerSecond bytes now ↔
      (bytes : ℚ) ≤ state.accrued bytesPerSecond now := by
  rw [refill, le_min_iff, and_iff_left (le_max_right _ _)]

/-- A refused request sees everything that accrued: the cap is at least the
request. -/
theorem refill_of_lt (hrefused : state.accrued bytesPerSecond now < (bytes : ℚ)) :
    state.refill bytesPerSecond bytes now = state.accrued bytesPerSecond now :=
  min_eq_left (hrefused.le.trans (le_max_right _ _))

theorem reserve_of_le (hrate : 0 < bytesPerSecond)
    (henough : (bytes : ℚ) ≤ state.accrued bytesPerSecond now) :
    state.reserveWaitDuration bytesPerSecond bytes now =
      (⟨state.refill bytesPerSecond bytes now - bytes, now,
        sub_nonneg.2 (le_refill_iff.2 henough)⟩, none) := by
  rw [reserveWaitDuration, if_neg hrate.ne']
  exact dif_pos (le_refill_iff.2 henough)

theorem reserve_of_lt (hrate : 0 < bytesPerSecond)
    (hrefused : state.accrued bytesPerSecond now < (bytes : ℚ)) :
    state.reserveWaitDuration bytesPerSecond bytes now = (⟨0, now, le_rfl⟩,
        some ((bytes - state.accrued bytesPerSecond now) / bytesPerSecond)) := by
  rw [reserveWaitDuration, if_neg hrate.ne', dif_neg, refill_of_lt hrefused]
  exact fun henough => absurd (le_refill_iff.1 henough) (not_le.2 hrefused)

/-- A limiter emptied at `since` has accrued exactly the bytes of a sleep that
was computed from them. -/
theorem accrued_after_sleep (hrate : 0 < bytesPerSecond) (since missing : ℚ)
    (hmissing : 0 ≤ missing) : BandwidthState.accrued ⟨0, since, le_rfl⟩ bytesPerSecond
      (since + missing / bytesPerSecond) = missing := by
  have hpos : (0 : ℚ) < bytesPerSecond := Nat.cast_pos.2 hrate
  have hsleep : 0 ≤ missing / (bytesPerSecond : ℚ) := div_nonneg hmissing hpos.le
  rw [accrued, elapsed, add_sub_cancel_left, max_eq_left hsleep, zero_add,
    div_mul_cancel₀ _ hpos.ne']

end BandwidthState

/-- A waiter inside `wait_for`: the limiter's state as its last call left it,
the time, and what the waiter has done so far. -/
structure Waiter where
  state : BandwidthState
  now : ℚ
  calls : Nat := 0
  slept : ℚ := 0

namespace Waiter

/-- One turn of the loop of `wait_for` and `wait_for_async` for a request of
at least one byte, each sleep lasting exactly what was asked for. -/
def waitTurn (revoked : Bool) (bytesPerSecond bytes : Nat) (waiter : Waiter) :
    Loop.Turn Waiter (Bool × Waiter) :=
  if revoked then .stop (false, waiter)
  else
    match waiter.state.reserveWaitDuration bytesPerSecond bytes waiter.now with
    | (state, none) => .stop (!revoked, { waiter with state, calls := waiter.calls + 1 })
    | (state, some duration) =>
      .again {
        state
        now := waiter.now + duration
        calls := waiter.calls + 1
        slept := waiter.slept + duration }

/-- `wait_for`, which answers an empty request from the flag alone. -/
def WaitsFor (revoked : Bool) (bytesPerSecond bytes : Nat) (waiter : Waiter)
    (result : Bool × Waiter) : Prop :=
  if bytes = 0 then result = (!revoked, waiter)
  else Loop.Returns (waitTurn revoked bytesPerSecond bytes) waiter result

variable {waiter : Waiter} {bytesPerSecond bytes : Nat}

theorem waitTurn_of_le (hrate : 0 < bytesPerSecond)
    (henough : (bytes : ℚ) ≤ waiter.state.accrued bytesPerSecond waiter.now) :
    ∃ state, waitTurn false bytesPerSecond bytes waiter =
      .stop (true, { waiter with state, calls := waiter.calls + 1 }) := by
  rw [waitTurn, BandwidthState.reserve_of_le hrate henough]
  exact ⟨_, rfl⟩

theorem waitTurn_of_lt (hrate : 0 < bytesPerSecond)
    (hrefused : waiter.state.accrued bytesPerSecond waiter.now < (bytes : ℚ)) :
    waitTurn false bytesPerSecond bytes waiter = .again {
        state := ⟨0, waiter.now, le_rfl⟩
        now := waiter.now + (bytes - waiter.state.accrued bytesPerSecond waiter.now) /
            bytesPerSecond
        calls := waiter.calls + 1
        slept := waiter.slept + (bytes - waiter.state.accrued bytesPerSecond waiter.now) /
            bytesPerSecond } := by simp [waitTurn, BandwidthState.reserve_of_lt hrate hrefused]

/-- A waiter that finds part of its request finds the other part after the
sleep, and so on for ever. -/
theorem not_returns_of_partial (hrate : 0 < bytesPerSecond)
    (hsome : 0 < waiter.state.accrued bytesPerSecond waiter.now)
    (hfew : waiter.state.accrued bytesPerSecond waiter.now < (bytes : ℚ)) (result : Bool × Waiter) :
    ¬ Loop.Returns (waitTurn false bytesPerSecond bytes) waiter result := by
  refine @Loop.not_returns_of_invariant _ _ (waitTurn false bytesPerSecond bytes)
    (fun waiter => 0 < waiter.state.accrued bytesPerSecond waiter.now ∧
      waiter.state.accrued bytesPerSecond waiter.now < (bytes : ℚ))
    (fun waiter hpart => ?_) waiter ⟨hsome, hfew⟩ result
  refine ⟨_, waitTurn_of_lt hrate hpart.2, ?_⟩
  rw [BandwidthState.accrued_after_sleep hrate _ _ (sub_nonneg.2 hpart.2.le)]
  exact ⟨sub_pos.2 hpart.2, sub_lt_self _ hpart.1⟩

/-- The waits the limiter is meant for: at most two calls and the time the
request takes at the limiter's rate. -/
def Prompt (bytesPerSecond bytes : Nat) (waiter : Waiter) : Prop :=
  ∃ last, WaitsFor false bytesPerSecond bytes waiter (true, last) ∧ last.calls ≤ waiter.calls + 2 ∧
    last.slept ≤ waiter.slept + bytes / bytesPerSecond

theorem prompt_of_le (hrate : 0 < bytesPerSecond) (hbytes : 1 ≤ bytes)
    (henough : (bytes : ℚ) ≤ waiter.state.accrued bytesPerSecond waiter.now) :
    waiter.Prompt bytesPerSecond bytes := by
  obtain ⟨state, hturn⟩ := waitTurn_of_le hrate henough
  refine ⟨{ waiter with state, calls := waiter.calls + 1 }, ?_, Nat.add_le_add_left one_le_two _,
    le_add_of_nonneg_right (div_nonneg (Nat.cast_nonneg _) (Nat.cast_nonneg _))⟩
  rw [WaitsFor, if_neg (Nat.one_le_iff_ne_zero.1 hbytes)]
  exact Loop.returns_of_stop hturn

/-- An empty limiter makes the waiter sleep for the whole request, and then
has all of it. -/
theorem prompt_of_empty (hrate : 0 < bytesPerSecond) (hbytes : 1 ≤ bytes)
    (hempty : waiter.state.accrued bytesPerSecond waiter.now = 0) :
    waiter.Prompt bytesPerSecond bytes := by
  have hpos : (0 : ℚ) < bytes := Nat.cast_pos.2 hbytes
  have hfirst := waitTurn_of_lt hrate (hempty.trans_lt hpos)
  rw [hempty, sub_zero] at hfirst
  have hslept := BandwidthState.accrued_after_sleep hrate waiter.now _ hpos.le
  obtain ⟨state, hsecond⟩ := @waitTurn_of_le ⟨⟨0, waiter.now, le_rfl⟩,
    waiter.now + bytes / bytesPerSecond, waiter.calls + 1,
    waiter.slept + bytes / bytesPerSecond⟩ _ _ hrate hslept.ge
  refine ⟨⟨state, waiter.now + bytes / bytesPerSecond, waiter.calls + 2,
    waiter.slept + bytes / bytesPerSecond⟩, ?_, le_rfl, le_rfl⟩
  rw [WaitsFor, if_neg (Nat.one_le_iff_ne_zero.1 hbytes), Loop.returns_again hfirst]
  exact Loop.returns_of_stop hsecond

theorem prompt_iff (hrate : 0 < bytesPerSecond) (hbytes : 1 ≤ bytes) :
    waiter.Prompt bytesPerSecond bytes ↔ waiter.state.accrued bytesPerSecond waiter.now = 0 ∨
        (bytes : ℚ) ≤ waiter.state.accrued bytesPerSecond waiter.now := by
  constructor
  · rintro ⟨last, hwaits, -, -⟩
    rw [WaitsFor, if_neg (Nat.one_le_iff_ne_zero.1 hbytes)] at hwaits
    by_contra hpart
    rw [not_or, not_le] at hpart
    have hsome : 0 < waiter.state.accrued bytesPerSecond waiter.now :=
      lt_of_le_of_ne BandwidthState.accrued_nonneg (Ne.symm hpart.1)
    exact not_returns_of_partial hrate hsome hpart.2 _ hwaits
  · rintro (hempty | henough)
    · exact prompt_of_empty hrate hbytes hempty
    · exact prompt_of_le hrate hbytes henough

end Waiter

/-- One call of `reserve_wait_duration`, by whichever waiter. -/
structure ReserveCall where
  now : ℚ
  bytes : Nat

namespace BandwidthState

/-- The calls in the order in which they take the limiter's lock. -/
def bookings (bytesPerSecond : Nat) : BandwidthState → List ReserveCall → List (Allowance.Booking ℚ)
  | _, [] => []
  | state, call :: calls =>
    match state.reserveWaitDuration bytesPerSecond call.bytes call.now with
    | (after, none) => ⟨call.now, call.bytes, after.tokens⟩ :: bookings bytesPerSecond after calls
    | (after, some _) => ⟨call.now, 0, after.tokens⟩ :: bookings bytesPerSecond after calls

def admittedWithin (state : BandwidthState) (bytesPerSecond : Nat)
    (calls : List ReserveCall) (first last : ℚ) : ℚ :=
  Allowance.spentWithin first last (state.bookings bytesPerSecond calls)

/-- The limiter's clock does not run backwards, so each call can pay for what
it admits. -/
theorem bookings_affordable {bytesPerSecond largest : Nat}
    (hrate : 0 < bytesPerSecond) (state : BandwidthState) (calls : List ReserveCall)
    (horder : (state.lastRefill :: calls.map (·.now)).Pairwise (· ≤ ·))
    (hlargest : ∀ call ∈ calls, call.bytes ≤ largest) : Allowance.Affordable (bytesPerSecond : ℚ)
      (max (bytesPerSecond : ℚ) largest) state.lastRefill state.tokens
      (state.bookings bytesPerSecond calls) := by
  induction calls generalizing state with
  | nil => trivial
  | cons call calls ih =>
    rw [map_cons, pairwise_cons] at horder
    have hnow : state.lastRefill ≤ call.now := horder.1 call.now mem_cons_self
    have hcap : state.refill bytesPerSecond call.bytes call.now ≤
        max (bytesPerSecond : ℚ) largest :=
      (min_le_right _ _).trans (max_le_max le_rfl (Nat.cast_le.2 (hlargest call mem_cons_self)))
    have hpaid : state.refill bytesPerSecond call.bytes call.now ≤
        state.tokens + (call.now - state.lastRefill) * bytesPerSecond := by
      refine (min_le_left _ _).trans_eq ?_
      rw [accrued, elapsed, max_eq_left (sub_nonneg.2 hnow)]
    have hrest := fun call' hmem => hlargest call' (mem_cons_of_mem call hmem)
    rcases le_or_gt (call.bytes : ℚ) (state.accrued bytesPerSecond call.now) with henough | hrefused
    · rw [bookings, reserve_of_le hrate henough]
      have htail := ih ⟨_, call.now, sub_nonneg.2 (le_refill_iff.2 henough)⟩ horder.2 hrest
      refine ⟨hnow, ?_, ?_, sub_nonneg.2 (le_refill_iff.2 henough), htail⟩
      · rwa [add_sub_cancel]
      · rwa [add_sub_cancel]
    · rw [bookings, reserve_of_lt hrate hrefused]
      have hkept : 0 ≤ state.refill bytesPerSecond call.bytes call.now := by
        rw [refill_of_lt hrefused]
        exact accrued_nonneg
      have htail := ih ⟨0, call.now, le_rfl⟩ horder.2 hrest
      refine ⟨hnow, ?_, ?_, le_rfl, htail⟩
      · rw [add_zero]
        exact hkept.trans hpaid
      · rw [add_zero]
        exact hkept.trans hcap

end BandwidthState

open BandwidthState

/-- A single waiter is served promptly exactly where it finds nothing or its
whole request in the limiter; and no interval sees more bytes admitted than
the rate gives in it and the larger of the rate and the largest request. -/
theorem BandwidthState.prompt_iff_and_admitted_le {bytesPerSecond : Nat}
    (hrate : 0 < bytesPerSecond) : (∀ (state : BandwidthState) (now : ℚ) (bytes : Nat), 1 ≤ bytes →
      (Waiter.Prompt bytesPerSecond bytes { state, now } ↔ state.accrued bytesPerSecond now = 0 ∨
          (bytes : ℚ) ≤ state.accrued bytesPerSecond now)) ∧
    ∀ (state : BandwidthState) (calls : List ReserveCall) (largest : Nat) (first last : ℚ),
      (state.lastRefill :: calls.map (·.now)).Pairwise (· ≤ ·) →
      (∀ call ∈ calls, call.bytes ≤ largest) → first ≤ last →
      state.admittedWithin bytesPerSecond calls first last ≤
        (last - first) * bytesPerSecond + max (bytesPerSecond : ℚ) largest :=
  ⟨fun _ _ _ hbytes => Waiter.prompt_iff hrate hbytes, fun _ _ _ _ _ horder hlargest hinterval =>
      Allowance.spentWithin_le (Nat.cast_nonneg _) ((Nat.cast_nonneg _).trans (le_max_left _ _))
        (bookings_affordable hrate _ _ horder hlargest) hinterval⟩

theorem BandwidthState.new_limiter_prompt : Waiter.Prompt 100 100 { state := .new 0, now := 0 } ∧
    BandwidthState.admittedWithin (.new 0) 100 [⟨1, 100⟩, ⟨2, 100⟩] 1 2 ≤
      (2 - 1) * (100 : Nat) + max ((100 : Nat) : ℚ) (100 : Nat) :=
  ⟨((prompt_iff_and_admitted_le (by decide)).1 (.new 0) 0 100 (by decide)).2
        (.inl (by simp [accrued, elapsed, new])),
    (prompt_iff_and_admitted_le (by decide)).2 (.new 0)
      [⟨1, 100⟩, ⟨2, 100⟩] 100 1 2 (by simp [new]) (by simp) (by norm_num)⟩

/-- A new limiter of 100 bytes a second, asked for 100 bytes after 0.7
seconds: it offers 70, then 30, then 70, and the waiter never gets through. -/
theorem BandwidthState.waiter_never_served :
    ¬ ∃ result, Waiter.WaitsFor false 100 100 { state := .new 0, now := 7 / 10 } result := by
  rintro ⟨result, hwaits⟩
  refine Waiter.not_returns_of_partial (by decide) ?_ ?_ result hwaits
  · norm_num [accrued, elapsed, new]
  · norm_num [accrued, elapsed, new]

end KeliCore
